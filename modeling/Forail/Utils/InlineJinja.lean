import Forail.Core.Patterns

/-!
# Inline Jinja

`sanitize_jinja` refuses the texts in which one of two patterns is found.  Both patterns leave
out the first character of the closing delimiter between the delimiters, so an expression with
a dictionary or a statement with a remainder is not found.
-/

namespace Forail.InlineJinja

open Forail.Patterns Forail.Texts

/-- The delimiters of an expression or a statement, the closing one split after its first
character. -/
structure Delimiters where
  opening : Text
  stop : Char
  last : Char

def expressions : Delimiters := ⟨['{', '{'], '}', '}'⟩

def statements : Delimiters := ⟨['{', '%'], '%', '}'⟩

def Delimiters.closing (delimiters : Delimiters) : Text := [delimiters.stop, delimiters.last]

def Delimiters.pattern (delimiters : Delimiters) : Pattern :=
  literal delimiters.opening ++
    ⟨fun char => char != delimiters.stop, 1, none⟩ :: literal delimiters.closing

/-- An argument, which is checked if it is a text. -/
inductive Argument (Other : Type*) where
  | str (text : Text)
  | other (value : Other)

def message : String := "Inline Jinja variables are not allowed."

def sanitizeJinja {Other : Type*} : Argument Other → Except String (Argument Other)
  | .str arg =>
      if (search expressions.pattern arg).isSome then .error message
      else if (search statements.pattern arg).isSome then .error message
      else .ok (.str arg)
  | .other value => .ok (.other value)

def cleanName (name : Text) : Except String Text :=
  match sanitizeJinja (.str name : Argument Empty) with
  | .error raised => .error (raised ++ ": " ++ String.ofList name)
  | .ok _ => .ok name

inductive AllowJinja
  | always
  | template
  | never
  deriving DecidableEq

def buildModuleArgs (allowJinja : AllowJinja) (moduleArgs : Text) : Except String Text :=
  if allowJinja ≠ .always then
    match sanitizeJinja (.str moduleArgs : Argument Empty) with
    | .error raised => .error raised
    | .ok _ => .ok moduleArgs
  else .ok moduleArgs

def Delimiters.Enclose (delimiters : Delimiters) (text : Text) : Prop :=
  ∃ before inner after,
    text = before ++ delimiters.opening ++ inner ++ delimiters.closing ++ after

/-- The same with something between them that has no first character of the closing one. -/
def Delimiters.EnclosePlain (delimiters : Delimiters) (text : Text) : Prop :=
  ∃ before inner after,
    text = before ++ delimiters.opening ++ inner ++ delimiters.closing ++ after ∧
      inner ≠ [] ∧ delimiters.stop ∉ inner

def Inline (text : Text) : Prop := expressions.Enclose text ∨ statements.Enclose text

def InlinePlain (text : Text) : Prop := expressions.EnclosePlain text ∨ statements.EnclosePlain text

variable {delimiters : Delimiters} {text : Text}

theorem search_pattern :
    (search delimiters.pattern text).isSome ↔ delimiters.EnclosePlain text := by
  rw [search_isSome]
  constructor
  · rintro ⟨before, word, after, rfl, hword⟩
    obtain ⟨inner, rfl, hinner⟩ := matches_between.mp hword
    refine ⟨before, inner, after, by simp only [List.append_assoc], ?_, fun hstop => ?_⟩
    · exact List.length_pos_iff.mp hinner.least_le
    · exact absurd rfl (bne_iff_ne.mp (hinner.accepted _ hstop))
  · rintro ⟨before, inner, after, rfl, hne, hstop⟩
    refine ⟨before, delimiters.opening ++ inner ++ delimiters.closing, after,
      by simp only [List.append_assoc], matches_between.mpr ⟨inner, rfl, ?_, ?_, ?_⟩⟩
    · exact fun char hchar => bne_iff_ne.mpr fun h => hstop (h ▸ hchar)
    · exact List.length_pos_iff.mpr hne
    · exact fun bound hbound => absurd hbound.symm (Option.some_ne_none bound)

theorem sanitizeJinja_error (Other : Type*) :
    (∃ raised, sanitizeJinja (.str text : Argument Other) = .error raised) ↔ InlinePlain text := by
  rw [InlinePlain, ← search_pattern, ← search_pattern, sanitizeJinja]
  split
  · rename_i hexpressions
    exact ⟨fun _ => .inl hexpressions, fun _ => ⟨message, rfl⟩⟩
  · rename_i hexpressions
    split
    · rename_i hstatements
      exact ⟨fun _ => .inr hstatements, fun _ => ⟨message, rfl⟩⟩
    · rename_i hstatements
      have hneither := not_or.mpr ⟨hexpressions, hstatements⟩
      exact ⟨fun ⟨raised, hraised⟩ => absurd hraised (by simp), fun h => absurd h hneither⟩

theorem cleanName_error :
    (∃ raised, cleanName text = .error raised) ↔ InlinePlain text := by
  rw [← sanitizeJinja_error Empty, cleanName]
  cases sanitizeJinja (.str text : Argument Empty) with
  | error raised => exact ⟨fun _ => ⟨raised, rfl⟩, fun _ => ⟨_, rfl⟩⟩
  | ok arg => simp

theorem buildModuleArgs_error {allowJinja : AllowJinja} (hallow : allowJinja ≠ .always) :
    (∃ raised, buildModuleArgs allowJinja text = .error raised) ↔ InlinePlain text := by
  rw [← sanitizeJinja_error Empty, buildModuleArgs, if_pos hallow]
  cases sanitizeJinja (.str text : Argument Empty) with
  | error raised => exact ⟨fun _ => ⟨raised, rfl⟩, fun _ => ⟨_, rfl⟩⟩
  | ok arg => simp

theorem sanitizeJinja_dictionary :
    ¬ ∀ text : Text, Inline text →
      ∃ raised, sanitizeJinja (.str text : Argument Empty) = .error raised := by
  intro hraises
  have hinline : Inline "{{ {} }}".toList :=
    .inl ⟨[], " {} ".toList, [], by decide⟩
  obtain ⟨raised, hraised⟩ := hraises "{{ {} }}".toList hinline
  have haccepted : sanitizeJinja (.str "{{ {} }}".toList : Argument Empty) =
      .ok (.str "{{ {} }}".toList) := rfl
  rw [haccepted] at hraised
  contradiction

/-- Jinja in a text, in a host name and in the arguments of a module is refused exactly when
there is none or some opening delimiter has its closing one where the first character of it
stands first. -/
theorem sanitizeJinja_complete_iff (Other : Type*) (text : Text) (allowJinja : AllowJinja) :
    ((Inline text → ∃ raised, sanitizeJinja (.str text : Argument Other) = .error raised) ↔
      ¬ Inline text ∨ InlinePlain text) ∧
    ((Inline text → ∃ raised, cleanName text = .error raised) ↔
      ¬ Inline text ∨ InlinePlain text) ∧
    (allowJinja ≠ .always →
      ((Inline text → ∃ raised, buildModuleArgs allowJinja text = .error raised) ↔
        ¬ Inline text ∨ InlinePlain text)) := by
  rw [sanitizeJinja_error Other, cleanName_error]
  refine ⟨imp_iff_not_or, imp_iff_not_or, fun hallow => ?_⟩
  rw [buildModuleArgs_error hallow]
  exact imp_iff_not_or

end Forail.InlineJinja
