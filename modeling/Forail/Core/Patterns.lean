import Forail.Core.Texts

/-!
# Searching for patterns

Regular expressions that are sequences of repeated classes of characters.  A match is searched
from left to right, the repetitions take as many characters as they can and give back one at a
time when the rest of the pattern does not follow.
-/

namespace Forail.Patterns

open Forail.Texts

/-- A class of characters with the bounds of its repetition, none standing for no upper one. -/
structure Piece where
  accepts : Char → Bool
  least : ℕ
  most : Option ℕ

abbrev Pattern := List Piece

def literal (text : Text) : Pattern := text.map fun char => ⟨fun other => other == char, 1, some 1⟩

/-- A repetition with what follows it, as the text behind the match. -/
def repeatFrom (accepts : Char → Bool) (next : Text → Option Text) :
    ℕ → Option ℕ → Text → Option Text
  | least, _, [] => if least = 0 then next [] else none
  | least, most, char :: text =>
      let stopped := if least = 0 then next (char :: text) else none
      if accepts char ∧ most ≠ some 0 then
        (repeatFrom accepts next (least - 1) (most.map fun bound => bound - 1) text).or stopped
      else stopped

/-- A match at the beginning of a text, as the text behind it. -/
def matchAt : Pattern → Text → Option Text
  | [], text => some text
  | piece :: pattern, text =>
      repeatFrom piece.accepts (matchAt pattern) piece.least piece.most text

/-- The first match in a text, with what stands before and behind it. -/
def search (pattern : Pattern) : Text → Option (Text × Text × Text)
  | [] => (matchAt pattern []).map fun after => ([], [], after)
  | char :: text =>
      match matchAt pattern (char :: text) with
      | some after =>
          some ([], (char :: text).take ((char :: text).length - after.length), after)
      | none => (search pattern text).map fun found => (char :: found.1, found.2)

structure Repeats (accepts : Char → Bool) (least : ℕ) (most : Option ℕ) (word : Text) : Prop where
  accepted : ∀ char ∈ word, accepts char
  least_le : least ≤ word.length
  le_most : ∀ bound, most = some bound → word.length ≤ bound

def Matches : Pattern → Text → Prop
  | [], word => word = []
  | piece :: pattern, word =>
      ∃ first rest, word = first ++ rest ∧
        Repeats piece.accepts piece.least piece.most first ∧ Matches pattern rest

variable {accepts : Char → Bool} {next : Text → Option Text} {least : ℕ} {most : Option ℕ}
  {text word after : Text} {char : Char} {pattern other : Pattern}

theorem repeats_nil : Repeats accepts least most [] ↔ least = 0 := by
  constructor
  · intro h
    exact Nat.le_zero.mp h.least_le
  · rintro rfl
    exact ⟨fun _ hmem => absurd hmem List.not_mem_nil, Nat.le_refl 0, fun bound _ =>
      Nat.zero_le bound⟩

theorem repeats_cons :
    Repeats accepts least most (char :: word) ↔
      accepts char ∧ most ≠ some 0 ∧
        Repeats accepts (least - 1) (most.map fun bound => bound - 1) word := by
  constructor
  · intro h
    have hlength := h.least_le
    rw [List.length_cons] at hlength
    refine ⟨h.accepted char List.mem_cons_self, fun hzero => ?_, ⟨fun other hother => ?_, ?_, ?_⟩⟩
    · exact absurd (h.le_most 0 hzero) (by simp)
    · exact h.accepted other (List.mem_cons_of_mem char hother)
    · omega
    · intro bound hbound
      obtain ⟨most, rfl, rfl⟩ := Option.map_eq_some_iff.mp hbound
      have hmost := h.le_most most rfl
      rw [List.length_cons] at hmost
      omega
  · rintro ⟨hchar, hzero, hword⟩
    refine ⟨List.forall_mem_cons.mpr ⟨hchar, hword.accepted⟩, ?_, fun bound hbound => ?_⟩
    · have hlength := hword.least_le
      rw [List.length_cons]
      omega
    · have hmost := hword.le_most (bound - 1) (by rw [hbound, Option.map_some])
      have hpos : bound ≠ 0 := fun h => hzero (hbound.trans (congrArg some h))
      rw [List.length_cons]
      omega

section Repetitions

variable {Next : Text → Prop}

theorem stopped_sound
    (hnext : ∀ {text after}, next text = some after → ∃ word, Next word ∧ text = word ++ after)
    (hstopped : (if least = 0 then next text else none) = some after) :
    ∃ first rest, Repeats accepts least most first ∧ Next rest ∧ text = first ++ rest ++ after := by
  by_cases hleast : least = 0
  · rw [if_pos hleast] at hstopped
    obtain ⟨word, hword, htext⟩ := hnext hstopped
    exact ⟨[], word, repeats_nil.mpr hleast, hword, htext⟩
  · rw [if_neg hleast] at hstopped
    contradiction

theorem repeatFrom_sound
    (hnext : ∀ {text after}, next text = some after → ∃ word, Next word ∧ text = word ++ after)
    (hfound : repeatFrom accepts next least most text = some after) :
    ∃ first rest, Repeats accepts least most first ∧ Next rest ∧ text = first ++ rest ++ after := by
  induction text generalizing least most with
  | nil => exact stopped_sound hnext hfound
  | cons char text ih =>
    rw [repeatFrom] at hfound
    split at hfound
    · rename_i haccepts
      obtain hfound | ⟨-, hfound⟩ := Option.or_eq_some_iff.mp hfound
      · obtain ⟨first, rest, hfirst, hrest, htext⟩ := ih hfound
        exact ⟨char :: first, rest, repeats_cons.mpr ⟨haccepts.1, haccepts.2, hfirst⟩, hrest,
          congrArg (char :: ·) htext⟩
      · exact stopped_sound hnext hfound
    · exact stopped_sound hnext hfound

theorem repeatFrom_complete (hword : Repeats accepts least most word)
    (hnext : (next text).isSome) :
    (repeatFrom accepts next least most (word ++ text)).isSome := by
  induction word generalizing least most with
  | nil =>
    have hleast : least = 0 := repeats_nil.mp hword
    cases text with
    | nil =>
      rw [List.append_nil, repeatFrom, if_pos hleast]
      exact hnext
    | cons char text =>
      rw [List.nil_append, repeatFrom, if_pos hleast]
      split
      · rw [Option.isSome_or, hnext, Bool.or_true]
      · exact hnext
  | cons char word ih =>
    obtain ⟨hchar, hmost, hword⟩ := repeats_cons.mp hword
    rw [List.cons_append, repeatFrom, if_pos ⟨hchar, hmost⟩, Option.isSome_or, ih hword,
      Bool.true_or]

end Repetitions

theorem matchAt_sound (hfound : matchAt pattern text = some after) :
    ∃ word, Matches pattern word ∧ text = word ++ after := by
  induction pattern generalizing text after with
  | nil => exact ⟨[], rfl, Option.some.inj hfound⟩
  | cons piece pattern ih =>
    obtain ⟨first, rest, hfirst, hrest, htext⟩ := repeatFrom_sound (fun h => ih h) hfound
    exact ⟨first ++ rest, ⟨first, rest, rfl, hfirst, hrest⟩, htext⟩

theorem matchAt_complete (hword : Matches pattern word) :
    (matchAt pattern (word ++ text)).isSome := by
  induction pattern generalizing word with
  | nil => exact rfl
  | cons piece pattern ih =>
    obtain ⟨first, rest, rfl, hfirst, hrest⟩ := hword
    rw [List.append_assoc]
    exact repeatFrom_complete hfirst (ih hrest)

theorem search_isSome :
    (search pattern text).isSome ↔
      ∃ before word after, text = before ++ word ++ after ∧ Matches pattern word := by
  constructor
  · intro hsome
    induction text with
    | nil =>
      rw [search, Option.isSome_map, Option.isSome_iff_exists] at hsome
      obtain ⟨after, hfound⟩ := hsome
      obtain ⟨word, hword, htext⟩ := matchAt_sound hfound
      exact ⟨[], word, after, htext, hword⟩
    | cons char text ih =>
      rw [search] at hsome
      split at hsome
      · rename_i after hfound
        obtain ⟨word, hword, htext⟩ := matchAt_sound hfound
        exact ⟨[], word, after, htext, hword⟩
      · rw [Option.isSome_map] at hsome
        obtain ⟨before, word, after, rfl, hword⟩ := ih hsome
        exact ⟨char :: before, word, after, rfl, hword⟩
  · rintro ⟨before, word, after, rfl, hword⟩
    have hhere : (matchAt pattern (word ++ after)).isSome := matchAt_complete hword
    induction before with
    | nil =>
      rw [List.nil_append]
      cases htext : word ++ after with
      | nil =>
        rw [htext] at hhere
        rw [search, Option.isSome_map, hhere]
      | cons char text =>
        rw [htext] at hhere
        obtain ⟨rest, hrest⟩ := Option.isSome_iff_exists.mp hhere
        rw [search, hrest]
        rfl
    | cons char before ih =>
      rw [List.cons_append, List.cons_append, search]
      split
      · rfl
      · rw [Option.isSome_map, ih]

theorem matches_append :
    Matches (pattern ++ other) word ↔
      ∃ first rest, word = first ++ rest ∧ Matches pattern first ∧ Matches other rest := by
  induction pattern generalizing word with
  | nil =>
    constructor
    · intro hword
      exact ⟨[], word, rfl, rfl, hword⟩
    · rintro ⟨first, rest, rfl, rfl, hrest⟩
      exact hrest
  | cons piece pattern ih =>
    constructor
    · rintro ⟨first, rest, rfl, hfirst, hrest⟩
      obtain ⟨second, third, rfl, hsecond, hthird⟩ := ih.mp hrest
      exact ⟨first ++ second, third, (List.append_assoc ..).symm,
        ⟨first, second, rfl, hfirst, hsecond⟩, hthird⟩
    · rintro ⟨first, rest, rfl, ⟨second, third, rfl, hsecond, hthird⟩, hrest⟩
      exact ⟨second, third ++ rest, List.append_assoc .., hsecond,
        ih.mpr ⟨third, rest, rfl, hthird, hrest⟩⟩

theorem matches_literal : Matches (literal text) word ↔ word = text := by
  induction text generalizing word with
  | nil => exact Iff.rfl
  | cons char text ih =>
    constructor
    · rintro ⟨first, rest, rfl, hfirst, hrest⟩
      obtain ⟨other, rfl⟩ := List.length_eq_one_iff.mp
        (Nat.le_antisymm (hfirst.le_most 1 rfl) hfirst.least_le)
      have hsame := eq_of_beq (hfirst.accepted other (List.mem_singleton_self other))
      rw [hsame, ih.mp hrest, List.singleton_append]
    · rintro rfl
      refine ⟨[char], text, rfl, ⟨fun other hother => ?_, Nat.le_refl 1, ?_⟩, ih.mpr rfl⟩
      · exact beq_iff_eq.mpr (List.mem_singleton.mp hother)
      · intro bound hbound
        exact (Option.some.inj hbound).le

theorem matches_between {opening closing : Text} :
    Matches (literal opening ++ ⟨accepts, least, most⟩ :: literal closing) word ↔
      ∃ inner, word = opening ++ inner ++ closing ∧ Repeats accepts least most inner := by
  rw [matches_append]
  constructor
  · rintro ⟨first, rest, rfl, hfirst, inner, last, rfl, hinner, hlast⟩
    rw [matches_literal.mp hfirst, matches_literal.mp hlast]
    exact ⟨inner, (List.append_assoc ..).symm, hinner⟩
  · rintro ⟨inner, rfl, hinner⟩
    exact ⟨opening, inner ++ closing, List.append_assoc .., matches_literal.mpr rfl,
      inner, closing, rfl, hinner, matches_literal.mpr rfl⟩

end Forail.Patterns
