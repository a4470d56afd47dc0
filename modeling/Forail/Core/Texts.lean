import Mathlib.Data.List.Basic
import Mathlib.Data.List.Infix
import Mathlib.Data.Nat.Basic

/-!
# Texts as lists of characters

Replacing a part of a text, splitting it at a separator, and the texts that are
numbers.  The pieces of a joined text come back from a split whenever no separator
begins inside of a piece.
-/

namespace Forail.Texts

abbrev Text := List Char

/-- `text.replace(old, new)`, with the number of characters that are still to be left
out. -/
def replaceFrom (old new : Text) : ℕ → Text → Text
  | _, [] => []
  | skip + 1, _ :: text => replaceFrom old new skip text
  | 0, char :: text =>
      if old.isPrefixOf (char :: text) then new ++ replaceFrom old new (old.length - 1) text
      else char :: replaceFrom old new 0 text

def replace (old new text : Text) : Text := replaceFrom old new 0 text

/-- `text.split(sep)`, with the number of characters that are still to be left out. -/
def splitFrom (sep : Text) : ℕ → Text → List Text
  | _, [] => [[]]
  | skip + 1, _ :: text => splitFrom sep skip text
  | 0, char :: text =>
      if sep.isPrefixOf (char :: text) then [] :: splitFrom sep (sep.length - 1) text
      else (splitFrom sep 0 text).modifyHead (char :: ·)

def split (sep text : Text) : List Text := splitFrom sep 0 text

/-- The characters that end a line, of which the first two together end one line. -/
def lineBreaks : Text :=
  [0xD, 0xA, 0xB, 0xC, 0x1C, 0x1D, 0x1E, 0x85, 0x2028, 0x2029].map Char.ofNat

/-- The lines of a text that continues `line`. -/
def linesFrom (line : Text) : Text → List Text
  | [] => if line = [] then [] else [line]
  | char :: text =>
      if char ∈ lineBreaks then line :: linesFrom [] text else linesFrom (line ++ [char]) text

def splitlines (text : Text) : List Text :=
  linesFrom [] (replace (lineBreaks.take 2) ((lineBreaks.drop 1).take 1) text)

/-! ## Texts that are numbers -/

/-- The zeros of the scripts that have decimal digits, which follow one another. -/
def decimalZeros : List ℕ :=
  [0x30, 0x660, 0x6F0, 0x7C0, 0x966, 0x9E6, 0xA66, 0xAE6, 0xB66, 0xBE6, 0xC66, 0xCE6, 0xD66,
    0xDE6, 0xE50, 0xED0, 0xF20, 0x1040, 0x1090, 0x17E0, 0x1810, 0x1946, 0x19D0, 0x1A80, 0x1A90,
    0x1B50, 0x1BB0, 0x1C40, 0x1C50, 0xA620, 0xA8D0, 0xA900, 0xA9D0, 0xA9F0, 0xAA50, 0xABF0,
    0xFF10, 0x104A0, 0x10D30, 0x11066, 0x110F0, 0x11136, 0x111D0, 0x112F0, 0x11450, 0x114D0,
    0x11650, 0x116C0, 0x11730, 0x118E0, 0x11950, 0x11C50, 0x11D50, 0x11DA0, 0x11F50, 0x16A60,
    0x16AC0, 0x16B50, 0x1D7CE, 0x1D7D8, 0x1D7E2, 0x1D7EC, 0x1D7F6, 0x1E140, 0x1E2F0, 0x1E4F0,
    0x1E950, 0x1FBF0]

/-- The ranges of the digits that are not decimal, such as superscripts. -/
def otherDigits : List (ℕ × ℕ) :=
  [(0xB2, 0xB3), (0xB9, 0xB9), (0x1369, 0x1371), (0x19DA, 0x19DA), (0x2070, 0x2070),
    (0x2074, 0x2079), (0x2080, 0x2089), (0x2460, 0x2468), (0x2474, 0x247C), (0x2488, 0x2490),
    (0x24EA, 0x24EA), (0x24F5, 0x24FD), (0x24FF, 0x24FF), (0x2776, 0x277E), (0x2780, 0x2788),
    (0x278A, 0x2792), (0x10A40, 0x10A43), (0x10E60, 0x10E68), (0x11052, 0x1105A),
    (0x1F100, 0x1F10A)]

def decimalValue (char : Char) : Option ℕ :=
  (decimalZeros.find? fun base => base ≤ char.toNat && char.toNat < base + 10).map
    fun base => char.toNat - base

def isDigitChar (char : Char) : Bool :=
  (decimalValue char).isSome ||
    otherDigits.any fun range => range.1 ≤ char.toNat && char.toNat ≤ range.2

def isDigit (text : Text) : Bool := !text.isEmpty && text.all isDigitChar

def isSpace (char : Char) : Bool :=
  let code := char.toNat
  (9 ≤ code && code ≤ 13) || (28 ≤ code && code ≤ 32) || (8192 ≤ code && code ≤ 8202) ||
    [133, 160, 5760, 8232, 8233, 8239, 8287, 12288].contains code

/-- `int(text)` of digits; `none` stands for a `ValueError`, which more than 4300
digits raise too. -/
def intOfDigits (text : Text) : Option ℕ :=
  if 4300 < text.length then none
  else (text.mapM decimalValue).map fun values =>
    values.foldl (fun number value => 10 * number + value) 0

variable {old new sep text piece after : Text} {char : Char} {pieces : List Text}

/-! ## Replacing -/

theorem flatMap_eq_self {f : Char → Text} (hf : ∀ char ∈ text, f char = [char]) :
    text.flatMap f = text :=
  calc text.flatMap f = text.flatMap fun char => [char] := List.flatMap_congr hf
    _ = text := List.flatMap_singleton' text

theorem replaceFrom_eq (skip : ℕ) (text : Text) :
    replaceFrom old new skip text = replace old new (text.drop skip) := by
  induction text generalizing skip with
  | nil => cases skip <;> rfl
  | cons char text ih =>
    cases skip with
    | zero => rfl
    | succ skip => exact ih skip

theorem replace_append (hold : old ≠ []) :
    replace old new (old ++ text) = new ++ replace old new text := by
  cases old with
  | nil => contradiction
  | cons first old =>
    have hfound : (first :: old).isPrefixOf (first :: (old ++ text)) = true :=
      List.isPrefixOf_iff_prefix.mpr (List.prefix_append (first :: old) text)
    rw [List.cons_append, replace, replaceFrom, if_pos hfound, replaceFrom_eq]
    simp

theorem replace_cons (hold : ¬ old <+: char :: text) :
    replace old new (char :: text) = char :: replace old new text := by
  rw [replace, replaceFrom, if_neg fun hfound => hold (List.isPrefixOf_iff_prefix.mp hfound)]
  rfl

theorem replace_append_of_not_mem {first : Char} (hmem : first ∉ piece) :
    replace (first :: old) new (piece ++ text) = piece ++ replace (first :: old) new text := by
  induction piece with
  | nil => rfl
  | cons char piece ih =>
    rw [List.mem_cons, not_or] at hmem
    have hne : ¬ first :: old <+: char :: (piece ++ text) :=
      fun hfound => hmem.1 (List.cons_prefix_cons.mp hfound).1
    rw [List.cons_append, replace_cons hne, ih hmem.2, List.cons_append]

theorem replace_intercalate {Piece : Type*} {write written : Piece → Text} {first : Char}
    (hsep : first ∉ sep)
    (hpiece : ∀ piece rest, replace (first :: old) new (write piece ++ rest) =
      written piece ++ replace (first :: old) new rest) (pieces : List Piece) (rest : Text) :
    replace (first :: old) new (sep.intercalate (pieces.map write) ++ rest) =
      sep.intercalate (pieces.map written) ++ replace (first :: old) new rest := by
  induction pieces with
  | nil => rfl
  | cons piece pieces ih =>
    cases pieces with
    | nil =>
      rw [List.map_singleton, List.map_singleton, List.intercalate_singleton,
        List.intercalate_singleton]
      exact hpiece piece rest
    | cons next pieces =>
      rw [List.map_cons, List.map_cons, List.map_cons, List.map_cons,
        List.intercalate_cons_cons, List.intercalate_cons_cons, List.append_assoc,
        List.append_assoc, List.append_assoc, List.append_assoc, hpiece,
        replace_append_of_not_mem hsep, ← List.map_cons, ih, List.map_cons]

theorem replace_separated (hold : old ≠ []) (hchar : char ∉ old) (piece text : Text) :
    replace old new (piece ++ char :: text) =
      replace old new piece ++ char :: replace old new text := by
  induction hlength : piece.length using Nat.strong_induction_on generalizing piece with
  | _ length ih =>
    by_cases hfound : old <+: piece ++ char :: text
    · have hpiece : old <+: piece := by
        obtain hshort | hlong := le_or_gt old.length piece.length
        · exact List.prefix_of_prefix_length_le hfound (List.prefix_append _ _) hshort
        · have hsmaller : piece ++ [char] <+: piece ++ char :: text :=
            (List.prefix_append_right_inj piece).mpr ⟨text, rfl⟩
          have hwithin : piece ++ [char] <+: old :=
            List.prefix_of_prefix_length_le hsmaller hfound (by simp; omega)
          exact absurd (hwithin.subset (by simp)) hchar
      obtain ⟨rest, rfl⟩ := hpiece
      have hshorter : rest.length < length := by
        have hpos := List.length_pos_iff.mpr hold
        rw [List.length_append] at hlength
        omega
      rw [List.append_assoc, replace_append hold, replace_append hold, ih _ hshorter rest rfl,
        List.append_assoc]
    · cases piece with
      | nil => exact replace_cons hfound
      | cons first piece =>
        have hpiece : ¬ old <+: first :: piece := fun hearlier =>
          hfound (hearlier.trans (List.prefix_append _ _))
        have hrest := ih piece.length (by simp [← hlength]) piece rfl
        calc replace old new (first :: (piece ++ char :: text))
          _ = first :: replace old new (piece ++ char :: text) := replace_cons hfound
          _ = first :: replace old new piece ++ char :: replace old new text :=
            congrArg (first :: ·) hrest
          _ = replace old new (first :: piece) ++ char :: replace old new text := by
            rw [replace_cons hpiece]

theorem replace_lines (hold : old ≠ []) (hchar : char ∉ old) (lines : List Text) :
    replace old new ([char].intercalate lines) =
      [char].intercalate (lines.map (replace old new)) := by
  induction lines with
  | nil => rfl
  | cons line lines ih =>
    cases lines with
    | nil => rw [List.map_singleton, List.intercalate_singleton, List.intercalate_singleton]
    | cons next lines =>
      rw [List.intercalate_cons_cons, List.append_assoc, List.singleton_append,
        replace_separated hold hchar, ih, List.map_cons, List.map_cons, List.map_cons,
        List.intercalate_cons_cons, List.append_assoc, List.singleton_append]

theorem replace_singleton (char : Char) (new text : Text) :
    replace [char] new text = text.flatMap fun other => if other = char then new else [other] := by
  induction text with
  | nil => rfl
  | cons head text ih =>
    rw [List.flatMap_cons]
    split
    · next heq =>
      have hfirst : replace [char] new ([char] ++ text) = new ++ replace [char] new text :=
        replace_append (List.cons_ne_nil _ _)
      rw [heq, ← ih, ← hfirst, List.singleton_append]
    · next hne =>
      have hhead : ¬ [char] <+: head :: text :=
        fun hfound => hne (List.cons_prefix_cons.mp hfound).1.symm
      rw [replace_cons hhead, ih, List.singleton_append]

/-- One replacement after the other, none of which writes a character that is still to
be replaced. -/
theorem foldl_replace {entries : List (Char × Text)}
    (hfresh : ∀ entry ∈ entries, ∀ char ∈ entry.2, entries.lookup char = none) :
    entries.foldl (fun text entry => replace [entry.1] entry.2 text) text =
      text.flatMap fun char => (entries.lookup char).getD [char] := by
  induction entries generalizing text with
  | nil => exact (flatMap_eq_self fun _ _ => rfl).symm
  | cons entry entries ih =>
    have hrest : ∀ other ∈ entries, ∀ char ∈ other.2, entries.lookup char = none := by
      intro other hother char hchar
      have hlookup := hfresh other (List.mem_cons_of_mem _ hother) char hchar
      rw [List.lookup_cons] at hlookup
      split at hlookup
      · contradiction
      · exact hlookup
    have hkept : entry.2.flatMap (fun char => (entries.lookup char).getD [char]) = entry.2 := by
      apply flatMap_eq_self
      intro char hchar
      have hlookup := hfresh entry List.mem_cons_self char hchar
      rw [List.lookup_cons] at hlookup
      split at hlookup
      · contradiction
      · rw [hlookup, Option.getD_none]
    rw [List.foldl_cons, ih hrest, replace_singleton, List.flatMap_assoc]
    congr 1
    funext char
    rw [List.lookup_cons]
    by_cases heq : char = entry.1
    · simp [heq, hkept]
    · have hne : (char == entry.1) = false := beq_eq_false_iff_ne.mpr heq
      simp [heq, hne]

/-! ## Splitting -/

theorem splitFrom_eq (skip : ℕ) (text : Text) :
    splitFrom sep skip text = split sep (text.drop skip) := by
  induction text generalizing skip with
  | nil => cases skip <;> rfl
  | cons char text ih =>
    cases skip with
    | zero => rfl
    | succ skip => exact ih skip

theorem split_ne_nil (sep text : Text) : split sep text ≠ [] := by
  have hsplit : ∀ skip, splitFrom sep skip text ≠ [] := by
    induction text with
    | nil =>
      intro skip
      cases skip <;> exact List.cons_ne_nil _ _
    | cons char text ih =>
      intro skip
      cases skip with
      | zero =>
        rw [splitFrom]
        split
        · exact List.cons_ne_nil _ _
        · exact fun hnil => ih 0 (List.modifyHead_eq_nil_iff.mp hnil)
      | succ skip => exact ih skip
  exact hsplit 0

theorem split_append (hsep : sep ≠ []) : split sep (sep ++ text) = [] :: split sep text := by
  cases sep with
  | nil => contradiction
  | cons first sep =>
    have hfound : (first :: sep).isPrefixOf (first :: (sep ++ text)) = true :=
      List.isPrefixOf_iff_prefix.mpr (List.prefix_append (first :: sep) text)
    rw [List.cons_append, split, splitFrom, if_pos hfound, splitFrom_eq]
    simp

theorem split_cons (hsep : ¬ sep <+: char :: text) :
    split sep (char :: text) = (split sep text).modifyHead (char :: ·) := by
  rw [split, splitFrom, if_neg fun hfound => hsep (List.isPrefixOf_iff_prefix.mp hfound)]
  rfl

/-- No separator begins in the piece when `after` follows it. -/
def Unsplit (sep after : Text) : Text → Prop
  | [] => True
  | char :: piece => ¬ sep <+: char :: (piece ++ after) ∧ Unsplit sep after piece

theorem split_piece (hpiece : Unsplit sep after piece) :
    split sep (piece ++ after) = (split sep after).modifyHead (piece ++ ·) := by
  induction piece with
  | nil =>
    rw [List.nil_append]
    cases split sep after <;> rfl
  | cons char piece ih =>
    rw [List.cons_append, split_cons hpiece.1, ih hpiece.2, List.modifyHead_modifyHead]
    rfl

/-- No separator begins in the piece, at the end of a text or before a separator. -/
structure Solid (sep piece : Text) : Prop where
  last : Unsplit sep [] piece
  before : ∀ after, Unsplit sep (sep ++ after) piece

theorem split_intercalate (hsep : sep ≠ []) (hpieces : pieces ≠ [])
    (hsolid : ∀ piece ∈ pieces, Solid sep piece) :
    split sep (sep.intercalate pieces) = pieces := by
  induction pieces with
  | nil => contradiction
  | cons piece pieces ih =>
    have hpiece := hsolid piece List.mem_cons_self
    cases pieces with
    | nil =>
      have hsplit := split_piece hpiece.last
      rw [List.append_nil] at hsplit
      rw [List.intercalate_singleton, hsplit]
      simp [split, splitFrom]
    | cons next pieces =>
      have hrest := ih (List.cons_ne_nil _ _) fun other hother =>
        hsolid other (List.mem_cons_of_mem _ hother)
      rw [List.intercalate_cons_cons, List.append_assoc, split_piece (hpiece.before _),
        split_append hsep, hrest]
      simp

theorem intercalate_split (char : Char) (text : Text) :
    [char].intercalate (split [char] text) = text := by
  induction text with
  | nil => rfl
  | cons first text ih =>
    obtain ⟨head, tail, hsplit⟩ := List.exists_cons_of_ne_nil (split_ne_nil [char] text)
    rw [hsplit] at ih
    by_cases hfirst : first = char
    · subst hfirst
      have hhead : split [first] (first :: text) = [] :: split [first] text :=
        split_append (List.cons_ne_nil first [])
      rw [hhead, hsplit, List.intercalate_cons_cons, ih]
      rfl
    · have hhead : ¬ [char] <+: first :: text :=
        fun hfound => hfirst (List.cons_prefix_cons.mp hfound).1.symm
      rw [split_cons hhead, hsplit, List.modifyHead_cons, List.intercalate_cons_cons_left, ih]

theorem unsplit_append {first second : Text} :
    Unsplit sep after (first ++ second) ↔
      Unsplit sep (second ++ after) first ∧ Unsplit sep after second := by
  induction first with
  | nil => simp [Unsplit]
  | cons char first ih =>
    rw [List.cons_append, Unsplit, Unsplit, ih, List.append_assoc, and_assoc]

theorem unsplit_of_not_mem {first : Char} (hmem : first ∉ piece) :
    Unsplit (first :: sep) after piece := by
  induction piece with
  | nil => trivial
  | cons char piece ih =>
    rw [List.mem_cons, not_or] at hmem
    exact ⟨fun hfound => hmem.1 (List.cons_prefix_cons.mp hfound).1, ih hmem.2⟩

theorem solid_of_not_mem (hmem : char ∉ piece) : Solid [char] piece :=
  ⟨unsplit_of_not_mem hmem, fun _ => unsplit_of_not_mem hmem⟩

theorem solid_intercalate (hpieces : ∀ piece ∈ pieces, piece ≠ [] ∧ char ∉ piece) :
    Solid [char, char] ([char].intercalate pieces) := by
  have hunsplit : ∀ after, Unsplit [char, char] after ([char].intercalate pieces) := by
    intro after
    induction pieces with
    | nil => trivial
    | cons piece pieces ih =>
      have hpiece := hpieces piece List.mem_cons_self
      cases pieces with
      | nil =>
        rw [List.intercalate_singleton]
        exact unsplit_of_not_mem hpiece.2
      | cons next pieces =>
        have hrest := ih fun other hother => hpieces other (List.mem_cons_of_mem _ hother)
        have hnext := hpieces next (List.mem_cons_of_mem _ List.mem_cons_self)
        rw [List.intercalate_cons_cons, List.append_assoc, unsplit_append]
        refine ⟨unsplit_of_not_mem hpiece.2, fun hfound => ?_, hrest⟩
        obtain ⟨head, tail, rfl⟩ := List.exists_cons_of_ne_nil hnext.1
        have hfound : [char, char] <+:
            char :: ([char].intercalate ((head :: tail) :: pieces) ++ after) := hfound
        rw [List.intercalate_cons_cons_left, List.cons_append] at hfound
        have hhead := (List.cons_prefix_cons.mp (List.cons_prefix_cons.mp hfound).2).1
        exact hnext.2 (hhead ▸ List.mem_cons_self)
  exact ⟨hunsplit [], fun after => hunsplit _⟩

end Forail.Texts
