import Forail.Core.Texts
import Mathlib.Algebra.Group.Nat.Defs

/-!
# Percent-decoding of texts

An escape of a percent sign and two hexadecimal digits stands for a byte, and the bytes
of a run of ASCII characters are decoded as UTF-8.  Escapes of ASCII characters come
back as these characters, next to any text that has no escape of its own.
-/

namespace Forail.PercentDecoding

open Forail.Texts

def isAscii (char : Char) : Bool := char.toNat < 128

def hexValue (char : Char) : Option ℕ :=
  if '0' ≤ char ∧ char ≤ '9' then some (char.toNat - '0'.toNat)
  else if 'a' ≤ char ∧ char ≤ 'f' then some (char.toNat - 'a'.toNat + 10)
  else if 'A' ≤ char ∧ char ≤ 'F' then some (char.toNat - 'A'.toNat + 10)
  else none

/-- The byte of the two characters after a percent sign. -/
def escapedByte (high low : Char) : Option ℕ :=
  match hexValue high, hexValue low with
  | some high, some low => some (16 * high + low)
  | _, _ => none

/-- `unquote_to_bytes` of an ASCII text. -/
def unquoteToBytes : Text → List ℕ
  | '%' :: high :: low :: text =>
      match escapedByte high low with
      | some byte => byte :: unquoteToBytes text
      | none => '%'.toNat :: unquoteToBytes (high :: low :: text)
  | char :: text => char.toNat :: unquoteToBytes text
  | [] => []

/-! ## UTF-8 -/

def replacementChar : Char := '\uFFFD'

/-- How many bytes follow the first byte of a character, and the range of the first of
them. -/
def followers (lead : ℕ) : Option (ℕ × ℕ × ℕ) :=
  if 0xC2 ≤ lead ∧ lead ≤ 0xDF then some (1, 0x80, 0xBF)
  else if lead = 0xE0 then some (2, 0xA0, 0xBF)
  else if lead = 0xED then some (2, 0x80, 0x9F)
  else if 0xE1 ≤ lead ∧ lead ≤ 0xEF then some (2, 0x80, 0xBF)
  else if lead = 0xF0 then some (3, 0x90, 0xBF)
  else if 0xF1 ≤ lead ∧ lead ≤ 0xF3 then some (3, 0x80, 0xBF)
  else if lead = 0xF4 then some (3, 0x80, 0x8F)
  else none

/-- The bytes, `count` at most, that go on with a character. -/
def continuation (count low high : ℕ) : List ℕ → List ℕ
  | [] => []
  | byte :: bytes =>
      match count with
      | 0 => []
      | count + 1 =>
          if low ≤ byte ∧ byte ≤ high then byte :: continuation count 0x80 0xBF bytes else []

/-- One character and the number of bytes that it takes after the first.  A sequence
that breaks off is replaced as a whole. -/
def decodeOne (lead : ℕ) (bytes : List ℕ) : Char × ℕ :=
  if lead < 0x80 then (Char.ofNat lead, 0)
  else
    match followers lead with
    | none => (replacementChar, 0)
    | some (count, low, high) =>
        let found := continuation count low high bytes
        if found.length < count then (replacementChar, found.length)
        else
          let start := lead % 2 ^ (6 - count)
          (Char.ofNat (found.foldl (fun code byte => 64 * code + byte % 64) start), count)

/-- `bytes.decode('utf-8', errors='replace')`, with the number of bytes that are still
to be left out. -/
def decodeFrom : ℕ → List ℕ → Text
  | _, [] => []
  | skip + 1, _ :: bytes => decodeFrom skip bytes
  | 0, lead :: bytes =>
      (decodeOne lead bytes).1 :: decodeFrom (decodeOne lead bytes).2 bytes

def decodeRun (run : Text) : Text := decodeFrom 0 (unquoteToBytes run)

/-- `run` is the run of ASCII characters read so far. -/
def unquoteRuns (run : Text) : Text → Text
  | [] => decodeRun run
  | char :: text =>
      if isAscii char then unquoteRuns (run ++ [char]) text
      else decodeRun run ++ char :: unquoteRuns [] text

/-- `urllib.parse.unquote(text)` -/
def unquote (text : Text) : Text := if '%' ∈ text then unquoteRuns [] text else text

example : unquote "%C3%28%E2%82x%F0%9F%98%ED%A0%80%C3%A9".toList =
    "\uFFFD(\uFFFDx\uFFFD\uFFFD\uFFFD\uFFFDé".toList := by decide

/-! ## Escaped texts -/

def Plain (text : Text) : Prop :=
  ∀ high low, ['%', high, low] <:+: text → escapedByte high low = none

/-- An encoding keeps a character or writes the escape of its byte. -/
def Escapes (encode : Char → Text) : Prop :=
  ∀ char, encode char = [char] ∨
    isAscii char = true ∧ ∃ high low, encode char = ['%', high, low] ∧
      escapedByte high low = some char.toNat

variable {encode : Char → Text} {text done : Text} {char high low : Char}

theorem Plain.of_infix {part : Text} (hplain : Plain text) (hpart : part <:+: text) :
    Plain part := fun high low hescape => hplain high low (hescape.trans hpart)

theorem plain_of_not_mem (hmem : '%' ∉ text) : Plain text :=
  fun _ _ hescape => absurd (hescape.subset List.mem_cons_self) hmem

theorem escapedByte_percent_left : escapedByte '%' low = none := rfl

theorem escapedByte_percent_right : escapedByte high '%' = none := by
  rw [escapedByte]
  cases hexValue high <;> rfl

theorem isAscii_of_hexValue {value : ℕ} (hvalue : hexValue char = some value) :
    isAscii char = true := by
  have hle : ∀ limit : Char, limit.toNat < 128 → char ≤ limit → isAscii char = true := by
    intro limit hlimit hchar
    have hnat : char.toNat ≤ limit.toNat := hchar
    exact decide_eq_true (hnat.trans_lt hlimit)
  rw [hexValue] at hvalue
  split at hvalue
  · next hdigit => exact hle '9' (by decide) hdigit.2
  · split at hvalue
    · next hletter => exact hle 'f' (by decide) hletter.2
    · split at hvalue
      · next hletter => exact hle 'F' (by decide) hletter.2
      · contradiction

theorem isAscii_of_escapedByte {byte : ℕ} (hbyte : escapedByte high low = some byte) :
    isAscii high = true ∧ isAscii low = true := by
  rw [escapedByte] at hbyte
  cases hhigh : hexValue high with
  | none => simp [hhigh] at hbyte
  | some value =>
    cases hlow : hexValue low with
    | none => simp [hhigh, hlow] at hbyte
    | some value' => exact ⟨isAscii_of_hexValue hhigh, isAscii_of_hexValue hlow⟩

theorem escapedByte_encoded (hencode : Escapes encode) (hplain : Plain ('%' :: text)) {after : Text}
    (hafter : text.flatMap encode = high :: low :: after) : escapedByte high low = none := by
  cases text with
  | nil => contradiction
  | cons first text =>
    rw [List.flatMap_cons] at hafter
    obtain hfirst | ⟨-, h, l, hfirst, -⟩ := hencode first
    · rw [hfirst, List.singleton_append, List.cons.injEq] at hafter
      obtain ⟨rfl, hafter⟩ := hafter
      cases text with
      | nil => contradiction
      | cons second text =>
        rw [List.flatMap_cons] at hafter
        obtain hsecond | ⟨-, h, l, hsecond, -⟩ := hencode second
        · rw [hsecond, List.singleton_append, List.cons.injEq] at hafter
          rw [← hafter.1]
          exact hplain first second (List.IsPrefix.isInfix ⟨text, rfl⟩)
        · rw [hsecond, List.cons_append, List.cons.injEq] at hafter
          rw [← hafter.1]
          exact escapedByte_percent_right
    · rw [hfirst, List.cons_append, List.cons.injEq] at hafter
      rw [← hafter.1]
      exact escapedByte_percent_left

theorem unquoteToBytes_cons (hchar : char ≠ '%') :
    unquoteToBytes (char :: text) = char.toNat :: unquoteToBytes text := by
  rw [unquoteToBytes]
  intro high low more heq
  exact absurd heq hchar

theorem unquoteToBytes_percent
    (htext : ∀ high low after, text = high :: low :: after → escapedByte high low = none) :
    unquoteToBytes ('%' :: text) = '%'.toNat :: unquoteToBytes text := by
  match text, htext with
  | [], _ => rfl
  | [_], _ => rfl
  | high :: low :: after, htext => rw [unquoteToBytes, htext high low after rfl]

theorem unquoteToBytes_flatMap (hencode : Escapes encode) (hplain : Plain text) :
    unquoteToBytes (text.flatMap encode) = text.map Char.toNat := by
  induction text with
  | nil => rfl
  | cons char text ih =>
    have hrest := ih (hplain.of_infix (List.suffix_cons char text).isInfix)
    rw [List.flatMap_cons, List.map_cons]
    obtain hchar | ⟨-, high, low, hchar, hbyte⟩ := hencode char
    · rw [hchar, List.singleton_append, ← hrest]
      by_cases hpercent : char = '%'
      · subst hpercent
        exact unquoteToBytes_percent fun high low after hafter =>
          escapedByte_encoded hencode hplain hafter
      · exact unquoteToBytes_cons hpercent
    · rw [hchar, ← hrest]
      simp only [List.cons_append, List.nil_append, unquoteToBytes, hbyte]

theorem decodeFrom_ascii (htext : ∀ char ∈ text, isAscii char = true) :
    decodeFrom 0 (text.map Char.toNat) = text := by
  induction text with
  | nil => rfl
  | cons char text ih =>
    have hchar : char.toNat < 128 := of_decide_eq_true (htext char List.mem_cons_self)
    have hone : decodeOne char.toNat (text.map Char.toNat) = (char, 0) := by
      rw [decodeOne, if_pos hchar, Char.ofNat_toNat]
    rw [List.map_cons, decodeFrom, hone, ih fun other hother => htext other
      (List.mem_cons_of_mem _ hother)]

theorem decodeRun_flatMap (hencode : Escapes encode) (hplain : Plain text)
    (htext : ∀ char ∈ text, isAscii char = true) : decodeRun (text.flatMap encode) = text := by
  rw [decodeRun, unquoteToBytes_flatMap hencode hplain, decodeFrom_ascii htext]

theorem unquoteRuns_append {run part : Text} (hpart : ∀ char ∈ part, isAscii char = true) :
    unquoteRuns run (part ++ text) = unquoteRuns (run ++ part) text := by
  induction part generalizing run with
  | nil => rw [List.nil_append, List.append_nil]
  | cons char part ih =>
    rw [List.cons_append, unquoteRuns, if_pos (hpart char List.mem_cons_self),
      ih fun other hother => hpart other (List.mem_cons_of_mem _ hother), List.append_assoc,
      List.singleton_append]

theorem ascii_encode (hencode : Escapes encode) (hchar : isAscii char = true) :
    ∀ other ∈ encode char, isAscii other = true := by
  obtain hsame | ⟨-, high, low, hescape, hbyte⟩ := hencode char
  · rw [hsame]
    intro other hother
    rw [List.mem_singleton.mp hother]
    exact hchar
  · rw [hescape]
    have hascii := isAscii_of_escapedByte hbyte
    simp only [List.mem_cons, List.not_mem_nil, or_false, forall_eq_or_imp, forall_eq]
    exact ⟨rfl, hascii⟩

theorem unquoteRuns_flatMap (hencode : Escapes encode) (hplain : Plain (done ++ text))
    (hdone : ∀ char ∈ done, isAscii char = true) :
    unquoteRuns (done.flatMap encode) (text.flatMap encode) = done ++ text := by
  induction text generalizing done with
  | nil =>
    rw [List.append_nil] at hplain ⊢
    exact decodeRun_flatMap hencode hplain hdone
  | cons char text ih =>
    rw [List.flatMap_cons]
    cases hchar : isAscii char with
    | true =>
      have hmore : done ++ char :: text = (done ++ [char]) ++ text := by
        rw [List.append_assoc, List.singleton_append]
      have hrun : done.flatMap encode ++ encode char = (done ++ [char]).flatMap encode := by
        rw [List.flatMap_append, List.flatMap_singleton]
      rw [unquoteRuns_append (ascii_encode hencode hchar), hrun, hmore]
      apply ih (hmore ▸ hplain)
      intro other hother
      obtain hbefore | hlast := List.mem_append.mp hother
      · exact hdone other hbefore
      · rw [List.mem_singleton.mp hlast, hchar]
    | false =>
      have hsame : encode char = [char] := by
        obtain hsame | ⟨hascii, -⟩ := hencode char
        · exact hsame
        · rw [hchar] at hascii
          contradiction
      have hdecoded := decodeRun_flatMap hencode
        (hplain.of_infix (List.prefix_append done _).isInfix) hdone
      have hrest : Plain ([] ++ text) := hplain.of_infix
        ((List.suffix_cons char text).trans (List.suffix_append done _)).isInfix
      have hih := ih hrest fun _ hmem => absurd hmem List.not_mem_nil
      rw [hsame, List.singleton_append, unquoteRuns, hchar, if_neg Bool.false_ne_true, hdecoded]
      exact congrArg (fun tail => done ++ char :: tail) hih

theorem unquote_flatMap (hencode : Escapes encode) (hplain : Plain text) :
    unquote (text.flatMap encode) = text := by
  rw [unquote]
  split
  · have hstart : Plain ([] ++ text) := hplain
    exact unquoteRuns_flatMap hencode hstart fun _ hmem => absurd hmem List.not_mem_nil
  · next hpercent =>
    apply flatMap_eq_self
    intro char hmem
    obtain hsame | ⟨-, high, low, hescape, -⟩ := hencode char
    · exact hsame
    · refine absurd (List.mem_flatMap.mpr ⟨char, hmem, ?_⟩) hpercent
      rw [hescape]
      exact List.mem_cons_self

end Forail.PercentDecoding
