import Forail.Core.Texts
import Mathlib.Data.List.GetD

/-!
# Base64

Three bytes are written as four digits of six bits.  The reader is the lenient one: characters
that are no digits are passed over, and it stops at the padding that completes a group.
-/

namespace Forail.Base64

open Forail.Texts

abbrev Bytes := List UInt8

def alphabet : Text := "ABCDEFGHIJKLMNOPQRSTUVWXYZabcdefghijklmnopqrstuvwxyz0123456789+/".toList

def digit (value : ℕ) : Char := alphabet.getD value '='

def digitValue (char : Char) : Option ℕ :=
  if char ∈ alphabet then some (alphabet.idxOf char) else none

/-- `b64encode` -/
def encode : Bytes → Text
  | [] => []
  | [first] => [digit (first.toNat / 4), digit (first.toNat % 4 * 16), '=', '=']
  | [first, second] =>
      [digit (first.toNat / 4), digit (first.toNat % 4 * 16 + second.toNat / 16),
        digit (second.toNat % 16 * 4), '=']
  | first :: second :: third :: bytes =>
      digit (first.toNat / 4) :: digit (first.toNat % 4 * 16 + second.toNat / 16) ::
        digit (second.toNat % 16 * 4 + third.toNat / 64) :: digit (third.toNat % 64) ::
          encode bytes

/-- `a2b_base64` at a position of a group, with the bits that are left of the last digit and the
number of paddings since.  A group that is not completed is an error. -/
def decodeFrom : ℕ → ℕ → ℕ → Text → Option Bytes
  | position, _, _, [] => if position = 0 then some [] else none
  | position, bits, pads, char :: text =>
      if char = '=' then
        if 2 ≤ position ∧ 4 ≤ position + (pads + 1) then some []
        else decodeFrom position bits (if 2 ≤ position then pads + 1 else pads) text
      else
        match digitValue char with
        | none => decodeFrom position bits pads text
        | some value =>
            match position with
            | 0 => decodeFrom 1 value 0 text
            | 1 =>
                (decodeFrom 2 (value % 16) 0 text).map (UInt8.ofNat (bits * 4 + value / 16) :: ·)
            | 2 => (decodeFrom 3 (value % 4) 0 text).map (UInt8.ofNat (bits * 16 + value / 4) :: ·)
            | _ => (decodeFrom 0 0 0 text).map (UInt8.ofNat (bits * 64 + value) :: ·)

/-- `b64decode` of a text, which has to be ASCII. -/
def decode (text : Text) : Option Bytes :=
  if text.all fun char => char.toNat < 128 then decodeFrom 0 0 0 text else none

def toUrl (char : Char) : Char := if char = '+' then '-' else if char = '/' then '_' else char

def ofUrl (char : Char) : Char := if char = '-' then '+' else if char = '_' then '/' else char

def urlsafeEncode (bytes : Bytes) : Text := (encode bytes).map toUrl

def urlsafeDecode (text : Text) : Option Bytes := decode (text.map ofUrl)

/-! ## Digits -/

theorem digit_mem_alphabet {value : ℕ} (hvalue : value < 64) : digit value ∈ alphabet := by
  have hlength : value < alphabet.length := hvalue
  rw [digit, List.getD_eq_getElem alphabet '=' hlength]
  exact List.getElem_mem hlength

theorem digitValue_digit {value : ℕ} (hvalue : value < 64) :
    digitValue (digit value) = some value := by
  have hall : ∀ value : Fin 64, digitValue (digit value) = some value.val := by decide +kernel
  exact hall ⟨value, hvalue⟩

theorem digit_ne_pad {value : ℕ} (hvalue : value < 64) : digit value ≠ '=' := by
  have hpad : '=' ∉ alphabet := by decide
  exact fun heq => hpad (heq ▸ digit_mem_alphabet hvalue)

section Decoding

variable {position bits pads value : ℕ} {text : Text}

theorem decodeFrom_digit (hvalue : value < 64) :
    decodeFrom position bits pads (digit value :: text) =
      match position with
      | 0 => decodeFrom 1 value 0 text
      | 1 => (decodeFrom 2 (value % 16) 0 text).map (UInt8.ofNat (bits * 4 + value / 16) :: ·)
      | 2 => (decodeFrom 3 (value % 4) 0 text).map (UInt8.ofNat (bits * 16 + value / 4) :: ·)
      | _ => (decodeFrom 0 0 0 text).map (UInt8.ofNat (bits * 64 + value) :: ·) := by
  rw [decodeFrom, if_neg (digit_ne_pad hvalue), digitValue_digit hvalue]

theorem decodeFrom_first (hvalue : value < 64) :
    decodeFrom 0 bits pads (digit value :: text) = decodeFrom 1 value 0 text :=
  decodeFrom_digit hvalue

theorem decodeFrom_second (hvalue : value < 64) :
    decodeFrom 1 bits pads (digit value :: text) =
      (decodeFrom 2 (value % 16) 0 text).map (UInt8.ofNat (bits * 4 + value / 16) :: ·) :=
  decodeFrom_digit hvalue

theorem decodeFrom_third (hvalue : value < 64) :
    decodeFrom 2 bits pads (digit value :: text) =
      (decodeFrom 3 (value % 4) 0 text).map (UInt8.ofNat (bits * 16 + value / 4) :: ·) :=
  decodeFrom_digit hvalue

theorem decodeFrom_fourth (hvalue : value < 64) :
    decodeFrom 3 bits pads (digit value :: text) =
      (decodeFrom 0 0 0 text).map (UInt8.ofNat (bits * 64 + value) :: ·) :=
  decodeFrom_digit hvalue

theorem first_byte (byte : UInt8) {lower : ℕ} (hlower : lower < 16) :
    UInt8.ofNat (byte.toNat / 4 * 4 + (byte.toNat % 4 * 16 + lower) / 16) = byte := by
  have hbyte : byte.toNat / 4 * 4 + (byte.toNat % 4 * 16 + lower) / 16 = byte.toNat := by omega
  rw [hbyte, UInt8.ofNat_toNat]

theorem second_byte (first second : UInt8) {lower : ℕ} (hlower : lower < 4) :
    UInt8.ofNat ((first.toNat % 4 * 16 + second.toNat / 16) % 16 * 16 +
      (second.toNat % 16 * 4 + lower) / 4) = second := by
  have hlt := second.toNat_lt
  have hbyte : (first.toNat % 4 * 16 + second.toNat / 16) % 16 * 16 +
      (second.toNat % 16 * 4 + lower) / 4 = second.toNat := by omega
  rw [hbyte, UInt8.ofNat_toNat]

theorem third_byte (second third : UInt8) :
    UInt8.ofNat ((second.toNat % 16 * 4 + third.toNat / 64) % 4 * 64 + third.toNat % 64) =
      third := by
  have hlt := third.toNat_lt
  have hbyte : (second.toNat % 16 * 4 + third.toNat / 64) % 4 * 64 + third.toNat % 64 =
      third.toNat := by omega
  rw [hbyte, UInt8.ofNat_toNat]

theorem decodeFrom_two_pads : decodeFrom 2 bits 0 ['=', '='] = some [] := rfl

theorem decodeFrom_one_pad : decodeFrom 3 bits 0 ['='] = some [] := rfl

theorem decodeFrom_encode (bytes : Bytes) : decodeFrom 0 0 0 (encode bytes) = some bytes := by
  induction bytes using encode.induct with
  | case1 => rfl
  | case2 first =>
    have hfirst := first.toNat_lt
    have hbyte := first_byte first (Nat.zero_lt_succ 15)
    rw [Nat.add_zero] at hbyte
    rw [encode, decodeFrom_first (by omega), decodeFrom_second (by omega), decodeFrom_two_pads,
      hbyte, Option.map_some]
  | case3 first second =>
    have hfirst := first.toNat_lt
    have hsecond := second.toNat_lt
    have hbyte := second_byte first second (Nat.zero_lt_succ 3)
    rw [Nat.add_zero] at hbyte
    rw [encode, decodeFrom_first (by omega), decodeFrom_second (by omega),
      decodeFrom_third (by omega), decodeFrom_one_pad, first_byte first (by omega), hbyte,
      Option.map_some, Option.map_some]
  | case4 first second third bytes ih =>
    have hfirst := first.toNat_lt
    have hsecond := second.toNat_lt
    have hthird := third.toNat_lt
    rw [encode, decodeFrom_first (by omega), decodeFrom_second (by omega),
      decodeFrom_third (by omega), decodeFrom_fourth (by omega), ih, first_byte first (by omega),
      second_byte first second (by omega), third_byte second third, Option.map_some,
      Option.map_some, Option.map_some]

end Decoding

/-! ## The round trip -/

theorem mem_encode {char : Char} {bytes : Bytes} (hchar : char ∈ encode bytes) :
    char ∈ alphabet ∨ char = '=' := by
  induction bytes using encode.induct with
  | case1 => exact absurd hchar List.not_mem_nil
  | case2 first =>
    have hfirst := first.toNat_lt
    rw [encode] at hchar
    simp only [List.mem_cons, List.not_mem_nil, or_false] at hchar
    obtain rfl | rfl | hpad | hpad := hchar
    · exact .inl (digit_mem_alphabet (by omega))
    · exact .inl (digit_mem_alphabet (by omega))
    · exact .inr hpad
    · exact .inr hpad
  | case3 first second =>
    have hfirst := first.toNat_lt
    have hsecond := second.toNat_lt
    rw [encode] at hchar
    simp only [List.mem_cons, List.not_mem_nil, or_false] at hchar
    obtain rfl | rfl | rfl | hpad := hchar
    · exact .inl (digit_mem_alphabet (by omega))
    · exact .inl (digit_mem_alphabet (by omega))
    · exact .inl (digit_mem_alphabet (by omega))
    · exact .inr hpad
  | case4 first second third bytes ih =>
    have hfirst := first.toNat_lt
    have hsecond := second.toNat_lt
    have hthird := third.toNat_lt
    rw [encode] at hchar
    simp only [List.mem_cons] at hchar
    obtain rfl | rfl | rfl | rfl | hchar := hchar
    · exact .inl (digit_mem_alphabet (by omega))
    · exact .inl (digit_mem_alphabet (by omega))
    · exact .inl (digit_mem_alphabet (by omega))
    · exact .inl (digit_mem_alphabet (by omega))
    · exact ih hchar

theorem ascii_of_mem_encode {char : Char} {bytes : Bytes} (hchar : char ∈ encode bytes) :
    char.toNat < 128 := by
  have hall : alphabet.all (fun char => char.toNat < 128) = true := by decide
  obtain hmem | rfl := mem_encode hchar
  · exact of_decide_eq_true (List.all_eq_true.mp hall char hmem)
  · decide

theorem decode_encode (bytes : Bytes) : decode (encode bytes) = some bytes := by
  have hascii : (encode bytes).all (fun char => char.toNat < 128) = true :=
    List.all_eq_true.mpr fun char hchar => decide_eq_true (ascii_of_mem_encode hchar)
  rw [decode, if_pos hascii, decodeFrom_encode]

theorem ofUrl_toUrl {char : Char} (hchar : char ∈ alphabet ∨ char = '=') :
    ofUrl (toUrl char) = char := by
  have hall : alphabet.all (fun char => ofUrl (toUrl char) = char) = true := by decide
  obtain hmem | rfl := hchar
  · exact of_decide_eq_true (List.all_eq_true.mp hall char hmem)
  · rfl

theorem urlsafeDecode_urlsafeEncode (bytes : Bytes) :
    urlsafeDecode (urlsafeEncode bytes) = some bytes := by
  have hback : ((encode bytes).map toUrl).map ofUrl = encode bytes :=
    calc ((encode bytes).map toUrl).map ofUrl = (encode bytes).map (ofUrl ∘ toUrl) :=
          List.map_map
      _ = (encode bytes).map id :=
          List.map_congr_left fun char hchar => ofUrl_toUrl (mem_encode hchar)
      _ = encode bytes := List.map_id _
  rw [urlsafeDecode, urlsafeEncode, hback, decode_encode]

end Forail.Base64
