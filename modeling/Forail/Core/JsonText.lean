import Forail.Core.Json
import Forail.Core.Texts

/-!
# JSON texts

The texts that are JSON documents, with the words for numbers that are not finite.  A reader
goes through a text once, keeps the brackets that are open and knows what can come next.
-/

namespace Forail.Json

open Forail.Texts

inductive Bracket where
  | list
  | dict

/-- Where a string stands: as the key of an entry or as a value. -/
inductive Role where
  | key
  | value

structure Word where
  letters : Text
  isAlpha : letters.all Char.isAlpha = true

inductive Mode where
  /-- a value, after a bracket of a list also the end of the list -/
  | value
  | valueOrEnd
  /-- the key of an entry, after a bracket of a dictionary also its end -/
  | key
  | keyOrEnd
  | colon
  /-- what follows a value -/
  | after
  /-- the rest of a string, an escape in it, the hexadecimal digits of an escape -/
  | string (role : Role)
  | escape (role : Role)
  | unicode (role : Role) (digits : ℕ)
  /-- the rest of a word -/
  | word (left : Word)
  /-- the parts of a number -/
  | minus
  | zero
  | digits
  | point
  | fraction
  | exponent
  | sign
  | power

structure Reader where
  mode : Mode
  brackets : List Bracket

namespace Reader

def isSpace (char : Char) : Bool := char ∈ [' ', '\t', '\n', '\r']

def isHex (char : Char) : Bool :=
  char.isDigit || ('a' ≤ char && char ≤ 'f') || ('A' ≤ char && char ≤ 'F')

/-- What is left of the word for an infinite number. -/
def infinity : Word := ⟨['n', 'f', 'i', 'n', 'i', 't', 'y'], rfl⟩

def startValue (brackets : List Bracket) (char : Char) : Option Reader :=
  match char with
  | '"' => some ⟨.string .value, brackets⟩
  | '{' => some ⟨.keyOrEnd, .dict :: brackets⟩
  | '[' => some ⟨.valueOrEnd, .list :: brackets⟩
  | 'n' => some ⟨.word ⟨['u', 'l', 'l'], rfl⟩, brackets⟩
  | 't' => some ⟨.word ⟨['r', 'u', 'e'], rfl⟩, brackets⟩
  | 'f' => some ⟨.word ⟨['a', 'l', 's', 'e'], rfl⟩, brackets⟩
  | 'N' => some ⟨.word ⟨['a', 'N'], rfl⟩, brackets⟩
  | 'I' => some ⟨.word infinity, brackets⟩
  | '-' => some ⟨.minus, brackets⟩
  | '0' => some ⟨.zero, brackets⟩
  | _ => if char.isDigit then some ⟨.digits, brackets⟩ else none

def startKey (brackets : List Bracket) (char : Char) : Option Reader :=
  if char = '"' then some ⟨.string .key, brackets⟩ else none

/-- A character after a value: the end of what is around it, or the next value. -/
def endValue (brackets : List Bracket) (char : Char) : Option Reader :=
  if isSpace char then some ⟨.after, brackets⟩
  else
    match brackets, char with
    | .list :: _, ',' => some ⟨.value, brackets⟩
    | .list :: outer, ']' => some ⟨.after, outer⟩
    | .dict :: _, ',' => some ⟨.key, brackets⟩
    | .dict :: outer, '}' => some ⟨.after, outer⟩
    | _, _ => none

def endString : Role → Mode
  | .key => .colon
  | .value => .after

/-- The next character of a string; control characters have to be escaped. -/
def inString (role : Role) (brackets : List Bracket) (char : Char) : Option Reader :=
  match char with
  | '"' => some ⟨endString role, brackets⟩
  | '\\' => some ⟨.escape role, brackets⟩
  | _ => if char.toNat < 32 then none else some ⟨.string role, brackets⟩

def inEscape (role : Role) (brackets : List Bracket) (char : Char) : Option Reader :=
  if char = 'u' then some ⟨.unicode role 3, brackets⟩
  else if char ∈ ['"', '\\', '/', 'b', 'f', 'n', 'r', 't'] then some ⟨.string role, brackets⟩
  else none

def inUnicode (role : Role) (brackets : List Bracket) (digits : ℕ) (char : Char) :
    Option Reader :=
  if isHex char then
    match digits with
    | 0 => some ⟨.string role, brackets⟩
    | digits + 1 => some ⟨.unicode role digits, brackets⟩
  else none

def inWord (brackets : List Bracket) (left : Word) (char : Char) : Option Reader :=
  match left with
  | ⟨[], _⟩ => none
  | ⟨[last], _⟩ => if char = last then some ⟨.after, brackets⟩ else none
  | ⟨first :: second :: rest, hletters⟩ =>
      if char = first then
        some ⟨.word ⟨second :: rest, (Bool.and_eq_true_iff.mp hletters).2⟩, brackets⟩
      else none

/-- A character after the digits of a number, which can end there. -/
def inNumber (mode : Mode) (brackets : List Bracket) (char : Char) : Option Reader :=
  match mode, char with
  | .zero, '.' | .digits, '.' => some ⟨.point, brackets⟩
  | .zero, 'e' | .digits, 'e' | .fraction, 'e' => some ⟨.exponent, brackets⟩
  | .zero, 'E' | .digits, 'E' | .fraction, 'E' => some ⟨.exponent, brackets⟩
  | .zero, _ => endValue brackets char
  | mode, _ => if char.isDigit then some ⟨mode, brackets⟩ else endValue brackets char

/-- A character where a number has to go on with a digit. -/
def needDigit (next : Mode) (brackets : List Bracket) (char : Char) : Option Reader :=
  if char.isDigit then some ⟨next, brackets⟩ else none

/-- The reader after one more character, if a document can go on with it. -/
def step (reader : Reader) (char : Char) : Option Reader :=
  let brackets := reader.brackets
  match reader.mode with
  | .value => if isSpace char then some reader else startValue brackets char
  | .valueOrEnd =>
      if isSpace char then some reader
      else if char = ']' then some ⟨.after, brackets.tail⟩
      else startValue brackets char
  | .key => if isSpace char then some reader else startKey brackets char
  | .keyOrEnd =>
      if isSpace char then some reader
      else if char = '}' then some ⟨.after, brackets.tail⟩
      else startKey brackets char
  | .colon =>
      if isSpace char then some reader
      else if char = ':' then some ⟨.value, brackets⟩
      else none
  | .after => endValue brackets char
  | .string role => inString role brackets char
  | .escape role => inEscape role brackets char
  | .unicode role digits => inUnicode role brackets digits char
  | .word left => inWord brackets left char
  | .minus =>
      if char = '0' then some ⟨.zero, brackets⟩
      else if char = 'I' then some ⟨.word infinity, brackets⟩
      else needDigit .digits brackets char
  | .point => needDigit .fraction brackets char
  | .exponent =>
      if char ∈ ['+', '-'] then some ⟨.sign, brackets⟩ else needDigit .power brackets char
  | .sign => needDigit .power brackets char
  | .zero | .digits | .fraction | .power => inNumber reader.mode brackets char

def complete (reader : Reader) : Bool :=
  reader.brackets.isEmpty &&
    match reader.mode with
    | .after | .zero | .digits | .fraction | .power => true
    | _ => false

def run (reader : Reader) (text : Text) : Option Reader := text.foldlM step reader

end Reader

def isDocument (text : Text) : Bool :=
  match Reader.run ⟨.value, []⟩ text with
  | some reader => reader.complete
  | none => false

/-- `json.loads(text)`, with the value that a document stands for. -/
def loads (value : Text → Value) (text : Text) : Except LoadError Value :=
  if isDocument text then .ok (value text) else .error .valueError

namespace Reader

variable (brackets : List Bracket) {char : Char} {text : Text}

theorem endValue_eq_none (hspace : isSpace char = false) (hpart : char ∉ [',', ']', '}']) :
    endValue brackets char = none := by
  have hne : ¬ isSpace char = true := Bool.not_eq_true _ ▸ hspace
  fun_cases endValue brackets char with
  | case1 => contradiction
  | case2 => exact absurd (by decide) hpart
  | case3 => exact absurd (by decide) hpart
  | case4 => exact absurd (by decide) hpart
  | case5 => exact absurd (by decide) hpart
  | case6 => rfl

theorem inWord_eq_none (left : Word) (hletter : char.isAlpha = false) :
    inWord brackets left char = none := by
  have hfirst : ∀ {first : Char} {rest : Text}, (first :: rest).all Char.isAlpha = true →
      char ≠ first := by
    rintro first rest hletters rfl
    rw [List.all_cons, hletter, Bool.false_and] at hletters
    exact Bool.false_ne_true hletters
  rcases left with ⟨_ | ⟨first, _ | ⟨second, rest⟩⟩, hletters⟩
  · rfl
  · rw [inWord, if_neg (hfirst hletters)]
  · rw [inWord, if_neg (hfirst hletters)]

end Reader

theorem isDocument_append {before after : Text}
    (hafter : ∀ reader : Reader, reader.run after = none) :
    isDocument (before ++ after) = false := by
  have hrun : Reader.run ⟨.value, []⟩ (before ++ after) = none := by
    rw [Reader.run, List.foldlM_append]
    cases before.foldlM Reader.step ⟨.value, []⟩ with
    | none => rfl
    | some reader => exact hafter reader
  rw [isDocument, hrun]

example : isDocument "[1, \x7b\"a\": -0.5e+3, \"b\\u00e9\": [null, true]\x7d]".toList = true := by
  decide +kernel

end Forail.Json
