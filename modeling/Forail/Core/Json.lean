import Mathlib.Algebra.Ring.Nat
import Mathlib.Data.Int.Notation
import Mathlib.Data.List.Basic

/-!
# JSON values

The values that a JSON document is loaded to, with the truth that a dynamic language
gives them.
-/

namespace Forail.Json

/-- A floating-point number as its exact value; large literals load as infinities. -/
inductive Number where
  | finite (value : Rat)
  | infinite (negative : Bool)
  | nan

inductive Value where
  | null
  | bool (value : Bool)
  | int (value : ℤ)
  | float (value : Number)
  | str (value : String)
  | list (items : List Value)
  | dict (entries : List (String × Value))

namespace Value

def truthy : Value → Bool
  | null => false
  | bool value => value
  | int value => value ≠ 0
  | float (.finite value) => value ≠ 0
  | float _ => true
  | str value => value ≠ ""
  | list items => !items.isEmpty
  | dict entries => !entries.isEmpty

def isDict : Value → Bool
  | dict _ => true
  | _ => false

/-- `value.get(key)` of a dictionary, `None` without an entry; other values have no
entries. -/
def get (key : String) : Value → Value
  | dict entries => (entries.lookup key).getD null
  | _ => null

/-- `left or right` -/
def or (left right : Value) : Value := if left.truthy then left else right

/-- `value.get(key)`, which raises on a value that is no dictionary. -/
def tryGet (key : String) (value : Value) : Except String Value :=
  if value.isDict then .ok (value.get key) else .error "AttributeError"

/-- `value.get(key, default)`, which raises on a value that is no dictionary. -/
def tryGetOr (key : String) (value default : Value) : Except String Value :=
  match value with
  | dict entries => .ok ((entries.lookup key).getD default)
  | _ => .error "AttributeError"

/-- `value[key]`, which raises without an entry. -/
def item (key : String) : Value → Except String Value
  | dict entries =>
      match entries.lookup key with
      | some value => .ok value
      | none => .error "KeyError"
  | _ => .error "TypeError"

/-- `value == text` -/
def isText (text : String) : Value → Bool
  | str value => value = text
  | _ => false

def hashable : Value → Bool
  | list _ | dict _ => false
  | _ => true

/-- The values that a loop over `value` runs through; numbers and the like raise. -/
def iter : Value → Except String (List Value)
  | list items => .ok items
  | dict entries => .ok (entries.map fun entry => str entry.1)
  | str value => .ok (value.toList.map fun char => str (String.ofList [char]))
  | _ => .error "TypeError"

/-- The members of a list, and none of other values. -/
def items : Value → List Value
  | list items => items
  | _ => []

end Value

/-- The number that a value is, as truth values are. -/
def Value.number : Value → Option Number
  | .bool value => some (.finite (if value then 1 else 0))
  | .int value => some (.finite value)
  | .float value => some value
  | _ => none

def Number.equal : Number → Number → Bool
  | .finite left, .finite right => left = right
  | .infinite left, .infinite right => left = right
  | _, _ => false

/-- `number < bound` -/
def Number.below (bound : Rat) : Number → Bool
  | .finite value => value < bound
  | .infinite negative => negative
  | .nan => false

/-- `number > bound` -/
def Number.above (bound : Rat) : Number → Bool
  | .finite value => bound < value
  | .infinite negative => !negative
  | .nan => false

mutual

/-- `left == right` -/
def Value.equal : Value → Value → Bool
  | .null, .null => true
  | .str left, .str right => left = right
  | .list left, .list right => equalItems left right
  | .dict left, .dict right => left.length = right.length && equalEntries left right
  | left, right =>
      match left.number, right.number with
      | some left, some right => left.equal right
      | _, _ => false

def equalItems : List Value → List Value → Bool
  | [], [] => true
  | left :: lefts, right :: rights => left.equal right && equalItems lefts rights
  | _, _ => false

def equalEntries : List (String × Value) → List (String × Value) → Bool
  | [], _ => true
  | (key, left) :: entries, others =>
      (match others.lookup key with
        | some right => left.equal right
        | none => false) && equalEntries entries others

end

/-- `float(value)` of an integer, before it overflows: the nearest multiple of the
distance between floats, and the even one of two. -/
def floatOfNat (value : ℕ) : ℕ :=
  let distance := 2 ^ (value.log2 - 52)
  let below := value / distance
  let rest := value % distance
  if distance < 2 * rest ∨ (distance = 2 * rest ∧ below % 2 = 1) then (below + 1) * distance
  else below * distance

def floatOfInt (value : ℤ) : ℤ := value.sign * floatOfNat value.natAbs

/-- The texts that Python gives to values: `str(value)` and `json.dumps(value)`. -/
structure Texts where
  str : Value → String
  dumps : Value → String

def Texts.text (texts : Texts) : Value → String
  | .str value => value
  | value => texts.str value

/-- Why `json.loads` fails: a text that is not JSON, or another exception, as for a
document that is nested too deeply. -/
inductive LoadError where
  | valueError
  | other (error : String)

/-- What Python reads from texts: `json.loads(text)` and `int(text)`. -/
structure Readers where
  loads : String → Except LoadError Value
  int : String → Option ℤ

/-- `int(value)` where a `TypeError` or a `ValueError` gives `None`.  An infinity
raises an `OverflowError`. -/
def Readers.toInt (readers : Readers) : Value → Except String (Option ℤ)
  | .int value => .ok (some value)
  | .bool value => .ok (some (if value then 1 else 0))
  | .float (.finite value) => .ok (some (if 0 ≤ value then value.floor else value.ceil))
  | .float (.infinite _) => .error "OverflowError"
  | .float .nan => .ok none
  | .str value => .ok (readers.int value)
  | _ => .ok none

end Forail.Json
