import Mathlib.Data.List.Basic

/-!
# Tables with generated keys

The rows of a table are stored under consecutive numbers, and a deleted row leaves a gap.
A row is got by what identifies it for the outside, or created under the next number when
there is none.
-/

namespace Forail.Tables

structure Table (Row : Type*) where
  slots : List (Option Row)

namespace Table

variable {Row Key : Type*} {key : Row → Key} {wanted : Key}
  {table table' : Table Row} {row new : Row} {pk other : ℕ} {created : Bool}

def get? (table : Table Row) (pk : ℕ) : Option Row := (table.slots[pk]?).join

def nextPk (table : Table Row) : ℕ := table.slots.length

def insert (row : Row) (table : Table Row) : Table Row := ⟨table.slots ++ [some row]⟩

def update (pk : ℕ) (row : Row) (table : Table Row) : Table Row :=
  ⟨table.slots.set pk (some row)⟩

theorem lt_nextPk (hrow : table.get? pk = some row) : pk < table.nextPk := by
  rw [get?, Option.join_eq_some_iff] at hrow
  exact (List.getElem?_eq_some_iff.mp hrow).1

theorem get?_nextPk (table : Table Row) : table.get? table.nextPk = none := by
  rw [get?, nextPk, List.getElem?_eq_none (Nat.le_refl _), Option.join_none]

theorem get?_insert_self (row : Row) (table : Table Row) :
    (table.insert row).get? table.nextPk = some row := by
  rw [get?, insert, nextPk, List.getElem?_concat_length, Option.join_some]

theorem get?_insert_ne (row : Row) (hne : pk ≠ table.nextPk) :
    (table.insert row).get? pk = table.get? pk := by
  rw [get?, get?, insert]
  rcases Nat.lt_or_gt_of_ne hne with hlt | hgt
  · rw [List.getElem?_append_left hlt]
  · have hbeyond : (table.slots ++ [some row]).length ≤ pk := by
      rw [List.length_append, List.length_singleton]
      exact hgt
    rw [List.getElem?_eq_none hbeyond, List.getElem?_eq_none (Nat.le_of_lt hgt)]

theorem get?_update_self (row : Row) (hpk : pk < table.nextPk) :
    (table.update pk row).get? pk = some row := by
  rw [get?, update, List.getElem?_set_self hpk, Option.join_some]

theorem get?_update_ne (row : Row) (hne : other ≠ pk) :
    (table.update pk row).get? other = table.get? other := by
  rw [get?, get?, update, List.getElem?_set_ne hne.symm]

/-- A row is created when none has the key, and is the only one with the key otherwise. -/
inductive Got (key : Row → Key) (wanted : Key) (new : Row) (table : Table Row) :
    Table Row → ℕ → Bool → Prop where
  | created (hnone : ∀ pk row, table.get? pk = some row → key row ≠ wanted) :
      Got key wanted new table (table.insert new) table.nextPk true
  | found {pk : ℕ} {row : Row} (hrow : table.get? pk = some row) (hkey : key row = wanted)
      (honly : ∀ other row, table.get? other = some row → key row = wanted → other = pk) :
      Got key wanted new table table pk false

theorem Got.exists (hgot : Got key wanted new table table' pk created) :
    ∃ row, table'.get? pk = some row := by
  cases hgot with
  | created _ => exact ⟨new, get?_insert_self new table⟩
  | found hrow _ _ => exact ⟨_, hrow⟩

theorem Got.get?_ne (hgot : Got key wanted new table table' pk created) (hne : other ≠ pk) :
    table'.get? other = table.get? other := by
  cases hgot with
  | created _ => exact get?_insert_ne new hne
  | found _ _ _ => rfl

variable [DecidableEq Key]

def matching (key : Row → Key) (wanted : Key) (table : Table Row) : List ℕ :=
  (List.range table.nextPk).filter fun pk => (table.get? pk).any fun row => key row = wanted

/-- The number of the row with the key, of a new one when there is none, and whether it is new.
Several rows with the key are an error. -/
def getOrCreate (key : Row → Key) (wanted : Key) (new : Row) (table : Table Row) :
    Option (Table Row × ℕ × Bool) :=
  match table.matching key wanted with
  | [] => some (table.insert new, table.nextPk, true)
  | [pk] => some (table, pk, false)
  | _ => none

theorem mem_matching :
    pk ∈ table.matching key wanted ↔ ∃ row, table.get? pk = some row ∧ key row = wanted := by
  rw [matching, List.mem_filter, List.mem_range, Option.any_eq_true]
  constructor
  · rintro ⟨-, row, hrow, hkey⟩
    exact ⟨row, hrow, of_decide_eq_true hkey⟩
  · rintro ⟨row, hrow, hkey⟩
    exact ⟨lt_nextPk hrow, row, hrow, decide_eq_true hkey⟩

theorem got_of_getOrCreate
    (hgot : table.getOrCreate key wanted new = some (table', pk, created)) :
    Got key wanted new table table' pk created := by
  rw [getOrCreate] at hgot
  split at hgot
  · next hmatching =>
    obtain ⟨rfl, rfl, rfl⟩ : table.insert new = table' ∧ table.nextPk = pk ∧ true = created := by
      simpa using hgot
    apply Got.created
    intro pk row hrow hkey
    have hmem : pk ∈ table.matching key wanted := mem_matching.mpr ⟨row, hrow, hkey⟩
    rw [hmatching] at hmem
    exact List.not_mem_nil hmem
  · next found hmatching =>
    obtain ⟨rfl, rfl, rfl⟩ : table = table' ∧ found = pk ∧ false = created := by simpa using hgot
    have hfound : found ∈ table.matching key wanted := by
      rw [hmatching]
      exact List.mem_singleton_self found
    obtain ⟨row, hrow, hkey⟩ := mem_matching.mp hfound
    apply Got.found hrow hkey
    intro other row' hrow' hkey'
    have hmem : other ∈ table.matching key wanted := mem_matching.mpr ⟨row', hrow', hkey'⟩
    rw [hmatching] at hmem
    exact List.mem_singleton.mp hmem
  · exact absurd hgot.symm (Option.some_ne_none _)

end Table

end Forail.Tables
