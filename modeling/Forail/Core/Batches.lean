import Mathlib.Data.List.Basic
import Mathlib.Data.List.Flatten
import Mathlib.Data.List.Nodup

/-!
# Queries in batches

The rows with one of many keys are queried in batches of keys, each of which is answered
in the order of the database.
-/

namespace Forail.Batches

variable {Key Row : Type*}

/-- The batches of `size + 1` keys, of which the first one has `batch` and room for `room`
more. -/
def batchesFrom (size : ℕ) : ℕ → List Key → List Key → List (List Key)
  | _, batch, [] => [batch]
  | 0, batch, key :: keys => batch :: batchesFrom size size [key] keys
  | room + 1, batch, key :: keys => batchesFrom size room (batch ++ [key]) keys

/-- `_batch_size` -/
def batches (keys : List Key) : List (List Key) := batchesFrom 499 500 [] keys

/-- The rows with one of the keys, in the order in which they are fetched. -/
def select [DecidableEq Key] (inOrder : List Row → List Row) (key : Row → Key) (keys : List Key)
    (table : List Row) : List Row :=
  (batches keys).flatMap fun batch => inOrder (table.filter fun row => key row ∈ batch)

theorem flatten_batchesFrom (size room : ℕ) (batch keys : List Key) :
    (batchesFrom size room batch keys).flatten = batch ++ keys := by
  induction keys generalizing room batch with
  | nil => cases room <;> simp [batchesFrom]
  | cons key keys ih =>
    cases room with
    | zero => rw [batchesFrom, List.flatten_cons, ih, List.singleton_append]
    | succ room => rw [batchesFrom, ih, List.append_assoc, List.singleton_append]

theorem flatten_batches (keys : List Key) : (batches keys).flatten = keys :=
  flatten_batchesFrom 499 500 [] keys

variable [DecidableEq Key] {inOrder : List Row → List Row} {key : Row → Key} {keys : List Key}
  {table : List Row} {row : Row}

theorem mem_select (horder : ∀ rows, (inOrder rows).Perm rows) :
    row ∈ select inOrder key keys table ↔ row ∈ table ∧ key row ∈ keys := by
  rw [select, List.mem_flatMap]
  constructor
  · rintro ⟨batch, hbatch, hrow⟩
    obtain ⟨htable, hkey⟩ := List.mem_filter.mp ((horder _).mem_iff.mp hrow)
    refine ⟨htable, ?_⟩
    rw [← flatten_batches keys]
    exact List.mem_flatten.mpr ⟨batch, hbatch, of_decide_eq_true hkey⟩
  · rintro ⟨htable, hkey⟩
    rw [← flatten_batches keys] at hkey
    obtain ⟨batch, hbatch, hmem⟩ := List.mem_flatten.mp hkey
    exact ⟨batch, hbatch, (horder _).mem_iff.mpr (List.mem_filter.mpr ⟨htable, decide_eq_true hmem⟩)⟩

theorem select_filter (kept : Row → Bool)
    (hkept : ∀ row ∈ table, key row ∈ keys → kept row = true) :
    select inOrder key keys (table.filter kept) = select inOrder key keys table := by
  rw [select, select]
  apply List.flatMap_congr
  intro batch hbatch
  congr 1
  rw [List.filter_filter]
  apply List.filter_congr
  intro row hrow
  by_cases hkey : key row ∈ batch
  · have hmem : key row ∈ keys := by
      rw [← flatten_batches keys]
      exact List.mem_flatten.mpr ⟨batch, hbatch, hkey⟩
    rw [hkept row hrow hmem, Bool.and_true]
  · rw [decide_eq_false hkey, Bool.false_and]

theorem nodup_select (horder : ∀ rows, (inOrder rows).Perm rows) (hkeys : keys.Nodup)
    (htable : table.Nodup) : (select inOrder key keys table).Nodup := by
  rw [select, List.nodup_flatMap]
  constructor
  · intro batch _
    exact (horder _).nodup_iff.mpr (htable.filter _)
  · rw [← flatten_batches keys, List.nodup_flatten] at hkeys
    apply hkeys.2.imp
    intro left right hdisjoint row hleft hright
    have hinLeft := (List.mem_filter.mp ((horder _).mem_iff.mp hleft)).2
    have hinRight := (List.mem_filter.mp ((horder _).mem_iff.mp hright)).2
    exact hdisjoint (of_decide_eq_true hinLeft) (of_decide_eq_true hinRight)

end Forail.Batches
