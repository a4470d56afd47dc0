import Forail.Core.Grouping
import Mathlib.Data.List.Induction

/-!
# Desired states

Dictionaries of dictionaries that are filled by assignments, of which the last one counts,
and a list of items that is brought to the states desired for some of them.
-/

namespace Forail.DesiredStates

open Forail.Grouping
open scoped List

/-! ## Dictionaries of dictionaries -/

section Nested

variable {Outer Inner Value Row : Type*} [DecidableEq Outer] [DecidableEq Inner]

abbrev Nested (Outer Inner Value : Type*) := Dict Outer (Dict Inner Value)

/-- `dict.get(outer, {}).get(inner)` -/
def lookupAt (dict : Nested Outer Inner Value) (outer : Outer) (inner : Inner) : Option Value :=
  (dict.lookup outer).bind fun values => values.lookup inner

/-- `dict.setdefault(outer, {})[inner] = value` -/
def assignAt (dict : Nested Outer Inner Value) (outer : Outer) (inner : Inner) (value : Value) :
    Nested Outer Inner Value :=
  dict.insert outer (((dict.lookup outer).getD ∅).insert inner value)

@[simp]
theorem lookupAt_empty (outer : Outer) (inner : Inner) :
    lookupAt (∅ : Nested Outer Inner Value) outer inner = none := by
  rw [lookupAt, AList.lookup_empty, Option.bind_none]

theorem lookupAt_assignAt (dict : Nested Outer Inner Value) (outer outer' : Outer)
    (inner inner' : Inner) (value : Value) :
    lookupAt (assignAt dict outer inner value) outer' inner' =
      if outer' = outer ∧ inner' = inner then some value else lookupAt dict outer' inner' := by
  by_cases houter : outer' = outer
  · subst houter
    rw [lookupAt, assignAt, AList.lookup_insert, Option.bind_some]
    by_cases hinner : inner' = inner
    · rw [hinner, AList.lookup_insert, if_pos ⟨rfl, rfl⟩]
    · rw [AList.lookup_insert_ne hinner, if_neg fun hboth => hinner hboth.2, lookupAt]
      cases dict.lookup outer' with
      | none => exact AList.lookup_empty inner'
      | some values => rfl
  · rw [lookupAt, assignAt, AList.lookup_insert_ne houter, if_neg fun hboth => houter hboth.1,
      lookupAt]

/-- The assignments of the rows that have a value. -/
def assignAllAt (outer : Row → Outer) (inner : Row → Inner) (value : Row → Option Value)
    (rows : List Row) (dict : Nested Outer Inner Value) : Nested Outer Inner Value :=
  rows.foldl (fun dict row =>
    match value row with
    | some value => assignAt dict (outer row) (inner row) value
    | none => dict) dict

/-- The value of the last row that has one for a pair of keys. -/
def lastAt (outer : Row → Outer) (inner : Row → Inner) (value : Row → Option Value)
    (key : Outer) (key' : Inner) (rows : List Row) : Option Value :=
  last (fun row => if outer row = key ∧ inner row = key' then value row else none) rows

variable {outer : Row → Outer} {inner : Row → Inner} {value : Row → Option Value} {rows : List Row}
  {key : Outer} {key' : Inner}

theorem lookupAt_assignAllAt (rows : List Row) (dict : Nested Outer Inner Value) (key : Outer)
    (key' : Inner) :
    lookupAt (assignAllAt outer inner value rows dict) key key' =
      (lastAt outer inner value key key' rows).or (lookupAt dict key key') := by
  induction rows generalizing dict with
  | nil => rfl
  | cons row rows ih =>
    rw [assignAllAt, List.foldl_cons, lastAt, last_cons, Option.or_assoc]
    refine (ih _).trans (congrArg (Option.or _) ?_)
    cases value row with
    | none => rw [ite_self, Option.none_or]
    | some assigned =>
      refine (lookupAt_assignAt dict _ _ _ _ _).trans ?_
      by_cases hkeys : outer row = key ∧ inner row = key'
      · rw [if_pos hkeys, if_pos ⟨hkeys.1.symm, hkeys.2.symm⟩, Option.some_or]
      · rw [if_neg hkeys, if_neg fun hsame => hkeys ⟨hsame.1.symm, hsame.2.symm⟩, Option.none_or]

theorem lookupAt_assignAllAt_same {assigned : Value} (rows : List Row)
    (dict : Nested Outer Inner Value) (key : Outer) (key' : Inner) :
    lookupAt (assignAllAt outer inner (fun _ => some assigned) rows dict) key key' =
      if ∃ row ∈ rows, outer row = key ∧ inner row = key' then some assigned
      else lookupAt dict key key' := by
  rw [lookupAt_assignAllAt]
  split
  · next hrow =>
    obtain ⟨row, hmem, hkeys⟩ := hrow
    cases hlast : lastAt outer inner (fun _ => some assigned) key key' rows with
    | none =>
      have hnone := last_eq_none_iff.mp hlast row hmem
      rw [if_pos hkeys] at hnone
      exact absurd hnone (Option.some_ne_none _)
    | some found =>
      obtain ⟨other, -, hvalue⟩ := exists_of_last hlast
      rw [Option.some_or, ← (Option.ite_none_right_eq_some.mp hvalue).2]
  · next hrow =>
    rw [lastAt, last_eq_none_iff.mpr, Option.none_or]
    exact fun row hmem => if_neg fun hkeys => hrow ⟨row, hmem, hkeys⟩

/-- The last entry of a dictionary that names a pair of keys is the one under the inner key. -/
theorem lastAt_entries {Key Value' : Type*} [DecidableEq Key] (dict : Dict Key Value')
    (outer : Value' → Outer) {name : Key → Inner} (hname : Function.Injective name)
    (value : Value' → Option Value) (key : Outer) (key' : Key) :
    lastAt (fun entry : Sigma fun _ : Key => Value' => outer entry.2) (fun entry => name entry.1)
      (fun entry => value entry.2) key (name key') dict.entries =
        (dict.lookup key').bind fun found => if outer found = key then value found else none := by
  rw [← last_entries, lastAt]
  refine congrArg (fun value => last value dict.entries) (funext fun entry => ?_)
  rw [← ite_and]
  exact if_congr (and_comm.trans (and_congr_left' hname.eq_iff)) rfl rfl

end Nested

/-! ## Items in desired states -/

section Settle

variable {Item : Type*} [DecidableEq Item]

/-- An item is added or removed unless the snapshot shows that it is so already. -/
def settle (snapshot items : List Item) (item : Item) : Option Bool → List Item
  | none => items
  | some true => if item ∈ snapshot then items else items ++ [item]
  | some false => if item ∈ snapshot then items.filter fun other => other ≠ item else items

def settleAll (snapshot : List Item) (desired : List (Item × Option Bool)) (items : List Item) :
    List Item :=
  desired.foldl (fun items entry => settle snapshot items entry.1 entry.2) items

theorem mem_settle {snapshot items : List Item} {item other : Item} {state : Option Bool} :
    item ∈ settle snapshot items other state ↔
      (item = other ∧ state = some true ∧ item ∉ snapshot) ∨
        (item ∈ items ∧ (item = other → state = some false → item ∉ snapshot)) := by
  cases state with
  | none => simp [settle]
  | some wanted =>
    by_cases hother : item = other
    · subst hother
      cases wanted <;> by_cases hsnapshot : item ∈ snapshot <;> simp [settle, hsnapshot]
    · cases wanted <;> by_cases hsnapshot : other ∈ snapshot <;> simp [settle, hsnapshot, hother]

/-- When the desired states agree and the snapshot is right about them, the items are in
their desired states, and the others are left alone. -/
theorem mem_settleAll {snapshot items : List Item} {desired : List (Item × Option Bool)}
    (hagree : ∀ item, (item, some true) ∈ desired → (item, some false) ∉ desired)
    (hsnapshot : ∀ item state, (item, some state) ∈ desired → (item ∈ snapshot ↔ item ∈ items))
    (item : Item) :
    item ∈ settleAll snapshot desired items ↔
      (item, some true) ∈ desired ∨ (item ∈ items ∧ (item, some false) ∉ desired) := by
  induction desired using List.reverseRecOn with
  | nil => simp [settleAll]
  | append_singleton desired entry ih =>
    obtain ⟨other, state⟩ := entry
    have hearlier := ih
      (fun item htrue hfalse =>
        hagree item (List.mem_append_left _ htrue) (List.mem_append_left _ hfalse))
      fun item state hdesired => hsnapshot item state (List.mem_append_left _ hdesired)
    rw [settleAll, List.foldl_append, List.foldl_cons, List.foldl_nil, mem_settle]
    change _ ∨ (item ∈ settleAll snapshot desired items ∧ _) ↔ _
    rw [hearlier]
    simp only [List.mem_append, List.mem_singleton, Prod.mk.injEq]
    by_cases hother : item = other
    · subst hother
      have hagree' := hagree item
      have hsnapshot' := hsnapshot item
      simp only [List.mem_append, List.mem_singleton, Prod.mk.injEq, true_and]
        at hagree' hsnapshot' ⊢
      cases state with
      | none => simp
      | some wanted =>
        have hitem := hsnapshot' wanted (.inr rfl)
        cases wanted <;> grind
    · simp [hother]

end Settle

end Forail.DesiredStates
