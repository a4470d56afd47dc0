import Forail.Core.Grouping
import Forail.Core.Json

/-!
# Dictionaries of variables

A dictionary with string keys, and the lookups after it has been combined with another
one, restricted or mapped.
-/

namespace Forail.Json

abbrev Vars := AList fun _ : String => Value

def mapValues (f : String → Value → Value) (vars : Vars) : Vars :=
  ⟨vars.entries.map fun entry => ⟨entry.1, f entry.1 entry.2⟩, by
    rw [List.NodupKeys, List.keys, List.map_map]
    exact vars.nodupKeys⟩

def Vars.value (vars : Vars) : Value := .dict (vars.entries.map fun entry => (entry.1, entry.2))

variable {key : String}

theorem lookup_union (left right : Vars) :
    (left ∪ right).lookup key = (left.lookup key).or (right.lookup key) :=
  Grouping.lookup_combined left right key

theorem lookup_union_ne {left right : Vars} :
    (left ∪ right).lookup key ≠ right.lookup key ↔
      ∃ value, left.lookup key = some value ∧ right.lookup key ≠ some value := by
  rw [lookup_union]
  cases left.lookup key with
  | none => simp
  | some value => simp [eq_comm]

theorem lookup_mapValues (f : String → Value → Value) (vars : Vars) :
    (mapValues f vars).lookup key = (vars.lookup key).map (f key) :=
  List.dlookup_map₂ key

theorem lookup_filter (kept : String → Bool) (vars : Vars) :
    (vars.entries.filter fun entry => kept entry.1).toAList.lookup key =
      if kept key = true then vars.lookup key else none := by
  rw [AList.lookup_to_alist]
  change _ = if kept key = true then vars.entries.dlookup key else none
  induction vars.entries with
  | nil => exact (ite_self _).symm
  | cons entry entries ih =>
    obtain ⟨other, value⟩ := entry
    by_cases hkey : key = other
    · subst hkey
      rw [List.dlookup_cons_eq, List.filter_cons]
      split
      · rw [List.dlookup_cons_eq]
      · next hother => rw [ih, if_neg hother]
    · rw [List.dlookup_cons_ne _ _ hkey, ← ih, List.filter_cons]
      split
      · rw [List.dlookup_cons_ne _ _ hkey]
      · rfl

theorem lookup_filter_entries (kept : String → Value → Bool) (vars : Vars) :
    (vars.entries.filter fun entry => kept entry.1 entry.2).toAList.lookup key =
      (vars.lookup key).filter (kept key) := by
  have hkeys : (vars.entries.filter fun entry => kept entry.1 entry.2).NodupKeys :=
    List.NodupKeys.sublist List.filter_sublist vars.nodupKeys
  ext value
  rw [AList.lookup_to_alist, ← Option.mem_def, ← Option.mem_def, List.mem_dlookup_iff hkeys,
    List.mem_filter, Option.mem_filter_iff, AList.mem_lookup_iff]

/-- A loop over keys whose body edits the value of its key, where a second edit changes
nothing. -/
theorem lookup_foldl {step : Vars → String → Vars} {edit : String → Option Value → Option Value}
    (hstep : ∀ vars changed other, (step vars changed).lookup other =
      if other = changed then edit changed (vars.lookup changed) else vars.lookup other)
    (hagain : ∀ key value, edit key (edit key value) = edit key value)
    (keys : List String) (vars : Vars) :
    (keys.foldl step vars).lookup key =
      if key ∈ keys then edit key (vars.lookup key) else vars.lookup key := by
  induction keys generalizing vars with
  | nil => exact (if_neg List.not_mem_nil).symm
  | cons changed keys ih =>
    rw [List.foldl_cons, ih, hstep]
    by_cases hkey : key = changed
    · subst hkey
      rw [if_pos rfl, if_pos List.mem_cons_self, hagain, ite_self]
    · simp only [List.mem_cons, hkey, false_or, if_false]

theorem erase_of_lookup_eq_none {vars : Vars} (hnone : vars.lookup key = none) :
    vars.erase key = vars := by
  apply AList.ext
  exact List.kerase_of_notMem_keys (AList.lookup_eq_none.mp hnone)

/-! ## Dictionaries as values -/

theorem lookup_value (vars : Vars) (key : String) :
    (vars.entries.map fun entry => (entry.1, entry.2)).lookup key = vars.lookup key := by
  change _ = vars.entries.dlookup key
  induction vars.entries with
  | nil => rfl
  | cons entry entries ih =>
    obtain ⟨other, value⟩ := entry
    rw [List.map_cons, List.lookup_cons]
    by_cases hkey : key = other
    · subst hkey
      rw [beq_self_eq_true, List.dlookup_cons_eq]
    · rw [beq_false_of_ne hkey, List.dlookup_cons_ne _ _ hkey]
      exact ih

theorem lookup_isSome_of_equalEntries {entries others : List (String × Value)} {value : Value}
    (hequal : equalEntries entries others = true) (hmem : (key, value) ∈ entries) :
    (others.lookup key).isSome = true := by
  induction entries with
  | nil => exact absurd hmem List.not_mem_nil
  | cons entry entries ih =>
    obtain ⟨other, first⟩ := entry
    rw [equalEntries, Bool.and_eq_true] at hequal
    rcases List.mem_cons.mp hmem with hfirst | hrest
    · obtain ⟨rfl, rfl⟩ := Prod.mk.inj hfirst
      cases hlookup : others.lookup key with
      | none =>
        rw [hlookup] at hequal
        exact absurd hequal.1 Bool.false_ne_true
      | some right => rfl
    · exact ih hequal.2 hrest

theorem lookup_isSome_of_equal {left right : Vars} (hequal : left.value.equal right.value = true)
    (hleft : (left.lookup key).isSome = true) : (right.lookup key).isSome = true := by
  rw [Vars.value, Vars.value, Value.equal, Bool.and_eq_true] at hequal
  obtain ⟨value, hvalue⟩ := Option.isSome_iff_exists.mp hleft
  have hmem : (key, value) ∈ left.entries.map fun entry => (entry.1, entry.2) :=
    List.mem_map.mpr ⟨⟨key, value⟩, AList.mem_lookup_iff.mp hvalue, rfl⟩
  rw [← lookup_value right]
  exact lookup_isSome_of_equalEntries hequal.2 hmem

end Forail.Json
