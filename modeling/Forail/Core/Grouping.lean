import Mathlib.Data.List.AList
import Mathlib.Order.Basic

/-!
# Dictionaries that are filled in a loop

The rows of a query are collected under their keys, and the rows of another one each
assign the value that was built for them.
-/

namespace Forail.Grouping

variable {K V Row : Type*} [DecidableEq K]

abbrev Dict (K V : Type*) := AList fun _ : K => V

/-- `setdefault(key, []).append(value)` for each row. -/
def collect (rows : List (K × V)) : Dict K (List V) :=
  rows.foldl (fun dict row => dict.insert row.1 ((dict.lookup row.1).getD [] ++ [row.2])) ∅

/-- `dict[key] = value` for each row that has a value. -/
def assignAll (key : Row → K) (value : Row → Option V) (rows : List Row) (dict : Dict K V) :
    Dict K V :=
  rows.foldl (fun dict row =>
    match value row with
    | some value => dict.insert (key row) value
    | none => dict) dict

def last (value : Row → Option V) (rows : List Row) : Option V :=
  rows.reverse.findSome? value

theorem last_cons (value : Row → Option V) (row : Row) (rows : List Row) :
    last value (row :: rows) = (last value rows).or (value row) := by
  rw [last, List.reverse_cons, List.findSome?_append, List.findSome?_singleton, last]

theorem last_eq_none_iff {value : Row → Option V} {rows : List Row} :
    last value rows = none ↔ ∀ row ∈ rows, value row = none := by
  simp only [last, List.findSome?_eq_none_iff, List.mem_reverse]

theorem exists_of_last {value : Row → Option V} {rows : List Row} {found : V}
    (hlast : last value rows = some found) : ∃ row ∈ rows, value row = some found := by
  obtain ⟨row, hrow, hvalue⟩ := List.exists_of_findSome?_eq_some hlast
  exact ⟨row, List.mem_reverse.mp hrow, hvalue⟩

theorem last_map {W : Type*} (f : V → W) (value : Row → Option V) (rows : List Row) :
    last (fun row => (value row).map f) rows = (last value rows).map f := by
  induction rows with
  | nil => rfl
  | cons row rows ih => rw [last_cons, last_cons, ih, Option.map_or]

theorem last_eq_some_iff [Preorder Row] {value : Row → Option V} {rows : List Row} {found : V}
    (hsorted : rows.Pairwise (· < ·)) :
    last value rows = some found ↔ ∃ row ∈ rows, value row = some found ∧
      ∀ later ∈ rows, row < later → value later = none := by
  induction rows with
  | nil => simp [last]
  | cons head rows ih =>
    obtain ⟨hless, hrest⟩ := List.pairwise_cons.mp hsorted
    rw [last_cons, Option.or_eq_some_iff, ih hrest]
    constructor
    · intro hlast
      cases hlast with
      | inl hlater =>
        obtain ⟨row, hrow, hfound, hnone⟩ := hlater
        refine ⟨row, List.mem_cons_of_mem _ hrow, hfound, fun later hmem hlt => ?_⟩
        cases List.mem_cons.mp hmem with
        | inl hhead => exact absurd (hhead ▸ hless row hrow) (lt_asymm hlt)
        | inr hmem => exact hnone later hmem hlt
      | inr hhead =>
        refine ⟨head, List.mem_cons_self, hhead.2, fun later hmem hlt => ?_⟩
        cases List.mem_cons.mp hmem with
        | inl hsame => exact absurd (hsame ▸ hlt) (lt_irrefl head)
        | inr hmem => exact last_eq_none_iff.mp hhead.1 later hmem
    · intro hrow
      obtain ⟨row, hmem, hfound, hnone⟩ := hrow
      cases List.mem_cons.mp hmem with
      | inl hhead =>
        subst hhead
        refine Or.inr ⟨last_eq_none_iff.mpr fun later hlater => ?_, hfound⟩
        exact hnone later (List.mem_cons_of_mem _ hlater) (hless later hlater)
      | inr hmem =>
        exact Or.inl ⟨row, hmem, hfound,
          fun later hlater => hnone later (List.mem_cons_of_mem _ hlater)⟩

/-- The last value is another one exactly when a row has another one and no later row has
this one. -/
theorem last_ne_iff {value : Row → Option V} {rows : List Row} {wanted : V} :
    (∃ found, last value rows = some found ∧ found ≠ wanted) ↔
      ∃ first row rest, rows = first ++ row :: rest ∧
        (∃ found, value row = some found ∧ found ≠ wanted) ∧
        ∀ later ∈ rest, value later ≠ some wanted := by
  induction rows with
  | nil => simp [last]
  | cons row rows ih =>
    rw [last_cons]
    constructor
    · intro hlast
      obtain ⟨found, hfound, hne⟩ := hlast
      cases hrest : last value rows with
      | some found' =>
        rw [hrest, Option.some_or] at hfound
        obtain ⟨first, other, rest, rfl, hother⟩ :=
          ih.mp ⟨found, hrest.trans hfound, hne⟩
        exact ⟨row :: first, other, rest, rfl, hother⟩
      | none =>
        rw [hrest, Option.none_or] at hfound
        refine ⟨[], row, rows, rfl, ⟨found, hfound, hne⟩, fun later hlater => ?_⟩
        rw [last_eq_none_iff.mp hrest later hlater]
        exact nofun
    · intro hsplit
      obtain ⟨first, other, rest, hrows, ⟨found, hfound, hne⟩, hlater⟩ := hsplit
      cases first with
      | cons head first =>
        obtain ⟨-, rfl⟩ := List.cons.inj hrows
        obtain ⟨found', hlast, hne'⟩ :=
          ih.mpr ⟨first, other, rest, rfl, ⟨found, hfound, hne⟩, hlater⟩
        exact ⟨found', by rw [hlast, Option.some_or], hne'⟩
      | nil =>
        obtain ⟨rfl, rfl⟩ := List.cons.inj hrows
        cases hrest : last value rows with
        | none => exact ⟨found, by rw [Option.none_or, hfound], hne⟩
        | some found' =>
          obtain ⟨later, hmem, hvalue⟩ := exists_of_last hrest
          refine ⟨found', rfl, fun hsame => hlater later hmem ?_⟩
          rw [hvalue, hsame]

theorem lookup_foldl_collect (rows : List (K × V)) (dict : Dict K (List V)) (key : K) :
    ((rows.foldl (fun dict row => dict.insert row.1 ((dict.lookup row.1).getD [] ++ [row.2]))
      dict).lookup key).getD [] =
        (dict.lookup key).getD [] ++ (rows.filter fun row => row.1 = key).map Prod.snd := by
  induction rows generalizing dict with
  | nil => exact (List.append_nil _).symm
  | cons row rows ih =>
    rw [List.foldl_cons, ih, List.filter_cons]
    by_cases hkey : row.1 = key
    · rw [hkey, AList.lookup_insert, Option.getD_some, if_pos (decide_eq_true rfl), List.map_cons,
        List.append_assoc, List.singleton_append]
    · rw [AList.lookup_insert_ne (Ne.symm hkey), if_neg (mt of_decide_eq_true hkey)]

theorem mem_lookup_collect {rows : List (K × V)} {key : K} {value : V} :
    value ∈ ((collect rows).lookup key).getD [] ↔ (key, value) ∈ rows := by
  have hlookup : ((collect rows).lookup key).getD [] =
      (rows.filter fun row => row.1 = key).map Prod.snd :=
    lookup_foldl_collect rows ∅ key
  rw [hlookup, List.mem_map]
  constructor
  · intro hrow
    obtain ⟨row, hrow, rfl⟩ := hrow
    obtain ⟨hrow, hkey⟩ := List.mem_filter.mp hrow
    rwa [← of_decide_eq_true hkey]
  · exact fun hrow => ⟨(key, value), List.mem_filter.mpr ⟨hrow, decide_eq_true rfl⟩, rfl⟩

theorem lookup_singleton (key other : K) (value : V) :
    (AList.singleton key value : Dict K V).lookup other =
      if other = key then some value else none := by
  by_cases hkey : other = key
  · rw [hkey, if_pos rfl]
    exact List.dlookup_cons_eq _ _ _
  · rw [if_neg hkey, AList.lookup_eq_none, AList.mem_keys, AList.keys_singleton,
      List.mem_singleton]
    exact hkey

variable {keyOf : Row → K} {value : Row → Option V}

theorem lookup_assignAll (rows : List Row) (dict : Dict K V) (key : K) :
    (assignAll keyOf value rows dict).lookup key =
      (last (fun row => if keyOf row = key then value row else none) rows).or
        (dict.lookup key) := by
  induction rows generalizing dict with
  | nil => rfl
  | cons row rows ih =>
    rw [assignAll, List.foldl_cons, last_cons, Option.or_assoc]
    refine (ih _).trans (congrArg (Option.or _) ?_)
    by_cases hkey : keyOf row = key
    · rw [if_pos hkey]
      cases value row with
      | none => rfl
      | some found => exact hkey ▸ AList.lookup_insert dict
    · rw [if_neg hkey, Option.none_or]
      split
      · exact AList.lookup_insert_ne (Ne.symm hkey)
      · rfl

theorem last_of_unique {rows : List Row} {row : Row} (hrow : row ∈ rows)
    (hother : ∀ other ∈ rows, other ≠ row → value other = none) :
    last value rows = value row := by
  cases hlast : last value rows with
  | none => exact (last_eq_none_iff.mp hlast row hrow).symm
  | some found =>
    obtain ⟨other, hmem, hvalue⟩ := exists_of_last hlast
    by_cases hsame : other = row
    · rw [← hvalue, hsame]
    · rw [hother other hmem hsame] at hvalue
      exact absurd hvalue.symm (Option.some_ne_none found)

theorem lookup_assignAll_of_notMem {rows : List Row} {key : K} (hkey : key ∉ rows.map keyOf)
    (dict : Dict K V) : (assignAll keyOf value rows dict).lookup key = dict.lookup key := by
  rw [lookup_assignAll, last_eq_none_iff.mpr, Option.none_or]
  exact fun row hrow => if_neg fun hsame => hkey (List.mem_map.mpr ⟨row, hrow, hsame⟩)

theorem lookup_assignAll_of_mem {rows : List Row} (hkeys : (rows.map keyOf).Nodup) {row : Row}
    (hrow : row ∈ rows) (dict : Dict K V) :
    (assignAll keyOf value rows dict).lookup (keyOf row) =
      (value row).or (dict.lookup (keyOf row)) := by
  rw [lookup_assignAll, last_of_unique hrow, if_pos rfl]
  intro other hother hne
  exact if_neg fun hsame => hne (List.inj_on_of_nodup_map hkeys hother hrow hsame)

theorem lookup_assignAll_const (keys : List K) (value : V) (dict : Dict K V) (key : K) :
    (assignAll id (fun _ => some value) keys dict).lookup key =
      if key ∈ keys then some value else dict.lookup key := by
  rw [lookup_assignAll]
  by_cases hkey : key ∈ keys
  · have hlast : last (fun row : K => if id row = key then some value else none) keys ≠ none := by
      intro hnone
      have hrow := last_eq_none_iff.mp hnone key hkey
      rw [if_pos (id_eq key)] at hrow
      exact Option.some_ne_none value hrow
    obtain ⟨found, hfound⟩ := Option.ne_none_iff_exists'.mp hlast
    obtain ⟨row, -, hrow⟩ := exists_of_last hfound
    rw [if_pos hkey, hfound, Option.some_or]
    exact (Option.ite_none_right_eq_some.mp hrow).2.symm
  · rw [if_neg hkey, last_eq_none_iff.mpr, Option.none_or]
    intro row hrow
    refine if_neg fun hsame => hkey ?_
    rwa [← hsame]

theorem last_entries {V' : Type*} (dict : Dict K V) (value : V → Option V') (key : K) :
    last (fun entry : Sigma fun _ : K => V => if entry.1 = key then value entry.2 else none)
      dict.entries = (dict.lookup key).bind value := by
  cases hlookup : dict.lookup key with
  | none =>
    refine last_eq_none_iff.mpr fun entry hentry => if_neg fun hkey => ?_
    have hmem := AList.mem_keys.mpr (List.mem_map_of_mem hentry)
    exact AList.lookup_eq_none.mp hlookup (hkey ▸ hmem)
  | some found =>
    have hentry := AList.mem_lookup_iff.mp hlookup
    rw [last_of_unique hentry, if_pos rfl, Option.bind_some]
    intro other hother hne
    exact if_neg fun hkey => hne (List.inj_on_of_nodup_map dict.keys_nodup hother hentry hkey)

theorem lookup_assignAll_entries {V' : Type*} (dict : Dict K V) (value : V → Option V') (key : K) :
    (assignAll (fun entry : Sigma fun _ : K => V => entry.1) (fun entry => value entry.2)
      dict.entries ∅).lookup key = (dict.lookup key).bind value := by
  rw [lookup_assignAll, last_entries, AList.lookup_empty, Option.or_none]

theorem mem_assignAll_some (value : Row → V) {rows : List Row} {key : K} (dict : Dict K V) :
    key ∈ assignAll keyOf (fun row => some (value row)) rows dict ↔
      key ∈ rows.map keyOf ∨ key ∈ dict := by
  induction rows generalizing dict with
  | nil => exact (or_iff_right List.not_mem_nil).symm
  | cons row rows ih =>
    rw [assignAll, List.foldl_cons]
    refine (ih _).trans ?_
    rw [AList.mem_insert, List.map_cons, List.mem_cons, or_left_comm, or_assoc]

theorem lookup_assignAll_of_perm {rows others : List Row} (hperm : rows.Perm others)
    (hkeys : (rows.map keyOf).Nodup) (dict : Dict K V) (key : K) :
    (assignAll keyOf value rows dict).lookup key =
      (assignAll keyOf value others dict).lookup key := by
  by_cases hkey : key ∈ rows.map keyOf
  · obtain ⟨row, hrow, rfl⟩ := List.mem_map.mp hkey
    have hothers : (others.map keyOf).Nodup := (hperm.map keyOf).nodup_iff.mp hkeys
    rw [lookup_assignAll_of_mem hkeys hrow, lookup_assignAll_of_mem hothers (hperm.mem_iff.mp hrow)]
  · have hother : key ∉ others.map keyOf := fun hmem => hkey ((hperm.map keyOf).mem_iff.mpr hmem)
    rw [lookup_assignAll_of_notMem hkey, lookup_assignAll_of_notMem hother]

theorem lookup_combined (left right : Dict K V) (key : K) :
    (left ∪ right).lookup key = (left.lookup key).or (right.lookup key) := by
  by_cases hleft : key ∈ left
  · obtain ⟨value, hvalue⟩ := Option.isSome_iff_exists.mp (AList.lookup_isSome.mpr hleft)
    rw [AList.lookup_union_left hleft, hvalue, Option.some_or]
  · rw [AList.lookup_union_right hleft, AList.lookup_eq_none.mpr hleft, Option.none_or]

theorem mem_values {dict : Dict K V} {value : V} :
    value ∈ dict.entries.map Sigma.snd ↔ ∃ key, dict.lookup key = some value := by
  rw [List.mem_map]
  constructor
  · intro hentry
    obtain ⟨entry, hentry, rfl⟩ := hentry
    exact ⟨entry.1, AList.mem_lookup_iff.mpr hentry⟩
  · intro hlookup
    obtain ⟨key, hlookup⟩ := hlookup
    exact ⟨⟨key, value⟩, AList.mem_lookup_iff.mp hlookup, rfl⟩

end Forail.Grouping
