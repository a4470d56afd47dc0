import Mathlib.Data.List.Nodup
import Mathlib.Data.List.Pairwise

/-!
# Dictionaries in insertion order

A dictionary that is read from its oldest key to its newest.  An assignment to a known
key leaves the key where it is.
-/

namespace Forail.OrderedDicts

variable {K V Row : Type*} [DecidableEq K]

abbrev OrderedDict (K V : Type*) := List (K × V)

def lookup (dict : OrderedDict K V) (key : K) : Option V :=
  (dict.find? fun entry => entry.1 = key).map Prod.snd

/-- The value under `key` is changed; an unknown key is appended with the change of
`fresh`. -/
def upsert (fresh : V) (change : V → V) (key : K) : OrderedDict K V → OrderedDict K V
  | [] => [(key, change fresh)]
  | entry :: dict =>
      if entry.1 = key then (entry.1, change entry.2) :: dict
      else entry :: upsert fresh change key dict

def upsertAll (fresh : V) (key : Row → K) (change : Row → V → V) (rows : List Row)
    (dict : OrderedDict K V) : OrderedDict K V :=
  rows.foldl (fun dict row => upsert fresh (change row) (key row) dict) dict

variable {fresh : V} {change : V → V} {key other : K} {dict : OrderedDict K V}

theorem lookup_cons (entry : K × V) :
    lookup (entry :: dict) other = if entry.1 = other then some entry.2 else lookup dict other := by
  rw [lookup, List.find?_cons]
  by_cases hkey : entry.1 = other
  · rw [if_pos hkey, decide_eq_true hkey]
    rfl
  · rw [if_neg hkey, decide_eq_false hkey]
    rfl

theorem lookup_upsert : lookup (upsert fresh change key dict) other =
    if key = other then some (change ((lookup dict key).getD fresh)) else lookup dict other := by
  induction dict with
  | nil => rw [upsert, lookup_cons]; rfl
  | cons entry dict ih =>
    rw [upsert]
    by_cases hentry : entry.1 = key
    · rw [if_pos hentry, lookup_cons, lookup_cons, lookup_cons, if_pos hentry]
      simp only [hentry]
      split <;> rfl
    · rw [if_neg hentry, lookup_cons, ih, lookup_cons, lookup_cons, if_neg hentry]
      by_cases hother : entry.1 = other
      · rw [if_pos hother, if_pos hother, if_neg fun hkey => hentry (hother.trans hkey.symm)]
      · rw [if_neg hother, if_neg hother]

theorem keys_upsert : (upsert fresh change key dict).map Prod.fst =
    if key ∈ dict.map Prod.fst then dict.map Prod.fst else dict.map Prod.fst ++ [key] := by
  induction dict with
  | nil => rfl
  | cons entry dict ih =>
    rw [upsert]
    by_cases hentry : entry.1 = key
    · rw [if_pos hentry, if_pos (by simp [hentry])]
      rfl
    · rw [if_neg hentry, List.map_cons, ih, List.map_cons]
      by_cases hkey : key ∈ dict.map Prod.fst
      · rw [if_pos hkey, if_pos (List.mem_cons_of_mem _ hkey)]
      · have hnot : key ∉ entry.1 :: dict.map Prod.fst :=
          List.not_mem_cons_of_ne_of_not_mem (Ne.symm hentry) hkey
        rw [if_neg hkey, if_neg hnot]
        rfl

variable {keyOf : Row → K} {changeOf : Row → V → V}

theorem keys_upsertAll {rows : List Row} (hkeys : (rows.map keyOf).Nodup)
    (dict : OrderedDict K V) :
    (upsertAll fresh keyOf changeOf rows dict).map Prod.fst =
      dict.map Prod.fst ++ (rows.map keyOf).filter (· ∉ dict.map Prod.fst) := by
  induction rows generalizing dict with
  | nil => simp [upsertAll]
  | cons row rows ih =>
    obtain ⟨hfresh, hrest⟩ := List.nodup_cons.mp hkeys
    rw [upsertAll, List.foldl_cons]
    refine (ih hrest _).trans ?_
    rw [keys_upsert, List.map_cons, List.filter_cons]
    by_cases hknown : keyOf row ∈ dict.map Prod.fst
    · rw [if_pos hknown, if_neg (by simpa using hknown)]
    · rw [if_neg hknown, if_pos (by simpa using hknown), List.append_assoc,
        List.singleton_append]
      have hother : ∀ key ∈ rows.map keyOf,
          (key ∉ dict.map Prod.fst ++ [keyOf row] ↔ key ∉ dict.map Prod.fst) := by
        intro key hkey
        have hne : key ≠ keyOf row := fun hsame => hfresh (hsame ▸ hkey)
        rw [List.mem_append, List.mem_singleton, or_iff_left hne]
      rw [List.filter_congr fun key hkey => decide_eq_decide.mpr (hother key hkey)]

theorem lookup_upsertAll {rows : List Row} (hkeys : (rows.map keyOf).Nodup)
    (dict : OrderedDict K V) (key : K) :
    lookup (upsertAll fresh keyOf changeOf rows dict) key =
      match rows.find? fun row => keyOf row = key with
      | some row => some (changeOf row ((lookup dict key).getD fresh))
      | none => lookup dict key := by
  induction rows generalizing dict with
  | nil => rfl
  | cons row rows ih =>
    obtain ⟨hfresh, hrest⟩ := List.nodup_cons.mp hkeys
    rw [upsertAll, List.foldl_cons]
    refine (ih hrest _).trans ?_
    rw [lookup_upsert, List.find?_cons]
    by_cases hkey : keyOf row = key
    · have hnone : rows.find? (fun row => keyOf row = key) = none := by
        apply List.find?_eq_none.mpr
        intro other hother hsame
        refine hfresh (List.mem_map.mpr ⟨other, hother, ?_⟩)
        rw [of_decide_eq_true hsame, hkey]
      rw [hnone, if_pos hkey, decide_eq_true hkey, hkey]
    · rw [if_neg hkey, decide_eq_false hkey]

/-- In a list in which nothing holds after it has failed, the elements that have a property
are the first ones. -/
theorem takeWhile_eq_filter {α : Type*} {p : α → Bool} {l : List α}
    (hpairwise : l.Pairwise fun first second => p second = true → p first = true) :
    l.takeWhile p = l.filter p := by
  induction l with
  | nil => rfl
  | cons head l ih =>
    obtain ⟨hhead, htail⟩ := List.pairwise_cons.mp hpairwise
    rw [List.takeWhile_cons, List.filter_cons]
    by_cases hp : p head = true
    · rw [if_pos hp, if_pos hp, ih htail]
    · rw [if_neg hp, if_neg hp, eq_comm, List.filter_eq_nil_iff]
      exact fun other hother hother' => hp (hhead other hother hother')

end Forail.OrderedDicts
