import Mathlib.Data.List.NodupEquivFin
import Mathlib.Data.Multiset.UnionInter
import Mathlib.Data.Nat.ModEq

/-!
# Every n-th element of a list

Python's slice `xs[offset::step]`.  Two lists from which the same positions are
taken agree on them only as long as nothing shifts one list against the other.
-/

namespace Forail.Stride

open scoped List

variable {α : Type*} {step offset : ℕ} {xs ys : List α} {x : α}

def stride (step : ℕ) : ℕ → List α → List α
  | _, [] => []
  | 0, x :: xs => x :: stride step (step - 1) xs
  | offset + 1, _ :: xs => stride step offset xs

theorem getElem?_stride (hstep : 0 < step) (offset index : ℕ) (xs : List α) :
    (stride step offset xs)[index]? = xs[offset + index * step]? := by
  induction xs generalizing offset index with
  | nil => simp [stride]
  | cons x xs ih =>
    cases offset with
    | zero =>
      rw [stride]
      cases index with
      | zero => simp
      | succ index =>
        have hindex : 0 + (index + 1) * step = (step - 1 + index * step) + 1 := by
          rw [Nat.succ_mul]
          omega
        rw [List.getElem?_cons_succ, ih, hindex, List.getElem?_cons_succ]
    | succ offset =>
      have hindex : offset + 1 + index * step = (offset + index * step) + 1 := by omega
      rw [stride, ih, hindex, List.getElem?_cons_succ]

theorem mem_stride_iff (hoffset : offset < step) :
    x ∈ stride step offset xs ↔ ∃ index, index % step = offset ∧ xs[index]? = some x := by
  have hstep : 0 < step := Nat.zero_lt_of_lt hoffset
  rw [List.mem_iff_getElem?]
  constructor
  · rintro ⟨index, hindex⟩
    rw [getElem?_stride hstep] at hindex
    refine ⟨offset + index * step, ?_, hindex⟩
    rw [Nat.add_mul_mod_self_right, Nat.mod_eq_of_lt hoffset]
  · rintro ⟨index, rfl, hindex⟩
    refine ⟨index / step, ?_⟩
    rw [getElem?_stride hstep, Nat.mod_add_div', hindex]

theorem map_stride {β : Type*} (f : α → β) (step offset : ℕ) (xs : List α) :
    (stride step offset xs).map f = stride step offset (xs.map f) := by
  induction xs generalizing offset with
  | nil => rfl
  | cons x xs ih =>
    cases offset with
    | zero => rw [stride, List.map_cons, ih, List.map_cons, stride]
    | succ offset => rw [stride, ih, List.map_cons, stride]

theorem stride_one (xs : List α) : stride 1 0 xs = xs := by
  refine List.ext_getElem? fun index => ?_
  rw [getElem?_stride Nat.one_pos, Nat.zero_add, Nat.mul_one]

theorem stride_sublist (step offset : ℕ) (xs : List α) : (stride step offset xs).Sublist xs := by
  induction xs generalizing offset with
  | nil => exact .refl []
  | cons x xs ih =>
    cases offset with
    | zero => exact (ih _).cons_cons x
    | succ offset => exact (ih _).cons x

theorem length_stride (hoffset : offset < step) (xs : List α) :
    (stride step offset xs).length = (xs.length + (step - 1 - offset)) / step := by
  induction xs generalizing offset with
  | nil =>
    rw [stride, List.length_nil, Nat.zero_add, Nat.div_eq_of_lt]
    omega
  | cons x xs ih =>
    cases offset with
    | zero =>
      have hround : xs.length + 1 + (step - 1 - 0) = xs.length + step := by omega
      rw [stride, List.length_cons, ih (by omega), List.length_cons, hround, Nat.sub_self,
        Nat.add_zero xs.length, Nat.add_div_right _ hoffset]
    | succ offset =>
      have hround : xs.length + (step - 1 - offset) =
          xs.length + 1 + (step - 1 - (offset + 1)) := by
        omega
      rw [stride, ih (Nat.lt_of_succ_lt hoffset), hround, List.length_cons]

theorem flatMap_stride_perm (hstep : 0 < step) (xs : List α) :
    ((List.range step).flatMap fun offset => stride step offset xs).Perm xs := by
  induction xs with
  | nil => simp [stride]
  | cons x xs ih =>
    obtain ⟨last, rfl⟩ : ∃ last, step = last + 1 := ⟨step - 1, by omega⟩
    calc (List.range (last + 1)).flatMap (fun offset => stride (last + 1) offset (x :: xs))
        = x :: (stride (last + 1) last xs ++
            (List.range last).flatMap fun offset => stride (last + 1) offset xs) := by
          rw [List.range_succ_eq_map, List.flatMap_cons, List.flatMap_map, stride]
          rfl
      _ ~ x :: ((List.range last).flatMap (fun offset => stride (last + 1) offset xs) ++
            stride (last + 1) last xs) := List.perm_append_comm.cons x
      _ = x :: (List.range (last + 1)).flatMap fun offset => stride (last + 1) offset xs := by
          rw [List.range_succ, List.flatMap_append, List.flatMap_singleton]
      _ ~ x :: xs := ih.cons x

theorem disjoint_stride_zipIdx {offset' : ℕ} (hoffset : offset < step) (hoffset' : offset' < step)
    (hne : offset ≠ offset') (xs : List α) :
    (stride step offset xs.zipIdx).Disjoint (stride step offset' xs.zipIdx) := by
  have hposition : ∀ {offset}, offset < step → ∀ entry ∈ stride step offset xs.zipIdx,
      entry.2 % step = offset := by
    intro offset hoffset entry hentry
    obtain ⟨index, rfl, hindex⟩ := (mem_stride_iff hoffset).mp hentry
    rw [List.getElem?_zipIdx, Option.map_eq_some_iff] at hindex
    obtain ⟨x, -, rfl⟩ := hindex
    rw [Nat.zero_add]
  intro entry hentry hentry'
  exact hne ((hposition hoffset entry hentry).symm.trans (hposition hoffset' entry hentry'))

/-! ## A list and a part of it -/

theorem getElem?_filter_of_kept {kept : α → Bool} {index : ℕ}
    (hkept : ∀ earlier x, earlier ≤ index → xs[earlier]? = some x → kept x = true) :
    (xs.filter kept)[index]? = xs[index]? := by
  have htake : (xs.take (index + 1)).filter kept = xs.take (index + 1) := by
    rw [List.filter_eq_self]
    intro x hx
    obtain ⟨earlier, hearlier⟩ := List.mem_iff_getElem?.mp hx
    rw [List.getElem?_take] at hearlier
    obtain ⟨hlt, hearlier⟩ := Option.ite_none_right_eq_some.mp hearlier
    exact hkept earlier x (Nat.lt_succ_iff.mp hlt) hearlier
  calc (xs.filter kept)[index]?
      = ((xs.take (index + 1)).filter kept ++ (xs.drop (index + 1)).filter kept)[index]? := by
        rw [← List.filter_append, List.take_append_drop]
    _ = xs[index]? := by
        rw [htake]
        by_cases hindex : index < xs.length
        · rw [List.getElem?_append_left (by rw [List.length_take]; omega), List.getElem?_take,
            if_pos (Nat.lt_succ_self _)]
        · rw [List.drop_eq_nil_of_le (by omega), List.filter_nil, List.append_nil,
            List.getElem?_take, if_pos (Nat.lt_succ_self _)]

/-- A filtered list agrees with the list at a position exactly when nothing was
dropped up to there. -/
theorem getElem?_filter_eq_iff {kept : α → Bool} (hnodup : xs.Nodup) {index : ℕ}
    (hindex : index < xs.length) :
    (xs.filter kept)[index]? = xs[index]? ↔
      ∀ earlier x, earlier ≤ index → xs[earlier]? = some x → kept x = true := by
  refine ⟨fun hsame => ?_, getElem?_filter_of_kept⟩
  obtain ⟨place, hplace⟩ := List.sublist_iff_exists_orderEmbedding_getElem?_eq.mp
    (List.filter_sublist (p := kept) (l := xs))
  have hfixed : index = place index := by
    rw [hplace] at hsame
    exact (List.getElem?_inj hindex hnodup).mp hsame.symm
  intro earlier x hearlier hx
  have hplaceEarlier : place earlier = earlier := by
    have hgap := place.strictMono.add_le_nat (index - earlier) earlier
    have hle := place.strictMono.add_le_nat earlier 0
    rw [Nat.sub_add_cancel hearlier, ← hfixed] at hgap
    rw [Nat.add_zero] at hle
    omega
  have hkept : (xs.filter kept)[earlier]? = some x := by
    rw [hplace, hplaceEarlier, hx]
  exact (List.mem_filter.mp (List.mem_of_getElem? hkept)).2

/-- The same elements are taken from a list and from a part of it exactly when
the part has all elements up to each one taken. -/
theorem mem_stride_filter_iff {kept : α → Bool} (hnodup : xs.Nodup) (hoffset : offset < step) :
    (∀ x, x ∈ stride step offset xs ↔ x ∈ stride step offset (xs.filter kept)) ↔
      ∀ index, index % step = offset → index < xs.length →
        ∀ earlier x, earlier ≤ index → xs[earlier]? = some x → kept x = true := by
  have hstep : 0 < step := Nat.zero_lt_of_lt hoffset
  constructor
  · intro hsame index hindex hlt
    have hperm : (stride step offset (xs.filter kept)).Perm (stride step offset xs) := by
      refine (List.perm_ext_iff_of_nodup ?_ ?_).mpr fun x => (hsame x).symm
      · exact ((stride_sublist ..).trans List.filter_sublist).nodup hnodup
      · exact (stride_sublist ..).nodup hnodup
    have heq := (hnodup.perm_iff_eq_of_sublist
      ((stride_sublist ..).trans List.filter_sublist) (stride_sublist ..)).mp hperm
    rw [← getElem?_filter_eq_iff hnodup hlt]
    have hat : ∀ ys : List α, ys[index]? = (stride step offset ys)[index / step]? := by
      intro ys
      rw [getElem?_stride hstep, ← hindex, Nat.mod_add_div']
    rw [hat, hat xs, heq]
  · intro hkept x
    rw [mem_stride_iff hoffset, mem_stride_iff hoffset]
    constructor
    · rintro ⟨index, hindex, hx⟩
      have hlt := (List.getElem?_eq_some_iff.mp hx).1
      refine ⟨index, hindex, ?_⟩
      rw [getElem?_filter_of_kept (hkept index hindex hlt), hx]
    · rintro ⟨index, hindex, hx⟩
      have hlt : index < xs.length :=
        (List.getElem?_eq_some_iff.mp hx).1.trans_le (List.length_filter_le _ _)
      refine ⟨index, hindex, ?_⟩
      rw [← getElem?_filter_of_kept (hkept index hindex hlt), hx]

/-! ## Two lists -/

/-- Two lists are as long up to a multiple of `step` when the elements that only
one of them has are as many. -/
theorem length_modEq_iff_diff [DecidableEq α] (xs ys : List α) :
    xs.length ≡ ys.length [MOD step] ↔
      (xs.diff ys).length ≡ (ys.diff xs).length [MOD step] := by
  have hcount : (xs.diff ys).length + ys.length = (ys.diff xs).length + xs.length := by
    have hunion := congrArg Multiset.card (Multiset.union_comm (xs : Multiset α) ys)
    simpa [Multiset.union_def, Multiset.coe_sub] using hunion
  constructor
  · intro hmod
    refine Nat.ModEq.add_right_cancel' ys.length ?_
    rw [hcount]
    exact hmod.add_left _
  · intro hmod
    refine Nat.ModEq.add_left_cancel' (ys.diff xs).length ?_
    rw [← hcount]
    exact hmod.add_right _

/-- Shifts before two positions: the elements that precede only one of them are
as many on both sides, up to a multiple of `step`. -/
def Aligned [DecidableEq α] (step : ℕ) (xs ys : List α) (index index' : ℕ) : Prop :=
  ((xs.take index).diff (ys.take index')).length ≡
    ((ys.take index').diff (xs.take index)).length [MOD step]

theorem aligned_iff_modEq [DecidableEq α] {index index' : ℕ} (hindex : index ≤ xs.length)
    (hindex' : index' ≤ ys.length) :
    Aligned step xs ys index index' ↔ index ≡ index' [MOD step] := by
  rw [Aligned, ← length_modEq_iff_diff, List.length_take_of_le hindex,
    List.length_take_of_le hindex']

/-- What is taken from the first list is in the second, with no shift before it. -/
def TakenUnshifted [DecidableEq α] (step offset : ℕ) (xs ys : List α) (x : α) : Prop :=
  ∀ index, index % step = offset → xs[index]? = some x →
    ∃ index', ys[index']? = some x ∧ Aligned step xs ys index index'

theorem takenUnshifted_iff [DecidableEq α] (hoffset : offset < step) :
    TakenUnshifted step offset xs ys x ↔
      (x ∈ stride step offset xs → x ∈ stride step offset ys) := by
  have hmod : ∀ index index', index % step = offset → xs[index]? = some x →
      ys[index']? = some x → (Aligned step xs ys index index' ↔ index' % step = offset) := by
    intro index index' hindex hx hx'
    rw [aligned_iff_modEq (List.getElem?_eq_some_iff.mp hx).1.le
      (List.getElem?_eq_some_iff.mp hx').1.le, Nat.ModEq, hindex, eq_comm]
  rw [mem_stride_iff hoffset, mem_stride_iff hoffset]
  constructor
  · rintro hunshifted ⟨index, hindex, hx⟩
    obtain ⟨index', hx', haligned⟩ := hunshifted index hindex hx
    exact ⟨index', (hmod index index' hindex hx hx').mp haligned, hx'⟩
  · intro htaken index hindex hx
    obtain ⟨index', hindex', hx'⟩ := htaken ⟨index, hindex, hx⟩
    exact ⟨index', hx', (hmod index index' hindex hx hx').mpr hindex'⟩

/-! ## Sorted lists -/

theorem countP_lt_eq {β : Type*} [LinearOrder β] {key : α → β}
    (hsorted : xs.Pairwise fun x y => key x < key y) {index : ℕ} (hx : xs[index]? = some x) :
    xs.countP (fun y => decide (key y < key x)) = index := by
  obtain ⟨hindex, rfl⟩ := List.getElem?_eq_some_iff.mp hx
  have hbefore : ∀ y ∈ xs.take index, decide (key y < key xs[index]) = true := by
    intro y hy
    obtain ⟨earlier, hearlier, rfl⟩ := List.mem_take_iff_getElem.mp hy
    exact decide_eq_true (List.pairwise_iff_getElem.mp hsorted earlier index _ _ (by omega))
  have hafter : ∀ y ∈ xs.drop index, ¬ decide (key y < key xs[index]) = true := by
    intro y hy
    obtain ⟨count, hcount, rfl⟩ := List.mem_drop_iff_getElem.mp hy
    rw [decide_eq_true_eq, not_lt]
    rcases Nat.eq_zero_or_pos count with rfl | hpos
    · exact le_of_eq rfl
    · exact (List.pairwise_iff_getElem.mp hsorted index (index + count) _ _ (by omega)).le
  calc xs.countP (fun y => decide (key y < key xs[index]))
      = (xs.take index).countP (fun y => decide (key y < key xs[index])) +
          (xs.drop index).countP (fun y => decide (key y < key xs[index])) := by
        rw [← List.countP_append, List.take_append_drop]
    _ = index := by
        rw [List.countP_eq_length.mpr hbefore, List.countP_eq_zero.mpr hafter, List.length_take]
        omega

end Forail.Stride
