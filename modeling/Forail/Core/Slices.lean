import Mathlib.Algebra.Order.Group.Int
import Mathlib.Data.List.Chain
import Mathlib.Data.Set.Operations

/-!
# Slices of a period

A period is cut into slices that follow each other, each of at most a given width.
-/

namespace Forail.Slices

variable {start stop limit width : ℤ} {slices : List (ℤ × ℤ)} {time : ℤ}

/-- The times behind the start of a slice, up to its end. -/
def period (start stop : ℤ) : Set ℤ := {time | start < time ∧ time ≤ stop}

/-- Slices that follow each other from `start` to `limit`. -/
inductive Consecutive (limit : ℤ) : ℤ → List (ℤ × ℤ) → Prop where
  | nil {start : ℤ} (hdone : limit ≤ start) : Consecutive limit start []
  | last {start : ℤ} : Consecutive limit start [(start, limit)]
  | cons {start stop : ℤ} {slices : List (ℤ × ℤ)} (hlt : start < stop) (hle : stop ≤ limit)
      (hrest : Consecutive limit stop slices) :
      Consecutive limit start ((start, stop) :: slices)

/-- The slices of at most `width` from `start` on. -/
def slicesFrom (width : ℤ) (hwidth : 0 < width) (start limit : ℤ) : List (ℤ × ℤ) :=
  if start < limit then
    (start, min (start + width) limit) ::
      slicesFrom width hwidth (min (start + width) limit) limit
  else []
termination_by (limit - start).toNat
decreasing_by omega

theorem consecutive_slicesFrom (hwidth : 0 < width) (start : ℤ) :
    Consecutive limit start (slicesFrom width hwidth start limit) := by
  fun_induction slicesFrom width hwidth start limit with
  | case1 start hlt ih =>
    exact .cons (lt_min (lt_add_of_pos_right start hwidth) hlt) (min_le_right _ _) ih
  | case2 start hdone => exact .nil (not_lt.mp hdone)

theorem Consecutive.covers (hslices : Consecutive limit start slices)
    (htime : time ∈ period start limit) :
    ∃ slice ∈ slices, time ∈ period slice.1 slice.2 := by
  induction hslices with
  | nil hdone => exact absurd (htime.1.trans_le htime.2) (not_lt.mpr hdone)
  | last => exact ⟨_, List.mem_cons_self, htime⟩
  | @cons start stop slices _ _ _ ih =>
    by_cases hfirst : time ≤ stop
    · exact ⟨(start, stop), List.mem_cons_self, htime.1, hfirst⟩
    · obtain ⟨slice, hslice, hin⟩ := ih ⟨not_le.mp hfirst, htime.2⟩
      exact ⟨slice, List.mem_cons_of_mem _ hslice, hin⟩

theorem Consecutive.stop_le (hslices : Consecutive limit start slices) :
    ∀ slice ∈ slices, slice.2 ≤ limit := by
  induction hslices with
  | nil => exact fun _ hslice => absurd hslice List.not_mem_nil
  | last => exact fun _ hslice => (List.mem_singleton.mp hslice) ▸ le_rfl
  | cons _ hle _ ih =>
    intro slice hslice
    rcases List.mem_cons.mp hslice with rfl | hrest
    · exact hle
    · exact ih slice hrest

theorem Consecutive.le_stop (hslices : Consecutive limit start slices) (hstart : start ≤ limit) :
    ∀ slice ∈ slices, start ≤ slice.2 := by
  induction hslices with
  | nil => exact fun _ hslice => absurd hslice List.not_mem_nil
  | last => exact fun _ hslice => (List.mem_singleton.mp hslice) ▸ hstart
  | cons hlt hle _ ih =>
    intro slice hslice
    rcases List.mem_cons.mp hslice with rfl | hrest
    · exact hlt.le
    · exact hlt.le.trans (ih hle slice hrest)

/-! ## Tilings -/

/-- Slices that make up a period: each is a period of its own and not too long, each starts
where the one before ends, and together they are the period. -/
structure Tiles (width start stop : ℤ) (slices : List (ℤ × ℤ)) : Prop where
  nonempty : ∀ slice ∈ slices, slice.1 < slice.2
  narrow : ∀ slice ∈ slices, slice.2 - slice.1 ≤ width
  consecutive : slices.IsChain fun earlier later => earlier.2 = later.1
  union : ∀ time, (∃ slice ∈ slices, time ∈ period slice.1 slice.2) ↔ time ∈ period start stop

theorem period_union {middle : ℤ} (hstart : start ≤ middle) (hstop : middle ≤ stop) :
    time ∈ period start middle ∨ time ∈ period middle stop ↔ time ∈ period start stop := by
  constructor
  · rintro (⟨hlt, hle⟩ | ⟨hlt, hle⟩)
    · exact ⟨hlt, hle.trans hstop⟩
    · exact ⟨hstart.trans_lt hlt, hle⟩
  · rintro ⟨hlt, hle⟩
    rcases le_or_gt time middle with hfirst | hsecond
    · exact .inl ⟨hlt, hfirst⟩
    · exact .inr ⟨hsecond, hle⟩

theorem tiles_nil_iff : Tiles width start stop [] ↔ stop ≤ start := by
  constructor
  · intro htiles
    by_contra hlt
    obtain ⟨slice, hslice, -⟩ := (htiles.union stop).mpr ⟨not_le.mp hlt, le_rfl⟩
    exact List.not_mem_nil hslice
  · intro hdone
    refine ⟨fun _ hslice => absurd hslice List.not_mem_nil,
      fun _ hslice => absurd hslice List.not_mem_nil, .nil, fun time => ?_⟩
    refine iff_of_false (fun ⟨_, hslice, _⟩ => List.not_mem_nil hslice) fun htime => ?_
    exact absurd (htime.1.trans_le htime.2) (not_lt.mpr hdone)

theorem tiles_singleton_iff :
    Tiles width start stop [(start, stop)] ↔ start < stop ∧ stop - start ≤ width := by
  constructor
  · intro htiles
    exact ⟨htiles.nonempty _ (List.mem_singleton_self _),
      htiles.narrow _ (List.mem_singleton_self _)⟩
  · rintro ⟨hlt, hwidth⟩
    refine ⟨fun slice hslice => ?_, fun slice hslice => ?_, .singleton _, fun time => ?_⟩
    · rw [List.mem_singleton.mp hslice]
      exact hlt
    · rw [List.mem_singleton.mp hslice]
      exact hwidth
    · simp only [List.mem_singleton, exists_eq_left]

theorem Tiles.cons {middle : ℤ} (hlt : start < middle) (hwidth : middle - start ≤ width)
    (hle : middle ≤ stop) (htiles : Tiles width middle stop slices)
    (hfirst : ∀ slice ∈ slices.head?, slice.1 = middle) :
    Tiles width start stop ((start, middle) :: slices) := by
  constructor
  · exact List.forall_mem_cons.mpr ⟨hlt, htiles.nonempty⟩
  · exact List.forall_mem_cons.mpr ⟨hwidth, htiles.narrow⟩
  · cases slices with
    | nil => exact .singleton _
    | cons slice slices =>
      exact List.isChain_cons_cons.mpr ⟨(hfirst slice rfl).symm, htiles.consecutive⟩
  · intro time
    rw [← period_union hlt.le hle, ← htiles.union]
    simp only [List.mem_cons, exists_eq_or_imp]

theorem tiles_slicesFrom (hwidth : 0 < width) (start stop : ℤ) :
    Tiles width start stop (slicesFrom width hwidth start stop) := by
  fun_induction slicesFrom width hwidth start stop with
  | case1 start hlt ih =>
    refine ih.cons (lt_min (lt_add_of_pos_right start hwidth) hlt) (by omega)
      (min_le_right _ _) fun slice hslice => ?_
    rw [slicesFrom] at hslice
    split at hslice
    · rw [List.head?_cons] at hslice
      exact (Option.some.inj hslice) ▸ rfl
    · exact absurd hslice (Option.not_mem_none slice)
  | case2 start hdone => exact tiles_nil_iff.mpr (not_lt.mp hdone)

end Forail.Slices
