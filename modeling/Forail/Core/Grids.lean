import Mathlib.Algebra.Order.Floor.Ring

/-!
# Periodic grids

The instants `offset + k * interval` of a grid, and the period of the grid that a time
lies in.
-/

namespace Forail.Grids

variable {K : Type*} [Field K] [LinearOrder K] [IsStrictOrderedRing K] [FloorRing K]
  {interval offset time : K} {k : ℤ}

def instant (interval offset : K) (k : ℤ) : K := offset + k * interval

/-- The number of the period, counted from the offset. -/
def periodAt (interval offset time : K) : ℤ := ⌊(time - offset) / interval⌋

omit [LinearOrder K] [IsStrictOrderedRing K] [FloorRing K] in
theorem instant_succ : instant interval offset (k + 1) = instant interval offset k + interval := by
  rw [instant, instant, Int.cast_add, Int.cast_one, add_mul, one_mul, add_assoc]

theorem instant_le_iff (hinterval : 0 < interval) :
    instant interval offset k ≤ time ↔ k ≤ periodAt interval offset time := by
  rw [instant, periodAt, Int.le_floor, le_div_iff₀ hinterval, le_sub_iff_add_le']

theorem lt_instant_iff (hinterval : 0 < interval) :
    time < instant interval offset k ↔ periodAt interval offset time < k := by
  rw [← not_le, instant_le_iff hinterval, not_le]

theorem next_instant (hinterval : 0 < interval) :
    time < instant interval offset (periodAt interval offset time + 1) ∧
      instant interval offset (periodAt interval offset time + 1) ≤ time + interval := by
  constructor
  · exact (lt_instant_iff hinterval).mpr (lt_add_one _)
  · rw [instant_succ]
    exact add_le_add_left ((instant_le_iff hinterval).mpr le_rfl) interval

theorem periodAt_eq_iff (hinterval : 0 < interval) :
    periodAt interval offset time = k ↔
      instant interval offset k ≤ time ∧ time < instant interval offset (k + 1) := by
  rw [instant_le_iff hinterval, lt_instant_iff hinterval, Int.lt_add_one_iff]
  constructor
  · rintro rfl
    exact ⟨le_rfl, le_rfl⟩
  · rintro ⟨hle, hge⟩
    exact le_antisymm hge hle

end Forail.Grids
