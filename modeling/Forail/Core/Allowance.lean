import Mathlib.Algebra.Order.Field.Basic
import Mathlib.Data.Nat.Cast.Order.Ring
import Mathlib.Data.List.Basic
import Mathlib.Tactic.Linarith

/-!
# Spending an allowance

An account is credited over time, at most at a given rate and never above its
capacity, and each entry of its log costs one unit.  Then the entries of any
interval are at most the capacity and what the interval itself is worth.
-/

namespace Forail.Allowance

variable {K : Type*} [Field K] [LinearOrder K]

/-- The entries of a log between two times, both included. -/
def countIn (times : List K) (first last : K) : ℕ :=
  times.countP fun time => decide (first ≤ time ∧ time ≤ last)

omit [Field K] in
theorem countIn_eq_zero {times : List K} {first last : K}
    (hbefore : ∀ time ∈ times, time < first) : countIn times first last = 0 :=
  List.countP_eq_zero.mpr fun time htime hin =>
    absurd (of_decide_eq_true hin).1 (not_le.mpr (hbefore time htime))

omit [Field K] in
theorem countIn_cons_of_mem {times : List K} {time first last : K} (hfirst : first ≤ time)
    (hlast : time ≤ last) : countIn (time :: times) first last = countIn times first last + 1 :=
  List.countP_cons_of_pos (decide_eq_true ⟨hfirst, hlast⟩)

omit [Field K] in
theorem countIn_cons_of_notMem {times : List K} {time first last : K}
    (hout : ¬ (first ≤ time ∧ time ≤ last)) :
    countIn (time :: times) first last = countIn times first last :=
  List.countP_cons_of_neg fun hin => hout (of_decide_eq_true hin)

omit [Field K] in
theorem countIn_eq_of_logged {times : List K} {first latest last : K}
    (hlogged : ∀ time ∈ times, time ≤ latest) (hlast : latest ≤ last) :
    countIn times first last = countIn times first latest := by
  refine List.countP_congr fun time htime => ?_
  simp only [decide_eq_true_eq, hlogged time htime, (hlogged time htime).trans hlast]

/-- No interval was used for more than the capacity and what it is worth. -/
def Bounded (capacity rate : K) (times : List K) : Prop :=
  ∀ first last, first ≤ last →
    (countIn times first last : K) ≤ capacity + rate * (last - first)

/-- The balance of an account at the latest time, as far as its log covers it. -/
structure Balanced (capacity rate : K) (times : List K) (latest balance : K) : Prop where
  logged : ∀ time ∈ times, time ≤ latest
  full : balance ≤ capacity
  covered : ∀ first ≤ latest,
    (countIn times first latest : K) + balance ≤ capacity + rate * (latest - first)
  bounded : Bounded capacity rate times

variable [IsStrictOrderedRing K] {capacity rate latest balance : K} {times : List K}

theorem bounded_nil (hcapacity : 0 ≤ capacity) (hrate : 0 ≤ rate) :
    Bounded capacity rate ([] : List K) := by
  intro first last hle
  have hworth : 0 ≤ rate * (last - first) := mul_nonneg hrate (sub_nonneg.mpr hle)
  rw [countIn, List.countP_nil, Nat.cast_zero]
  linarith

theorem balanced_nil (hcapacity : 0 ≤ capacity) (hrate : 0 ≤ rate) (latest : K)
    (hfull : balance ≤ capacity) : Balanced capacity rate [] latest balance where
  logged _ hmem := absurd hmem List.not_mem_nil
  full := hfull
  covered first hle := by
    have hworth : 0 ≤ rate * (latest - first) := mul_nonneg hrate (sub_nonneg.mpr hle)
    rw [countIn, List.countP_nil, Nat.cast_zero]
    linarith
  bounded := bounded_nil hcapacity hrate

theorem Balanced.credit (h : Balanced capacity rate times latest balance) (hrate : 0 ≤ rate)
    {latest' balance' : K} (hle : latest ≤ latest') (hfull : balance' ≤ capacity)
    (hgain : balance' - balance ≤ rate * (latest' - latest)) :
    Balanced capacity rate times latest' balance' where
  logged time htime := (h.logged time htime).trans hle
  full := hfull
  covered := by
    intro first hfirst
    by_cases hold : first ≤ latest
    · have hcovered := h.covered first hold
      have hsplit : rate * (latest' - first) =
          rate * (latest' - latest) + rate * (latest - first) := by
        rw [← mul_add, sub_add_sub_cancel]
      rw [countIn_eq_of_logged h.logged hle]
      linarith
    · -- nothing was logged since `first`
      have hcount : countIn times first latest' = 0 :=
        countIn_eq_zero fun time htime => (h.logged time htime).trans_lt (not_le.mp hold)
      have hworth : 0 ≤ rate * (latest' - first) := mul_nonneg hrate (sub_nonneg.mpr hfirst)
      rw [hcount, Nat.cast_zero]
      linarith
  bounded := h.bounded

theorem Balanced.spend (h : Balanced capacity rate times latest balance) (hrate : 0 ≤ rate)
    (hpaid : 1 ≤ balance) :
    Balanced capacity rate (latest :: times) latest (balance - 1) where
  logged := List.forall_mem_cons.mpr ⟨le_rfl, h.logged⟩
  full := (sub_le_self balance zero_le_one).trans h.full
  covered first hfirst := by
    have hcovered := h.covered first hfirst
    rw [countIn_cons_of_mem hfirst le_rfl, Nat.cast_succ]
    linarith
  bounded := by
    intro first last hle
    by_cases hin : first ≤ latest ∧ latest ≤ last
    · have hcovered := h.covered first hin.1
      have hworth : rate * (latest - first) ≤ rate * (last - first) :=
        mul_le_mul_of_nonneg_left (sub_le_sub_right hin.2 first) hrate
      rw [countIn_cons_of_mem hin.1 hin.2, Nat.cast_succ,
        countIn_eq_of_logged h.logged hin.2]
      linarith
    · rw [countIn_cons_of_notMem hin]
      exact h.bounded first last hle

end Forail.Allowance
