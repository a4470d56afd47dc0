import Mathlib.Data.List.Basic

/-!
# Verdicts over a list

A gate goes through a list of checks and keeps a result.  Each check leaves the
verdict of the result as it is, or takes it away.
-/

namespace Forail.Verdicts

variable {Result Check : Type*} {step : Result → Check → Result} {allowed : Result → Bool}
  {Blocks : Check → Prop}

/-- A check takes the verdict away exactly when it blocks. -/
def BlocksBy (step : Result → Check → Result) (allowed : Result → Bool)
    (Blocks : Check → Prop) : Prop :=
  ∀ result check, allowed (step result check) = true ↔ allowed result = true ∧ ¬ Blocks check

theorem foldl_allowed_iff (hstep : BlocksBy step allowed Blocks) (checks : List Check)
    (result : Result) :
    allowed (checks.foldl step result) = true ↔
      allowed result = true ∧ ∀ check ∈ checks, ¬ Blocks check := by
  induction checks generalizing result with
  | nil => simp
  | cons check checks ih =>
    rw [List.foldl_cons, ih, hstep, List.forall_mem_cons, and_assoc]

theorem foldl_blocked_iff (hstep : BlocksBy step allowed Blocks) (checks : List Check)
    {result : Result} (hresult : allowed result = true) :
    allowed (checks.foldl step result) = false ↔ ∃ check ∈ checks, Blocks check := by
  rw [← Bool.not_eq_true, foldl_allowed_iff hstep, and_iff_right hresult]
  simp only [not_forall, not_not, exists_prop]

end Forail.Verdicts
