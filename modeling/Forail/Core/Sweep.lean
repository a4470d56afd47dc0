import Mathlib.Data.List.Basic
import Mathlib.Logic.Function.Basic

/-!
# One sweep over a graph in topological order

A sweep recomputes the value of one vertex after the other from the current
values of its predecessors and of the vertex itself.  When the vertices come
in topological order, every value it leaves is the one computed from the final
values of the predecessors: a single sweep solves the whole system.
-/

namespace Forail.Sweep

variable {V S : Type*} [DecidableEq V]

def sweep (compute : (V → S) → V → S) (state : V → S) : List V → V → S
  | [] => state
  | vertex :: vertices =>
      sweep compute (Function.update state vertex (compute state vertex)) vertices

variable {compute : (V → S) → V → S} {edge : V → V → Prop}

theorem sweep_of_not_mem {state : V → S} {vertices : List V} {vertex : V}
    (hmem : vertex ∉ vertices) : sweep compute state vertices vertex = state vertex := by
  induction vertices generalizing state with
  | nil => rfl
  | cons head vertices ih =>
    simp only [List.mem_cons, not_or] at hmem
    rw [sweep, ih hmem.2, Function.update_of_ne hmem.1]

/-- The fixpoint equation of a sweep in topological order.  `hlocal` says that
the computed value looks at predecessors and at the vertex only. -/
theorem sweep_eq {state : V → S} {vertices : List V}
    (hlocal : ∀ first second vertex, (∀ x, edge x vertex → first x = second x) →
      first vertex = second vertex → compute first vertex = compute second vertex)
    (hirreflexive : ∀ vertex, ¬ edge vertex vertex)
    (hnodup : vertices.Nodup)
    (hordered : vertices.Pairwise fun earlier later => ¬ edge later earlier)
    {vertex : V} (hmem : vertex ∈ vertices) :
    sweep compute state vertices vertex =
      compute (Function.update (sweep compute state vertices) vertex (state vertex))
        vertex := by
  induction vertices generalizing state with
  | nil => exact absurd hmem List.not_mem_nil
  | cons head vertices ih =>
    obtain ⟨hhead, hnodup⟩ := List.nodup_cons.mp hnodup
    obtain ⟨hfirst, hordered⟩ := List.pairwise_cons.mp hordered
    rw [sweep]
    by_cases hvertex : vertex = head
    · subst hvertex
      rw [sweep_of_not_mem hhead, Function.update_self]
      apply hlocal
      · intro x hedge
        have hne : x ≠ vertex := fun heq => hirreflexive vertex (heq ▸ hedge)
        have hlater : x ∉ vertices := fun hx => hfirst x hx hedge
        rw [Function.update_of_ne hne, sweep_of_not_mem hlater,
          Function.update_of_ne hne]
      · rw [Function.update_self]
    · have hrest : vertex ∈ vertices :=
        (List.mem_cons.mp hmem).resolve_left hvertex
      have hih := @ih (Function.update state head (compute state head))
        hnodup hordered hrest
      rw [Function.update_of_ne hvertex] at hih
      exact hih

end Forail.Sweep
