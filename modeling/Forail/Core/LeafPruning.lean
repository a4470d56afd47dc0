import Mathlib.Data.List.Nodup
import Mathlib.Logic.Relation

/-!
# Pruning the leaves of a graph in one pass

A pass over the vertices removes a bare vertex when all its children have been removed
before it.  What is hollow, that is bare down to the last descendant, is removed as a whole
exactly when children come before their parents.
-/

namespace Forail.LeafPruning

variable {V : Type*} [DecidableEq V] (bare : V → Bool) (children : V → List V)

/-- The vertices that are removed behind a pass over further vertices. -/
def prune : List V → List V → List V
  | removed, [] => removed
  | removed, vertex :: vertices =>
      if bare vertex ∧ ∀ child ∈ children vertex, child ∈ removed then
        prune (vertex :: removed) vertices
      else prune removed vertices

/-- A vertex without anything in itself and in its descendants. -/
inductive Hollow : V → Prop where
  | intro {vertex : V} (hbare : bare vertex = true)
      (hchildren : ∀ child ∈ children vertex, Hollow child) : Hollow vertex

variable {bare children} {removed order vertices : List V} {vertex child : V}

theorem prune_append (removed : List V) (front back : List V) :
    prune bare children removed (front ++ back) =
      prune bare children (prune bare children removed front) back := by
  induction front generalizing removed with
  | nil => rfl
  | cons vertex front ih =>
    rw [List.cons_append, prune, prune]
    split
    · exact ih _
    · exact ih _

theorem mem_prune_of_mem (hmem : vertex ∈ removed) (vertices : List V) :
    vertex ∈ prune bare children removed vertices := by
  induction vertices generalizing removed with
  | nil => exact hmem
  | cons head vertices ih =>
    rw [prune]
    split
    · exact ih (List.mem_cons_of_mem head hmem)
    · exact ih hmem

theorem mem_of_mem_prune (hmem : vertex ∈ prune bare children removed vertices) :
    vertex ∈ removed ∨ vertex ∈ vertices := by
  induction vertices generalizing removed with
  | nil => exact .inl hmem
  | cons head vertices ih =>
    rw [prune] at hmem
    split at hmem
    · rcases ih hmem with hremoved | hlater
      · rcases List.mem_cons.mp hremoved with rfl | hremoved
        · exact .inr List.mem_cons_self
        · exact .inl hremoved
      · exact .inr (List.mem_cons_of_mem head hlater)
    · exact (ih hmem).imp_right (List.mem_cons_of_mem head)

theorem mem_prune_iff_of_not_mem (hvertex : vertex ∉ vertices) :
    vertex ∈ prune bare children removed vertices ↔ vertex ∈ removed := by
  constructor
  · intro hmem
    exact (mem_of_mem_prune hmem).resolve_right hvertex
  · intro hmem
    exact mem_prune_of_mem hmem vertices

theorem idxOf_lt_idxOf_iff {front back : List V} (hvertex : vertex ∉ front) :
    (front ++ vertex :: back).idxOf child < (front ++ vertex :: back).idxOf vertex ↔
      child ∈ front := by
  rw [List.idxOf_append_of_notMem hvertex, List.idxOf_cons_self, Nat.add_zero]
  by_cases hchild : child ∈ front
  · rw [List.idxOf_append_of_mem hchild]
    exact iff_of_true (List.idxOf_lt_length_of_mem hchild) hchild
  · rw [List.idxOf_append_of_notMem hchild]
    exact iff_of_false (by omega) hchild

theorem mem_prune_iff (hnodup : order.Nodup) :
    vertex ∈ prune bare children [] order ↔ vertex ∈ order ∧ bare vertex = true ∧
      ∀ child ∈ children vertex, order.idxOf child < order.idxOf vertex ∧
        child ∈ prune bare children [] order := by
  by_cases hvertex : vertex ∈ order
  · obtain ⟨front, back, rfl⟩ := List.append_of_mem hvertex
    obtain ⟨-, hback, hdisjoint⟩ := List.nodup_append.mp hnodup
    have hfront : vertex ∉ front :=
      fun hmem => hdisjoint vertex hmem vertex List.mem_cons_self rfl
    have hvertexBack : vertex ∉ back := (List.nodup_cons.mp hback).1
    have hturn : vertex ∈ prune bare children [] (front ++ vertex :: back) ↔
        bare vertex = true ∧
          ∀ child ∈ children vertex, child ∈ prune bare children [] front := by
      rw [prune_append, prune]
      split
      · next hbare => exact iff_of_true (mem_prune_of_mem List.mem_cons_self back) hbare
      · next hkept =>
        refine iff_of_false (fun hmem => ?_) hkept
        rw [mem_prune_iff_of_not_mem hvertexBack] at hmem
        exact hfront ((mem_of_mem_prune hmem).resolve_left List.not_mem_nil)
    have hearlier (child : V) : child ∈ prune bare children [] front ↔
        child ∈ front ∧ child ∈ prune bare children [] (front ++ vertex :: back) := by
      constructor
      · intro hmem
        refine ⟨(mem_of_mem_prune hmem).resolve_left List.not_mem_nil, ?_⟩
        rw [prune_append]
        exact mem_prune_of_mem hmem _
      · rintro ⟨hmem, hremoved⟩
        rw [prune_append] at hremoved
        exact (mem_of_mem_prune hremoved).resolve_right
          fun hlater => hdisjoint child hmem child hlater rfl
    rw [hturn]
    simp only [hearlier, idxOf_lt_idxOf_iff hfront]
    exact (and_iff_right hvertex).symm
  · exact iff_of_false (fun hmem => hvertex ((mem_of_mem_prune hmem).resolve_left
      List.not_mem_nil)) fun h => hvertex h.1

theorem hollow_of_mem_prune (hremoved : ∀ vertex ∈ removed, Hollow bare children vertex)
    (hmem : vertex ∈ prune bare children removed vertices) : Hollow bare children vertex := by
  induction vertices generalizing removed with
  | nil => exact hremoved vertex hmem
  | cons head vertices ih =>
    rw [prune] at hmem
    split at hmem
    · next hbare =>
      refine ih (fun other hother => ?_) hmem
      rcases List.mem_cons.mp hother with rfl | hother
      · exact .intro hbare.1 fun child hchild => hremoved child (hbare.2 child hchild)
      · exact hremoved other hother
    · exact ih hremoved hmem

/-- The pass leaves no bare vertex without children exactly when each child of a hollow
vertex comes before its parent. -/
theorem complete_iff (hnodup : order.Nodup)
    (hclosed : ∀ vertex ∈ order, ∀ child ∈ children vertex, child ∈ order) :
    (∀ vertex ∈ order, vertex ∉ prune bare children [] order → bare vertex = true →
        ∃ child ∈ children vertex, child ∉ prune bare children [] order) ↔
      ∀ vertex ∈ order, Hollow bare children vertex →
        ∀ child ∈ children vertex, order.idxOf child < order.idxOf vertex := by
  constructor
  · intro hcomplete
    have hall : ∀ vertex, Hollow bare children vertex → vertex ∈ order →
        vertex ∈ prune bare children [] order := by
      intro vertex hhollow
      induction hhollow with
      | @intro vertex hbare _ ih =>
        intro hvertex
        by_contra hkept
        obtain ⟨child, hchild, hchildKept⟩ := hcomplete vertex hvertex hkept hbare
        exact hchildKept (ih child hchild (hclosed vertex hvertex child hchild))
    intro vertex hvertex hhollow child hchild
    exact (((mem_prune_iff hnodup).mp (hall vertex hhollow hvertex)).2.2 child hchild).1
  · intro hordered vertex hvertex hkept hbare
    by_contra hnone
    have hchildren : ∀ child ∈ children vertex, child ∈ prune bare children [] order := by
      intro child hchild
      by_contra hchildKept
      exact hnone ⟨child, hchild, hchildKept⟩
    have hhollow : Hollow bare children vertex := .intro hbare fun child hchild =>
      hollow_of_mem_prune (fun _ hmem => absurd hmem List.not_mem_nil) (hchildren child hchild)
    exact hkept ((mem_prune_iff hnodup).mpr ⟨hvertex, hbare, fun child hchild =>
      ⟨hordered vertex hvertex hhollow child hchild, hchildren child hchild⟩⟩)

omit [DecidableEq V] in
theorem Hollow.bare_of_descendant (hhollow : Hollow bare children vertex) {descendant : V}
    (hreach : Relation.ReflTransGen (fun parent child => child ∈ children parent)
      vertex descendant) : bare descendant = true := by
  induction hhollow with
  | intro hbare _ ih =>
    obtain rfl | ⟨next, hedge, hrest⟩ := hreach.cases_head
    · exact hbare
    · exact ih next hedge hrest

end Forail.LeafPruning
