import Mathlib.Algebra.BigOperators.Group.Finset.Basic
import Mathlib.Data.Finset.Insert
import Mathlib.Logic.Relation

/-!
# Worklist traversal of a finite graph

A worklist holds vertices still to be looked at.  Each round takes the first
one, skips it when it was visited before, and otherwise appends its
successors.  One unit of fuel pays for one round; `cost` bounds the number of
rounds, so a traversal with that much fuel visits exactly the vertices reached
from the initial worklist.
-/

namespace Forail.Worklist

open Relation

variable {V : Type*} [DecidableEq V]

/-- The visited vertices in the order in which they were taken. -/
def traverse (next : V → List V) : ℕ → List V → List V → List V
  | 0, _, visited => visited
  | _ + 1, [], visited => visited
  | fuel + 1, vertex :: queue, visited =>
      if vertex ∈ visited then traverse next fuel queue visited
      else traverse next fuel (queue ++ next vertex) (visited ++ [vertex])

/-- Rounds that remain: the entries of the worklist and the successors of the
vertices not yet visited. -/
def cost (next : V → List V) (support : Finset V) (queue visited : List V) :
    ℕ :=
  queue.length + ∑ vertex ∈ support.filter (· ∉ visited), (next vertex).length

variable {next : V → List V} {support : Finset V}

theorem cost_skip {vertex : V} {queue visited : List V} :
    cost next support (vertex :: queue) visited =
      cost next support queue visited + 1 := by
  simp only [cost, List.length_cons]
  omega

theorem sum_filter_eq_add {weight : V → ℕ} {vertex : V} {p q : V → Prop}
    [DecidablePred p] [DecidablePred q] (hmem : vertex ∈ support)
    (hp : ∀ x, p x ↔ x = vertex ∨ q x) (hq : ¬ q vertex) :
    ∑ x ∈ support.filter p, weight x =
      weight vertex + ∑ x ∈ support.filter q, weight x := by
  have hsplit : support.filter p = insert vertex (support.filter q) := by
    ext other
    simp only [Finset.mem_filter, Finset.mem_insert, hp]
    by_cases hother : other = vertex
    · simp [hother, hmem]
    · simp [hother]
  rw [hsplit, Finset.sum_insert (by simp [hq])]

theorem cost_visit {vertex : V} {queue visited : List V}
    (hmem : vertex ∈ support) (hfresh : vertex ∉ visited) :
    cost next support (vertex :: queue) visited =
      cost next support (queue ++ next vertex) (visited ++ [vertex]) + 1 := by
  have hsum : ∑ x ∈ support.filter (· ∉ visited), (next x).length =
      (next vertex).length +
        ∑ x ∈ support.filter (· ∉ visited ++ [vertex]), (next x).length := by
    apply sum_filter_eq_add hmem
    · intro x
      by_cases hx : x = vertex
      · simp [hx, hfresh]
      · simp [hx]
    · simp
  simp only [cost, hsum, List.length_cons, List.length_append]
  omega

theorem traverse_sound {fuel : ℕ} {queue visited : List V} {vertex : V}
    (hmem : vertex ∈ traverse next fuel queue visited) :
    vertex ∈ visited ∨
      ∃ start ∈ queue, ReflTransGen (fun x y => y ∈ next x) start vertex := by
  induction fuel generalizing queue visited with
  | zero => exact Or.inl hmem
  | succ fuel ih =>
    cases queue with
    | nil => exact Or.inl hmem
    | cons head queue =>
      rw [traverse] at hmem
      split at hmem
      · rcases ih hmem with hvisited | ⟨start, hstart, hpath⟩
        · exact Or.inl hvisited
        · exact Or.inr ⟨start, List.mem_cons_of_mem _ hstart, hpath⟩
      · rcases ih hmem with hvisited | ⟨start, hstart, hpath⟩
        · rcases List.mem_append.mp hvisited with hold | hnew
          · exact Or.inl hold
          · have hvertex : vertex = head := by simpa using hnew
            exact Or.inr ⟨head, List.mem_cons_self, hvertex ▸ .refl⟩
        · rcases List.mem_append.mp hstart with hqueue | hnext
          · exact Or.inr ⟨start, List.mem_cons_of_mem _ hqueue, hpath⟩
          · exact Or.inr ⟨head, List.mem_cons_self, hpath.head hnext⟩

theorem traverse_closed {fuel : ℕ} {queue visited : List V}
    (hclosed : ∀ x ∈ support, ∀ y ∈ next x, y ∈ support)
    (hqueue : ∀ x ∈ queue, x ∈ support)
    (hvisited : ∀ x ∈ visited, ∀ y ∈ next x, y ∈ visited ∨ y ∈ queue)
    (hfuel : cost next support queue visited ≤ fuel) :
    (∀ x ∈ visited, x ∈ traverse next fuel queue visited) ∧
      (∀ x ∈ queue, x ∈ traverse next fuel queue visited) ∧
      ∀ x ∈ traverse next fuel queue visited, ∀ y ∈ next x,
        y ∈ traverse next fuel queue visited := by
  induction fuel generalizing queue visited with
  | zero =>
    have hempty : queue = [] := by
      apply List.eq_nil_of_length_eq_zero
      simp only [cost] at hfuel
      omega
    subst hempty
    exact ⟨fun x hx => hx, by simp, by simpa [traverse] using hvisited⟩
  | succ fuel ih =>
    cases queue with
    | nil => exact ⟨fun x hx => hx, by simp, by simpa [traverse] using hvisited⟩
    | cons head queue =>
      rw [traverse]
      split
      · rename_i hseen
        obtain ⟨hold, hrest, hnext⟩ := @ih queue visited
          (fun x hx => hqueue x (List.mem_cons_of_mem _ hx))
          (by
            intro x hx y hy
            rcases hvisited x hx y hy with hmem | hmem
            · exact Or.inl hmem
            · rcases List.mem_cons.mp hmem with rfl | hmem
              · exact Or.inl hseen
              · exact Or.inr hmem)
          (by rw [cost_skip] at hfuel; omega)
        refine ⟨hold, ?_, hnext⟩
        intro x hx
        rcases List.mem_cons.mp hx with rfl | hx
        · exact hold _ hseen
        · exact hrest x hx
      · rename_i hfresh
        have hhead : head ∈ support := hqueue head List.mem_cons_self
        obtain ⟨hold, hrest, hnext⟩ := @ih (queue ++ next head)
          (visited ++ [head])
          (by
            intro x hx
            rcases List.mem_append.mp hx with hx | hx
            · exact hqueue x (List.mem_cons_of_mem _ hx)
            · exact hclosed head hhead x hx)
          (by
            intro x hx y hy
            simp only [List.mem_append, List.mem_singleton] at hx ⊢
            rcases hx with hx | rfl
            · rcases hvisited x hx y hy with hmem | hmem
              · exact Or.inl (Or.inl hmem)
              · rcases List.mem_cons.mp hmem with rfl | hmem
                · exact Or.inl (Or.inr rfl)
                · exact Or.inr (Or.inl hmem)
            · exact Or.inr (Or.inr hy))
          (by rw [cost_visit hhead hfresh] at hfuel; omega)
        refine ⟨fun x hx => hold x (List.mem_append_left _ hx), ?_, hnext⟩
        intro x hx
        rcases List.mem_cons.mp hx with rfl | hx
        · exact hold _ (by simp)
        · exact hrest x (List.mem_append_left _ hx)

/-- A traversal that starts from nothing visited finds exactly the vertices
reached from its worklist. -/
theorem mem_traverse_iff (support : Finset V) {fuel : ℕ} {queue : List V} {vertex : V}
    (hclosed : ∀ x ∈ support, ∀ y ∈ next x, y ∈ support)
    (hqueue : ∀ x ∈ queue, x ∈ support)
    (hfuel : cost next support queue [] ≤ fuel) :
    vertex ∈ traverse next fuel queue [] ↔
      ∃ start ∈ queue, ReflTransGen (fun x y => y ∈ next x) start vertex := by
  constructor
  · intro hmem
    rcases traverse_sound hmem with hnil | hreached
    · exact absurd hnil List.not_mem_nil
    · exact hreached
  · rintro ⟨start, hstart, hpath⟩
    obtain ⟨-, hrest, hnext⟩ :=
      traverse_closed hclosed hqueue (by simp) hfuel
    induction hpath with
    | refl => exact hrest start hstart
    | tail _ hstep ih => exact hnext _ ih _ hstep

theorem nodup_traverse {fuel : ℕ} {queue visited : List V}
    (hvisited : visited.Nodup) : (traverse next fuel queue visited).Nodup := by
  induction fuel generalizing queue visited with
  | zero => exact hvisited
  | succ fuel ih =>
    cases queue with
    | nil => exact hvisited
    | cons head queue =>
      rw [traverse]
      split
      · exact ih hvisited
      · rename_i hfresh
        apply ih
        rw [List.nodup_append]
        refine ⟨hvisited, List.nodup_singleton head, ?_⟩
        intro x hx y hy hxy
        have hhead : y = head := by simpa using hy
        exact hfresh (hhead ▸ hxy ▸ hx)

end Forail.Worklist
