import Mathlib.Algebra.GroupWithZero.Nat
import Mathlib.Algebra.Order.BigOperators.Group.Finset
import Forail.Core.Worklist
import Forail.Scheduler.SimpleDag

/-!
# The cycle search of the simple graph

`has_cycle` walks depth first from the root nodes.  A node that still has
unvisited children is put back on the stack below them and enters `path`; when
it comes up again with unvisited children left, a cycle was found.  The main
result states what the search decides: a cycle that some root reaches, or a
nonempty graph without roots.
-/

namespace Forail.SimpleDag.SimpleDAG

open Relation

variable {Obj Label : Type*} [DecidableEq Obj]

/-- The `while stack` loop.  The top of the stack is the head of the list here
and the last entry of the list in the source. -/
def hasCycleLoop (children : Obj → List Obj) :
    ℕ → List Obj → List Obj → List Obj → Bool
  | 0, _, _, _ => false
  | _ + 1, [], _, _ => false
  | fuel + 1, nodeObj :: stack, nodeObjsVisited, path =>
      let childrenToAdd := (children nodeObj).filter (· ∉ nodeObjsVisited)
      if childrenToAdd ≠ [] then
        if nodeObj ∈ path then true
        else
          hasCycleLoop children fuel (childrenToAdd.reverse ++ nodeObj :: stack)
            nodeObjsVisited (nodeObj :: path)
      else
        hasCycleLoop children fuel stack (nodeObj :: nodeObjsVisited)
          (path.filter (· ≠ nodeObj))

/-- Rounds of the loop: one for each root, one for each node put back and one
for each child pushed. -/
def hasCycleFuel (dag : SimpleDAG Obj Label) : ℕ :=
  dag.getRootNodes.length +
    (dag.nodes.map fun obj => 1 + (dag.getChildren obj).length).sum

def hasCycle (dag : SimpleDAG Obj Label) : Bool :=
  if dag.nodes.length ≠ 0 ∧ dag.getRootNodes.length = 0 then true
  else
    hasCycleLoop dag.getChildren dag.hasCycleFuel dag.getRootNodes.reverse [] []

/-! ## The search invariant -/

section Search

variable {children : Obj → List Obj} {roots : List Obj}
  {stack visited path : List Obj} {node : Obj}

/-- What the search knows in each round.  A node of `path` sits in the stack
below all its unvisited children, and everything above it is a descendant. -/
structure SearchInvariant (children : Obj → List Obj)
    (roots stack visited path : List Obj) : Prop where
  visited_closed : ∀ x ∈ visited, ∀ y ∈ children x, y ∈ visited
  visited_acyclic : ∀ x ∈ visited, ¬ TransGen (fun a b => b ∈ children a) x x
  roots_pending : ∀ root ∈ roots, root ∈ visited ∨ root ∈ stack
  stack_reached : ∀ x ∈ stack, ∃ root ∈ roots,
    ReflTransGen (fun a b => b ∈ children a) root x
  path_below : ∀ u ∈ path, ∃ above below, stack = above ++ u :: below ∧
    (∀ child ∈ children u, child ∉ visited → child ∈ above) ∧
    ∀ x ∈ above, TransGen (fun a b => b ∈ children a) u x

def ReachesCycle (children : Obj → List Obj) (roots : List Obj) : Prop :=
  ∃ root ∈ roots, ∃ vertex, ReflTransGen (fun a b => b ∈ children a) root vertex ∧
    TransGen (fun a b => b ∈ children a) vertex vertex

omit [DecidableEq Obj] in
theorem mem_of_closed {x y : Obj}
    (hclosed : ∀ x ∈ visited, ∀ y ∈ children x, y ∈ visited)
    (hx : x ∈ visited) (hpath : ReflTransGen (fun a b => b ∈ children a) x y) :
    y ∈ visited := by
  induction hpath with
  | refl => exact hx
  | tail _ hstep ih => exact hclosed _ ih _ hstep

omit [DecidableEq Obj] in
theorem SearchInvariant.path_below_tail
    (hinv : SearchInvariant children roots (node :: stack) visited path)
    {u : Obj} (hu : u ∈ path) (hne : u ≠ node) :
    ∃ above below, stack = above ++ u :: below ∧
      (∀ child ∈ children u, child ∉ visited → child = node ∨ child ∈ above) ∧
      TransGen (fun a b => b ∈ children a) u node ∧
      ∀ x ∈ above, TransGen (fun a b => b ∈ children a) u x := by
  obtain ⟨above, below, hstack, hchild, habove⟩ := hinv.path_below u hu
  cases above with
  | nil => exact absurd (List.cons.inj hstack).1.symm hne
  | cons head above =>
    obtain ⟨rfl, htail⟩ := List.cons.inj hstack
    refine ⟨above, below, htail, ?_, habove node List.mem_cons_self, ?_⟩
    · intro child hmem hfresh
      exact List.mem_cons.mp (hchild child hmem hfresh)
    · intro x hx
      exact habove x (List.mem_cons_of_mem _ hx)

omit [DecidableEq Obj] in
theorem SearchInvariant.cycle_of_mem_path
    (hinv : SearchInvariant children roots (node :: stack) visited path)
    (hpath : node ∈ path) {child : Obj} (hchild : child ∈ children node)
    (hfresh : child ∉ visited) : ReachesCycle children roots := by
  obtain ⟨root, hroot, hreach⟩ := hinv.stack_reached node List.mem_cons_self
  refine ⟨root, hroot, node, hreach, ?_⟩
  obtain ⟨above, below, hstack, hbelow, habove⟩ := hinv.path_below node hpath
  cases above with
  | nil => exact absurd (hbelow child hchild hfresh) List.not_mem_nil
  | cons head above =>
    obtain ⟨rfl, -⟩ := List.cons.inj hstack
    exact habove node List.mem_cons_self

theorem SearchInvariant.push
    (hinv : SearchInvariant children roots (node :: stack) visited path)
    (hpath : node ∉ path) :
    SearchInvariant children roots
      (((children node).filter (· ∉ visited)).reverse ++ node :: stack) visited
      (node :: path) where
  visited_closed := hinv.visited_closed
  visited_acyclic := hinv.visited_acyclic
  roots_pending := by
    intro root hroot
    cases hinv.roots_pending root hroot with
    | inl hvisited => exact Or.inl hvisited
    | inr hstack => exact Or.inr (List.mem_append_right _ hstack)
  stack_reached := by
    intro x hx
    simp only [List.mem_append, List.mem_reverse, List.mem_filter] at hx
    cases hx with
    | inl hchild =>
      obtain ⟨root, hroot, hreach⟩ := hinv.stack_reached node List.mem_cons_self
      exact ⟨root, hroot, hreach.tail hchild.1⟩
    | inr hstack => exact hinv.stack_reached x hstack
  path_below := by
    intro u hu
    by_cases hne : u = node
    · subst hne
      refine ⟨((children u).filter (· ∉ visited)).reverse, stack, rfl, ?_, ?_⟩
      · intro child hchild hfresh
        simp [hchild, hfresh]
      · intro x hx
        simp only [List.mem_reverse, List.mem_filter] at hx
        exact .single hx.1
    · have hold : u ∈ path := (List.mem_cons.mp hu).resolve_left hne
      obtain ⟨above, below, hstack, hchild, hnode, habove⟩ :=
        hinv.path_below_tail hold hne
      refine ⟨((children node).filter (· ∉ visited)).reverse ++ node :: above,
        below, by simp [hstack], ?_, ?_⟩
      · intro child hmem hfresh
        exact List.mem_append_right _
          (List.mem_cons.mpr (hchild child hmem hfresh))
      · intro x hx
        simp only [List.mem_append, List.mem_reverse, List.mem_filter,
          List.mem_cons] at hx
        rcases hx with hx | rfl | hx
        · exact hnode.tail hx.1
        · exact hnode
        · exact habove x hx

theorem SearchInvariant.finish
    (hinv : SearchInvariant children roots (node :: stack) visited path)
    (hdone : ∀ child ∈ children node, child ∈ visited) :
    SearchInvariant children roots stack (node :: visited)
      (path.filter (· ≠ node)) where
  visited_closed := by
    intro x hx y hy
    cases List.mem_cons.mp hx with
    | inl hnode => exact List.mem_cons_of_mem _ (hdone y (hnode ▸ hy))
    | inr hold => exact List.mem_cons_of_mem _ (hinv.visited_closed x hold y hy)
  visited_acyclic := by
    intro x hx hcycle
    by_cases hold : x ∈ visited
    · exact hinv.visited_acyclic x hold hcycle
    · have hnode : x = node := (List.mem_cons.mp hx).resolve_right hold
      subst hnode
      obtain ⟨child, hchild, hback⟩ := TransGen.head'_iff.mp hcycle
      exact hold (mem_of_closed hinv.visited_closed (hdone child hchild) hback)
  roots_pending := by
    intro root hroot
    cases hinv.roots_pending root hroot with
    | inl hvisited => exact Or.inl (List.mem_cons_of_mem _ hvisited)
    | inr hstack =>
      cases List.mem_cons.mp hstack with
      | inl hnode => exact Or.inl (hnode ▸ List.mem_cons_self)
      | inr hrest => exact Or.inr hrest
  stack_reached := fun x hx =>
    hinv.stack_reached x (List.mem_cons_of_mem _ hx)
  path_below := by
    intro u hu
    obtain ⟨hold, hne⟩ := List.mem_filter.mp hu
    obtain ⟨above, below, hstack, hchild, -, habove⟩ :=
      hinv.path_below_tail hold (by simpa using hne)
    refine ⟨above, below, hstack, ?_, habove⟩
    intro child hmem hfresh
    simp only [List.mem_cons, not_or] at hfresh
    exact (hchild child hmem hfresh.2).resolve_left hfresh.1

/-- Rounds that remain: the stack, and for each node that never came up one
round to put it back and one for each child. -/
def searchCost (children : Obj → List Obj) (support : Finset Obj)
    (stack visited path : List Obj) : ℕ :=
  stack.length + ∑ x ∈ support.filter (fun x => x ∉ visited ∧ x ∉ path),
    (1 + (children x).length)

theorem searchCost_push (children : Obj → List Obj) (stack : List Obj)
    {support : Finset Obj} (hmem : node ∈ support)
    (hvisited : node ∉ visited) (hpath : node ∉ path) :
    searchCost children support
        (((children node).filter (· ∉ visited)).reverse ++ node :: stack)
        visited (node :: path) <
      searchCost children support (node :: stack) visited path := by
  have hsum : ∑ x ∈ support.filter (fun x => x ∉ visited ∧ x ∉ path),
        (1 + (children x).length) =
      (1 + (children node).length) +
        ∑ x ∈ support.filter (fun x => x ∉ visited ∧ x ∉ node :: path),
          (1 + (children x).length) := by
    apply Worklist.sum_filter_eq_add hmem
    · intro x
      by_cases hx : x = node
      · simp [hx, hvisited, hpath]
      · simp [hx]
    · simp
  have hlength : ((children node).filter (· ∉ visited)).length ≤
      (children node).length := List.length_filter_le _ _
  simp only [searchCost, hsum, List.length_append, List.length_reverse,
    List.length_cons]
  omega

theorem searchCost_finish (children : Obj → List Obj) (support : Finset Obj)
    (node : Obj) (stack visited path : List Obj) :
    searchCost children support stack (node :: visited)
        (path.filter (· ≠ node)) <
      searchCost children support (node :: stack) visited path := by
  have hle : ∑ x ∈ support.filter
        (fun x => x ∉ node :: visited ∧ x ∉ path.filter (· ≠ node)),
        (1 + (children x).length) ≤
      ∑ x ∈ support.filter (fun x => x ∉ visited ∧ x ∉ path),
        (1 + (children x).length) := by
    apply Finset.sum_le_sum_of_subset
    intro x hx
    simp only [Finset.mem_filter, List.mem_cons, not_or, List.mem_filter,
      decide_eq_true_eq, not_and, not_not] at hx ⊢
    exact ⟨hx.1, hx.2.1.2, fun hpath => hx.2.1.1 (hx.2.2 hpath)⟩
  simp only [searchCost, List.length_cons]
  omega

omit [DecidableEq Obj] in
theorem SearchInvariant.not_reachesCycle
    (hinv : SearchInvariant children roots [] visited path) :
    ¬ ReachesCycle children roots := by
  rintro ⟨root, hroot, vertex, hreach, hcycle⟩
  have hvisited : root ∈ visited :=
    (hinv.roots_pending root hroot).resolve_right List.not_mem_nil
  exact hinv.visited_acyclic vertex
    (mem_of_closed hinv.visited_closed hvisited hreach) hcycle

theorem hasCycleLoop_iff (support : Finset Obj) {fuel : ℕ}
    (hclosed : ∀ x ∈ support, ∀ y ∈ children x, y ∈ support)
    (hstack : ∀ x ∈ stack, x ∈ support)
    (hinv : SearchInvariant children roots stack visited path)
    (hfuel : searchCost children support stack visited path ≤ fuel) :
    hasCycleLoop children fuel stack visited path = true ↔
      ReachesCycle children roots := by
  induction fuel generalizing stack visited path with
  | zero =>
    cases stack with
    | nil => simp [hasCycleLoop, hinv.not_reachesCycle]
    | cons node stack =>
      simp only [searchCost, List.length_cons] at hfuel
      omega
  | succ fuel ih =>
    cases stack with
    | nil => simp [hasCycleLoop, hinv.not_reachesCycle]
    | cons node stack =>
      have hnode : node ∈ support := hstack node List.mem_cons_self
      simp only [hasCycleLoop]
      by_cases hadd : (children node).filter (· ∉ visited) = []
      · have hdone : ∀ child ∈ children node, child ∈ visited := by
          simpa using hadd
        rw [if_neg (not_not.mpr hadd)]
        apply ih
        · exact fun x hx => hstack x (List.mem_cons_of_mem _ hx)
        · exact hinv.finish hdone
        · have hless := searchCost_finish children support node stack visited
            path
          omega
      · rw [if_pos hadd]
        obtain ⟨child, hchild⟩ := List.exists_mem_of_ne_nil _ hadd
        obtain ⟨hchild, hfresh⟩ := List.mem_filter.mp hchild
        have hfresh : child ∉ visited := by simpa using hfresh
        by_cases hpath : node ∈ path
        · simp [hpath, hinv.cycle_of_mem_path hpath hchild hfresh]
        · rw [if_neg hpath]
          apply ih
          · intro x hx
            simp only [List.mem_append, List.mem_reverse, List.mem_filter] at hx
            cases hx with
            | inl hx => exact hclosed node hnode x hx.1
            | inr hx => exact hstack x hx
          · exact hinv.push hpath
          · have hvisited : node ∉ visited := fun hmem =>
              hfresh (hinv.visited_closed node hmem child hchild)
            have hless := searchCost_push children stack hnode hvisited hpath
            omega

end Search

/-! ## What `has_cycle` decides -/

variable {dag : SimpleDAG Obj Label}

/-- `has_cycle` finds a cycle exactly when a root reaches one, and it takes a
nonempty graph without roots for cyclic. -/
theorem hasCycle_iff : dag.hasCycle = true ↔
    (dag.nodes ≠ [] ∧ dag.getRootNodes = []) ∨
      ∃ root ∈ dag.getRootNodes, ∃ vertex,
        ReflTransGen dag.Edge root vertex ∧ TransGen dag.Edge vertex vertex := by
  have hedge : (fun a b => b ∈ dag.getChildren a) = dag.Edge := by
    funext a b
    exact propext mem_getChildren_iff
  have hloop : hasCycleLoop dag.getChildren dag.hasCycleFuel
        dag.getRootNodes.reverse [] [] = true ↔
      ReachesCycle dag.getChildren dag.getRootNodes := by
    apply hasCycleLoop_iff dag.nodes.toFinset
    · intro x _ y hy
      exact List.mem_toFinset.mpr (mem_getChildren_iff.mp hy).child_mem
    · intro x hx
      rw [List.mem_reverse, mem_getRootNodes_iff] at hx
      exact List.mem_toFinset.mpr hx.1
    · exact
        { visited_closed := by simp
          visited_acyclic := by simp
          roots_pending := fun root hroot => Or.inr (List.mem_reverse.mpr hroot)
          stack_reached := fun x hx => ⟨x, List.mem_reverse.mp hx, .refl⟩
          path_below := by simp }
    · simp only [searchCost, hasCycleFuel, List.length_reverse]
      simp only [List.not_mem_nil, not_false_eq_true, and_self, Finset.filter_true]
      rw [List.sum_toFinset _ dag.nodes_nodup]
  simp only [ReachesCycle, hedge] at hloop
  unfold hasCycle
  split
  · rename_i hempty
    have hroots : dag.nodes ≠ [] ∧ dag.getRootNodes = [] := by
      simpa [List.length_eq_zero_iff] using hempty
    simp [hroots]
  · rename_i hnonempty
    have hroots : ¬ (dag.nodes ≠ [] ∧ dag.getRootNodes = []) := by
      simpa [List.length_eq_zero_iff] using hnonempty
    rw [hloop]
    simp only [hroots, false_or]

end Forail.SimpleDag.SimpleDAG
