import Forail.Scheduler.SimpleDag

/-!
# Topological order of the simple graph

`sort_nodes_topological` visits every node, its children first, and puts each
finished node in front of the result.  The recursion of `visit` has no guard
against cycles; on an acyclic graph it never goes deeper than the number of
nodes, and the result lists every node once with its parents before it.
-/

namespace Forail.SimpleDag.SimpleDAG

open Relation

variable {Obj Label : Type*} [DecidableEq Obj]

/-- `visit`, with the depth of the recursion as fuel; `none` is a recursion
that is still going on.  The set `obj_ids_processed` of the source holds the
nodes of `nodesSorted` at every moment, so the list serves as both. -/
def visit (children : Obj → List Obj) : ℕ → Obj → List Obj → Option (List Obj)
  | 0, _, _ => none
  | fuel + 1, obj, nodesSorted =>
      if obj ∈ nodesSorted then some nodesSorted
      else do
        let nodesSorted ← (children obj).foldlM
          (fun sorted child => visit children fuel child sorted) nodesSorted
        return obj :: nodesSorted

def sortNodesTopological (dag : SimpleDAG Obj Label) : Option (List Obj) :=
  dag.nodes.foldlM
    (fun nodesSorted obj =>
      if obj ∈ nodesSorted then some nodesSorted
      else visit dag.getChildren (dag.nodes.length + 1) obj nodesSorted) []

variable {dag : SimpleDAG Obj Label} {sorted : List Obj} {obj : Obj}

/-- The part of the order built so far: closed under children, and no later
entry is a parent of an earlier one. -/
structure PartialOrderList (dag : SimpleDAG Obj Label) (sorted : List Obj) :
    Prop where
  nodup : sorted.Nodup
  subset : ∀ x ∈ sorted, x ∈ dag.nodes
  closed : ∀ x ∈ sorted, ∀ y, dag.Edge x y → y ∈ sorted
  ordered : sorted.Pairwise fun earlier later => ¬ dag.Edge later earlier

omit [DecidableEq Obj] in
theorem PartialOrderList.nil : PartialOrderList dag [] where
  nodup := List.nodup_nil
  subset := by simp
  closed := by simp
  ordered := List.Pairwise.nil

omit [DecidableEq Obj] in
theorem PartialOrderList.cons (hsorted : PartialOrderList dag sorted)
    (hmem : obj ∈ dag.nodes) (hfresh : obj ∉ sorted)
    (hchildren : ∀ y, dag.Edge obj y → y ∈ sorted) :
    PartialOrderList dag (obj :: sorted) where
  nodup := List.nodup_cons.mpr ⟨hfresh, hsorted.nodup⟩
  subset := by
    intro x hx
    cases List.mem_cons.mp hx with
    | inl hx => exact hx ▸ hmem
    | inr hx => exact hsorted.subset x hx
  closed := by
    intro x hx y hedge
    apply List.mem_cons_of_mem
    cases List.mem_cons.mp hx with
    | inl hx => exact hchildren y (hx ▸ hedge)
    | inr hx => exact hsorted.closed x hx y hedge
  ordered := by
    rw [List.pairwise_cons]
    -- a parent of `obj` in the list would have brought `obj` with it
    exact ⟨fun later hlater hedge => hfresh (hsorted.closed later hlater obj hedge),
      hsorted.ordered⟩

/-- What one call of `visit`, or a run over several nodes, adds to the order. -/
structure VisitResult (dag : SimpleDAG Obj Label) (starts old new : List Obj) :
    Prop where
  sorted : PartialOrderList dag new
  old_subset : ∀ x ∈ old, x ∈ new
  starts_subset : ∀ x ∈ starts, x ∈ new
  added : ∀ x ∈ new, x ∈ old ∨ ∃ start ∈ starts, ReflTransGen dag.Edge start x

omit [DecidableEq Obj] in
theorem foldlM_visit {step : List Obj → Obj → Option (List Obj)}
    {starts : List Obj}
    (hstep : ∀ start ∈ starts, ∀ old, PartialOrderList dag old →
      ∃ new, step old start = some new ∧ VisitResult dag [start] old new)
    (hsorted : PartialOrderList dag sorted) :
    ∃ new, starts.foldlM step sorted = some new ∧
      VisitResult dag starts sorted new := by
  induction starts generalizing sorted with
  | nil =>
    exact ⟨sorted, rfl,
      { sorted := hsorted
        old_subset := fun x hx => hx
        starts_subset := by simp
        added := fun x hx => Or.inl hx }⟩
  | cons start starts ih =>
    obtain ⟨middle, hmiddle, hfirst⟩ := hstep start List.mem_cons_self sorted hsorted
    obtain ⟨new, hnew, hrest⟩ := ih
      (fun other hother => hstep other (List.mem_cons_of_mem _ hother)) hfirst.sorted
    refine ⟨new, by simp [List.foldlM_cons, hmiddle, hnew], ?_⟩
    exact
      { sorted := hrest.sorted
        old_subset := fun x hx => hrest.old_subset x (hfirst.old_subset x hx)
        starts_subset := by
          intro x hx
          cases List.mem_cons.mp hx with
          | inl hx =>
            exact hrest.old_subset x (hfirst.starts_subset x (by simp [hx]))
          | inr hx => exact hrest.starts_subset x hx
        added := by
          intro x hx
          cases hrest.added x hx with
          | inl hmiddle =>
            cases hfirst.added x hmiddle with
            | inl hold => exact Or.inl hold
            | inr hreached =>
              obtain ⟨first, hmem, hpath⟩ := hreached
              have hfirst : first = start := by simpa using hmem
              exact Or.inr ⟨start, List.mem_cons_self, hfirst ▸ hpath⟩
          | inr hreached =>
            obtain ⟨first, hmem, hpath⟩ := hreached
            exact Or.inr ⟨first, List.mem_cons_of_mem _ hmem, hpath⟩ }

theorem visit_spec (hacyclic : Reach.Acyclic dag.Edge) {fuel : ℕ}
    (hmem : obj ∈ dag.nodes) (hsorted : PartialOrderList dag sorted)
    (hfuel : (Reach.ancestors (Function.swap dag.Edge) dag.nodes.toFinset
      obj).card < fuel) :
    ∃ new, visit dag.getChildren fuel obj sorted = some new ∧
      VisitResult dag [obj] sorted new := by
  induction fuel generalizing obj sorted with
  | zero => exact absurd hfuel (Nat.not_lt_zero _)
  | succ fuel ih =>
    rw [visit]
    by_cases hseen : obj ∈ sorted
    · refine ⟨sorted, if_pos hseen, ?_⟩
      exact
        { sorted := hsorted
          old_subset := fun x hx => hx
          starts_subset := by simpa using hseen
          added := fun x hx => Or.inl hx }
    · have hchild : ∀ child ∈ dag.getChildren obj, ∀ old,
          PartialOrderList dag old →
          ∃ new, visit dag.getChildren fuel child old = some new ∧
            VisitResult dag [child] old new := by
        intro child hchild old hold
        have hedge : dag.Edge obj child := mem_getChildren_iff.mp hchild
        apply ih hedge.child_mem hold
        have hless := Reach.card_ancestors_lt hacyclic.swap
          (List.mem_toFinset.mpr hedge.child_mem) hedge
        omega
      obtain ⟨middle, hmiddle, hresult⟩ := foldlM_visit hchild hsorted
      -- a descendant of `obj` is not `obj`, so `obj` is still missing
      have hfresh : obj ∉ middle := by
        intro hpresent
        cases hresult.added obj hpresent with
        | inl hold => exact hseen hold
        | inr hreached =>
          obtain ⟨child, hchild, hpath⟩ := hreached
          exact hacyclic obj (.head' (mem_getChildren_iff.mp hchild) hpath)
      refine ⟨obj :: middle, by simp [hseen, hmiddle], ?_⟩
      exact
        { sorted := hresult.sorted.cons hmem hfresh fun y hedge =>
            hresult.starts_subset y (mem_getChildren_iff.mpr hedge)
          old_subset := fun x hx =>
            List.mem_cons_of_mem _ (hresult.old_subset x hx)
          starts_subset := by simp
          added := by
            intro x hx
            cases List.mem_cons.mp hx with
            | inl hx => exact Or.inr ⟨obj, by simp, hx ▸ .refl⟩
            | inr hx =>
              cases hresult.added x hx with
              | inl hold => exact Or.inl hold
              | inr hreached =>
                obtain ⟨child, hchild, hpath⟩ := hreached
                exact Or.inr ⟨obj, by simp,
                  hpath.head (mem_getChildren_iff.mp hchild)⟩ }

theorem sortNodesTopological_spec (hacyclic : Reach.Acyclic dag.Edge) :
    ∃ sorted, dag.sortNodesTopological = some sorted ∧
      sorted.Perm dag.nodes ∧
      sorted.Pairwise fun earlier later => ¬ dag.Edge later earlier := by
  have hstep : ∀ obj ∈ dag.nodes, ∀ old, PartialOrderList dag old →
      ∃ new, (if obj ∈ old then some old
          else visit dag.getChildren (dag.nodes.length + 1) obj old) = some new ∧
        VisitResult dag [obj] old new := by
    intro obj hmem old hold
    have hcard : (Reach.ancestors (Function.swap dag.Edge) dag.nodes.toFinset
        obj).card ≤ dag.nodes.length := by
      apply (Finset.card_le_card _).trans dag.nodes.toFinset_card_le
      intro x hx
      exact (Reach.mem_ancestors.mp hx).1
    obtain ⟨new, hvisit, hresult⟩ := visit_spec hacyclic hmem hold
      (Nat.lt_succ_of_le hcard)
    by_cases hseen : obj ∈ old
    · rw [visit, if_pos hseen] at hvisit
      exact ⟨new, by rw [if_pos hseen, hvisit], hresult⟩
    · exact ⟨new, by rw [if_neg hseen, hvisit], hresult⟩
  obtain ⟨sorted, hrun, hresult⟩ := foldlM_visit hstep PartialOrderList.nil
  refine ⟨sorted, hrun, ?_, hresult.sorted.ordered⟩
  rw [List.perm_ext_iff_of_nodup hresult.sorted.nodup dag.nodes_nodup]
  exact fun x => ⟨hresult.sorted.subset x, hresult.starts_subset x⟩

/-! ## The order of a built graph -/

omit [DecidableEq Obj] in
theorem parent_mem_front {front back : List Obj} {node parent : Obj}
    (hordered : (front ++ node :: back).Pairwise fun earlier later =>
      ¬ dag.Edge later earlier)
    (hacyclic : Reach.Acyclic dag.Edge) (hedge : dag.Edge parent node)
    (hmem : parent ∈ front ++ node :: back) : parent ∈ front := by
  cases List.mem_append.mp hmem with
  | inl hfront => exact hfront
  | inr hrest =>
    cases List.mem_cons.mp hrest with
    | inl hself => exact absurd (.single (hself ▸ hedge)) (hacyclic node)
    | inr hback =>
      have hlater := (List.pairwise_cons.mp (List.pairwise_append.mp hordered).2.1).1
      exact absurd hedge (hlater parent hback)

/-- On a graph that calls of `add_node` and `add_edge` build without a cycle,
the sort returns, and lists every added node once with its parents before it. -/
theorem sortNodesTopological_build [DecidableEq Label]
    {calls : List (BuildCall Obj Label)} (hbuild : build calls = .ok dag)
    (hacyclic : Reach.Acyclic fun parent child =>
      ∃ label, BuildCall.addEdge parent child label ∈ calls) :
    ∃ sorted, dag.sortNodesTopological = some sorted ∧ sorted.Nodup ∧
      (∀ node, node ∈ sorted ↔ .addNode node ∈ calls) ∧
      ∀ front node back, sorted = front ++ node :: back →
        ∀ parent label, .addEdge parent node label ∈ calls → parent ∈ front := by
  have hedges : dag.Edge = fun parent child =>
      ∃ label, BuildCall.addEdge parent child label ∈ calls := by
    funext parent child
    exact propext (edge_build_iff hbuild)
  rw [← hedges] at hacyclic
  obtain ⟨sorted, hsort, hperm, hordered⟩ := sortNodesTopological_spec hacyclic
  refine ⟨sorted, hsort, hperm.nodup_iff.mpr dag.nodes_nodup, ?_, ?_⟩
  · intro node
    rw [hperm.mem_iff, mem_nodes_build hbuild]
  · rintro front node back rfl parent label hcall
    have hedge : dag.Edge parent node := (edge_build_iff hbuild).mpr ⟨label, hcall⟩
    exact parent_mem_front hordered hacyclic hedge
      (hperm.mem_iff.mpr hedge.parent_mem)

def joinCalls : List (BuildCall ℕ Bool) :=
  [.addNode 2, .addNode 1, .addNode 0, .addEdge 0 2 true, .addEdge 1 2 false,
    .addEdge 0 2 true]

theorem joinCalls_acyclic : Reach.Acyclic fun parent child =>
    ∃ label, BuildCall.addEdge parent child label ∈ joinCalls := by
  apply @Reach.acyclic_of_rank _ _ id
  rintro parent child ⟨label, hcall⟩
  simp only [joinCalls, List.mem_cons, List.not_mem_nil, reduceCtorEq, false_or,
    or_false, BuildCall.addEdge.injEq] at hcall
  simp only [id_eq]
  omega

theorem sortNodesTopological_join :
    ∃ dag, build joinCalls = .ok dag ∧ ∃ sorted,
      dag.sortNodesTopological = some sorted ∧ sorted.Nodup ∧
      (∀ node, node ∈ sorted ↔ .addNode node ∈ joinCalls) ∧
      ∀ front node back, sorted = front ++ node :: back →
        ∀ parent label, .addEdge parent node label ∈ joinCalls → parent ∈ front :=
  ⟨_, rfl, sortNodesTopological_build rfl joinCalls_acyclic⟩

end Forail.SimpleDag.SimpleDAG
