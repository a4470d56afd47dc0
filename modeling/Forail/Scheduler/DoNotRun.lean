import Forail.Core.Sweep
import Forail.Scheduler.NodesToRun

/-!
# The nodes a workflow never runs

`mark_dnr_nodes` visits the nodes in topological order and marks those that no
longer have a way to get a job.  `Dropped` says which nodes these are, by
reference to the states before the marking alone: a node marked before, a node
some parent of which is dropped or mismatched when all parents must converge,
and a node all parents of which are dropped or closed otherwise.  The marking
of an acyclic graph computes exactly this set.
-/

namespace Forail.DagWorkflow

open Relation
open Forail.SimpleDag Forail.UnifiedJobs

def Settled (states : NodeStates) (node : NodeId) : Prop :=
  match (states node).job with
  | some job => ¬ job.status.Active
  | none => (states node).unifiedJobTemplate = none

/-- The parent is settled, and the way it ended opens no edge into the child. -/
def Closed (dag : WorkflowDAG) (states : NodeStates) (parent child : NodeId) :
    Prop :=
  match (states parent).job with
  | some job =>
      (job.status = .successful ∧ child ∉ dag.successPath parent) ∨
        (job.status.Unsuccessful ∧ child ∉ dag.failurePath parent)
  | none =>
      (states parent).unifiedJobTemplate = none ∧ child ∉ dag.failurePath parent

/-- The job of the parent ended `successful` or `failed` without an edge for
that end into the child. -/
def Mismatched (dag : WorkflowDAG) (states : NodeStates)
    (parent child : NodeId) : Prop :=
  ∃ job, (states parent).job = some job ∧
    ((job.status = .successful ∧ child ∉ dag.successPath parent) ∨
      (job.status = .failed ∧ child ∉ dag.failurePath parent))

inductive Dropped (dag : WorkflowDAG) (states : NodeStates) : NodeId → Prop where
  | marked {node : NodeId} (hmarked : (states node).doNotRun = true) :
      Dropped dag states node
  | all {node parent : NodeId} (hjob : (states node).job = none)
      (hall : (states node).allParentsMustConverge = true)
      (hedge : dag.Edge parent node) (hparent : Dropped dag states parent) :
      Dropped dag states node
  | mismatched {node parent : NodeId} (hjob : (states node).job = none)
      (hall : (states node).allParentsMustConverge = true)
      (hedge : dag.Edge parent node) (hparent : Mismatched dag states parent node) :
      Dropped dag states node
  | any {node parent : NodeId} (hjob : (states node).job = none)
      (hany : (states node).allParentsMustConverge = false)
      (hedge : dag.Edge parent node)
      (hparents : ∀ p, dag.Edge p node → ¬ Closed dag states p node →
        Dropped dag states p) :
      Dropped dag states node

structure Marking (dag : WorkflowDAG) (states states' : NodeStates) : Prop where
  frame : ∀ node, states' node =
    { states node with doNotRun := (states' node).doNotRun }
  marked_iff : ∀ node, (states' node).doNotRun = true ↔ Dropped dag states node

/-! ## Open and closed edges -/

variable {dag : WorkflowDAG} {states states' : NodeStates}
  {parent child node : NodeId}

theorem LetsRun.settled (hlets : LetsRun dag states parent child) :
    Settled states parent := by
  cases hlets with
  | successful job _ hjob hstatus _ =>
    simp only [Settled, hjob, hstatus]
    exact JobStatus.not_active_successful
  | unsuccessful job _ hjob hstatus _ =>
    simp only [Settled, hjob]
    exact hstatus.not_active
  | missing _ hjob htemplate _ =>
    simpa only [Settled, hjob] using htemplate

theorem LetsRun.not_closed (hlets : LetsRun dag states parent child) :
    ¬ Closed dag states parent child := by
  cases hlets with
  | successful job _ hjob hstatus hpath =>
    simp [Closed, hjob, hstatus, hpath, JobStatus.Unsuccessful]
  | unsuccessful job _ hjob hstatus hpath =>
    simp [Closed, hjob, hstatus.ne_successful, hpath]
  | missing _ hjob htemplate hpath =>
    simp [Closed, hjob, hpath]

theorem letsRun_of_settled (hkeep : (states parent).doNotRun = false)
    (hsettled : Settled states parent)
    (hopen : ¬ Closed dag states parent child) :
    LetsRun dag states parent child := by
  cases hjob : (states parent).job with
  | none =>
    simp only [Settled, hjob] at hsettled
    simp only [Closed, hjob, hsettled, true_and, not_not] at hopen
    exact .missing hkeep hjob hsettled hopen
  | some job =>
    simp only [Settled, hjob] at hsettled
    simp only [Closed, hjob, not_or, not_and, not_not] at hopen
    cases job.status.active_or_successful_or_unsuccessful with
    | inl hactive => exact absurd hactive hsettled
    | inr hended =>
      cases hended with
      | inl hsuccess => exact .successful job hkeep hjob hsuccess (hopen.1 hsuccess)
      | inr hfailure => exact .unsuccessful job hkeep hjob hfailure (hopen.2 hfailure)

theorem closed_congr (hjob : (states' parent).job = (states parent).job)
    (htemplate : (states parent).job = none →
      ((states' parent).unifiedJobTemplate = none ↔
        (states parent).unifiedJobTemplate = none)) :
    Closed dag states' parent child ↔ Closed dag states parent child := by
  cases hold : (states parent).job with
  | none => simp [Closed, hjob, hold, htemplate hold]
  | some job => simp [Closed, hjob, hold]

theorem mismatched_congr (hjob : (states' parent).job = (states parent).job) :
    Mismatched dag states' parent child ↔ Mismatched dag states parent child := by
  simp only [Mismatched, hjob]

theorem settled_congr (hjob : (states' node).job = (states node).job)
    (htemplate : (states node).job = none →
      ((states' node).unifiedJobTemplate = none ↔
        (states node).unifiedJobTemplate = none)) :
    Settled states' node ↔ Settled states node := by
  cases hold : (states node).job with
  | none => simp [Settled, hjob, hold, htemplate hold]
  | some job => simp [Settled, hjob, hold]

theorem Dropped.marked_of_root (hdropped : Dropped dag states node)
    (hroot : node ∈ dag.getRootNodes) : (states node).doNotRun = true := by
  have hfirst := (SimpleDAG.mem_getRootNodes_iff.mp hroot).2
  cases hdropped with
  | marked hmarked => exact hmarked
  | all _ _ hedge => exact absurd hedge (hfirst _)
  | mismatched _ _ hedge => exact absurd hedge (hfirst _)
  | any _ _ hedge => exact absurd hedge (hfirst _)

/-! ## One round of the marking -/

namespace WorkflowDAG

theorem allParentsMet_iff_not_mismatched :
    dag.allParentsMetConvergenceCriteria states node = true ↔
      ∀ p, dag.Edge p node → ¬ Mismatched dag states p node := by
  rw [allParentsMetConvergenceCriteria_iff]
  refine forall_congr' fun p => imp_congr_right fun _ => ?_
  cases hjob : (states p).job with
  | none => simp [Mismatched, hjob]
  | some job => simp [Mismatched, hjob, not_or]

theorem shouldMarkNodeDnr_iff :
    (areAllNodesDnrDecided states (dag.getParents node) &&
        dag.shouldMarkNodeDnr states node (dag.getParents node)) = true ↔
      ∀ p, dag.Edge p node → (states p).doNotRun = true ∨
        Closed dag states p node := by
  simp only [areAllNodesDnrDecided, shouldMarkNodeDnr, Bool.and_eq_true,
    List.all_eq_true, SimpleDAG.mem_getParents_iff, ← forall_and]
  refine forall_congr' fun p => imp_congr_right fun _ => ?_
  by_cases hmarked : (states p).doNotRun = true
  · simp [hmarked]
  · cases hjob : (states p).job with
    | none =>
      by_cases htemplate : (states p).unifiedJobTemplate = none
      · simp [hmarked, hjob, htemplate, Closed]
      · simp [hmarked, hjob, htemplate, Closed]
    | some job =>
      obtain ⟨status, taskId, flag⟩ := job
      cases status <;>
        simp [hmarked, hjob, Closed, JobStatus.Unsuccessful]

def Drops (dag : WorkflowDAG) (states : NodeStates) (node : NodeId) : Prop :=
  if (states node).allParentsMustConverge then
    ∃ p, dag.Edge p node ∧
      ((states p).doNotRun = true ∨ Mismatched dag states p node)
  else
    ∀ p, dag.Edge p node → (states p).doNotRun = true ∨ Closed dag states p node

theorem anyDropped_iff :
    ((dag.getParents node).any (fun p => (states p).doNotRun) ||
        !dag.allParentsMetConvergenceCriteria states node) = true ↔
      ∃ p, dag.Edge p node ∧
        ((states p).doNotRun = true ∨ Mismatched dag states p node) := by
  rw [Bool.or_eq_true, Bool.not_eq_true', ← Bool.not_eq_true,
    allParentsMet_iff_not_mismatched]
  simp only [List.any_eq_true, SimpleDAG.mem_getParents_iff, and_or_left,
    exists_or]
  push Not
  rfl

theorem marksDnr_iff : dag.marksDnr states node = true ↔
    (states node).doNotRun = false ∧ (states node).job = none ∧
      node ∉ dag.getRootNodes ∧ dag.Drops states node := by
  simp only [marksDnr, Drops]
  by_cases hall : (states node).allParentsMustConverge = true
  · rw [if_pos hall, if_pos hall, ← anyDropped_iff]
    by_cases hroot : node ∈ dag.getRootNodes <;>
      cases (states node).doNotRun <;> cases (states node).job <;> simp [hroot]
  · rw [if_neg hall, if_neg hall, ← shouldMarkNodeDnr_iff]
    by_cases hroot : node ∈ dag.getRootNodes <;>
      cases (states node).doNotRun <;> cases (states node).job <;> simp [hroot]

def markNode (dag : WorkflowDAG) (states : NodeStates) (node : NodeId) :
    WorkflowJobNode :=
  if dag.marksDnr states node then { states node with doNotRun := true }
  else states node

theorem markNode_doNotRun : (dag.markNode states node).doNotRun = true ↔
    (states node).doNotRun = true ∨ dag.marksDnr states node = true := by
  unfold markNode
  split
  · rename_i hmarks
    simp [hmarks]
  · rename_i hmarks
    simp [hmarks]

theorem markNode_frame : dag.markNode states node =
    { states node with doNotRun := (dag.markNode states node).doNotRun } := by
  unfold markNode
  split <;> rfl

theorem markNode_local (first second : NodeStates) (node : NodeId)
    (hparents : ∀ p, dag.Edge p node → first p = second p)
    (hself : first node = second node) :
    dag.markNode first node = dag.markNode second node := by
  have hdrops : dag.Drops first node ↔ dag.Drops second node := by
    have hmismatched : ∀ p, dag.Edge p node →
        (((first p).doNotRun = true ∨ Mismatched dag first p node) ↔
          ((second p).doNotRun = true ∨ Mismatched dag second p node)) := by
      intro p hedge
      simp only [Mismatched, hparents p hedge]
    have hclosed : ∀ p, dag.Edge p node →
        (((first p).doNotRun = true ∨ Closed dag first p node) ↔
          ((second p).doNotRun = true ∨ Closed dag second p node)) := by
      intro p hedge
      simp only [Closed, hparents p hedge]
    simp only [Drops, hself]
    split
    · exact exists_congr fun p => and_congr_right (hmismatched p)
    · exact forall_congr' fun p => imp_congr_right (hclosed p)
  have hmarks : dag.marksDnr first node = dag.marksDnr second node := by
    rw [Bool.eq_iff_iff, marksDnr_iff, marksDnr_iff, hself, hdrops]
  rw [markNode, markNode, hmarks, hself]

theorem foldl_marks_fst (sorted marked : List NodeId) :
    (sorted.foldl (fun acc node =>
      if dag.marksDnr acc.1 node then
        (Function.update acc.1 node { acc.1 node with doNotRun := true },
          acc.2 ++ [node])
      else acc) (states, marked)).1 =
      Sweep.sweep dag.markNode states sorted := by
  induction sorted generalizing states marked with
  | nil => rfl
  | cons node sorted ih =>
    rw [List.foldl_cons, Sweep.sweep]
    by_cases hmarks : dag.marksDnr states node = true
    · rw [if_pos hmarks, ih, markNode, if_pos hmarks]
    · rw [if_neg hmarks, ih, markNode, if_neg hmarks, Function.update_eq_self]

end WorkflowDAG

/-! ## The marking -/

/-- The equations that the rounds solve.  A node is marked from its old state and the
new states of the others. -/
structure Rounds (dag : WorkflowDAG) (states states' : NodeStates) : Prop where
  outside : ∀ node, node ∉ dag.nodes → states' node = states node
  inside : ∀ node ∈ dag.nodes, states' node =
    dag.markNode (Function.update states' node (states node)) node

namespace Rounds

section

variable (hrounds : Rounds dag states states')
include hrounds

theorem frame (node : NodeId) :
    states' node = { states node with doNotRun := (states' node).doNotRun } := by
  by_cases hmem : node ∈ dag.nodes
  · have hround := @WorkflowDAG.markNode_frame dag
      (Function.update states' node (states node)) node
    rwa [← hrounds.inside node hmem, Function.update_self] at hround
  · rw [hrounds.outside node hmem]

theorem marked_iff (hmem : node ∈ dag.nodes) :
    (states' node).doNotRun = true ↔ (states node).doNotRun = true ∨
      dag.marksDnr (Function.update states' node (states node)) node = true := by
  calc (states' node).doNotRun = true
      ↔ (dag.markNode (Function.update states' node (states node))
          node).doNotRun = true := by rw [← hrounds.inside node hmem]
    _ ↔ _ := by rw [WorkflowDAG.markNode_doNotRun, Function.update_self]

/-- A round finds the parents as they are in the end, and their jobs and templates as
they were. -/
theorem drops_iff (hacyclic : Reach.Acyclic dag.Edge) :
    dag.Drops (Function.update states' node (states node)) node ↔
      if (states node).allParentsMustConverge then
        ∃ p, dag.Edge p node ∧
          ((states' p).doNotRun = true ∨ Mismatched dag states p node)
      else
        ∀ p, dag.Edge p node → (states' p).doNotRun = true ∨ Closed dag states p node := by
  have hparent : ∀ p, dag.Edge p node →
      Function.update states' node (states node) p = states' p := by
    intro p hedge
    apply Function.update_of_ne
    intro heq
    exact hacyclic node (.single (heq ▸ hedge))
  have hjob : ∀ p, (states' p).job = (states p).job := by
    intro p
    rw [hrounds.frame p]
  have htemplate : ∀ p, (states' p).unifiedJobTemplate = (states p).unifiedJobTemplate := by
    intro p
    rw [hrounds.frame p]
  rw [WorkflowDAG.Drops, Function.update_self]
  split
  · apply exists_congr
    intro p
    apply and_congr_right
    intro hedge
    rw [hparent p hedge]
    apply or_congr_right
    apply mismatched_congr
    rw [hparent p hedge, hjob]
  · apply forall_congr'
    intro p
    apply imp_congr_right
    intro hedge
    rw [hparent p hedge]
    apply or_congr_right
    apply closed_congr
    · rw [hparent p hedge, hjob]
    · rw [hparent p hedge, htemplate]
      exact fun _ => Iff.rfl

theorem dropped_of_marked
    (hacyclic : Reach.Acyclic dag.Edge) (hmarked : (states' node).doNotRun = true) :
    Dropped dag states node := by
  induction node using (SimpleDAG.edge_wellFounded hacyclic).induction with
  | _ node ih =>
    by_cases hmem : node ∈ dag.nodes
    · cases (hrounds.marked_iff hmem).mp hmarked with
      | inl hold => exact .marked hold
      | inr hround =>
        obtain ⟨-, hnone, hroot, hdrops⟩ := WorkflowDAG.marksDnr_iff.mp hround
        rw [Function.update_self] at hnone
        rw [hrounds.drops_iff hacyclic] at hdrops
        by_cases hall : (states node).allParentsMustConverge = true
        · rw [if_pos hall] at hdrops
          obtain ⟨p, hedge, hdropped⟩ := hdrops
          cases hdropped with
          | inl hp => exact .all hnone hall hedge (ih p hedge hp)
          | inr hp => exact .mismatched hnone hall hedge hp
        · rw [if_neg hall] at hdrops
          simp only [SimpleDAG.mem_getRootNodes_iff, hmem, true_and, not_forall,
            not_not] at hroot
          obtain ⟨p, hedge⟩ := hroot
          refine .any hnone (by simpa using hall) hedge ?_
          intro q hq hopen
          exact ih q hq ((hdrops q hq).resolve_right hopen)
    · rw [hrounds.outside node hmem] at hmarked
      exact .marked hmarked

theorem marked_of_drops (hacyclic : Reach.Acyclic dag.Edge)
    (hnone : (states node).job = none) (hedge : dag.Edge parent node)
    (hdrops : if (states node).allParentsMustConverge then
        ∃ p, dag.Edge p node ∧
          ((states' p).doNotRun = true ∨ Mismatched dag states p node)
      else
        ∀ p, dag.Edge p node → (states' p).doNotRun = true ∨ Closed dag states p node) :
    (states' node).doNotRun = true := by
  rw [hrounds.marked_iff hedge.child_mem]
  by_cases hold : (states node).doNotRun = true
  · exact Or.inl hold
  · refine Or.inr (WorkflowDAG.marksDnr_iff.mpr
      ⟨?_, ?_, ?_, (hrounds.drops_iff hacyclic).mpr hdrops⟩)
    · simpa using hold
    · simpa using hnone
    · rw [SimpleDAG.mem_getRootNodes_iff]
      exact fun hroot => hroot.2 parent hedge

theorem marked_of_dropped (hacyclic : Reach.Acyclic dag.Edge) (hdropped : Dropped dag states node) :
    (states' node).doNotRun = true := by
  induction hdropped with
  | @marked node hold =>
    by_cases hmem : node ∈ dag.nodes
    · exact (hrounds.marked_iff hmem).mpr (Or.inl hold)
    · rw [hrounds.outside node hmem]
      exact hold
  | @all node p hnone hall hedge _ ih =>
    apply hrounds.marked_of_drops hacyclic hnone hedge
    rw [if_pos hall]
    exact ⟨p, hedge, Or.inl ih⟩
  | @mismatched node p hnone hall hedge hp =>
    apply hrounds.marked_of_drops hacyclic hnone hedge
    rw [if_pos hall]
    exact ⟨p, hedge, Or.inr hp⟩
  | @any node p hnone hany hedge _ ih =>
    apply hrounds.marked_of_drops hacyclic hnone hedge
    rw [if_neg (by simp [hany])]
    intro q hq
    by_cases hopen : Closed dag states q node
    · exact Or.inr hopen
    · exact Or.inl (ih q hq hopen)

theorem marking (hacyclic : Reach.Acyclic dag.Edge) :
    Marking dag states states' where
  frame := hrounds.frame
  marked_iff _ := ⟨hrounds.dropped_of_marked hacyclic, hrounds.marked_of_dropped hacyclic⟩

end

end Rounds

theorem markDnrNodes_spec (hacyclic : Reach.Acyclic dag.Edge)
    (states : NodeStates) :
    ∃ states' marked, dag.markDnrNodes states = some (states', marked) ∧
      Marking dag states states' := by
  obtain ⟨sorted, hsort, hperm, hordered⟩ :=
    SimpleDAG.sortNodesTopological_spec hacyclic
  refine ⟨_, _, by rw [WorkflowDAG.markDnrNodes, hsort]; rfl, ?_⟩
  rw [WorkflowDAG.foldl_marks_fst]
  refine Rounds.marking ⟨?_, ?_⟩ hacyclic
  · intro node hmem
    exact Sweep.sweep_of_not_mem fun hsorted => hmem (hperm.mem_iff.mp hsorted)
  · intro node hmem
    apply Sweep.sweep_eq WorkflowDAG.markNode_local
    · intro vertex hedge
      exact hacyclic vertex (.single hedge)
    · exact hperm.nodup_iff.mpr dag.nodes_nodup
    · exact hordered
    · exact hperm.mem_iff.mpr hmem

/-! ## Marking twice, and in another order -/

theorem WorkflowDAG.foldl_marks_snd (sorted marked : List NodeId) :
    let result := sorted.foldl (fun acc node =>
      if dag.marksDnr acc.1 node then
        (Function.update acc.1 node { acc.1 node with doNotRun := true },
          acc.2 ++ [node])
      else acc) (states, marked)
    (∀ node, (states node).doNotRun = true → (result.1 node).doNotRun = true) ∧
      ∀ node, node ∈ result.2 ↔ node ∈ marked ∨
        ((states node).doNotRun = false ∧ (result.1 node).doNotRun = true) := by
  induction sorted generalizing states marked with
  | nil =>
    refine ⟨fun node hold => hold, fun node => ?_⟩
    rw [List.foldl_nil]
    cases (states node).doNotRun <;> simp
  | cons head sorted ih =>
    rw [List.foldl_cons]
    by_cases hmarks : dag.marksDnr states head = true
    · rw [if_pos hmarks]
      have hfresh := (WorkflowDAG.marksDnr_iff.mp hmarks).1
      obtain ⟨hkept, hlisted⟩ := @ih
        (Function.update states head { states head with doNotRun := true })
        (marked ++ [head])
      have hhead := hkept head (by rw [Function.update_self])
      constructor
      · intro node hold
        apply hkept
        by_cases hnode : node = head
        · rw [hnode, Function.update_self]
        · rw [Function.update_of_ne hnode]
          exact hold
      · intro node
        rw [hlisted, List.mem_append, List.mem_singleton]
        by_cases hnode : node = head
        · subst hnode
          simp [hfresh, hhead]
        · rw [Function.update_of_ne hnode]
          simp [hnode]
    · rw [if_neg hmarks]
      exact ih marked

namespace Marking

theorem job_eq (hmarking : Marking dag states states') (node : NodeId) :
    (states' node).job = (states node).job := by
  rw [hmarking.frame node]

theorem closed_iff (hmarking : Marking dag states states') :
    Closed dag states' parent child ↔ Closed dag states parent child := by
  apply closed_congr (hmarking.job_eq parent)
  intro _
  rw [hmarking.frame parent]

theorem dropped_iff (hmarking : Marking dag states states') :
    Dropped dag states' node ↔ Dropped dag states node := by
  have hjob := hmarking.job_eq
  have hconverge : ∀ node, (states' node).allParentsMustConverge =
      (states node).allParentsMustConverge := by
    intro node
    rw [hmarking.frame node]
  constructor
  · intro hdropped
    induction hdropped with
    | @marked node hmarked => exact (hmarking.marked_iff node).mp hmarked
    | @all node p hnone hall hedge _ ih =>
      exact .all (hjob node ▸ hnone) (hconverge node ▸ hall) hedge ih
    | @mismatched node p hnone hall hedge hp =>
      exact .mismatched (hjob node ▸ hnone) (hconverge node ▸ hall) hedge
        ((mismatched_congr (hjob p)).mp hp)
    | @any node p hnone hany hedge _ ih =>
      refine .any (hjob node ▸ hnone) (hconverge node ▸ hany) hedge ?_
      intro q hq hopen
      exact ih q hq (mt hmarking.closed_iff.mp hopen)
  · intro hdropped
    exact .marked ((hmarking.marked_iff node).mpr hdropped)

theorem eq_of_again {states'' : NodeStates} (hmarking : Marking dag states states')
    (hagain : Marking dag states' states'') : states'' = states' := by
  funext node
  have hmark : (states'' node).doNotRun = (states' node).doNotRun := by
    rw [Bool.eq_iff_iff, hagain.marked_iff, hmarking.dropped_iff, hmarking.marked_iff]
  rw [hagain.frame node, hmark]

end Marking

theorem Dropped.fresh (hdropped : Dropped dag states node)
    (hfresh : (states node).doNotRun = false) :
    (states node).job = none ∧ ∃ p, dag.Edge p node := by
  cases hdropped with
  | marked hmarked => simp [hfresh] at hmarked
  | all hjob _ hedge => exact ⟨hjob, _, hedge⟩
  | mismatched hjob _ hedge => exact ⟨hjob, _, hedge⟩
  | any hjob _ hedge => exact ⟨hjob, _, hedge⟩

theorem Dropped.of_sameEdges {other : WorkflowDAG}
    (hsame : ∀ parent child label, child ∈ other.getChildrenByLabel parent label ↔
      child ∈ dag.getChildrenByLabel parent label)
    (hdropped : Dropped dag states node) : Dropped other states node := by
  have hedge : ∀ {p c}, other.Edge p c ↔ dag.Edge p c := by
    intro p c
    exact exists_congr fun label => hsame p c label
  have hsuccess : ∀ {p c}, c ∈ other.successPath p ↔ c ∈ dag.successPath p := by
    intro p c
    rw [WorkflowDAG.mem_successPath_iff, WorkflowDAG.mem_successPath_iff, hsame, hsame]
  have hfailure : ∀ {p c}, c ∈ other.failurePath p ↔ c ∈ dag.failurePath p := by
    intro p c
    rw [WorkflowDAG.mem_failurePath_iff, WorkflowDAG.mem_failurePath_iff, hsame, hsame]
  induction hdropped with
  | marked hmarked => exact .marked hmarked
  | all hjob hall hparent _ ih => exact .all hjob hall (hedge.mpr hparent) ih
  | mismatched hjob hall hparent hends =>
    refine .mismatched hjob hall (hedge.mpr hparent) ?_
    simpa only [Mismatched, hsuccess, hfailure] using hends
  | any hjob hany hparent _ ih =>
    refine .any hjob hany (hedge.mpr hparent) ?_
    intro p hp hopen
    refine ih p (hedge.mp hp) ?_
    simpa only [Closed, hsuccess, hfailure] using hopen

theorem Marking.of_perm {calls calls' : List (SimpleDAG.BuildCall NodeId EdgeLabel)}
    {dag' : WorkflowDAG} (hbuild : SimpleDAG.build calls = .ok dag)
    (hbuild' : SimpleDAG.build calls' = .ok dag') (hperm : calls'.Perm calls)
    (hmarking : Marking dag' states states') : Marking dag states states' where
  frame := hmarking.frame
  marked_iff node := by
    have hsame : ∀ parent child label,
        child ∈ dag'.getChildrenByLabel parent label ↔
          child ∈ dag.getChildrenByLabel parent label := by
      intro parent child label
      rw [SimpleDAG.mem_getChildrenByLabel_build hbuild,
        SimpleDAG.mem_getChildrenByLabel_build hbuild', hperm.mem_iff]
    rw [hmarking.marked_iff]
    exact ⟨.of_sameEdges fun p c label => (hsame p c label).symm, .of_sameEdges hsame⟩

theorem Marking.unique {first second : NodeStates} (hfirst : Marking dag states first)
    (hsecond : Marking dag states second) : first = second := by
  funext node
  have hmark : (first node).doNotRun = (second node).doNotRun := by
    rw [Bool.eq_iff_iff, hfirst.marked_iff, hsecond.marked_iff]
  rw [hfirst.frame node, hmark, ← hsecond.frame node]

/-- One call of `mark_dnr_nodes` on an acyclic graph reaches a fixpoint: it lists
the nodes it marks, which are no roots and have no job, it clears no mark, a
second call marks nothing, and the order in which the nodes and edges were added
does not matter. -/
theorem markDnrNodes_once (hacyclic : Reach.Acyclic dag.Edge) (states : NodeStates) :
    ∃ states' marked, dag.markDnrNodes states = some (states', marked) ∧
      dag.markDnrNodes states' = some (states', []) ∧
      (∀ node, node ∈ marked ↔
        (states node).doNotRun = false ∧ (states' node).doNotRun = true) ∧
      (∀ node ∈ marked, node ∉ dag.getRootNodes ∧ (states node).job = none) ∧
      (∀ node, (states node).doNotRun = true → (states' node).doNotRun = true) ∧
      (∀ node, states' node =
        { states node with doNotRun := (states' node).doNotRun }) ∧
      ∀ (calls calls' : List (SimpleDAG.BuildCall NodeId EdgeLabel)) (dag' : WorkflowDAG),
        SimpleDAG.build calls = .ok dag → calls'.Perm calls →
        SimpleDAG.build calls' = .ok dag' →
          ∃ marked', dag'.markDnrNodes states = some (states', marked') ∧
            ∀ node, node ∈ marked' ↔ node ∈ marked := by
  have hlist : ∀ (graph : WorkflowDAG) (old new : NodeStates) marked,
      graph.markDnrNodes old = some (new, marked) →
        (∀ node, (old node).doNotRun = true → (new node).doNotRun = true) ∧
        ∀ node, node ∈ marked ↔
          (old node).doNotRun = false ∧ (new node).doNotRun = true := by
    intro graph old new marked hrun
    rw [WorkflowDAG.markDnrNodes, Option.map_eq_some_iff] at hrun
    obtain ⟨sorted, -, hfold⟩ := hrun
    have hloop := @WorkflowDAG.foldl_marks_snd graph old sorted []
    simp only [hfold, List.not_mem_nil, false_or] at hloop
    exact hloop
  obtain ⟨states', marked, hrun, hmarking⟩ := markDnrNodes_spec hacyclic states
  obtain ⟨again, markedAgain, hrunAgain, hmarkingAgain⟩ :=
    markDnrNodes_spec hacyclic states'
  obtain ⟨hkept, hmarked⟩ := hlist dag states states' marked hrun
  have hstable : again = states' := hmarking.eq_of_again hmarkingAgain
  have hnothing : markedAgain = [] := by
    rw [List.eq_nil_iff_forall_not_mem]
    intro node hmem
    have hboth := ((hlist dag states' again markedAgain hrunAgain).2 node).mp hmem
    rw [hstable] at hboth
    exact absurd hboth.2 (by rw [hboth.1]; exact Bool.false_ne_true)
  refine ⟨states', marked, hrun, ?_, hmarked, ?_, hkept, hmarking.frame, ?_⟩
  · rw [hrunAgain, hstable, hnothing]
  · intro node hmem
    obtain ⟨hfresh, hnew⟩ := (hmarked node).mp hmem
    obtain ⟨hjob, parent, hedge⟩ := ((hmarking.marked_iff node).mp hnew).fresh hfresh
    exact ⟨fun hroot => (SimpleDAG.mem_getRootNodes_iff.mp hroot).2 parent hedge, hjob⟩
  · intro calls calls' dag' hbuild hperm hbuild'
    have hacyclic' : Reach.Acyclic dag'.Edge := by
      have hedges : dag'.Edge = dag.Edge := by
        funext parent child
        rw [eq_iff_iff, SimpleDAG.edge_build_iff hbuild, SimpleDAG.edge_build_iff hbuild']
        exact exists_congr fun label => hperm.mem_iff
      rw [hedges]
      exact hacyclic
    obtain ⟨other, marked', hrun', hmarking'⟩ := markDnrNodes_spec hacyclic' states
    have hsame : other = states' := (hmarking'.of_perm hbuild hbuild' hperm).unique hmarking
    subst hsame
    refine ⟨marked', hrun', ?_⟩
    intro node
    rw [(hlist dag' states other marked' hrun').2, hmarked]

theorem successJoin_acyclic : Reach.Acyclic successJoin.Edge :=
  acyclic_of_increasing (by decide)

theorem markDnrNodes_once_join :
    ∃ states' marked,
      successJoin.markDnrNodes (joinStates .successful .failed) = some (states', marked) ∧
      successJoin.markDnrNodes states' = some (states', []) := by
  obtain ⟨states', marked, hrun, hagain, -⟩ :=
    markDnrNodes_once successJoin_acyclic (joinStates .successful .failed)
  exact ⟨states', marked, hrun, hagain⟩

end Forail.DagWorkflow
