import Forail.Scheduler.WorkflowManager

/-!
# Progress of a workflow

A workflow that is not done and has no unfinished job must have a node to
start.  Two kinds of states break this.  A node whose parents must all converge
is stranded when each of its parents ended in `error` or `canceled`, or without
job and template, and has only success edges into it: it is neither marked nor
reached.  And the walk goes through such a node without a template before its
other parents have ended; when the node is marked later, what was started
below it is no longer reached.  In a run whose passes meet neither kind of
state every pass makes progress.
-/

namespace Forail.DagWorkflow

open Relation
open Forail.SimpleDag Forail.UnifiedJobs Forail.Runs

structure ChoosesSafely (dag : WorkflowDAG) (states : NodeStates) : Prop where
  /-- Some parent ended in a way that the convergence test looks at, or has a
  failure or always edge into the node. -/
  not_stranded : ∀ node parent, (states node).job = none →
    (states node).allParentsMustConverge = true → ¬ Dropped dag states node →
    dag.Edge parent node →
    ∃ p, dag.Edge p node ∧
      (EndedUnchecked states p → node ∈ dag.failurePath p)
  /-- Everything above a node that the walk goes through is settled. -/
  walked_settled : ∀ node parent, (states node).job = none →
    (states node).unifiedJobTemplate = none →
    (states node).allParentsMustConverge = true → ¬ Dropped dag states node →
    LetsRun dag states parent node →
    ∀ above, TransGen dag.Edge above node →
      Settled states above ∨ Dropped dag states above

def Frozen (dag : WorkflowDAG) (states : NodeStates) (node : NodeId) : Prop :=
  ∀ above, ReflTransGen dag.Edge above node →
    (Settled states above ∨ (states above).doNotRun = true) ∧
      (Dropped dag states above → (states above).doNotRun = true)

/-- Opened edges lead from a root to the node, and later markings keep them
open. -/
inductive Reached (dag : WorkflowDAG) (states : NodeStates) : NodeId → Prop where
  | root {node : NodeId} (hroot : node ∈ dag.getRootNodes) :
      Reached dag states node
  | step {parent child : NodeId} (hparent : Reached dag states parent)
      (hlets : LetsRun dag states parent child)
      (hfrozen : (states parent).job = none →
        (states parent).allParentsMustConverge = true →
        Frozen dag states parent) :
      Reached dag states child

/-- How the rows of the nodes may change while the workflow is not canceled. -/
structure Evolves (dag : WorkflowDAG) (states states' : NodeStates) : Prop where
  mode : ∀ node, (states' node).allParentsMustConverge =
    (states node).allParentsMustConverge
  marked : ∀ node, (states node).doNotRun = true →
    (states' node).doNotRun = true
  dropped : ∀ node, (states' node).doNotRun = true → Dropped dag states node
  ended : ∀ node job, (states node).job = some job → ¬ job.status.Active →
    (states' node).job = some job
  kept : ∀ node, (states' node).job = none → (states node).job = none
  templateless : ∀ node, (states node).unifiedJobTemplate = none →
    (states' node).unifiedJobTemplate = none
  unstarted : ∀ node, (states node).job = none →
    (states node).unifiedJobTemplate = none → (states' node).job = none

def Accounted (dag : WorkflowDAG) (states : NodeStates) : Prop :=
  ∀ node, (states node).job ≠ none → Reached dag states node

variable {dag : WorkflowDAG} {states states' : NodeStates}
  {parent child node : NodeId}

/-! ## What later states keep -/

theorem Reached.path (hreached : Reached dag states node) :
    ∃ root ∈ dag.getRootNodes, ReflTransGen (LetsRun dag states) root node := by
  induction hreached with
  | root hroot => exact ⟨_, hroot, .refl⟩
  | step _ hlets _ ih =>
    obtain ⟨root, hroot, hpath⟩ := ih
    exact ⟨root, hroot, hpath.tail hlets⟩

theorem Reached.not_dropped (hreached : Reached dag states node)
    (hkeep : (states node).doNotRun = false)
    (hfrozen : (states node).job = none →
      (states node).allParentsMustConverge = true → Frozen dag states node) :
    ¬ Dropped dag states node := by
  intro hdropped
  have hunmarked : ¬ (states node).doNotRun = true := by simp [hkeep]
  induction hreached with
  | root hroot => exact hunmarked (hdropped.marked_of_root hroot)
  | step _ hlets hparentFrozen ih =>
    have hparentKept := hlets.keep
    have hparent := ih hparentKept hparentFrozen
    cases hdropped with
    | marked hmarked => exact hunmarked hmarked
    | all hjob hall hedge hp =>
      exact hunmarked ((hfrozen hjob hall _ .refl).2 (.all hjob hall hedge hp))
    | mismatched hjob hall hedge hp =>
      exact hunmarked
        ((hfrozen hjob hall _ .refl).2 (.mismatched hjob hall hedge hp))
    | any hjob hany hedge hparents =>
      have hopen := hparents _ hlets.edge hlets.not_closed
      exact hparent hopen (by simpa using hparentKept)

theorem LetsRun.evolves (hlets : LetsRun dag states parent child)
    (hevolves : Evolves dag states states')
    (hkept : ¬ Dropped dag states parent) : LetsRun dag states' parent child := by
  have hkeep : (states' parent).doNotRun = false := by
    rw [← Bool.not_eq_true]
    exact fun hmarked => hkept (hevolves.dropped parent hmarked)
  cases hlets with
  | successful job _ hjob hstatus hpath =>
    have hended : ¬ job.status.Active := hstatus ▸ JobStatus.not_active_successful
    exact .successful job hkeep (hevolves.ended parent job hjob hended) hstatus hpath
  | unsuccessful job _ hjob hstatus hpath =>
    exact .unsuccessful job hkeep
      (hevolves.ended parent job hjob hstatus.not_active) hstatus hpath
  | missing _ hjob htemplate hpath =>
    exact .missing hkeep (hevolves.unstarted parent hjob htemplate)
      (hevolves.templateless parent htemplate) hpath

theorem Settled.evolves (hsettled : Settled states node)
    (hevolves : Evolves dag states states') :
    (states' node).job = (states node).job ∧
      ((states node).job = none → ((states' node).unifiedJobTemplate = none ↔
        (states node).unifiedJobTemplate = none)) := by
  cases hjob : (states node).job with
  | none =>
    simp only [Settled, hjob] at hsettled
    have htemplate := hevolves.templateless node hsettled
    exact ⟨hevolves.unstarted node hjob hsettled, fun _ => by simp [htemplate, hsettled]⟩
  | some job =>
    simp only [Settled, hjob] at hsettled
    exact ⟨hevolves.ended node job hjob hsettled, fun hnone => by simp at hnone⟩

theorem Frozen.dropped_evolves (hfrozen : Frozen dag states node)
    (hevolves : Evolves dag states states') {above : NodeId}
    (habove : ReflTransGen dag.Edge above node)
    (hdropped : Dropped dag states' above) : (states above).doNotRun = true := by
  have hjob : ∀ x, (states' x).job = none → (states x).job = none := hevolves.kept
  have hmode : ∀ x flag, (states' x).allParentsMustConverge = flag →
      (states x).allParentsMustConverge = flag := by
    intro x flag hflag
    rw [← hevolves.mode x, hflag]
  induction hdropped with
  | @marked x hmarked => exact (hfrozen x habove).2 (hevolves.dropped x hmarked)
  | @all x p hnone hall hedge _ ih =>
    apply (hfrozen x habove).2
    exact .all (hjob x hnone) (hmode x true hall) hedge
      (.marked (ih (habove.head hedge)))
  | @mismatched x p hnone hall hedge hmismatched =>
    apply (hfrozen x habove).2
    cases (hfrozen p (habove.head hedge)).1 with
    | inl hsettled =>
      have hold := (mismatched_congr (hsettled.evolves hevolves).1).mp hmismatched
      exact .mismatched (hjob x hnone) (hmode x true hall) hedge hold
    | inr hmarked =>
      exact .all (hjob x hnone) (hmode x true hall) hedge (.marked hmarked)
  | @any x p hnone hany hedge _ ih =>
    apply (hfrozen x habove).2
    refine .any (hjob x hnone) (hmode x false hany) hedge ?_
    intro q hq hopen
    cases (hfrozen q (habove.head hq)).1 with
    | inl hsettled =>
      obtain ⟨hsame, htemplate⟩ := hsettled.evolves hevolves
      have hstill : ¬ Closed dag states' q x := by
        rwa [closed_congr hsame htemplate]
      exact .marked (ih q hq hstill (habove.head hq))
    | inr hmarked => exact .marked hmarked

theorem Frozen.evolves (hfrozen : Frozen dag states node)
    (hevolves : Evolves dag states states') : Frozen dag states' node := by
  intro above habove
  obtain ⟨hdone, -⟩ := hfrozen above habove
  constructor
  · cases hdone with
    | inl hsettled =>
      obtain ⟨hsame, htemplate⟩ := hsettled.evolves hevolves
      exact Or.inl ((settled_congr hsame htemplate).mpr hsettled)
    | inr hmarked => exact Or.inr (hevolves.marked above hmarked)
  · intro hdropped
    exact hevolves.marked above (hfrozen.dropped_evolves hevolves habove hdropped)

theorem Reached.evolves (hreached : Reached dag states node)
    (hevolves : Evolves dag states states') : Reached dag states' node := by
  induction hreached with
  | root hroot => exact .root hroot
  | @step parent child hparent hlets hfrozen ih =>
    have hkept := hparent.not_dropped hlets.keep hfrozen
    refine .step ih (hlets.evolves hevolves hkept) ?_
    intro hjob hall
    rw [hevolves.mode] at hall
    exact (hfrozen (hevolves.kept parent hjob) hall).evolves hevolves

theorem Accounted.evolves (haccounted : Accounted dag states)
    (hevolves : Evolves dag states states')
    (hnew : ∀ node, (states node).job = none → (states' node).job ≠ none →
      Reached dag states node) : Accounted dag states' := by
  intro node hjob
  have hreached : Reached dag states node := by
    by_cases hold : (states node).job = none
    · exact hnew node hold hjob
    · exact haccounted node hold
  exact hreached.evolves hevolves

/-! ## The steps -/

theorem Marking.evolves (hmarking : Marking dag states states') :
    Evolves dag states states' where
  mode node := by rw [hmarking.frame]
  marked node hmarked := (hmarking.marked_iff node).mpr (.marked hmarked)
  dropped node := (hmarking.marked_iff node).mp
  ended node job hjob _ := by rw [hmarking.frame]; exact hjob
  kept node hjob := by rw [hmarking.frame] at hjob; exact hjob
  templateless node htemplate := by rw [hmarking.frame]; exact htemplate
  unstarted node hjob _ := by rw [hmarking.frame]; exact hjob

theorem ChoosesSafely.marking (hsafe : ChoosesSafely dag states)
    (hmarking : Marking dag states states') : ChoosesSafely dag states' where
  not_stranded node parent hjob hall hkept hedge := by
    rw [hmarking.dropped_iff] at hkept
    rw [hmarking.frame] at hjob hall
    obtain ⟨p, hp, hfailure⟩ := hsafe.not_stranded node parent hjob hall hkept hedge
    refine ⟨p, hp, fun hended => hfailure ?_⟩
    unfold EndedUnchecked at hended ⊢
    rwa [hmarking.frame] at hended
  walked_settled node parent hjob htemplate hall hkept hlets above habove := by
    rw [hmarking.dropped_iff] at hkept ⊢
    have hparent : LetsRun dag states parent node := by
      have hkeep : (states parent).doNotRun = false := by
        rw [← Bool.not_eq_true]
        intro hmarked
        have hstill := hmarking.evolves.marked parent hmarked
        simp [hlets.keep] at hstill
      cases hlets with
      | successful job _ hparentJob hstatus hpath =>
        rw [hmarking.frame] at hparentJob
        exact .successful job hkeep hparentJob hstatus hpath
      | unsuccessful job _ hparentJob hstatus hpath =>
        rw [hmarking.frame] at hparentJob
        exact .unsuccessful job hkeep hparentJob hstatus hpath
      | missing _ hparentJob hparentTemplate hpath =>
        rw [hmarking.frame] at hparentJob hparentTemplate
        exact .missing hkeep hparentJob hparentTemplate hpath
    rw [hmarking.frame] at hjob htemplate hall
    have hsettled : Settled states' above ↔ Settled states above := by
      apply settled_congr
      · rw [hmarking.frame]
      · rw [hmarking.frame]
        exact fun _ => Iff.rfl
    rw [hsettled]
    exact hsafe.walked_settled node parent hjob htemplate hall hkept hparent above
      habove

theorem reached_of_mem_bfs
    (hmarked : ∀ node, Dropped dag states node → (states node).doNotRun = true)
    (hsafe : ChoosesSafely dag states)
    (hmem : node ∈ dag.bfsNodesToRun states) : Reached dag states node := by
  obtain ⟨-, root, hroot, hpath⟩ := WorkflowDAG.mem_bfsNodesToRun_iff.mp hmem
  clear hmem
  induction hpath with
  | refl => exact .root hroot
  | @tail parent child hinitial hlets ih =>
    refine .step ih hlets ?_
    intro hjob hall
    have hsettled : Settled states parent := hlets.settled
    have htemplate : (states parent).unifiedJobTemplate = none := by
      simpa only [Settled, hjob] using hsettled
    have hkept : ¬ Dropped dag states parent := by
      intro hdropped
      have hflag := hmarked parent hdropped
      simp [hlets.keep] at hflag
    intro above habove
    refine ⟨?_, hmarked above⟩
    cases ReflTransGen.cases_tail habove with
    | inl hself => exact Or.inl (hself ▸ hsettled)
    | inr hlast =>
      obtain ⟨last, hlast, hedge⟩ := hlast
      cases ReflTransGen.cases_tail hinitial with
      | inl hfirst =>
        have hno := (SimpleDAG.mem_getRootNodes_iff.mp hroot).2 last
        exact absurd (hfirst ▸ hedge) hno
      | inr hprevious =>
        obtain ⟨previous, -, hprevious⟩ := hprevious
        have hdone := hsafe.walked_settled parent previous hjob htemplate hall hkept
          hprevious above (.tail' hlast hedge)
        exact hdone.imp_right (hmarked above)

theorem WorkflowDAG.saveSpawned_evolves {launch : NodeId → Launch} :
    Evolves dag states
      (saveSpawned states launch (dag.bfsNodesToRun states) states) := by
  have hfound : ∀ node ∈ dag.bfsNodesToRun states,
      (states node).unifiedJobTemplate ≠ none ∧ (states node).job = none ∧
        (states node).doNotRun = false := fun node => template_of_mem_bfs
  exact
    { mode := fun node => by rw [saveSpawned_bfs]; split <;> rfl
      marked := fun node hmarked => by
        rw [saveSpawned_bfs]; split <;> exact hmarked
      dropped := fun node hmarked => by
        rw [saveSpawned_bfs] at hmarked
        split at hmarked <;> exact .marked hmarked
      ended := fun node job hjob _ => by
        rw [saveSpawned_bfs, if_neg]
        · exact hjob
        · intro hmem
          simp [(hfound node hmem).2.1] at hjob
      kept := fun node hjob => by
        rw [saveSpawned_bfs] at hjob
        split at hjob
        · simp at hjob
        · exact hjob
      templateless := fun node htemplate => by
        rw [saveSpawned_bfs]; split <;> exact htemplate
      unstarted := fun node hjob htemplate => by
        rw [saveSpawned_bfs, if_neg]
        · exact hjob
        · exact fun hmem => (hfound node hmem).1 htemplate }

theorem WorkflowDAG.updateJob_evolves {job : UnifiedJob}
    (hupdate : updateJob states node job = some states') :
    Evolves dag states states' := by
  obtain ⟨old, hold, hactive, rfl⟩ := updateJob_eq_some_iff.mp hupdate
  have hframe : ∀ x,
      Function.update states node { states node with job := some job } x =
        { states x with job := if x = node then some job else (states x).job } := by
    intro x
    by_cases hx : x = node
    · rw [hx, Function.update_self, if_pos rfl]
    · rw [Function.update_of_ne hx, if_neg hx]
  exact
    { mode := fun x => by rw [hframe]
      marked := fun x hmarked => by rw [hframe]; exact hmarked
      dropped := fun x hmarked => by rw [hframe] at hmarked; exact .marked hmarked
      ended := fun x last hjob hended => by
        have hx : x ≠ node := by
          intro hx
          rw [hx, hold, Option.some.injEq] at hjob
          exact hended (hjob ▸ hactive)
        rw [Function.update_of_ne hx, hjob]
      kept := fun x hjob => by
        rw [hframe] at hjob
        split at hjob
        · simp at hjob
        · exact hjob
      templateless := fun x htemplate => by rw [hframe]; exact htemplate
      unstarted := fun x hjob _ => by
        have hx : x ≠ node := by
          intro hx
          simp [hx, hold] at hjob
        rw [Function.update_of_ne hx, hjob] }

theorem WorkflowDAG.deleteTemplate_evolves (template : TemplateId) :
    Evolves dag states (deleteTemplate states template) where
  mode x := by
    unfold deleteTemplate
    split <;> rfl
  marked x hmarked := by rw [doNotRun_deleteTemplate, hmarked]
  dropped x hmarked := .marked (by rw [← doNotRun_deleteTemplate template, hmarked])
  ended x job hold _ := by rw [job_deleteTemplate, hold]
  kept x hnone := by rw [← job_deleteTemplate template, hnone]
  templateless x htemplate := by simp [deleteTemplate, htemplate]
  unstarted x hnone _ := by rw [job_deleteTemplate, hnone]

/-! ## Runs -/

/-- The condition on a step of the manager: a pass over a workflow that is not
canceled finds a state in which it chooses safely. -/
def SafeStep (dag : WorkflowDAG) (state : WorkflowState) : WorkflowDAG.Event → Prop
  | .managerPass _ => state.cancelFlag = false → ChoosesSafely dag state.nodes
  | _ => True

theorem accounted_saveSpawned {launch : NodeId → Launch}
    (haccounted : Accounted dag states)
    (hmarked : ∀ node, Dropped dag states node → (states node).doNotRun = true)
    (hsafe : ChoosesSafely dag states) :
    Accounted dag (WorkflowDAG.saveSpawned states launch
      (dag.bfsNodesToRun states) states) := by
  apply haccounted.evolves WorkflowDAG.saveSpawned_evolves
  intro node hold hnew
  apply reached_of_mem_bfs hmarked hsafe
  by_contra hmem
  rw [WorkflowDAG.saveSpawned_bfs, if_neg hmem] at hnew
  exact hnew hold

theorem accounted_step (hacyclic : Reach.Acyclic dag.Edge)
    {state state' : WorkflowState} {event : WorkflowDAG.Event}
    (haccounted : state.cancelFlag = false → Accounted dag state.nodes)
    (hsafe : SafeStep dag state event)
    (hstep : dag.step state event = some state')
    (hrunning : state'.cancelFlag = false) : Accounted dag state'.nodes := by
  cases event with
  | managerPass launch =>
    simp only [WorkflowDAG.step, WorkflowDAG.managerPass] at hstep
    split at hstep
    · cases hstep
    · by_cases hcancel : state.cancelFlag = true
      · rw [if_pos hcancel, Option.some.injEq] at hstep
        rw [← hstep, WorkflowDAG.cancelFlag_cancelPass, hcancel] at hrunning
        cases hrunning
      · rw [if_neg hcancel] at hstep
        have hcancel : state.cancelFlag = false := by simpa using hcancel
        obtain ⟨memory, marked, hmark, hmarking⟩ :=
          markDnrNodes_spec hacyclic state.nodes
        have hmemory : Accounted dag memory := by
          apply (haccounted hcancel).evolves hmarking.evolves
          intro node hold hnew
          rw [hmarking.frame] at hnew
          exact absurd hold hnew
        have hmarkedAll : ∀ node, Dropped dag memory node →
            (memory node).doNotRun = true := by
          intro node hdropped
          exact (hmarking.marked_iff node).mpr (hmarking.dropped_iff.mp hdropped)
        simp only [WorkflowDAG.progressPass, hmark, Option.map_some,
          Option.some.injEq] at hstep
        rw [← hstep]
        split
        · exact hmemory
        · exact accounted_saveSpawned hmemory hmarkedAll
            ((hsafe hcancel).marking hmarking)
  | cancelWorkflow =>
    simp only [WorkflowDAG.step, Option.some.injEq] at hstep
    rw [← hstep] at hrunning
    cases hrunning
  | updateJob node job =>
    obtain ⟨nodes, hnodes, rfl⟩ := Option.map_eq_some_iff.mp hstep
    apply (haccounted hrunning).evolves (WorkflowDAG.updateJob_evolves hnodes)
    intro x hold hnew
    obtain ⟨old, hjob, -, rfl⟩ := WorkflowDAG.updateJob_eq_some_iff.mp hnodes
    have hx : x ≠ node := by
      intro hx
      simp [hx, hjob] at hold
    rw [Function.update_of_ne hx] at hnew
    exact absurd hold hnew
  | deleteTemplate template =>
    simp only [WorkflowDAG.step, Option.some.injEq] at hstep
    subst hstep
    apply (haccounted hrunning).evolves (WorkflowDAG.deleteTemplate_evolves template)
    intro x hold hnew
    exact absurd ((WorkflowDAG.job_deleteTemplate template).trans hold) hnew

def Waiting (states : NodeStates) (node : NodeId) : Prop :=
  (states node).doNotRun = false ∧ (states node).job = none ∧
    (states node).unifiedJobTemplate ≠ none

theorem settled_or_marked_of_not_waiting (hjobs : NoActiveJob dag states)
    (hmem : node ∈ dag.nodes) (hwaiting : ¬ Waiting states node) :
    Settled states node ∨ (states node).doNotRun = true := by
  by_cases hmarked : (states node).doNotRun = true
  · exact Or.inr hmarked
  · cases hjob : (states node).job with
    | some job =>
      refine Or.inl ?_
      simp only [Settled, hjob]
      exact hjobs node hmem job hjob
    | none =>
      refine Or.inl ?_
      simp only [Settled, hjob]
      by_contra htemplate
      exact hwaiting ⟨by simpa using hmarked, hjob, htemplate⟩

/-- A node without a job whose parents are all settled or marked, and which is
not dropped, has a parent that opens an edge to it. -/
theorem exists_letsRun (hsafe : ChoosesSafely dag states)
    (hparents : ∀ p, dag.Edge p node →
      Settled states p ∨ (states p).doNotRun = true)
    (hjob : (states node).job = none) (hkept : ¬ Dropped dag states node)
    (hedge : dag.Edge parent node) : ∃ p, LetsRun dag states p node := by
  by_cases hall : (states node).allParentsMustConverge = true
  · obtain ⟨p, hp, hfailure⟩ :=
      hsafe.not_stranded node parent hjob hall hkept hedge
    have hunmarked : ¬ (states p).doNotRun = true := fun hmarked =>
      hkept (.all hjob hall hp (.marked hmarked))
    refine ⟨p, letsRun_of_settled (by simpa using hunmarked)
      ((hparents p hp).resolve_right hunmarked) ?_⟩
    intro hclosed
    apply hkept
    cases hparentJob : (states p).job with
    | none =>
      simp only [Closed, hparentJob] at hclosed
      have hended : EndedUnchecked states p := by
        simp only [EndedUnchecked, hparentJob]
        exact hclosed.1
      exact absurd (hfailure hended) hclosed.2
    | some job =>
      simp only [Closed, hparentJob] at hclosed
      refine .mismatched hjob hall hp ⟨job, hparentJob, hclosed.imp_right ?_⟩
      intro hunsuccessful
      refine ⟨?_, hunsuccessful.2⟩
      by_contra hfailed
      have hended : EndedUnchecked states p := by
        simp only [EndedUnchecked, hparentJob]
        have hstatus := hunsuccessful.1
        simp only [JobStatus.Unsuccessful, List.mem_cons, hfailed, false_or] at hstatus
        simpa using hstatus
      exact hunsuccessful.2 (hfailure hended)
  · by_contra hnone
    apply hkept
    refine .any hjob (by simpa using hall) hedge ?_
    intro p hp hopen
    by_cases hmarked : (states p).doNotRun = true
    · exact .marked hmarked
    · exact absurd ⟨p, letsRun_of_settled (by simpa using hmarked)
        ((hparents p hp).resolve_right hmarked) hopen⟩ hnone

theorem reached_below_settled (hacyclic : Reach.Acyclic dag.Edge)
    (haccounted : Accounted dag states)
    (hmarked : ∀ node, Dropped dag states node → (states node).doNotRun = true)
    (hsafe : ChoosesSafely dag states)
    (hkeep : (states node).doNotRun = false) (hjob : (states node).job = none)
    (hmem : node ∈ dag.nodes)
    (habove : ∀ above, TransGen dag.Edge above node →
      Settled states above ∨ (states above).doNotRun = true) :
    ∃ root ∈ dag.getRootNodes, ReflTransGen (LetsRun dag states) root node := by
  induction node using (SimpleDAG.edge_wellFounded hacyclic).induction with
  | _ node ih =>
    by_cases hroot : node ∈ dag.getRootNodes
    · exact ⟨node, hroot, .refl⟩
    · simp only [SimpleDAG.mem_getRootNodes_iff, hmem, true_and, not_forall,
        not_not] at hroot
      obtain ⟨p, hedge⟩ := hroot
      have hkept : ¬ Dropped dag states node := by
        intro hdropped
        have hflag := hmarked node hdropped
        simp [hkeep] at hflag
      obtain ⟨parent, hlets⟩ := exists_letsRun hsafe
        (fun p hp => habove p (.single hp)) hjob hkept hedge
      have hparent : ∃ root ∈ dag.getRootNodes,
          ReflTransGen (LetsRun dag states) root parent := by
        by_cases hnone : (states parent).job = none
        · exact ih parent hlets.edge hlets.keep hnone hlets.edge.parent_mem
            fun above hpath => habove above (hpath.tail hlets.edge)
        · exact (haccounted parent hnone).path
      obtain ⟨root, hroot, hpath⟩ := hparent
      exact ⟨root, hroot, hpath.tail hlets⟩

theorem done_or_bfs_ne_nil (hacyclic : Reach.Acyclic dag.Edge)
    (haccounted : Accounted dag states)
    (hmarked : ∀ node, Dropped dag states node → (states node).doNotRun = true)
    (hsafe : ChoosesSafely dag states) (hjobs : NoActiveJob dag states) :
    dag.isWorkflowDone states = true ∨ dag.bfsNodesToRun states ≠ [] := by
  by_cases hwaiting : ∃ node, node ∈ dag.nodes ∧ Waiting states node
  · right
    -- take a waiting node above which nothing waits
    obtain ⟨node, ⟨hmem, hwaits⟩, hfirst⟩ :=
      (SimpleDAG.edge_wellFounded hacyclic).transGen.has_min
        {node | node ∈ dag.nodes ∧ Waiting states node} hwaiting
    have habove : ∀ above, TransGen dag.Edge above node →
        Settled states above ∨ (states above).doNotRun = true := by
      intro above hpath
      have hnode : above ∈ dag.nodes := by
        obtain ⟨next, hedge, -⟩ := TransGen.head'_iff.mp hpath
        exact hedge.parent_mem
      apply settled_or_marked_of_not_waiting hjobs hnode
      exact fun hwait => hfirst above ⟨hnode, hwait⟩ hpath
    obtain ⟨hkeep, hjob, htemplate⟩ := hwaits
    have hreached := reached_below_settled hacyclic haccounted hmarked hsafe hkeep hjob
      hmem habove
    have hfinished : dag.areRelevantParentsFinished states node = true := by
      rw [WorkflowDAG.areRelevantParentsFinished_iff]
      intro p hp
      cases habove p (.single hp) with
      | inr hflag => exact Or.inl hflag
      | inl hsettled =>
        cases hparentJob : (states p).job with
        | none =>
          simp only [Settled, hparentJob] at hsettled
          exact Or.inr (Or.inl hsettled)
        | some job =>
          simp only [Settled, hparentJob] at hsettled
          exact Or.inr (Or.inr ⟨job, rfl, hsettled⟩)
    have hmet : (states node).allParentsMustConverge = true →
        dag.allParentsMetConvergenceCriteria states node = true := by
      intro hall
      rw [WorkflowDAG.allParentsMet_iff_not_mismatched]
      intro p hp hmismatched
      have hflag := hmarked node (.mismatched hjob hall hp hmismatched)
      simp [hkeep] at hflag
    apply List.ne_nil_of_mem
    exact WorkflowDAG.mem_bfsNodesToRun_iff.mpr
      ⟨WorkflowDAG.isRunnable_iff.mpr ⟨hkeep, hjob, htemplate, hfinished, hmet⟩, hreached⟩
  · left
    simp only [WorkflowDAG.isWorkflowDone, List.all_eq_true]
    intro node hmem
    have hdecided : ¬ ((states node).doNotRun = false ∧ (states node).job = none ∧
        (states node).unifiedJobTemplate ≠ none) :=
      fun hwaits => hwaiting ⟨node, hmem, hwaits⟩
    rw [if_neg hdecided]
    cases hjob : (states node).job with
    | none => rfl
    | some job =>
      exact decide_eq_true (JobStatus.mem_final_of_not_active (hjobs node hmem job hjob))

/-- Right after the marking, a workflow without unfinished jobs is done or has
a node to start. -/
def Progresses (dag : WorkflowDAG) (states : NodeStates) : Prop :=
  ∃ nodes marked, dag.markDnrNodes states = some (nodes, marked) ∧
    (NoActiveJob dag nodes →
      dag.isWorkflowDone nodes = true ∨ dag.bfsNodesToRun nodes ≠ [])

def successPair : WorkflowDAG := WorkflowDAG.ofTables [0, 1] [(0, 1)] [] []

theorem acyclic_successPair : Reach.Acyclic successPair.Edge :=
  acyclic_of_increasing (by decide)

def endedJob (status : JobStatus) : UnifiedJob :=
  { status := status, celeryTaskId := "task", cancelFlag := false }

end Forail.DagWorkflow
