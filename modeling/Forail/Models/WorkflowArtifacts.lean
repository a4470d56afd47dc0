import Mathlib.Data.List.Sort
import Forail.Models.NodeKwargs
import Forail.Scheduler.DagWorkflow

/-!
# Artifacts along a workflow

The artifacts of a job are handed to the children of its node when their jobs are spawned,
together with those that the node was handed itself.  A run builds the keyword arguments of
nodes and changes their jobs, in any order.
-/

namespace Forail.WorkflowArtifacts

open Forail.DagWorkflow (NodeId WorkflowDAG)
open Forail.Grouping Forail.Json Forail.LaunchPrompts Forail.NodeKwargs Forail.Surveys
open Forail.SlicedLaunches (JobKwargs ParentNode parentArtifacts replaceStr)
open Forail.UnifiedJobs (JobStatus)

/-- The job of a node.  The jobs of a workflow job are listed by the time they finished, and
form a tree because each was spawned for one node; jobs of other kinds have no artifacts. -/
inductive NodeJob where
  | job (status : JobStatus) (artifacts : Vars)
  | workflowJob (status : JobStatus) (jobs : List NodeJob)
  | other (status : JobStatus)

namespace NodeJob

def status : NodeJob → JobStatus
  | .job status _ => status
  | .workflowJob status _ => status
  | .other status => status

mutual

def getEffectiveArtifacts : NodeJob → Vars
  | .job _ artifacts => artifacts
  | .workflowJob _ jobs => updateArtifacts jobs ∅
  | .other _ => ∅

/-- The loop over the successful and failed jobs of a workflow job. -/
def updateArtifacts : List NodeJob → Vars → Vars
  | [], artifacts => artifacts
  | inner :: jobs, artifacts =>
      updateArtifacts jobs
        (if inner.status = .successful ∨ inner.status = .failed then
          inner.getEffectiveArtifacts ∪ artifacts
        else artifacts)

end

/-- The artifacts of the job itself, or of a job inside it that counts. -/
inductive Contributes : NodeJob → Vars → Prop where
  | own {status : JobStatus} {artifacts : Vars} : Contributes (job status artifacts) artifacts
  | nested {status : JobStatus} {jobs : List NodeJob} {inner : NodeJob} {artifacts : Vars}
      (hinner : inner ∈ jobs) (hstatus : inner.status = .successful ∨ inner.status = .failed)
      (hcontributes : Contributes inner artifacts) :
      Contributes (workflowJob status jobs) artifacts

end NodeJob

structure Workflow where
  env : Installation
  dag : WorkflowDAG
  workflowJob : WorkflowJob
  template : NodeId → Option NodeTemplate
  config : NodeId → LaunchConfig

structure NodeRow where
  ancestorArtifacts : Vars
  job : Option NodeJob

abbrev Rows := NodeId → NodeRow

def Workflow.getParentNodes (workflow : Workflow) (node : NodeId) : List NodeId :=
  (workflow.dag.getParents node).dedup.insertionSort (· ≤ ·)

def NodeRow.asParent (row : NodeRow) : ParentNode :=
  ⟨row.ancestorArtifacts, row.job.map NodeJob.getEffectiveArtifacts⟩

def Workflow.parentRows (workflow : Workflow) (rows : Rows) (node : NodeId) : List ParentNode :=
  (workflow.getParentNodes node).map fun parent => (rows parent).asParent

def Workflow.jobKwargs (workflow : Workflow) (rows : Rows) (node : NodeId) : JobKwargs :=
  getJobKwargs workflow.env (workflow.template node) workflow.workflowJob
    ⟨workflow.config node, (rows node).ancestorArtifacts⟩ (workflow.parentRows rows node)

/-- `get_job_kwargs` saves the artifacts at the node.  The job of a node is created, runs,
stores its artifacts and may be deleted. -/
inductive Step where
  | builds (node : NodeId)
  | jobChanges (node : NodeId) (job : Option NodeJob)

def Workflow.step (workflow : Workflow) (rows : Rows) : Step → Rows
  | .builds node =>
      Function.update rows node
        { rows node with
          ancestorArtifacts := (workflow.jobKwargs rows node).ancestorArtifacts }
  | .jobChanges node job => Function.update rows node { rows node with job := job }

def Workflow.after (workflow : Workflow) (start : Rows) : List Step → Rows
  | [] => start
  | step :: run => workflow.step (workflow.after start run) step

def newRows : Rows := fun _ => ⟨∅, none⟩

/-! ## Merged artifacts -/

section Merging

variable {workflow : Workflow} {rows : Rows} {node parent : NodeId} {key : String}
  {parents : List ParentNode} {job : NodeJob} {artifacts : Vars}

def carried (key : String) (parent : ParentNode) : Option Value :=
  ((parent.jobArtifacts.getD ∅).lookup key).or (parent.ancestorArtifacts.lookup key)

theorem lookup_parentArtifacts (parents : List ParentNode) (key : String) :
    (parentArtifacts parents).lookup key = last (carried key) parents := by
  have hfold : ∀ artifacts : Vars, (parents.foldl (fun artifacts parent =>
      parent.jobArtifacts.getD ∅ ∪ (parent.ancestorArtifacts ∪ artifacts))
      artifacts).lookup key = (last (carried key) parents).or (artifacts.lookup key) := by
    induction parents with
    | nil => exact fun artifacts => rfl
    | cons parent parents ih =>
      intro artifacts
      rw [List.foldl_cons, ih, lookup_union, lookup_union, last_cons, carried, Option.or_assoc,
        Option.or_assoc]
  rw [parentArtifacts, hfold, AList.lookup_empty, Option.or_none]

theorem mem_iff_lookup_ne_none {vars : Vars} : key ∈ vars ↔ vars.lookup key ≠ none := by
  rw [Ne, AList.lookup_eq_none, not_not]

theorem mem_parentArtifacts : key ∈ parentArtifacts parents ↔
    ∃ parent ∈ parents, carried key parent ≠ none := by
  rw [mem_iff_lookup_ne_none, lookup_parentArtifacts, Ne, last_eq_none_iff]
  push Not
  rfl

theorem mem_updateArtifacts_of_start {jobs : List NodeJob} (hkey : key ∈ artifacts) :
    key ∈ NodeJob.updateArtifacts jobs artifacts := by
  induction jobs generalizing artifacts with
  | nil => exact hkey
  | cons job jobs ih =>
    rw [NodeJob.updateArtifacts]
    apply ih
    split
    · exact AList.mem_union.mpr (Or.inr hkey)
    · exact hkey

theorem mem_updateArtifacts {jobs : List NodeJob} (hjob : job ∈ jobs)
    (hstatus : job.status = .successful ∨ job.status = .failed)
    (hkey : key ∈ job.getEffectiveArtifacts) :
    key ∈ NodeJob.updateArtifacts jobs artifacts := by
  induction jobs generalizing artifacts with
  | nil => cases hjob
  | cons head jobs ih =>
    rw [NodeJob.updateArtifacts]
    cases List.mem_cons.mp hjob with
    | inl hhead =>
      apply mem_updateArtifacts_of_start
      rw [← hhead, if_pos hstatus]
      exact AList.mem_union.mpr (Or.inl hkey)
    | inr hrest => exact ih hrest

theorem mem_getEffectiveArtifacts (hcontributes : job.Contributes artifacts)
    (hkey : key ∈ artifacts) : key ∈ job.getEffectiveArtifacts := by
  induction hcontributes with
  | own =>
    rw [NodeJob.getEffectiveArtifacts]
    exact hkey
  | nested hinner hstatus _ ih =>
    rw [NodeJob.getEffectiveArtifacts]
    exact mem_updateArtifacts hinner hstatus (ih hkey)

theorem mem_getParentNodes :
    parent ∈ workflow.getParentNodes node ↔ workflow.dag.Edge parent node := by
  rw [Workflow.getParentNodes, (List.perm_insertionSort _ _).mem_iff, List.mem_dedup,
    SimpleDag.SimpleDAG.mem_getParents_iff]

theorem mem_parentArtifacts_of_job (hparent : workflow.dag.Edge parent node)
    (hjob : (rows parent).job = some job) (hcontributes : job.Contributes artifacts)
    (hkey : key ∈ artifacts) : key ∈ parentArtifacts (workflow.parentRows rows node) := by
  refine mem_parentArtifacts.mpr
    ⟨_, List.mem_map_of_mem (mem_getParentNodes.mpr hparent), ?_⟩
  have hown := mem_iff_lookup_ne_none.mp (mem_getEffectiveArtifacts hcontributes hkey)
  rw [carried, NodeRow.asParent, hjob, Option.map_some, Option.getD_some, Ne,
    Option.or_eq_none_iff]
  exact fun hnone => hown hnone.1

theorem mem_parentArtifacts_of_ancestor (hparent : workflow.dag.Edge parent node)
    (hkey : key ∈ (rows parent).ancestorArtifacts) :
    key ∈ parentArtifacts (workflow.parentRows rows node) := by
  refine mem_parentArtifacts.mpr
    ⟨_, List.mem_map_of_mem (mem_getParentNodes.mpr hparent), ?_⟩
  rw [carried, NodeRow.asParent, Ne, Option.or_eq_none_iff]
  exact fun hnone => mem_iff_lookup_ne_none.mp hkey hnone.2

theorem ancestorArtifacts_jobKwargs
    (hkey : key ∈ parentArtifacts (workflow.parentRows rows node)) :
    (workflow.jobKwargs rows node).ancestorArtifacts =
      parentArtifacts (workflow.parentRows rows node) := by
  have hentries : (parentArtifacts (workflow.parentRows rows node)).entries ≠ [] := by
    intro hnil
    have hempty : parentArtifacts (workflow.parentRows rows node) = ∅ := AList.ext hnil
    rw [hempty] at hkey
    exact AList.notMem_empty key hkey
  have hparents : workflow.parentRows rows node ≠ [] := by
    intro hnil
    rw [hnil] at hkey
    exact AList.notMem_empty key hkey
  exact if_pos ⟨hentries, hparents⟩

end Merging

/-! ## The nearest artifact -/

section Nearest

variable {workflow : Workflow} {rows : Rows} {node : NodeId}

def ownArtifact (rows : Rows) (node : NodeId) (key : String) : Option Value :=
  ((rows node).job.map NodeJob.getEffectiveArtifacts).bind fun artifacts => artifacts.lookup key

def inheritedArtifact (rows : Rows) (node : NodeId) (key : String) : Option Value :=
  (rows node).ancestorArtifacts.lookup key

/-- A key that the job of some parent sets is passed on with the value that the job of some
parent set. -/
def NearestWins (workflow : Workflow) (rows : Rows) (node : NodeId) : Prop :=
  ∀ key, (∃ parent ∈ workflow.dag.getParents node, ownArtifact rows parent key ≠ none) →
    ∃ parent ∈ workflow.dag.getParents node, ∃ value,
      ownArtifact rows parent key = some value ∧
        (workflow.jobKwargs rows node).ancestorArtifacts.lookup key = some value

/-- Of the parents that have the key, the one with the greatest number was only handed it. -/
structure LastInherits (workflow : Workflow) (rows : Rows) (node : NodeId) (key : String)
    (value : Value) (parent : NodeId) : Prop where
  mem : parent ∈ workflow.dag.getParents node
  own : ownArtifact rows parent key = none
  inherited : inheritedArtifact rows parent key = some value
  last : ∀ later ∈ workflow.dag.getParents node, parent < later →
    ownArtifact rows later key = none ∧ inheritedArtifact rows later key = none

theorem pairwise_getParentNodes (workflow : Workflow) (node : NodeId) :
    (workflow.getParentNodes node).Pairwise (· < ·) := by
  have hsorted : (workflow.getParentNodes node).Pairwise (· ≤ ·) := List.pairwise_insertionSort _ _
  have hnodup : (workflow.getParentNodes node).Nodup :=
    (List.perm_insertionSort _ _).nodup_iff.mpr (List.nodup_dedup _)
  exact (hsorted.and hnodup).imp fun hboth => lt_of_le_of_ne hboth.1 hboth.2

theorem carried_asParent (rows : Rows) (parent : NodeId) (key : String) :
    carried key (rows parent).asParent =
      (ownArtifact rows parent key).or (inheritedArtifact rows parent key) := by
  rw [carried, NodeRow.asParent, ownArtifact, inheritedArtifact]
  cases (rows parent).job with
  | none => rfl
  | some job => rfl

theorem lookup_parentArtifacts_eq_some_iff {key : String} {value : Value} :
    (parentArtifacts (workflow.parentRows rows node)).lookup key = some value ↔
      ∃ parent ∈ workflow.dag.getParents node,
        (ownArtifact rows parent key).or (inheritedArtifact rows parent key) = some value ∧
        ∀ later ∈ workflow.dag.getParents node, parent < later →
          (ownArtifact rows later key).or (inheritedArtifact rows later key) = none := by
  have hlast : last (carried key) (workflow.parentRows rows node) =
      last (fun parent => (ownArtifact rows parent key).or (inheritedArtifact rows parent key))
        (workflow.getParentNodes node) := by
    rw [Workflow.parentRows, last, ← List.map_reverse, List.findSome?_map, last]
    congr 1
    funext parent
    exact carried_asParent rows parent key
  rw [lookup_parentArtifacts, hlast, last_eq_some_iff (pairwise_getParentNodes workflow node)]
  simp only [mem_getParentNodes, SimpleDag.SimpleDAG.mem_getParents_iff]

/-- The nearest artifact wins exactly when no parent that was only handed a key comes after
all others that have it, unless with a value that the job of some parent set. -/
theorem nearestWins_iff (workflow : Workflow) (rows : Rows) (node : NodeId) :
    NearestWins workflow rows node ↔
      ∀ key value parent, LastInherits workflow rows node key value parent →
        (∃ other ∈ workflow.dag.getParents node, ownArtifact rows other key ≠ none) →
          ∃ other ∈ workflow.dag.getParents node, ownArtifact rows other key = some value := by
  have hsaved : ∀ key value,
      (parentArtifacts (workflow.parentRows rows node)).lookup key = some value →
        (workflow.jobKwargs rows node).ancestorArtifacts.lookup key = some value := by
    intro key value hvalue
    have hmem : key ∈ parentArtifacts (workflow.parentRows rows node) :=
      mem_iff_lookup_ne_none.mpr (by rw [hvalue]; exact Option.some_ne_none value)
    rwa [ancestorArtifacts_jobKwargs hmem]
  constructor
  · intro hnearest key value parent hlast hown
    have hmerged := lookup_parentArtifacts_eq_some_iff.mpr ⟨parent, hlast.mem, by
      rw [hlast.own, hlast.inherited, Option.none_or], fun later hlater hlt => by
      rw [(hlast.last later hlater hlt).1, (hlast.last later hlater hlt).2, Option.none_or]⟩
    obtain ⟨other, hother, found, hfound, hpassed⟩ := hnearest key hown
    rw [hsaved key value hmerged, Option.some.injEq] at hpassed
    exact ⟨other, hother, hpassed ▸ hfound⟩
  · intro hcondition key hown
    obtain ⟨owner, howner, hsets⟩ := hown
    have hmem : key ∈ parentArtifacts (workflow.parentRows rows node) := by
      refine mem_parentArtifacts.mpr ⟨_, List.mem_map_of_mem
        (mem_getParentNodes.mpr (SimpleDag.SimpleDAG.mem_getParents_iff.mp howner)), ?_⟩
      rw [carried_asParent, Ne, Option.or_eq_none_iff]
      exact fun hnone => hsets hnone.1
    obtain ⟨value, hvalue⟩ := Option.ne_none_iff_exists'.mp (mem_iff_lookup_ne_none.mp hmem)
    obtain ⟨parent, hparent, hcarried, hlater⟩ :=
      lookup_parentArtifacts_eq_some_iff.mp hvalue
    cases hparentOwn : ownArtifact rows parent key with
    | some found =>
      rw [hparentOwn, Option.some_or] at hcarried
      exact ⟨parent, hparent, value, hparentOwn.trans hcarried, hsaved key value hvalue⟩
    | none =>
      rw [hparentOwn, Option.none_or] at hcarried
      obtain ⟨other, hother, hsame⟩ := hcondition key value parent
        { mem := hparent
          own := hparentOwn
          inherited := hcarried
          last := fun later hmem hlt => Option.or_eq_none_iff.mp (hlater later hmem hlt) }
        ⟨owner, howner, hsets⟩
      exact ⟨other, hother, value, hsame, hsaved key value hvalue⟩

def successWorkflow (nodes : List NodeId) (edges : List (NodeId × NodeId)) : Workflow where
  env := SlicedLaunches.sampleInstallation
  dag := WorkflowDAG.ofTables nodes edges [] []
  workflowJob := ⟨false, LaunchConfig.empty, none, nodes.length, by simp [LaunchConfig.empty]⟩
  template _ := some (.jobTemplate SlicedLaunches.sampleTemplate)
  config _ := LaunchConfig.empty

def versionRun : List Step :=
  [.jobChanges 3 (some (.job .successful ∅)), .builds 3,
    .jobChanges 2 (some (.job .successful (AList.singleton "version" (.int 2)))), .builds 2,
    .jobChanges 1 (some (.job .successful (AList.singleton "version" (.int 1)))), .builds 1]

def versionWorkflow : Workflow :=
  successWorkflow [1, 2, 3, 4] [(1, 2), (1, 3), (2, 4), (3, 4)]

theorem old_version_wins :
    ¬ ∀ (workflow : Workflow) (run : List Step) (node : NodeId),
      NearestWins workflow (workflow.after newRows run) node := by
  intro hclaim
  obtain ⟨parent, hparent, value, hown, hpassed⟩ :=
    hclaim versionWorkflow versionRun 4 "version" ⟨2, by decide, by decide⟩
  have hold : (versionWorkflow.jobKwargs (versionWorkflow.after newRows versionRun)
      4).ancestorArtifacts.lookup "version" = some (.int 1) := rfl
  have hparents : versionWorkflow.dag.getParents 4 = [2, 3] := by decide
  have hfirst : ownArtifact (versionWorkflow.after newRows versionRun) 2 "version" =
      some (.int 2) := rfl
  have hsecond : ownArtifact (versionWorkflow.after newRows versionRun) 3 "version" = none := rfl
  rw [hold, Option.some.injEq] at hpassed
  rw [hparents, List.mem_pair] at hparent
  cases hparent with
  | inl htwo =>
    rw [htwo, hfirst, ← hpassed] at hown
    cases hown
  | inr hthree =>
    rw [hthree, hsecond] at hown
    cases hown

end Nearest

/-! ## Hidden artifacts -/

section Hidden

variable {workflow : Workflow} {start : Rows} {run : List Step} {node parent : NodeId}
  {artifacts : Vars} {key : String}

/-- The artifacts of a job are handed to a node: at the last time that its keyword arguments
were built they were those of the job of a parent, or a parent had been handed them. -/
inductive Reaches (workflow : Workflow) (start : Rows) : List Step → Vars → NodeId → Prop where
  | fromJob {run : List Step} {parent node : NodeId} {job : NodeJob} {artifacts : Vars}
      (hparent : workflow.dag.Edge parent node)
      (hjob : (workflow.after start run parent).job = some job)
      (hcontributes : job.Contributes artifacts) :
      Reaches workflow start (.builds node :: run) artifacts node
  | fromParent {run : List Step} {parent node : NodeId} {artifacts : Vars}
      (hparent : workflow.dag.Edge parent node)
      (hreaches : Reaches workflow start run artifacts parent) :
      Reaches workflow start (.builds node :: run) artifacts node
  | later {run : List Step} {node : NodeId} {step : Step} {artifacts : Vars}
      (hreaches : Reaches workflow start run artifacts node) (hstep : step ≠ .builds node) :
      Reaches workflow start (step :: run) artifacts node

theorem ancestorArtifacts_step {rows : Rows} {step : Step} (hstep : step ≠ .builds node) :
    (workflow.step rows step node).ancestorArtifacts = (rows node).ancestorArtifacts := by
  cases step with
  | builds other =>
    have hne : node ≠ other := fun hsame => hstep (hsame ▸ rfl)
    rw [Workflow.step, Function.update_of_ne hne]
  | jobChanges other job =>
    by_cases hsame : node = other
    · subst hsame
      rw [Workflow.step, Function.update_self]
    · rw [Workflow.step, Function.update_of_ne hsame]

theorem mem_ancestorArtifacts_builds {rows : Rows}
    (hkey : key ∈ parentArtifacts (workflow.parentRows rows node)) :
    key ∈ (workflow.step rows (.builds node) node).ancestorArtifacts := by
  rw [Workflow.step, Function.update_self, ancestorArtifacts_jobKwargs hkey]
  exact hkey

theorem mem_ancestorArtifacts (hreaches : Reaches workflow start run artifacts node)
    (hkey : key ∈ artifacts) : key ∈ (workflow.after start run node).ancestorArtifacts := by
  induction hreaches with
  | fromJob hparent hjob hcontributes =>
    exact mem_ancestorArtifacts_builds
      (mem_parentArtifacts_of_job hparent hjob hcontributes hkey)
  | fromParent hparent _ ih =>
    exact mem_ancestorArtifacts_builds (mem_parentArtifacts_of_ancestor hparent (ih hkey))
  | later _ hstep ih =>
    rw [Workflow.after, ancestorArtifacts_step hstep]
    exact ih hkey

theorem mem_parentArtifacts_of_reaches
    (hreaches : Reaches workflow start (.builds node :: run) artifacts node)
    (hkey : key ∈ artifacts) :
    key ∈ parentArtifacts (workflow.parentRows (workflow.after start run) node) := by
  cases hreaches with
  | fromJob hparent hjob hcontributes =>
    exact mem_parentArtifacts_of_job hparent hjob hcontributes hkey
  | fromParent hparent hreaches =>
    exact mem_parentArtifacts_of_ancestor hparent (mem_ancestorArtifacts hreaches hkey)
  | later _ hstep => exact absurd rfl hstep

def surveyOf : NodeTemplate → Option SurveyTemplate
  | .jobTemplate template => some template.survey
  | .workflowJobTemplate template => some template.survey
  | .other => none

def newJobPasswords (survey : SurveyTemplate) (kwargs : JobKwargs) : Dict String String :=
  assignAll id (fun _ => some replaceStr) survey.surveyPasswordVariables
    (kwargs.prompts.surveyPasswords.getD ∅)

def displayExtraVars (extraVars : Vars) (passwords : Dict String String) : Vars :=
  mapValues (fun key value =>
    match passwords.lookup key with
    | some replacement => .str replacement
    | none => value) extraVars

def displayedVars (env : Installation) (survey : SurveyTemplate) (kwargs : JobKwargs) : Vars :=
  displayExtraVars (survey.createUnifiedJob env.surveys (kwargs.prompts.extraVars.getD ∅))
    (newJobPasswords survey kwargs)

theorem lookup_displayedVars {env : Installation} {survey : SurveyTemplate} {kwargs : JobKwargs}
    {shown : Value}
    (hlisted : (kwargs.prompts.surveyPasswords.getD ∅).lookup key = some replaceStr)
    (hshown : (displayedVars env survey kwargs).lookup key = some shown) :
    shown = .str replaceStr := by
  have hpassword : (newJobPasswords survey kwargs).lookup key = some replaceStr := by
    rw [newJobPasswords, lookup_assignAll_const, hlisted, ite_self]
  rw [displayedVars, displayExtraVars, lookup_mapValues] at hshown
  obtain ⟨value, -, hvalue⟩ := Option.map_eq_some_iff.mp hshown
  rw [hpassword] at hvalue
  exact hvalue.symm

def ListsArtifacts (workflow : Workflow) (rows : Rows) (node : NodeId) : Prop :=
  ∀ key ∈ artifactVars (workflow.template node)
      (parentArtifacts (workflow.parentRows rows node)),
    ((workflow.jobKwargs rows node).prompts.surveyPasswords.getD ∅).lookup key = some replaceStr

theorem specialPasswords_replaced {template : Option NodeTemplate} {env : Installation}
    {workflowJob : WorkflowJob} {value : String}
    (hvalue : (specialPrompts template (workflowJob.promptsDict env)).2.lookup key =
      some value) : value = replaceStr := by
  have hprompts : (workflowJob.promptsDict env).surveyPasswords =
      nonEmptyDict workflowJob.config.surveyPasswords := by
    rw [WorkflowJob.promptsDict]
    split <;> rfl
  rw [specialPrompts.eq_def] at hvalue
  split at hvalue
  · rw [hprompts, SlicedLaunches.getD_nonEmptyDict] at hvalue
    exact workflowJob.passwords_replaced key value hvalue
  · simp at hvalue

theorem listsArtifacts_of_marked {rows : Rows}
    (hmarked : "_ansible_no_log" ∈ parentArtifacts (workflow.parentRows rows node)) :
    ListsArtifacts workflow rows node := by
  intro key hkey
  have hhidden : HiddenArtifact (parentArtifacts (workflow.parentRows rows node)) key := by
    rw [artifactVars.eq_def] at hkey
    split at hkey
    · obtain ⟨hne, hmem⟩ := AList.mem_erase.mp hkey
      exact ⟨hmarked, hmem, hne⟩
    · obtain ⟨hne, hmem⟩ := AList.mem_erase.mp hkey
      exact ⟨hmarked, hmem, hne⟩
    · exact absurd hkey (AList.notMem_empty key)
  rw [Workflow.jobKwargs, lookup_surveyPasswords_getJobKwargs, if_pos hhidden]
  cases hspecial : (specialPrompts (workflow.template node)
      (workflow.workflowJob.promptsDict workflow.env)).2.lookup key with
  | none => rfl
  | some value => rw [specialPasswords_replaced hspecial, Option.some_or]

/-- When artifacts with the marker reach a node as its keyword arguments are built, all
variables from artifacts are listed and not shown, and the artifacts with the marker reach
every child of the node that is built later. -/
theorem hidden_of_reaches
    (hreaches : Reaches workflow start (.builds node :: run) artifacts node)
    (hmarked : "_ansible_no_log" ∈ artifacts) :
    ListsArtifacts workflow (workflow.after start run) node ∧
      (∀ template survey, workflow.template node = some template →
        surveyOf template = some survey →
          ∀ key ∈ artifactVars (workflow.template node)
              (parentArtifacts (workflow.parentRows (workflow.after start run) node)),
            ∀ shown, (displayedVars workflow.env survey
                (workflow.jobKwargs (workflow.after start run) node)).lookup key = some shown →
              shown = .str replaceStr) ∧
      (∀ run' descendant, Reaches workflow start run' artifacts descendant →
        "_ansible_no_log" ∈ (workflow.after start run' descendant).ancestorArtifacts) ∧
      ∀ child later, workflow.dag.Edge node child → Step.builds node ∉ later →
        Reaches workflow start (.builds child :: later ++ .builds node :: run) artifacts
          child := by
  have hlists := listsArtifacts_of_marked (mem_parentArtifacts_of_reaches hreaches hmarked)
  refine ⟨hlists, ?_, ?_, ?_⟩
  · intro template survey _ _ key hkey shown hshown
    exact lookup_displayedVars (hlists key hkey) hshown
  · intro run' descendant hdescendant
    exact mem_ancestorArtifacts hdescendant hmarked
  · intro child later hchild hlater
    refine .fromParent hchild ?_
    induction later with
    | nil => exact hreaches
    | cons step later ih =>
      rw [List.mem_cons, not_or] at hlater
      exact .later (ih hlater.2) (Ne.symm hlater.1)

def secretArtifacts : Vars :=
  (AList.singleton "secret" (.str "hunter2")).insert "_ansible_no_log" (.bool true)

theorem hidden_of_reaches_child :
    ListsArtifacts versionWorkflow (versionWorkflow.after newRows
      [.jobChanges 1 (some (.job .successful secretArtifacts)), .builds 1]) 2 := by
  have hreaches : Reaches versionWorkflow newRows
      [.builds 2, .jobChanges 1 (some (.job .successful secretArtifacts)), .builds 1]
      secretArtifacts 2 := by
    apply Reaches.fromJob
    · exact SimpleDag.SimpleDAG.mem_getParents_iff.mp
        (show 1 ∈ versionWorkflow.dag.getParents 2 by decide)
    · rfl
    · exact .own
  exact (hidden_of_reaches hreaches (by decide)).1

def skippedWorkflow : Workflow := successWorkflow [1, 2, 3, 4] [(1, 2), (2, 4), (3, 4)]

def skippedRun : List Step :=
  [.jobChanges 3 (some (.job .successful (AList.singleton "url" (.str "https://app")))),
    .builds 3, .jobChanges 1 (some (.job .failed secretArtifacts)), .builds 1]

theorem skipped_ancestor_not_listed :
    ¬ ∀ (workflow : Workflow) (run : List Step) (ancestor node : NodeId) (job : NodeJob)
      (artifacts : Vars), Relation.TransGen workflow.dag.Edge ancestor node →
        (workflow.after newRows run ancestor).job = some job → job.Contributes artifacts →
          "_ansible_no_log" ∈ artifacts →
            ListsArtifacts workflow (workflow.after newRows run) node := by
  intro hclaim
  have hedge : ∀ parent child, parent ∈ skippedWorkflow.dag.getParents child →
      skippedWorkflow.dag.Edge parent child :=
    fun parent child hmem => SimpleDag.SimpleDAG.mem_getParents_iff.mp hmem
  have hpath : Relation.TransGen skippedWorkflow.dag.Edge 1 4 :=
    (Relation.TransGen.single (hedge 1 2 (by decide))).tail (hedge 2 4 (by decide))
  have hlisted := hclaim skippedWorkflow skippedRun 1 4 _ secretArtifacts hpath rfl .own
    (by decide) "url" (by decide)
  have hunlisted : ((skippedWorkflow.jobKwargs (skippedWorkflow.after newRows skippedRun)
      4).prompts.surveyPasswords.getD ∅).lookup "url" = none := rfl
  rw [hunlisted] at hlisted
  cases hlisted

end Hidden

end Forail.WorkflowArtifacts
