import Forail.Core.Reach
import Forail.Core.Runs
import Forail.Scheduler.DependencyLinks

/-!
# Tasks that wait for each other

A task waits for the tasks in `dependent_jobs`.  An inventory update can be
both a task of a batch and an update obtained for a job before it in the same
batch; when it obtains a project update of its own it is then linked to
itself.  In every run in which no pass meets such a batch the links have no
cycle.
-/

namespace Forail.Dependencies

open Relation
open Forail.UnifiedJobs Forail.Runs

def DependsOn (store : Store) (task dep : TaskId) : Prop :=
  task < store.next ∧ dep ∈ (store.tasks task).dependentJobs

def WaitsFor (store : Store) (task dep : TaskId) : Prop :=
  task < store.next ∧ (store.tasks task).status = .pending ∧
    dep ∈ (store.tasks task).dependentJobs ∧ (store.tasks dep).status.Active

inductive Event where
  /-- A user, a workflow or a schedule creates a task. -/
  | createTask (kind : TaskKind) (status : JobStatus)
  | updateTask (task : TaskId) (status : JobStatus) (finished : Option ℕ)
  | changeTables (tables : Tables)
  | schedule (instant : Instant)

def updateTask (store : Store) (task : TaskId) (status : JobStatus)
    (finished : Option ℕ) : Store where
  tables := store.tables
  next := store.next
  tasks := Function.update store.tasks task
    { store.tasks task with status := status, finished := finished }
  dependentJobs_lt := by
    intro id dep hdep
    by_cases hid : id = task
    · rw [hid, Function.update_self] at hdep
      exact store.dependentJobs_lt task dep hdep
    · rw [Function.update_of_ne hid] at hdep
      exact store.dependentJobs_lt id dep hdep

/-- A pass that raises leaves no trace, since it is one transaction. -/
def step (store : Store) : Event → Option Store
  | .createTask kind status => some (store.createTask kind status)
  | .updateTask task status finished =>
      if task < store.next then some (updateTask store task status finished) else none
  | .changeTables tables => some { store with tables := tables }
  | .schedule instant => (schedule store instant).toOption

def SafeBatch (store : Store) : Prop :=
  let manager := DependencyManager.empty.cacheProjectsAndSources store store.undepedTasks
  ∀ earlier task later, store.undepedTasks = earlier ++ task :: later →
    manager.keysOf store task ≠ [] →
    ∀ other ∈ earlier, ∀ key ∈ manager.keysOf store other,
      store.latestUpdate key ≠ some task

def SafeEvent (store : Store) : Event → Prop
  | .schedule _ => SafeBatch store
  | _ => True

def SourcesOnly (store : Store) : Prop :=
  ∀ id < store.next, ∀ dep ∈ (store.tasks id).dependentJobs,
    ∀ project check, (store.tasks id).kind ≠ .projectUpdate project check

def ProjectUpdatesProcessed (store : Store) : Prop :=
  ∀ id < store.next, ∀ project check,
    (store.tasks id).kind = .projectUpdate project check →
    (store.tasks id).dependenciesProcessed = true

structure Tidy (store : Store) : Prop where
  acyclic : Reach.Acyclic (DependsOn store)
  sources : SourcesOnly store
  /-- The dependencies are updates that were processed. -/
  targets : ∀ id < store.next, ∀ dep ∈ (store.tasks id).dependentJobs,
    (store.tasks dep).dependenciesProcessed = true
  unprocessed : ∀ id < store.next, (store.tasks id).dependenciesProcessed = false →
    (store.tasks id).dependentJobs = []
  project_updates : ProjectUpdatesProcessed store

variable {instant : Instant} {store store' : Store} {manager : DependencyManager}
  {key : UpdateKey} {task other update : TaskId}

theorem keysOf_projectUpdate {project : ProjectId} {check : Bool}
    (hkind : (store.tasks task).kind = .projectUpdate project check) :
    manager.keysOf store task = [] := by
  rw [DependencyManager.keysOf, hkind]
  rfl

theorem mem_projectKeys {project : Option ProjectId}
    (hkey : key ∈ manager.projectKeys project) : ∃ id, key = .project id := by
  cases project with
  | none => exact absurd hkey List.not_mem_nil
  | some project =>
    simp only [DependencyManager.projectKeys] at hkey
    split at hkey
    · exact ⟨project, List.mem_singleton.mp hkey⟩
    · exact absurd hkey List.not_mem_nil

theorem project_of_mem_keysOf (hkey : key ∈ manager.keysOf store task)
    (hupdate : (store.tasks task).kind.updateKey ≠ none) : ∃ id, key = .project id := by
  unfold DependencyManager.keysOf at hkey
  cases hkind : (store.tasks task).kind with
  | job project inventory alreadyUpdated => simp [hkind, TaskKind.updateKey] at hupdate
  | inventoryUpdate inventorySource sourceIsScm =>
    rw [hkind] at hkey
    cases inventorySource with
    | none => exact absurd hkey List.not_mem_nil
    | some source =>
      cases sourceIsScm with
      | false => exact absurd hkey List.not_mem_nil
      | true => exact mem_projectKeys hkey
  | projectUpdate project check => rw [hkind] at hkey; exact absurd hkey List.not_mem_nil
  | adHocCommand => rw [hkind] at hkey; exact absurd hkey List.not_mem_nil
  | systemJob => rw [hkind] at hkey; exact absurd hkey List.not_mem_nil
  | workflowJob => rw [hkind] at hkey; exact absurd hkey List.not_mem_nil
  | workflowApproval => rw [hkind] at hkey; exact absurd hkey List.not_mem_nil

theorem kind_of_latestUpdate_project {project : ProjectId}
    (hlatest : store.latestUpdate (.project project) = some update) :
    ∃ check, (store.tasks update).kind = .projectUpdate project check := by
  have hkey := (Store.latestUpdate_lt hlatest).2
  cases hkind : (store.tasks update).kind with
  | projectUpdate other check =>
    cases check with
    | false => simp [hkind, TaskKind.updateKey] at hkey
    | true =>
      simp only [hkind, TaskKind.updateKey, Option.some.injEq, UpdateKey.project.injEq] at hkey
      exact ⟨true, by rw [hkey]⟩
  | inventoryUpdate inventorySource sourceIsScm =>
    cases inventorySource <;> simp [hkind, TaskKind.updateKey] at hkey
  | job => simp [hkind, TaskKind.updateKey] at hkey
  | adHocCommand => simp [hkind, TaskKind.updateKey] at hkey
  | systemJob => simp [hkind, TaskKind.updateKey] at hkey
  | workflowJob => simp [hkind, TaskKind.updateKey] at hkey
  | workflowApproval => simp [hkind, TaskKind.updateKey] at hkey

theorem not_latestUpdate_self (hkey : key ∈ manager.keysOf store task)
    (hlatest : store.latestUpdate key = some task) : False := by
  have hupdate := (Store.latestUpdate_lt hlatest).2
  obtain ⟨project, rfl⟩ := project_of_mem_keysOf hkey (by simp [hupdate])
  obtain ⟨check, hkind⟩ := kind_of_latestUpdate_project hlatest
  rw [keysOf_projectUpdate hkind] at hkey
  exact List.not_mem_nil hkey

theorem mem_undepedTasks (hmem : task ∈ store.undepedTasks) :
    task < store.next ∧ (store.tasks task).dependenciesProcessed = false := by
  simp only [Store.undepedTasks, List.mem_filter, List.mem_range, Bool.and_eq_true,
    Bool.not_eq_true'] at hmem
  exact ⟨hmem.1, hmem.2.1.1.2⟩

theorem nodup_undepedTasks : store.undepedTasks.Nodup :=
  List.nodup_range.filter _

/-! ## The two calls of a pass -/

def NewLink (manager : DependencyManager) (store store' : Store) (batch : List TaskId)
    (task dep : TaskId) : Prop :=
  task < store.next ∧ ∃ earlier later, batch = earlier ++ task :: later ∧
    manager.keysOf store task ≠ [] ∧ ∃ other ∈ earlier ++ [task],
      ∃ key ∈ manager.keysOf store other, store'.latestUpdate key = some dep

variable {batch new : List TaskId}

theorem dependsOn_iff (hlinks : BatchLinks manager instant store store' [] new batch)
    {dep : TaskId} : DependsOn store' task dep ↔
      DependsOn store task dep ∨ NewLink manager store store' batch task dep := by
  simp only [DependsOn, NewLink]
  by_cases htask : task < store.next
  · rw [hlinks.links_iff task htask]
    simp only [List.not_mem_nil, false_or, htask, htask.trans_le hlinks.extends_.next_le,
      true_and]
  · simp only [htask, false_and, or_self, iff_false, not_and]
    intro hlt hdep
    rw [hlinks.created task (Nat.not_lt.mp htask) hlt] at hdep
    exact List.not_mem_nil hdep

theorem idxOf_le_of_split (hnodup : batch.Nodup) {earlier later : List TaskId}
    (hsplit : batch = earlier ++ task :: later) (hother : other ∈ earlier ++ [task]) :
    batch.idxOf other ≤ batch.idxOf task := by
  rw [hsplit] at hnodup
  have hfresh : task ∉ earlier := by
    intro hmem
    exact (List.nodup_append.mp hnodup).2.2 task hmem task List.mem_cons_self rfl
  have htask : batch.idxOf task = earlier.length := by
    rw [hsplit, List.idxOf_append_of_notMem hfresh, List.idxOf_cons_self, Nat.add_zero]
  cases List.mem_append.mp hother with
  | inl hmem =>
    rw [htask, hsplit, List.idxOf_append_of_mem hmem]
    exact (List.idxOf_lt_length_of_mem hmem).le
  | inr hself => rw [List.mem_singleton.mp hself]

theorem exists_split_of_idxOf_lt (htask : task ∈ batch) (hother : other ∈ batch)
    (hlt : batch.idxOf other < batch.idxOf task) :
    ∃ earlier later, batch = earlier ++ task :: later ∧ other ∈ earlier := by
  refine ⟨batch.take (batch.idxOf task), batch.drop (batch.idxOf task + 1), ?_, ?_⟩
  · have hindex := List.idxOf_lt_length_of_mem htask
    have hdrop : batch.drop (batch.idxOf task) =
        task :: batch.drop (batch.idxOf task + 1) := by
      rw [List.drop_eq_getElem_cons hindex, List.getElem_idxOf]
    rw [← hdrop, List.take_append_drop]
  · exact (List.mem_take_iff_idxOf_lt hother).mpr hlt

/-- The first call of a safe pass closes no cycle: the links between tasks of
the batch lead backwards. -/
theorem acyclic_firstCall (htidy : Tidy store) (hsafe : SafeBatch store)
    (hlinks : BatchLinks
      (DependencyManager.empty.cacheProjectsAndSources store store.undepedTasks)
      instant store store' [] new store.undepedTasks) :
    Reach.Acyclic (DependsOn store') := by
  let manager := DependencyManager.empty.cacheProjectsAndSources store store.undepedTasks
  let batch := store.undepedTasks
  have hrelation : DependsOn store' = fun task dep =>
      DependsOn store task dep ∨ NewLink manager store store' batch task dep := by
    funext task dep
    exact propext (dependsOn_iff hlinks)
  rw [hrelation]
  apply @Reach.acyclic_union_of_rank _ (DependsOn store)
    (NewLink manager store store' batch) htidy.acyclic
    (fun task => task ∈ batch ∧ manager.keysOf store task ≠ []) (batch.idxOf ·)
  · intro task dep hnew
    obtain ⟨-, earlier, later, hsplit, hkeys, -⟩ := hnew
    exact ⟨by rw [hsplit]; simp, hkeys⟩
  · intro task dep hold hdep
    have hprocessed := htidy.targets task hold.1 dep hold.2
    rw [(mem_undepedTasks hdep.1).2] at hprocessed
    cases hprocessed
  · intro task dep hnew hdep
    obtain ⟨-, earlier, later, hsplit, -, other, hother, key, hkey, hlatest⟩ := hnew
    have hmem : other ∈ batch := by
      rw [hsplit, List.append_cons]
      exact List.mem_append_left _ hother
    have hold := Store.latestUpdate_of_lt hlinks.extends_ hlatest
      (mem_undepedTasks hdep.1).1
    have hle : batch.idxOf dep ≤ batch.idxOf other := by
      by_contra hlt
      obtain ⟨first, rest, hdepSplit, hbefore⟩ :=
        exists_split_of_idxOf_lt hdep.1 hmem (Nat.not_le.mp hlt)
      exact hsafe first dep rest hdepSplit hdep.2 other hbefore key hkey hold
    have hne : batch.idxOf dep ≠ batch.idxOf other := by
      intro heq
      have hsame : dep = other := (List.idxOf_inj hdep.1).mp heq
      exact not_latestUpdate_self (hsame ▸ hkey) hold
    exact (lt_of_le_of_ne hle hne).trans_le
      (idxOf_le_of_split nodup_undepedTasks hsplit hother)

theorem sourcesOnly_batch (hsources : SourcesOnly store)
    (hlinks : BatchLinks manager instant store store' [] new batch) :
    SourcesOnly store' := by
  intro id hid dep hdep project check hkind
  cases (dependsOn_iff hlinks).mp ⟨hid, hdep⟩ with
  | inl hold =>
    rw [hlinks.extends_.kind hold.1] at hkind
    exact hsources id hold.1 dep hold.2 project check hkind
  | inr hnew =>
    obtain ⟨hlt, -, -, -, hkeys, -⟩ := hnew
    rw [hlinks.extends_.kind hlt] at hkind
    exact hkeys (keysOf_projectUpdate hkind)

theorem projectUpdatesProcessed_extends (hprocessed : ProjectUpdatesProcessed store)
    (hextends : Extends instant store store') : ProjectUpdatesProcessed store' := by
  intro id hid project check hkind
  by_cases hold : id < store.next
  · rw [hextends.kind hold] at hkind
    rw [hextends.frame id hold]
    exact hprocessed id hold project check hkind
  · rw [(hextends.created id (Nat.not_lt.mp hold) hid).2, hkind]
    rfl

variable {ids : List TaskId}

theorem dependsOn_markProcessed :
    DependsOn (store.markProcessed ids) = DependsOn store := by
  funext task dep
  simp only [DependsOn, dependentJobs_markProcessed]
  rfl

theorem kind_markProcessed :
    ((store.markProcessed ids).tasks task).kind = (store.tasks task).kind := by
  simp only [Store.markProcessed]
  split <;> rfl

theorem status_markProcessed :
    ((store.markProcessed ids).tasks task).status = (store.tasks task).status := by
  simp only [Store.markProcessed]
  split <;> rfl

theorem processed_markProcessed :
    ((store.markProcessed ids).tasks task).dependenciesProcessed = true ↔
      task ∈ ids ∨ (store.tasks task).dependenciesProcessed = true := by
  simp only [Store.markProcessed]
  split
  · rename_i hmem
    simp [hmem]
  · rename_i hmem
    simp [hmem]

theorem sourcesOnly_markProcessed (hsources : SourcesOnly store) :
    SourcesOnly (store.markProcessed ids) := by
  intro id hid dep hdep project check hkind
  rw [dependentJobs_markProcessed] at hdep
  rw [kind_markProcessed] at hkind
  exact hsources id hid dep hdep project check hkind

theorem projectUpdatesProcessed_markProcessed
    (hprocessed : ProjectUpdatesProcessed store) :
    ProjectUpdatesProcessed (store.markProcessed ids) := by
  intro id hid project check hkind
  rw [kind_markProcessed] at hkind
  exact processed_markProcessed.mpr (Or.inr (hprocessed id hid project check hkind))

structure Pass (instant : Instant) (store store' : Store) where
  manager : DependencyManager
  linked : Store
  dependencies : List TaskId
  first : BatchLinks
    (DependencyManager.empty.cacheProjectsAndSources store store.undepedTasks)
    instant store linked [] dependencies store.undepedTasks
  second : Store
  obtained : List TaskId
  undepedDeps : List TaskId
  mem_undepedDeps : ∀ dep, dep ∈ undepedDeps ↔
    dep ∈ dependencies ∧ (linked.tasks dep).dependenciesProcessed = false
  second_links : BatchLinks manager instant (linked.markProcessed store.undepedTasks)
    second [] obtained undepedDeps
  result : store' = second.markProcessed undepedDeps

theorem exists_key_of_mem (hlinks : BatchLinks manager instant store store' [] new batch)
    (hmem : update ∈ new) : ∃ key, store'.latestUpdate key = some update := by
  cases (hlinks.mem_iff update).mp hmem with
  | inl hnil => exact absurd hnil List.not_mem_nil
  | inr hobtained =>
    obtain ⟨task, -, key, -, hlatest⟩ := hobtained
    exact ⟨key, hlatest⟩

theorem schedule_ok (hok : schedule store instant = .ok store') :
    (store.undepedTasks = [] ∧ store' = store) ∨ Nonempty (Pass instant store store') := by
  unfold schedule at hok
  split at hok
  · rename_i hnil
    exact Or.inl ⟨hnil, (Except.ok.inj hok).symm⟩
  · right
    cases hfirst : DependencyManager.empty.generateDependencies store instant
        store.undepedTasks with
    | error error =>
      rw [hfirst] at hok
      cases hok
    | ok result =>
      obtain ⟨manager, middle, deps⟩ := result
      rw [hfirst] at hok
      obtain ⟨hmanager, linked, dependencies, hloop, rfl, rfl⟩ := generateDependencies_ok hfirst
      rw [hmanager] at hloop
      simp only [bind, Except.bind] at hok
      split at hok
      · cases hok
      · rename_i last hsecond
        obtain ⟨manager', final, deps'⟩ := last
        obtain rfl := Except.ok.inj hok
        obtain ⟨-, second, obtained, hloop', hfinal, -⟩ := generateDependencies_ok hsecond
        have hlinks := foldlM_linkTask
          (fun task htask => (mem_undepedTasks htask).1) hloop
        have hmem : ∀ dep, dep ∈ ((dependencies.map fun dep => (dep, linked.tasks dep)).filter
              fun dep => !dep.2.dependenciesProcessed).map Prod.fst ↔
            dep ∈ dependencies ∧ (linked.tasks dep).dependenciesProcessed = false := by
          intro dep
          simp
        refine ⟨⟨manager', linked, dependencies, hlinks, second, obtained, _, hmem,
          foldlM_linkTask ?_ hloop', hfinal⟩⟩
        intro dep hdep
        obtain ⟨key, hlatest⟩ := exists_key_of_mem hlinks ((hmem dep).mp hdep).1
        exact (Store.latestUpdate_lt hlatest).1

namespace Pass

abbrev cached (store : Store) : DependencyManager :=
  DependencyManager.empty.cacheProjectsAndSources store store.undepedTasks

variable (pass : Pass instant store store')
include pass

abbrev marked : Store := pass.linked.markProcessed store.undepedTasks

theorem dependsOn_iff {dep : TaskId} : DependsOn store' task dep ↔
    (DependsOn store task dep ∨
      NewLink (cached store) store pass.linked store.undepedTasks task dep) ∨
    NewLink pass.manager pass.marked pass.second pass.undepedDeps task dep := by
  have hrelation : DependsOn store' = DependsOn pass.second :=
    (congrArg DependsOn pass.result).trans dependsOn_markProcessed
  rw [hrelation, Dependencies.dependsOn_iff pass.second_links, dependsOn_markProcessed,
    Dependencies.dependsOn_iff pass.first]

theorem processed_of_marked (htask : task < pass.linked.next)
    (hprocessed : (pass.marked.tasks task).dependenciesProcessed = true) :
    (store'.tasks task).dependenciesProcessed = true := by
  rw [pass.result, processed_markProcessed]
  right
  rw [pass.second_links.extends_.frame task htask]
  exact hprocessed

theorem processed_of_linked (htask : task < pass.linked.next)
    (hprocessed : (pass.linked.tasks task).dependenciesProcessed = true) :
    (store'.tasks task).dependenciesProcessed = true :=
  pass.processed_of_marked htask (processed_markProcessed.mpr (Or.inr hprocessed))

theorem processed_of_before (htask : task < store.next)
    (hprocessed : (store.tasks task).dependenciesProcessed = true) :
    (store'.tasks task).dependenciesProcessed = true := by
  apply pass.processed_of_linked (htask.trans_le pass.first.extends_.next_le)
  rw [pass.first.extends_.frame task htask]
  exact hprocessed

theorem processed_of_mem_batch (hmem : task ∈ store.undepedTasks) :
    (store'.tasks task).dependenciesProcessed = true :=
  pass.processed_of_marked
    ((mem_undepedTasks hmem).1.trans_le pass.first.extends_.next_le)
    (processed_markProcessed.mpr (Or.inl hmem))

theorem processed_of_mem_deps (hmem : task ∈ pass.undepedDeps) :
    (store'.tasks task).dependenciesProcessed = true := by
  rw [pass.result]
  exact processed_markProcessed.mpr (Or.inl hmem)

theorem status (htask : task < store.next) :
    (store'.tasks task).status = (store.tasks task).status := by
  have hlinked := htask.trans_le pass.first.extends_.next_le
  rw [pass.result, status_markProcessed, pass.second_links.extends_.frame task hlinked,
    status_markProcessed, pass.first.extends_.frame task htask]

theorem projectUpdate_of_newLink {dep : TaskId}
    (hnew : NewLink pass.manager pass.marked pass.second pass.undepedDeps task dep) :
    dep < pass.second.next ∧
      ∃ project check, (pass.second.tasks dep).kind = .projectUpdate project check := by
  obtain ⟨-, earlier, later, hsplit, -, other, hother, key, hkey, hlatest⟩ := hnew
  have hmem : other ∈ pass.undepedDeps := by
    rw [hsplit, List.append_cons]
    exact List.mem_append_left _ hother
  obtain ⟨own, hown⟩ :=
    exists_key_of_mem pass.first ((pass.mem_undepedDeps other).mp hmem).1
  have hupdate : (pass.marked.tasks other).kind.updateKey ≠ none := by
    rw [kind_markProcessed, (Store.latestUpdate_lt hown).2]
    exact Option.some_ne_none own
  obtain ⟨project, rfl⟩ := project_of_mem_keysOf hkey hupdate
  obtain ⟨check, hkind⟩ := kind_of_latestUpdate_project hlatest
  exact ⟨(Store.latestUpdate_lt hlatest).1, project, check, hkind⟩

end Pass

theorem acyclic_pass (htidy : Tidy store) (hsafe : SafeBatch store)
    (pass : Pass instant store store') : Reach.Acyclic (DependsOn store') := by
  have hrelation : DependsOn store' = fun task dep => DependsOn pass.linked task dep ∨
      NewLink pass.manager pass.marked pass.second pass.undepedDeps task dep := by
    funext task dep
    rw [pass.dependsOn_iff, dependsOn_iff pass.first]
  rw [hrelation]
  apply Reach.acyclic_union_sinks (acyclic_firstCall htidy hsafe pass.first)
  intro task dep next hnew
  obtain ⟨-, project, check, hkind⟩ := pass.projectUpdate_of_newLink hnew
  have hkind' : dep < pass.linked.next →
      (pass.marked.tasks dep).kind = .projectUpdate project check := by
    intro hlt
    exact (pass.second_links.extends_.kind hlt).symm.trans hkind
  constructor
  · intro hold
    have hsources := sourcesOnly_batch htidy.sources pass.first
    refine hsources dep hold.1 next hold.2 project check ?_
    exact kind_markProcessed.symm.trans (hkind' hold.1)
  · intro hnext
    obtain ⟨hlt, -, -, -, hkeys, -⟩ := hnext
    exact hkeys (keysOf_projectUpdate (hkind' hlt))

theorem projectUpdatesProcessed_second (htidy : Tidy store)
    (pass : Pass instant store store') : ProjectUpdatesProcessed pass.second :=
  projectUpdatesProcessed_extends
    (projectUpdatesProcessed_markProcessed
      (projectUpdatesProcessed_extends htidy.project_updates pass.first.extends_))
    pass.second_links.extends_

theorem tidy_pass (htidy : Tidy store) (hsafe : SafeBatch store)
    (pass : Pass instant store store') : Tidy store' where
  acyclic := acyclic_pass htidy hsafe pass
  sources := by
    rw [pass.result]
    exact sourcesOnly_markProcessed (sourcesOnly_batch
      (sourcesOnly_markProcessed (sourcesOnly_batch htidy.sources pass.first))
      pass.second_links)
  targets := by
    intro id hid dep hdep
    cases pass.dependsOn_iff.mp ⟨hid, hdep⟩ with
    | inl hfirst =>
      cases hfirst with
      | inl hold =>
        exact pass.processed_of_before (store.dependentJobs_lt id dep hold.2)
          (htidy.targets id hold.1 dep hold.2)
      | inr hnew =>
        obtain ⟨-, earlier, later, hsplit, -, other, hother, key, hkey, hlatest⟩ := hnew
        have hobtained : dep ∈ pass.dependencies := by
          rw [pass.first.mem_iff]
          refine Or.inr ⟨other, ?_, key, hkey, hlatest⟩
          rw [hsplit, List.append_cons]
          exact List.mem_append_left _ hother
        cases hflag : (pass.linked.tasks dep).dependenciesProcessed with
        | false =>
          exact pass.processed_of_mem_deps
            ((pass.mem_undepedDeps dep).mpr ⟨hobtained, hflag⟩)
        | true => exact pass.processed_of_linked (Store.latestUpdate_lt hlatest).1 hflag
    | inr hnew =>
      obtain ⟨hlt, project, check, hkind⟩ := pass.projectUpdate_of_newLink hnew
      rw [pass.result]
      exact processed_markProcessed.mpr (Or.inr
        (projectUpdatesProcessed_second htidy pass dep hlt project check hkind))
  unprocessed := by
    intro id hid hflag
    by_contra hne
    obtain ⟨dep, hdep⟩ := List.exists_mem_of_ne_nil _ hne
    have hprocessed : (store'.tasks id).dependenciesProcessed = true := by
      cases pass.dependsOn_iff.mp ⟨hid, hdep⟩ with
      | inl hfirst =>
        cases hfirst with
        | inl hold =>
          cases hold' : (store.tasks id).dependenciesProcessed with
          | false =>
            have hnil := htidy.unprocessed id hold.1 hold'
            exact absurd hold.2 (by rw [hnil]; exact List.not_mem_nil)
          | true => exact pass.processed_of_before hold.1 hold'
        | inr hnew =>
          obtain ⟨-, earlier, later, hsplit, -⟩ := hnew
          exact pass.processed_of_mem_batch (by rw [hsplit]; simp)
      | inr hnew =>
        obtain ⟨-, earlier, later, hsplit, -⟩ := hnew
        exact pass.processed_of_mem_deps (by rw [hsplit]; simp)
    rw [hflag] at hprocessed
    cases hprocessed
  project_updates := by
    rw [pass.result]
    exact projectUpdatesProcessed_markProcessed (projectUpdatesProcessed_second htidy pass)

theorem waitsFor_self_of_not_safe (pass : Pass instant store store')
    (hbad : ¬ SafeBatch store) : ∃ task, WaitsFor store' task task := by
  simp only [SafeBatch, not_forall] at hbad
  obtain ⟨earlier, task, later, hsplit, hkeys, other, hother, key, hkey, hlatest⟩ := hbad
  rw [not_not] at hlatest
  have hmem : task ∈ store.undepedTasks := by rw [hsplit]; simp
  obtain ⟨hlt, -⟩ := mem_undepedTasks hmem
  have hpending : (store.tasks task).status = .pending := by
    have htest := (List.mem_filter.mp hmem).2
    simp only [Bool.and_eq_true, decide_eq_true_eq] at htest
    exact htest.1.1.1
  have hcurrent : Current instant store key task :=
    { latest := hlatest, good := by simp [shouldUpdateAgain, hpending] }
  have hnew : NewLink (Pass.cached store) store pass.linked store.undepedTasks task task :=
    ⟨hlt, earlier, later, hsplit, hkeys, other, List.mem_append_left _ hother, key, hkey,
      (pass.first.extends_.current key task hcurrent).latest⟩
  obtain ⟨hnext, hself⟩ := pass.dependsOn_iff.mpr (Or.inl (Or.inr hnew))
  have hstatus : (store'.tasks task).status = .pending := by
    rw [pass.status hlt, hpending]
  exact ⟨task, hnext, hstatus, hself, by rw [hstatus]; decide⟩

/-! ## The other events -/

theorem tidy_createTask (htidy : Tidy store) {kind : TaskKind} {status : JobStatus} :
    Tidy (store.createTask kind status) := by
  have hold : ∀ id < store.next,
      (store.createTask kind status).tasks id = store.tasks id := by
    intro id hid
    exact Function.update_of_ne hid.ne _ _
  have hlast : ∀ id, id < store.next + 1 → ¬ id < store.next → id = store.next := by
    intro id hlt hge
    exact Nat.le_antisymm (Nat.le_of_lt_succ hlt) (Nat.not_lt.mp hge)
  have hfresh : ((store.createTask kind status).tasks store.next).dependentJobs = [] := by
    simp [Store.createTask]
  have hlinks : ∀ id < store.next + 1, ∀ dep,
      dep ∈ ((store.createTask kind status).tasks id).dependentJobs →
      id < store.next ∧ dep ∈ (store.tasks id).dependentJobs := by
    intro id hid dep hdep
    by_cases hlt : id < store.next
    · exact ⟨hlt, hold id hlt ▸ hdep⟩
    · rw [hlast id hid hlt, hfresh] at hdep
      exact absurd hdep List.not_mem_nil
  exact
    { acyclic := htidy.acyclic.mono fun id dep hdep => hlinks id hdep.1 dep hdep.2
      sources := by
        intro id hid dep hdep project check hkind
        obtain ⟨hlt, hdep⟩ := hlinks id hid dep hdep
        rw [hold id hlt] at hkind
        exact htidy.sources id hlt dep hdep project check hkind
      targets := by
        intro id hid dep hdep
        obtain ⟨hlt, hdep⟩ := hlinks id hid dep hdep
        rw [hold dep (store.dependentJobs_lt id dep hdep)]
        exact htidy.targets id hlt dep hdep
      unprocessed := by
        intro id hid hflag
        by_cases hlt : id < store.next
        · rw [hold id hlt] at hflag ⊢
          exact htidy.unprocessed id hlt hflag
        · rw [hlast id hid hlt, hfresh]
      project_updates := by
        intro id hid project check hkind
        by_cases hlt : id < store.next
        · rw [hold id hlt] at hkind ⊢
          exact htidy.project_updates id hlt project check hkind
        · rw [hlast id hid hlt] at hkind ⊢
          simp only [Store.createTask, Function.update_self] at hkind ⊢
          rw [hkind]
          rfl }

theorem tidy_updateTask (htidy : Tidy store) {status : JobStatus} {finished : Option ℕ} :
    Tidy (updateTask store task status finished) := by
  have hsame : ∀ id,
      ((updateTask store task status finished).tasks id).kind = (store.tasks id).kind ∧
      ((updateTask store task status finished).tasks id).dependentJobs =
        (store.tasks id).dependentJobs ∧
      ((updateTask store task status finished).tasks id).dependenciesProcessed =
        (store.tasks id).dependenciesProcessed := by
    intro id
    by_cases hid : id = task
    · simp [hid, updateTask]
    · simp [updateTask, Function.update_of_ne hid]
  have hdepends : DependsOn (updateTask store task status finished) = DependsOn store := by
    funext id dep
    simp only [DependsOn, hsame]
    rfl
  exact
    { acyclic := by rw [hdepends]; exact htidy.acyclic
      sources := by
        simp only [SourcesOnly, hsame]
        exact htidy.sources
      targets := by
        simp only [hsame]
        exact htidy.targets
      unprocessed := by
        simp only [hsame]
        exact htidy.unprocessed
      project_updates := by
        simp only [ProjectUpdatesProcessed, hsame]
        exact htidy.project_updates }

theorem tidy_changeTables (htidy : Tidy store) {tables : Tables} :
    Tidy { store with tables := tables } :=
  ⟨htidy.acyclic, htidy.sources, htidy.targets, htidy.unprocessed, htidy.project_updates⟩

theorem tidy_step {event : Event} (htidy : Tidy store) (hsafe : SafeEvent store event)
    (hstep : step store event = some store') : Tidy store' := by
  cases event with
  | createTask kind status =>
    obtain rfl := Option.some.inj hstep
    exact tidy_createTask htidy
  | updateTask task status finished =>
    simp only [step] at hstep
    split at hstep
    · obtain rfl := Option.some.inj hstep
      exact tidy_updateTask htidy
    · cases hstep
  | changeTables tables =>
    obtain rfl := Option.some.inj hstep
    exact tidy_changeTables htidy
  | schedule instant =>
    cases hok : schedule store instant with
    | error error =>
      simp only [step, hok, Except.toOption] at hstep
      cases hstep
    | ok after =>
      simp only [step, hok, Except.toOption] at hstep
      obtain rfl := Option.some.inj hstep
      cases schedule_ok hok with
      | inl hsame => rw [hsame.2]; exact htidy
      | inr hpass => exact tidy_pass htidy hsafe hpass.some

variable {tables : Tables}

theorem tidy_emptyStore : Tidy (emptyStore tables) where
  acyclic := @Reach.acyclic_of_rank _ _ (fun _ => 0) fun _ _ hdep =>
    absurd hdep.1 (Nat.not_lt_zero _)
  sources _ hid := absurd hid (Nat.not_lt_zero _)
  targets _ hid := absurd hid (Nat.not_lt_zero _)
  unprocessed _ hid := absurd hid (Nat.not_lt_zero _)
  project_updates _ hid := absurd hid (Nat.not_lt_zero _)

theorem Tidy.waitsFor_acyclic (htidy : Tidy store) : Reach.Acyclic (WaitsFor store) :=
  htidy.acyclic.mono fun _ _ hwaits => ⟨hwaits.1, hwaits.2.2.1⟩

/-- Along a run of safe passes no task waits for itself, directly or through
other tasks.  One unsafe pass is enough to change this. -/
theorem waitsFor_acyclic_of_run (hrun : Run step SafeEvent (emptyStore tables) store) :
    Reach.Acyclic (WaitsFor store) ∧
      ∀ instant store', schedule store instant = .ok store' →
        (Reach.Acyclic (WaitsFor store') ↔ SafeBatch store) := by
  have htidy : Tidy store := Run.invariant Tidy tidy_emptyStore
    (fun _ _ _ htidy hsafe hstep => tidy_step htidy hsafe hstep) hrun
  refine ⟨htidy.waitsFor_acyclic, ?_⟩
  intro instant store' hok
  cases schedule_ok hok with
  | inl hidle =>
    have hsafe : SafeBatch store := by
      intro earlier task later hsplit
      simp [hidle.1] at hsplit
    rw [hidle.2]
    exact iff_of_true htidy.waitsFor_acyclic hsafe
  | inr hpass =>
    constructor
    · intro hacyclic
      by_contra hbad
      obtain ⟨task, hself⟩ := waitsFor_self_of_not_safe hpass.some hbad
      exact hacyclic task (.single hself)
    · intro hsafe
      exact (tidy_pass htidy hsafe hpass.some).waitsFor_acyclic

def inventoryTables : Tables where
  project := fun _ => { scmUpdateOnLaunch := true, scmUpdateCacheTimeout := 0 }
  inventorySources := [0]
  inventorySource := fun _ =>
    { inventory := some 0
      updateOnLaunch := true
      updateCacheTimeout := 0
      sourceProject := some 0
      sourceIsScm := true }

def startUpdate : Event := .createTask (.inventoryUpdate (some 0) true) .pending

def startJob : Event := .createTask (.job none (some 0) []) .pending

theorem safeBatch_pair {first second : TaskId} (hbatch : store.undepedTasks = [first, second])
    (hsafe : ∀ key ∈ (Pass.cached store).keysOf store first,
      store.latestUpdate key ≠ some second) : SafeBatch store := by
  intro earlier task later hsplit hkeys other hother key hkey
  rw [hbatch] at hsplit
  cases earlier with
  | nil => exact absurd hother List.not_mem_nil
  | cons head earlier =>
    obtain ⟨rfl, hrest⟩ := List.cons.inj hsplit
    cases earlier with
    | nil =>
      obtain ⟨rfl, -⟩ := List.cons.inj hrest
      rw [List.mem_singleton.mp hother] at hkey
      exact hsafe key hkey
    | cons next earlier =>
      have hlength := congrArg List.length (List.cons.inj hrest).2
      simp at hlength

theorem waitsFor_acyclic_update_first :
    ∃ store, [startUpdate, startJob, .schedule (startAll 0)].foldlM step
        (emptyStore inventoryTables) = some store ∧
      (store.tasks 1).dependentJobs = [2, 0] ∧ Reach.Acyclic (WaitsFor store) := by
  let first := (emptyStore inventoryTables).createTask (.inventoryUpdate (some 0) true) .pending
  let second := first.createTask (.job none (some 0) []) .pending
  have hpass : (step second (.schedule (startAll 0))).any (fun store =>
      decide ((store.tasks 1).dependentJobs = [2, 0])) = true := by decide
  obtain ⟨store, hstep, hlinked⟩ := Option.any_eq_true .. |>.mp hpass
  have hsafe : SafeBatch second := by
    apply @safeBatch_pair _ 0 1
    · decide
    · decide
  have hrun : Run step SafeEvent (emptyStore inventoryTables) store :=
    .next (.schedule (startAll 0))
      (.next startJob (.next startUpdate .start trivial rfl) trivial rfl) hsafe hstep
  exact ⟨store, hstep, of_decide_eq_true hlinked, (waitsFor_acyclic_of_run hrun).1⟩

theorem waitsFor_self :
    ¬ ∀ (tables : Tables) (store : Store),
      Run step (fun _ _ => True) (emptyStore tables) store →
      Reach.Acyclic (WaitsFor store) ∧ ∀ task, ¬ WaitsFor store task task := by
  intro hclaim
  have hself : (([startJob, startUpdate, .schedule (startAll 0)].foldlM step
      (emptyStore inventoryTables)).any fun store =>
        decide (1 < store.next) && decide ((store.tasks 1).status = .pending) &&
          decide (1 ∈ (store.tasks 1).dependentJobs)) = true := by decide
  obtain ⟨store, hrun, htest⟩ := exists_run_of_any _ hself
  simp only [Bool.and_eq_true, decide_eq_true_eq] at htest
  obtain ⟨⟨hlt, hstatus⟩, hmem⟩ := htest
  exact (hclaim _ store hrun).2 1 ⟨hlt, hstatus, hmem, by rw [hstatus]; decide⟩

end Forail.Dependencies
