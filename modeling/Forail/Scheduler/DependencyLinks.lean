import Mathlib.Order.Nat
import Forail.Scheduler.DependencyManager

/-!
# Which updates a task is linked to

Each task of a batch obtains the updates of its own keys, its project and the
sources of its inventory.  The list `dependencies` of `generate_dependencies`
is shared by the batch and never emptied, so that a task is also linked to
what was obtained for the tasks before it.  The main result says when this
makes no difference.
-/

namespace Forail.Dependencies

open Forail.UnifiedJobs

def DependencyManager.projectKeys (manager : DependencyManager) :
    Option ProjectId → List UpdateKey
  | none => []
  | some project => if project ∈ manager.allProjects then [.project project] else []

def DependencyManager.updateKeys (manager : DependencyManager) (tables : Tables) :
    TaskKind → List UpdateKey
  | .job project inventory alreadyUpdated =>
      let sources :=
        match inventory with
        | none => []
        | some inventory => manager.allInventorySources inventory
      manager.projectKeys project ++
        (sources.filter (· ∉ alreadyUpdated)).map .inventorySource
  | .inventoryUpdate (some source) true =>
      manager.projectKeys (tables.inventorySource source).sourceProject
  | _ => []

def DependencyManager.keysOf (manager : DependencyManager) (store : Store)
    (task : TaskId) : List UpdateKey :=
  manager.updateKeys store.tables (store.tasks task).kind

/-- The update is the latest one for its key and does not have to be made
again. -/
structure Current (instant : Instant) (store : Store) (key : UpdateKey)
    (update : TaskId) : Prop where
  latest : store.latestUpdate key = some update
  good : shouldUpdateAgain (some (store.tasks update)) (store.tables.cacheTimeout key)
    instant.now ≠ .ok true

/-- How a call changes the store: tasks keep everything but their links, and
current updates stay current. -/
structure Extends (instant : Instant) (store store' : Store) : Prop where
  tables : store'.tables = store.tables
  next_le : store.next ≤ store'.next
  frame : ∀ id < store.next, store'.tasks id =
    { store.tasks id with dependentJobs := (store'.tasks id).dependentJobs }
  current : ∀ key update, Current instant store key update →
    Current instant store' key update
  created : ∀ id, store.next ≤ id → id < store'.next →
    (store'.tasks id).kind.updateKey.isSome = true ∧
      (store'.tasks id).dependenciesProcessed =
        store.tables.defaultDependenciesProcessed (store'.tasks id).kind

variable {instant : Instant} {store store' store'' : Store}
  {manager : DependencyManager} {key : UpdateKey} {update task : TaskId}

theorem Extends.refl : Extends instant store store where
  tables := rfl
  next_le := le_rfl
  frame _ _ := rfl
  current _ _ hcurrent := hcurrent
  created _ hge hlt := absurd hlt (Nat.not_lt.mpr hge)

theorem Extends.trans (hfirst : Extends instant store store')
    (hsecond : Extends instant store' store'') : Extends instant store store'' where
  tables := hsecond.tables.trans hfirst.tables
  next_le := hfirst.next_le.trans hsecond.next_le
  frame id hid := by
    rw [hsecond.frame id (hid.trans_le hfirst.next_le), hfirst.frame id hid]
  current key update hcurrent := hsecond.current key update (hfirst.current key update hcurrent)
  created id hge hlt := by
    by_cases hid : id < store'.next
    · rw [hsecond.frame id hid]
      exact hfirst.created id hge hid
    · rw [← hfirst.tables]
      exact hsecond.created id (Nat.not_lt.mp hid) hlt

theorem Extends.latest_iff {keys : List UpdateKey} (hextends : Extends instant store store')
    (hcurrent : ∀ key ∈ keys, ∃ update, Current instant store key update) (update : TaskId) :
    (∃ key ∈ keys, store.latestUpdate key = some update) ↔
      ∃ key ∈ keys, store'.latestUpdate key = some update := by
  refine exists_congr fun key => and_congr_right fun hkey => ?_
  obtain ⟨latest, hlatest⟩ := hcurrent key hkey
  rw [hlatest.latest, (hextends.current key latest hlatest).latest]

theorem Extends.kind (hextends : Extends instant store store')
    (htask : task < store.next) : (store'.tasks task).kind = (store.tasks task).kind := by
  rw [hextends.frame task htask]

theorem Extends.keysOf (hextends : Extends instant store store')
    (htask : task < store.next) : manager.keysOf store' task = manager.keysOf store task := by
  rw [DependencyManager.keysOf, hextends.tables, hextends.kind htask,
    DependencyManager.keysOf]

/-! ## The latest update -/

theorem updateKey_updateKind {tables : Tables} :
    (tables.updateKind key).updateKey = some key := by
  cases key <;> rfl

namespace Store

theorem latestUpdate_lt (hlatest : store.latestUpdate key = some update) :
    update < store.next ∧ (store.tasks update).kind.updateKey = some key := by
  have hmem := List.mem_of_getLast? hlatest
  rw [List.mem_filter, List.mem_range, decide_eq_true_eq] at hmem
  exact hmem

theorem key_unique {other : UpdateKey} (hlatest : store.latestUpdate key = some update)
    (hother : store.latestUpdate other = some update) : key = other := by
  have hkey := (latestUpdate_lt hlatest).2
  have hkey' := (latestUpdate_lt hother).2
  exact Option.some.inj (hkey.symm.trans hkey')

theorem latestUpdate_congr (hnext : store'.next = store.next)
    (hkind : ∀ id < store.next, (store'.tasks id).kind = (store.tasks id).kind) :
    store'.latestUpdate key = store.latestUpdate key := by
  have hfilter : ((List.range store.next).filter fun id =>
        decide ((store'.tasks id).kind.updateKey = some key)) =
      (List.range store.next).filter fun id =>
        decide ((store.tasks id).kind.updateKey = some key) := by
    apply List.filter_congr
    intro id hid
    rw [hkind id (List.mem_range.mp hid)]
  rw [latestUpdate, latestUpdate, hnext, hfilter]

theorem latestUpdate_createTask {kind : TaskKind} {status : JobStatus} :
    (store.createTask kind status).latestUpdate key =
      if kind.updateKey = some key then some store.next else store.latestUpdate key := by
  have hold : ((List.range store.next).filter fun id =>
        decide (((store.createTask kind status).tasks id).kind.updateKey = some key)) =
      (List.range store.next).filter fun id =>
        decide ((store.tasks id).kind.updateKey = some key) := by
    apply List.filter_congr
    intro id hid
    simp [createTask, Function.update_of_ne (List.mem_range.mp hid).ne]
  have hnew : ((store.createTask kind status).tasks store.next).kind = kind := by
    simp [createTask]
  have hnext : (store.createTask kind status).next = store.next + 1 := rfl
  rw [latestUpdate, hnext, List.range_succ, List.filter_append, hold]
  by_cases hkind : kind.updateKey = some key
  · simp [hnew, hkind]
  · simp [hnew, hkind, latestUpdate]

theorem latestUpdate_of_lt (hextends : Extends instant store store')
    (hlatest : store'.latestUpdate key = some update) (hold : update < store.next) :
    store.latestUpdate key = some update := by
  obtain ⟨extra, hextra⟩ := Nat.exists_eq_add_of_le hextends.next_le
  have hfilter : ((List.range store.next).filter fun id =>
        decide ((store'.tasks id).kind.updateKey = some key)) =
      (List.range store.next).filter fun id =>
        decide ((store.tasks id).kind.updateKey = some key) := by
    apply List.filter_congr
    intro id hid
    rw [hextends.kind (List.mem_range.mp hid)]
  rw [latestUpdate, hextra, List.range_add, List.filter_append, hfilter,
    List.getLast?_append] at hlatest
  cases hnew : (((List.range extra).map (store.next + ·)).filter fun id =>
      decide ((store'.tasks id).kind.updateKey = some key)).getLast? with
  | none =>
    rw [hnew, Option.none_or] at hlatest
    exact hlatest
  | some last =>
    rw [hnew, Option.some_or, Option.some.injEq] at hlatest
    have hmem := (List.mem_filter.mp (List.mem_of_getLast? hnew)).1
    obtain ⟨offset, -, hoffset⟩ := List.mem_map.mp hmem
    have hge : store.next ≤ update := by
      rw [← hlatest, ← hoffset]
      exact Nat.le_add_right _ _
    exact absurd hold (Nat.not_lt.mpr hge)

end Store

theorem Current.of_lt (hextends : Extends instant store store')
    (hcurrent : Current instant store' key update) (hold : update < store.next) :
    Current instant store key update where
  latest := Store.latestUpdate_of_lt hextends hcurrent.latest hold
  good := by
    have hgood := hcurrent.good
    rw [hextends.frame update hold, hextends.tables] at hgood
    exact hgood

/-! ## One task of the batch -/

/-- Obtaining the update of a key leaves the links alone and makes the update
that it returns current. -/
structure Obtains (instant : Instant) (store store' : Store) (key : UpdateKey)
    (update : TaskId) : Prop where
  extends_ : Extends instant store store'
  current : Current instant store' key update
  links : ∀ id < store.next,
    (store'.tasks id).dependentJobs = (store.tasks id).dependentJobs
  created : ∀ id, store.next ≤ id → id < store'.next →
    (store'.tasks id).dependentJobs = []

theorem createUpdate_current {other : UpdateKey}
    (hcurrent : Current instant store other update) (hne : other ≠ key) :
    Current instant (store.createUpdate instant key) other update where
  latest := by
    rw [Store.createUpdate, Store.latestUpdate_createTask, updateKey_updateKind,
      if_neg fun heq => hne (Option.some.inj heq).symm, hcurrent.latest]
  good := by
    have hlt := (Store.latestUpdate_lt hcurrent.latest).1
    have hsame : (store.createUpdate instant key).tasks update = store.tasks update := by
      simp [Store.createUpdate, Store.createTask, Function.update_of_ne hlt.ne]
    rw [hsame]
    exact hcurrent.good

theorem obtains_createUpdate
    (hstale : ∀ other update, Current instant store other update → other ≠ key) :
    Obtains instant store (store.createUpdate instant key) key store.next where
  extends_ :=
    { tables := rfl
      next_le := Nat.le_succ _
      frame := by
        intro id hid
        simp [Store.createUpdate, Store.createTask, Function.update_of_ne hid.ne]
      current := fun other update hcurrent =>
        createUpdate_current hcurrent (hstale other update hcurrent)
      created := by
        intro id hge hlt
        obtain rfl : id = store.next := Nat.le_antisymm (Nat.le_of_lt_succ hlt) hge
        simp [Store.createUpdate, Store.createTask, updateKey_updateKind] }
  current :=
    { latest := by
        rw [Store.createUpdate, Store.latestUpdate_createTask, updateKey_updateKind,
          if_pos rfl]
      good := by
        simp only [Store.createUpdate, Store.createTask, Function.update_self,
          shouldUpdateAgain]
        cases instant.signalStart key <;> simp }
  links := by
    intro id hid
    simp [Store.createUpdate, Store.createTask, Function.update_of_ne hid.ne]
  created := by
    intro id hge hlt
    obtain rfl : id = store.next := Nat.le_antisymm (Nat.le_of_lt_succ hlt) hge
    simp [Store.createUpdate, Store.createTask]

theorem getOrCreateUpdate_obtains
    (hok : store.getOrCreateUpdate instant key = .ok (store', update)) :
    Obtains instant store store' key update := by
  unfold Store.getOrCreateUpdate at hok
  split at hok
  · cases hok
  · rename_i again hagain
    cases hlatest : store.latestUpdate key with
    | none =>
      rw [hlatest] at hok
      obtain ⟨rfl, rfl⟩ := Prod.mk.inj (Except.ok.inj hok)
      apply obtains_createUpdate
      intro other current hcurrent heq
      have hsome := hcurrent.latest
      rw [heq, hlatest] at hsome
      cases hsome
    | some latest =>
      rw [hlatest] at hok
      rw [hlatest, Option.map_some] at hagain
      cases again with
      | false =>
        obtain ⟨rfl, rfl⟩ := Prod.mk.inj (Except.ok.inj hok)
        exact
          { extends_ := .refl
            current := { latest := hlatest, good := by rw [hagain]; simp }
            links := fun _ _ => rfl
            created := fun id hge hlt => absurd hlt (Nat.not_lt.mpr hge) }
      | true =>
        obtain ⟨rfl, rfl⟩ := Prod.mk.inj (Except.ok.inj hok)
        apply obtains_createUpdate
        intro other current hcurrent heq
        subst heq
        have hsame : latest = current :=
          Option.some.inj (hlatest.symm.trans hcurrent.latest)
        exact hcurrent.good (hsame ▸ hagain)

def resolveAll (instant : Instant) (acc : Store × List TaskId)
    (keys : List UpdateKey) : Except DependencyError (Store × List TaskId) :=
  keys.foldlM (fun acc key =>
    (acc.1.getOrCreateUpdate instant key).map fun result =>
      (result.1, acc.2 ++ [result.2])) acc

structure ObtainsAll (instant : Instant) (store store' : Store)
    (keys : List UpdateKey) (old new : List TaskId) : Prop where
  extends_ : Extends instant store store'
  current : ∀ key ∈ keys, ∃ update, Current instant store' key update
  mem_iff : ∀ update, update ∈ new ↔ update ∈ old ∨
    ∃ key ∈ keys, store'.latestUpdate key = some update
  links : ∀ id < store.next,
    (store'.tasks id).dependentJobs = (store.tasks id).dependentJobs
  created : ∀ id, store.next ≤ id → id < store'.next →
    (store'.tasks id).dependentJobs = []

theorem resolveAll_obtains {keys : List UpdateKey} {old new : List TaskId}
    (hok : resolveAll instant (store, old) keys = .ok (store', new)) :
    ObtainsAll instant store store' keys old new := by
  induction keys generalizing store old with
  | nil =>
    obtain ⟨rfl, rfl⟩ := Prod.mk.inj (Except.ok.inj hok)
    exact
      { extends_ := .refl
        current := by simp
        mem_iff := by simp
        links := fun _ _ => rfl
        created := fun id hge hlt => absurd hlt (Nat.not_lt.mpr hge) }
  | cons key keys ih =>
    rw [resolveAll, List.foldlM_cons] at hok
    cases hfirst : store.getOrCreateUpdate instant key with
    | error error =>
      rw [hfirst] at hok
      cases hok
    | ok result =>
      obtain ⟨middle, update⟩ := result
      rw [hfirst] at hok
      have hobtains := getOrCreateUpdate_obtains hfirst
      have hrest := ih hok
      have hcurrent := hrest.extends_.current key update hobtains.current
      exact
        { extends_ := hobtains.extends_.trans hrest.extends_
          current := by
            intro other hother
            cases List.mem_cons.mp hother with
            | inl hhead => exact ⟨update, hhead ▸ hcurrent⟩
            | inr htail => exact hrest.current other htail
          mem_iff := by
            intro other
            rw [hrest.mem_iff, List.mem_append, List.mem_singleton, or_assoc]
            refine or_congr_right ?_
            simp only [List.mem_cons, exists_eq_or_imp, hcurrent.latest,
              Option.some.injEq]
            exact or_congr eq_comm Iff.rfl
          links := by
            intro id hid
            rw [hrest.links id (hid.trans_le hobtains.extends_.next_le),
              hobtains.links id hid]
          created := by
            intro id hge hlt
            by_cases hid : id < middle.next
            · rw [hrest.links id hid, hobtains.created id hge hid]
            · exact hrest.created id (Nat.not_lt.mp hid) hlt }

theorem getOrCreateProjectUpdate_eq {project : Option ProjectId} :
    manager.getOrCreateProjectUpdate store instant project =
      resolveAll instant (store, []) (manager.projectKeys project) := by
  cases project with
  | none => rfl
  | some project =>
    simp only [DependencyManager.getOrCreateProjectUpdate,
      DependencyManager.projectKeys]
    split
    · simp only [resolveAll, List.foldlM_cons, List.foldlM_nil, List.nil_append]
      cases store.getOrCreateUpdate instant (.project project) <;> rfl
    · rfl

theorem foldlM_sources_eq {alreadyUpdated sources : List InventorySourceId}
    {acc : Store × List TaskId} :
    sources.foldlM (fun acc source =>
      if source ∈ alreadyUpdated then .ok acc
      else
        (acc.1.getOrCreateUpdate instant (.inventorySource source)).map fun result =>
          (result.1, acc.2 ++ [result.2])) acc =
      resolveAll instant acc
        ((sources.filter (· ∉ alreadyUpdated)).map .inventorySource) := by
  induction sources generalizing acc with
  | nil => rfl
  | cons source sources ih =>
    rw [List.foldlM_cons]
    by_cases hdone : source ∈ alreadyUpdated
    · simp only [hdone, if_true, not_true_eq_false, decide_false, Bool.false_eq_true,
        not_false_eq_true, List.filter_cons_of_neg]
      exact ih
    · simp only [hdone, if_false, not_false_eq_true, decide_true,
        List.filter_cons_of_pos, List.map_cons]
      rw [resolveAll, List.foldlM_cons]
      congr 1
      funext middle
      exact ih

theorem jobDeps_eq : manager.jobDeps store instant task =
    resolveAll instant (store, []) (manager.keysOf store task) := by
  unfold DependencyManager.jobDeps DependencyManager.keysOf
  split
  · rename_i project inventory alreadyUpdated hkind
    simp only [hkind, DependencyManager.genDepForJob, DependencyManager.updateKeys,
      getOrCreateProjectUpdate_eq, foldlM_sources_eq]
    rw [resolveAll, resolveAll, List.foldlM_append]
    rfl
  · rename_i inventorySource sourceIsScm hkind
    rw [hkind]
    cases sourceIsScm with
    | false =>
      cases inventorySource <;> rfl
    | true =>
      cases inventorySource with
      | none => rfl
      | some source => exact getOrCreateProjectUpdate_eq
  · rename_i hjob hupdate
    cases hkind : (store.tasks task).kind with
    | job project inventory alreadyUpdated => exact absurd hkind (hjob _ _ _)
    | inventoryUpdate inventorySource sourceIsScm => exact absurd hkind (hupdate _ _)
    | projectUpdate project jobTypeIsCheck => rfl
    | adHocCommand => rfl
    | systemJob => rfl
    | workflowJob => rfl
    | workflowApproval => rfl

theorem addDependentJobs_ok {dependencies : List TaskId}
    (hok : store.addDependentJobs task dependencies = .ok store') :
    store'.tables = store.tables ∧ store'.next = store.next ∧
      store'.tasks = Function.update store.tasks task
        { store.tasks task with
          dependentJobs := (store.tasks task).dependentJobs ++ dependencies } := by
  unfold Store.addDependentJobs at hok
  split at hok
  · obtain rfl := Except.ok.inj hok
    exact ⟨rfl, rfl, rfl⟩
  · cases hok

theorem addDependentJobs_extends {dependencies : List TaskId}
    (hok : store.addDependentJobs task dependencies = .ok store') :
    Extends instant store store' := by
  obtain ⟨htables, hnext, htasks⟩ := addDependentJobs_ok hok
  have hframe : ∀ id, store'.tasks id =
      { store.tasks id with dependentJobs := (store'.tasks id).dependentJobs } := by
    intro id
    by_cases hid : id = task
    · rw [htasks, hid, Function.update_self]
    · rw [htasks, Function.update_of_ne hid]
  exact
    { tables := htables
      next_le := hnext.ge
      frame := fun id _ => hframe id
      current := fun key update hcurrent =>
        { latest := by
            rw [Store.latestUpdate_congr hnext fun id _ => by rw [hframe],
              hcurrent.latest]
          good := by
            rw [hframe, htables]
            exact hcurrent.good }
      created := fun id hge hlt => absurd (hnext ▸ hlt) (Nat.not_lt.mpr hge) }

structure Links (manager : DependencyManager) (instant : Instant)
    (store store' : Store) (old new : List TaskId) (task : TaskId) : Prop where
  extends_ : Extends instant store store'
  current : ∀ key ∈ manager.keysOf store task,
    ∃ update, Current instant store' key update
  mem_iff : ∀ update, update ∈ new ↔ update ∈ old ∨
    ∃ key ∈ manager.keysOf store task, store'.latestUpdate key = some update
  links_iff : ∀ id < store.next, ∀ update,
    update ∈ (store'.tasks id).dependentJobs ↔
      update ∈ (store.tasks id).dependentJobs ∨
        (id = task ∧ manager.keysOf store task ≠ [] ∧ update ∈ new)
  created : ∀ id, store.next ≤ id → id < store'.next →
    (store'.tasks id).dependentJobs = []

theorem linkTask_links {old new : List TaskId} (htask : task < store.next)
    (hok : manager.linkTask instant (store, old) task = .ok (store', new)) :
    Links manager instant store store' old new task := by
  rw [DependencyManager.linkTask, jobDeps_eq] at hok
  cases hdeps : resolveAll instant (store, []) (manager.keysOf store task) with
  | error error =>
    rw [hdeps] at hok
    cases hok
  | ok result =>
    obtain ⟨middle, jobDeps⟩ := result
    rw [hdeps] at hok
    have hobtains := resolveAll_obtains hdeps
    have hnil : jobDeps = [] ↔ manager.keysOf store task = [] := by
      simp only [List.eq_nil_iff_forall_not_mem, hobtains.mem_iff]
      constructor
      · intro hnone key hkey
        obtain ⟨update, hcurrent⟩ := hobtains.current key hkey
        exact hnone update (Or.inr ⟨key, hkey, hcurrent.latest⟩)
      · intro hnone update hupdate
        cases hupdate with
        | inl hold => cases hold
        | inr hnew =>
          obtain ⟨key, hkey, -⟩ := hnew
          exact hnone key hkey
    by_cases hempty : jobDeps = []
    · simp only [bind, Except.bind, hempty, if_true, Except.ok.injEq,
        Prod.mk.injEq] at hok
      obtain ⟨rfl, rfl⟩ := hok
      have hkeys := hnil.mp hempty
      exact
        { extends_ := hobtains.extends_
          current := hobtains.current
          mem_iff := by simp [hkeys]
          links_iff := by
            intro id hid update
            rw [hobtains.links id hid]
            simp [hkeys]
          created := hobtains.created }
    · simp only [bind, Except.bind, hempty, if_false] at hok
      cases hadd : middle.addDependentJobs task (old ++ jobDeps) with
      | error error =>
        rw [hadd] at hok
        cases hok
      | ok linked =>
        rw [hadd] at hok
        simp only [Except.ok.injEq, Prod.mk.injEq] at hok
        obtain ⟨rfl, rfl⟩ := hok
        have hlinked : Extends instant middle linked := addDependentJobs_extends hadd
        obtain ⟨-, hnext, htasks⟩ := addDependentJobs_ok hadd
        have hkeys : manager.keysOf store task ≠ [] := fun hkeys => hempty (hnil.mpr hkeys)
        exact
          { extends_ := hobtains.extends_.trans hlinked
            current := by
              intro key hkey
              obtain ⟨update, hcurrent⟩ := hobtains.current key hkey
              exact ⟨update, hlinked.current key update hcurrent⟩
            mem_iff := by
              intro update
              rw [List.mem_append, hobtains.mem_iff]
              refine or_congr_right ?_
              simp only [List.not_mem_nil, false_or]
              exact hlinked.latest_iff hobtains.current update
            links_iff := by
              intro id hid update
              rw [htasks]
              by_cases hself : id = task
              · subst hself
                rw [Function.update_self, List.mem_append, hobtains.links id hid]
                simp [hkeys]
              · rw [Function.update_of_ne hself, hobtains.links id hid]
                simp [hself]
            created := by
              intro id hge hlt
              rw [hnext] at hlt
              rw [htasks, Function.update_of_ne (htask.trans_le hge).ne',
                hobtains.created id hge hlt] }

/-! ## The whole batch -/

structure BatchLinks (manager : DependencyManager) (instant : Instant)
    (store store' : Store) (old new : List TaskId) (batch : List TaskId) : Prop where
  extends_ : Extends instant store store'
  current : ∀ task ∈ batch, ∀ key ∈ manager.keysOf store task,
    ∃ update, Current instant store' key update
  mem_iff : ∀ update, update ∈ new ↔ update ∈ old ∨ ∃ task ∈ batch,
    ∃ key ∈ manager.keysOf store task, store'.latestUpdate key = some update
  links_iff : ∀ id < store.next, ∀ update,
    update ∈ (store'.tasks id).dependentJobs ↔
      update ∈ (store.tasks id).dependentJobs ∨
        ∃ earlier later, batch = earlier ++ id :: later ∧
          manager.keysOf store id ≠ [] ∧
          (update ∈ old ∨ ∃ task ∈ earlier ++ [id],
            ∃ key ∈ manager.keysOf store task, store'.latestUpdate key = some update)
  created : ∀ id, store.next ≤ id → id < store'.next →
    (store'.tasks id).dependentJobs = []

theorem mem_of_split {earlier later batch : List TaskId} {id : TaskId}
    (hsplit : batch = earlier ++ id :: later) (htask : task ∈ earlier ++ [id]) :
    task ∈ batch := by
  rw [hsplit, List.append_cons]
  exact List.mem_append_left _ htask

theorem exists_split_cons {head id : TaskId} {batch : List TaskId}
    {before : List TaskId → Prop} :
    (∃ earlier later, head :: batch = earlier ++ id :: later ∧ before earlier) ↔
      id = head ∧ before [] ∨
        ∃ earlier later, batch = earlier ++ id :: later ∧ before (head :: earlier) := by
  constructor
  · rintro ⟨earlier, later, hsplit, hbefore⟩
    cases earlier with
    | nil =>
      obtain ⟨rfl, -⟩ := List.cons.inj hsplit
      exact Or.inl ⟨rfl, hbefore⟩
    | cons first earlier =>
      obtain ⟨rfl, hrest⟩ := List.cons.inj hsplit
      exact Or.inr ⟨earlier, later, hrest, hbefore⟩
  · rintro (⟨rfl, hbefore⟩ | ⟨earlier, later, rfl, hbefore⟩)
    · exact ⟨[], batch, rfl, hbefore⟩
    · exact ⟨head :: earlier, later, rfl, hbefore⟩

theorem BatchLinks.nil {old : List TaskId} :
    BatchLinks manager instant store store old old [] where
  extends_ := .refl
  current := by simp
  mem_iff := by simp
  links_iff := by simp
  created _ hge hlt := absurd hlt (Nat.not_lt.mpr hge)

theorem BatchLinks.cons {middle : Store} {head : TaskId}
    {batch old dependencies new : List TaskId} (hbatch : ∀ task ∈ batch, task < store.next)
    (hlinks : Links manager instant store middle old dependencies head)
    (hrest : BatchLinks manager instant middle store' dependencies new batch) :
    BatchLinks manager instant store store' old new (head :: batch) := by
  have hkeys : ∀ task ∈ batch, manager.keysOf middle task = manager.keysOf store task :=
    fun task htask => hlinks.extends_.keysOf (hbatch task htask)
  have hkeyed : ∀ (tasks : List TaskId), (∀ task ∈ tasks, task ∈ batch) → ∀ update,
      (∃ task ∈ tasks, ∃ key ∈ manager.keysOf middle task,
          store'.latestUpdate key = some update) ↔
        ∃ task ∈ tasks, ∃ key ∈ manager.keysOf store task,
          store'.latestUpdate key = some update := by
    intro tasks htasks update
    refine exists_congr fun task => and_congr_right fun htask => ?_
    rw [hkeys task (htasks task htask)]
  have hdependencies : ∀ update, update ∈ dependencies ↔ update ∈ old ∨
      ∃ key ∈ manager.keysOf store head, store'.latestUpdate key = some update := by
    intro update
    rw [hlinks.mem_iff, hrest.extends_.latest_iff hlinks.current]
  refine
    { extends_ := hlinks.extends_.trans hrest.extends_
      current := ?_
      mem_iff := ?_
      links_iff := ?_
      created := ?_ }
  · intro task htask key hkey
    cases List.mem_cons.mp htask with
    | inl hhead =>
      obtain ⟨update, hcurrent⟩ := hlinks.current key (hhead ▸ hkey)
      exact ⟨update, hrest.extends_.current key update hcurrent⟩
    | inr htail =>
      rw [← hkeys task htail] at hkey
      exact hrest.current task htail key hkey
  · intro update
    rw [hrest.mem_iff, hkeyed batch (fun _ h => h), hdependencies, or_assoc]
    simp only [List.mem_cons, exists_eq_or_imp]
  · intro id hid update
    rw [hrest.links_iff id (hid.trans_le hlinks.extends_.next_le), hlinks.links_iff id hid,
      or_assoc]
    refine or_congr_right (Iff.trans (or_congr ?_ ?_) exists_split_cons.symm)
    · apply and_congr_right
      rintro rfl
      rw [hdependencies]
      simp
    · refine exists_congr fun earlier => exists_congr fun later => and_congr_right fun hsplit => ?_
      have hmem : ∀ task ∈ earlier ++ [id], task ∈ batch := fun _ => mem_of_split hsplit
      rw [hkeys id (hmem id (by simp)), hkeyed _ hmem, hdependencies, or_assoc]
      simp only [List.cons_append, List.mem_cons, exists_eq_or_imp]
  · intro id hge hlt
    by_cases hid : id < middle.next
    · rw [List.eq_nil_iff_forall_not_mem]
      intro update hupdate
      rw [hrest.links_iff id hid, hlinks.created id hge hid] at hupdate
      cases hupdate with
      | inl hold => exact absurd hold List.not_mem_nil
      | inr hnew =>
        obtain ⟨earlier, later, hsplit, -⟩ := hnew
        have hbefore := hbatch id (mem_of_split hsplit (by simp))
        exact absurd hbefore (Nat.not_lt.mpr hge)
    · exact hrest.created id (Nat.not_lt.mp hid) hlt

theorem foldlM_linkTask {batch old new : List TaskId}
    (hbatch : ∀ task ∈ batch, task < store.next)
    (hok : batch.foldlM (manager.linkTask instant) (store, old) = .ok (store', new)) :
    BatchLinks manager instant store store' old new batch := by
  induction batch generalizing store old with
  | nil =>
    obtain ⟨rfl, rfl⟩ := Prod.mk.inj (Except.ok.inj hok)
    exact .nil
  | cons head batch ih =>
    rw [List.foldlM_cons] at hok
    cases hfirst : manager.linkTask instant (store, old) head with
    | error error =>
      rw [hfirst] at hok
      cases hok
    | ok result =>
      obtain ⟨middle, dependencies⟩ := result
      rw [hfirst] at hok
      have hlinks := linkTask_links (hbatch head List.mem_cons_self) hfirst
      have hlt : ∀ task ∈ batch, task < store.next := fun task htask =>
        hbatch task (List.mem_cons_of_mem _ htask)
      have hrest := ih
        (fun task htask => (hlt task htask).trans_le hlinks.extends_.next_le) hok
      exact .cons hlt hlinks hrest

theorem latestUpdate_markProcessed {ids : List TaskId} :
    (store.markProcessed ids).latestUpdate key = store.latestUpdate key := by
  have hnext : (store.markProcessed ids).next = store.next := rfl
  apply Store.latestUpdate_congr hnext
  intro id _
  simp only [Store.markProcessed]
  split <;> rfl

theorem dependentJobs_markProcessed {ids : List TaskId} :
    ((store.markProcessed ids).tasks task).dependentJobs =
      (store.tasks task).dependentJobs := by
  simp only [Store.markProcessed]
  split <;> rfl

theorem generateDependencies_ok {undepedTasks : List TaskId}
    {manager' : DependencyManager} {deps : List (TaskId × Task)}
    (hok : manager.generateDependencies store instant undepedTasks =
      .ok (manager', store', deps)) :
    manager' = manager.cacheProjectsAndSources store undepedTasks ∧
      ∃ linked dependencies,
        undepedTasks.foldlM (manager'.linkTask instant) (store, []) =
          .ok (linked, dependencies) ∧
        store' = linked.markProcessed undepedTasks ∧
        deps = dependencies.map fun dep => (dep, linked.tasks dep) := by
  simp only [DependencyManager.generateDependencies] at hok
  cases hloop : undepedTasks.foldlM
      ((manager.cacheProjectsAndSources store undepedTasks).linkTask instant)
      (store, []) with
  | error error =>
    rw [hloop] at hok
    cases hok
  | ok result =>
    obtain ⟨linked, dependencies⟩ := result
    rw [hloop] at hok
    obtain ⟨rfl, htail⟩ := Prod.mk.inj (Except.ok.inj hok)
    obtain ⟨rfl, rfl⟩ := Prod.mk.inj htail
    exact ⟨rfl, linked, dependencies, hloop, rfl, rfl⟩

/-! ## Links of its own -/

/-- A link that the task had before the call, or the update of one of its keys. -/
def OwnLink (manager : DependencyManager) (store store' : Store)
    (task update : TaskId) : Prop :=
  update ∈ (store.tasks task).dependentJobs ∨
    ∃ key ∈ manager.keysOf store task, store'.latestUpdate key = some update

/-- The call linked the task to the updates of its own keys and to no other. -/
def GainsOwn (manager : DependencyManager) (store store' : Store)
    (task : TaskId) : Prop :=
  ∀ update, update ∈ (store'.tasks task).dependentJobs ↔
    OwnLink manager store store' task update

/-- Whatever was obtained before a task that has keys is for a key of that task
too, or a current update to which the task is already linked. -/
def KeysShared (manager : DependencyManager) (instant : Instant) (store : Store)
    (undepedTasks : List TaskId) : Prop :=
  ∀ earlier task later, undepedTasks = earlier ++ task :: later →
    manager.keysOf store task ≠ [] →
    ∀ other ∈ earlier, ∀ key ∈ manager.keysOf store other,
      key ∈ manager.keysOf store task ∨
        ∃ update ∈ (store.tasks task).dependentJobs, Current instant store key update

/-- The task fails or is canceled because the update did not succeed. -/
def FailsWith (store : Store) (task update : TaskId) : Prop :=
  processJobDepFailures store task = some update ∨
    task ∈ getJobsFailChain store update

theorem FailsWith.linked (hfails : FailsWith store task update)
    (hjob : (store.tasks task).kind.isInventoryUpdate = false) :
    ∃ dep ∈ (store.tasks task).dependentJobs,
      dep = update ∨ update ∈ (store.tasks dep).dependentJobs := by
  have hblocked : ∀ {job dep : TaskId}, job ∈ store.blockedJobs dep →
      dep ∈ (store.tasks job).dependentJobs := by
    intro job dep hmem
    simpa using (List.mem_filter.mp hmem).2
  cases hfails with
  | inl hfailed => exact ⟨update, List.mem_of_find?_eq_some hfailed, Or.inl rfl⟩
  | inr hchain =>
    unfold getJobsFailChain at hchain
    split at hchain
    · cases List.mem_append.mp hchain with
      | inl hdirect => exact ⟨update, hblocked hdirect, Or.inl rfl⟩
      | inr hindirect =>
        obtain ⟨middle, hmiddle, htask⟩ := List.mem_flatMap.mp hindirect
        exact ⟨middle, hblocked htask, Or.inr (hblocked hmiddle)⟩
    · cases List.mem_append.mp hchain with
      | inl hdirect => exact ⟨update, hblocked hdirect, Or.inl rfl⟩
      | inr hother =>
        split at hother
        · exact absurd hother List.not_mem_nil
        · simp [hjob] at hother
    · exact absurd hchain List.not_mem_nil

theorem gainsOwn_markProcessed {linked : Store} {tasks : List TaskId} :
    GainsOwn manager store (linked.markProcessed tasks) task ↔
      GainsOwn manager store linked task := by
  simp only [GainsOwn, OwnLink, dependentJobs_markProcessed, latestUpdate_markProcessed]

theorem BatchLinks.keysShared {batch new : List TaskId}
    (hlinks : BatchLinks manager instant store store' [] new batch)
    (hbatch : ∀ task ∈ batch, task < store.next)
    (hgains : ∀ task ∈ batch, GainsOwn manager store store' task) :
    KeysShared manager instant store batch := by
  intro earlier task later hsplit hne other hother key hkey
  have hmember : ∀ x ∈ earlier ++ [task], x ∈ batch := fun _ => mem_of_split hsplit
  have htask : task ∈ batch := hmember task (by simp)
  obtain ⟨update, hcurrent⟩ := hlinks.current other
    (hmember other (List.mem_append_left _ hother)) key hkey
  have hlinked : update ∈ (store'.tasks task).dependentJobs := by
    rw [hlinks.links_iff task (hbatch task htask)]
    exact Or.inr ⟨earlier, later, hsplit, hne,
      Or.inr ⟨other, List.mem_append_left _ hother, key, hkey, hcurrent.latest⟩⟩
  rw [hgains task htask update] at hlinked
  cases hlinked with
  | inl hold =>
    exact Or.inr ⟨update, hold, hcurrent.of_lt hlinks.extends_
      (store.dependentJobs_lt task update hold)⟩
  | inr hown =>
    obtain ⟨own, hownKey, hownLatest⟩ := hown
    exact Or.inl (Store.key_unique hcurrent.latest hownLatest ▸ hownKey)

theorem BatchLinks.gainsOwn {batch new : List TaskId}
    (hlinks : BatchLinks manager instant store store' [] new batch)
    (hbatch : ∀ task ∈ batch, task < store.next)
    (hshared : KeysShared manager instant store batch) (htask : task ∈ batch) :
    GainsOwn manager store store' task := by
  intro update
  rw [hlinks.links_iff task (hbatch task htask)]
  constructor
  · intro hlinked
    cases hlinked with
    | inl hold => exact Or.inl hold
    | inr hnew =>
      obtain ⟨earlier, later, hsplit, hne, hnil | hupdate⟩ := hnew
      · exact absurd hnil List.not_mem_nil
      · obtain ⟨other, hother, key, hkey, hupdate⟩ := hupdate
        cases List.mem_append.mp hother with
        | inr hself =>
          rw [List.mem_singleton.mp hself] at hkey
          exact Or.inr ⟨key, hkey, hupdate⟩
        | inl hearlier =>
          cases hshared earlier task later hsplit hne other hearlier key hkey with
          | inl hown => exact Or.inr ⟨key, hown, hupdate⟩
          | inr hlinked =>
            obtain ⟨old, hold, hcurrent⟩ := hlinked
            have hstill := (hlinks.extends_.current key old hcurrent).latest
            have hsame : old = update := Option.some.inj (hstill.symm.trans hupdate)
            exact Or.inl (hsame ▸ hold)
  · intro hown
    cases hown with
    | inl hold => exact Or.inl hold
    | inr hnew =>
      obtain ⟨key, hkey, hupdate⟩ := hnew
      obtain ⟨earlier, later, hsplit⟩ := List.append_of_mem htask
      exact Or.inr ⟨earlier, later, hsplit, List.ne_nil_of_mem hkey,
        Or.inr ⟨task, by simp, key, hkey, hupdate⟩⟩

/-- In every call, the tasks of the batch are linked to the updates of their own
keys only exactly when the keys are shared.  Then an update takes along none
but the jobs that it was obtained for. -/
theorem gainsOwn_iff {undepedTasks : List TaskId} {manager' : DependencyManager}
    {deps : List (TaskId × Task)} (hrows : ∀ task ∈ undepedTasks, task < store.next)
    (hok : manager.generateDependencies store instant undepedTasks =
      .ok (manager', store', deps)) :
    ((∀ task ∈ undepedTasks, GainsOwn manager' store store' task) ↔
        KeysShared (manager.cacheProjectsAndSources store undepedTasks) instant store
          undepedTasks) ∧
      ((∀ task ∈ undepedTasks, GainsOwn manager' store store' task) →
        ∀ task ∈ undepedTasks, ∀ (later : Store) (update : TaskId),
          (later.tasks task).dependentJobs = (store'.tasks task).dependentJobs →
          (later.tasks task).kind.isInventoryUpdate = false →
          FailsWith later task update →
          ∃ dep, OwnLink manager' store store' task dep ∧
            (dep = update ∨ update ∈ (later.tasks dep).dependentJobs)) := by
  obtain ⟨hmanager, linked, dependencies, hloop, hstore, -⟩ := generateDependencies_ok hok
  rw [← hmanager]
  have hlinks := foldlM_linkTask hrows hloop
  refine ⟨⟨?_, ?_⟩, ?_⟩
  · intro hgains
    apply hlinks.keysShared hrows
    intro task htask
    exact gainsOwn_markProcessed.mp (hstore ▸ hgains task htask)
  · intro hshared task htask
    rw [hstore]
    exact gainsOwn_markProcessed.mpr (hlinks.gainsOwn hrows hshared htask)
  · intro hgains task htask later update hsame hjob hfails
    obtain ⟨dep, hdep, hcause⟩ := hfails.linked hjob
    rw [hsame, hgains task htask dep] at hdep
    exact ⟨dep, hdep, hcause⟩

def launchTables : Tables where
  project := fun _ => { scmUpdateOnLaunch := true, scmUpdateCacheTimeout := 0 }
  inventorySources := []
  inventorySource := fun _ =>
    { inventory := none
      updateOnLaunch := false
      updateCacheTimeout := 0
      sourceProject := none
      sourceIsScm := false }

def emptyStore (tables : Tables) : Store where
  tables := tables
  next := 0
  tasks := fun _ =>
    { kind := .systemJob
      status := .new
      finished := none
      launchTypeIsSync := false
      dependenciesProcessed := false
      dependentJobs := [] }
  dependentJobs_lt := by simp

def twoJobs (first second : ProjectId) : Store :=
  ((emptyStore launchTables).createTask (.job (some first) none []) .pending).createTask
    (.job (some second) none []) .pending

def startAll (now : ℕ) : Instant where
  now := now
  signalStart := fun _ => true

theorem gainsOwn_same_project :
    ∃ manager store' deps,
      DependencyManager.empty.generateDependencies (twoJobs 0 0) (startAll 0) [0, 1] =
        .ok (manager, store', deps) ∧
      ((∀ task ∈ [0, 1], GainsOwn manager (twoJobs 0 0) store' task) ↔
        KeysShared (DependencyManager.empty.cacheProjectsAndSources (twoJobs 0 0) [0, 1])
          (startAll 0) (twoJobs 0 0) [0, 1]) := by
  have hok : (DependencyManager.empty.generateDependencies (twoJobs 0 0) (startAll 0)
      [0, 1]).isOk = true := by decide
  cases hcall : DependencyManager.empty.generateDependencies (twoJobs 0 0) (startAll 0)
      [0, 1] with
  | error error =>
    rw [hcall] at hok
    cases hok
  | ok result =>
    exact ⟨result.1, result.2.1, result.2.2, rfl, (gainsOwn_iff (by decide) hcall).1⟩

theorem linked_to_other_project :
    ¬ ∀ (manager manager' : DependencyManager) (store store' : Store)
      (instant : Instant) (undepedTasks : List TaskId) (deps : List (TaskId × Task)),
      (∀ task ∈ undepedTasks, task < store.next) →
      manager.generateDependencies store instant undepedTasks =
        .ok (manager', store', deps) →
      ∀ task ∈ undepedTasks, GainsOwn manager' store store' task := by
  intro hclaim
  have hlinked : (DependencyManager.empty.generateDependencies (twoJobs 0 1) (startAll 0)
      [0, 1]).toOption.any (fun result =>
        decide (2 ∈ (result.2.1.tasks 1).dependentJobs) &&
          decide ((result.1.keysOf (twoJobs 0 1) 1) = [.project 1]) &&
          decide (result.2.1.latestUpdate (.project 1) = some 3)) = true := by decide
  cases hcall : DependencyManager.empty.generateDependencies (twoJobs 0 1) (startAll 0)
      [0, 1] with
  | error error =>
    rw [hcall] at hlinked
    cases hlinked
  | ok result =>
    rw [hcall] at hlinked
    simp only [Except.toOption, Option.any_some, Bool.and_eq_true,
      decide_eq_true_eq] at hlinked
    obtain ⟨⟨hmem, hkeys⟩, hlatest⟩ := hlinked
    have hown := (hclaim _ _ _ _ _ _ _ (by decide) hcall 1 (by decide) 2).mp hmem
    cases hown with
    | inl hold => exact absurd hold (by decide)
    | inr hnew =>
      obtain ⟨key, hkey, hupdate⟩ := hnew
      rw [hkeys, List.mem_singleton] at hkey
      rw [hkey, hlatest] at hupdate
      cases hupdate

end Forail.Dependencies
