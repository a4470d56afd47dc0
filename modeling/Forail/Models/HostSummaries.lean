import Forail.Core.Batches
import Forail.Core.Grouping

/-!
# Host results of a job

The stats event at the end of a playbook gives each of its hosts a summary, marks the hosts of
the inventory with the job and counts the automation of the host names.
-/

namespace Forail.HostSummaries

open Forail.Batches Forail.Grouping

inductive Stat where
  | changed
  | dark
  | failures
  | ignored
  | ok
  | processed
  | rescued
  | skipped
  deriving DecidableEq, Repr

/-- `event_data`: the counts of the hosts under each statistic, unless what is there is no
dictionary.  A statistic that is missing is empty. -/
abbrev EventData := Stat → Option (Dict String ℕ)

/-- The ids of the hosts of an inventory by their names when the job started. -/
structure HostMap where
  ids : Dict String ℕ
  injective : ∀ name other id, ids.lookup name = some id → ids.lookup other = some id →
    name = other

def hostnameStats : List Stat := [.changed, .dark, .failures, .ok, .processed, .skipped]

/-- The names under some statistics, up to the first one that is no dictionary. -/
def namesUnder (data : EventData) : List Stat → List String
  | [] => []
  | stat :: stats =>
      match data stat with
      | some counts => counts.keys ++ namesUnder data stats
      | none => []

/-- A stats event with the set that `_hostnames` makes of it, in the order in which the set is
iterated. -/
structure StatsEvent where
  data : EventData
  hostMap : HostMap
  hostnames : List String
  nodup : hostnames.Nodup
  mem_hostnames : ∀ name, name ∈ hostnames ↔ name ∈ namesUnder data hostnameStats

/-- A host of a constructed inventory has the id of another host as its `instance_id`. -/
structure Host where
  id : ℕ
  name : String
  inventory : ℕ
  instanceId : ℕ
  lastJob : Option ℕ
  lastJobHostSummary : Option ℕ
  deriving DecidableEq, Repr

structure JobHostSummary where
  id : ℕ
  job : ℕ
  host : Option ℕ
  constructedHost : Option ℕ
  hostName : String
  counts : Stat → ℕ
  failed : Bool
  created : ℕ

structure HostMetric where
  firstAutomation : ℕ
  lastAutomation : ℕ
  automatedCounter : ℕ
  deleted : Bool
  deriving DecidableEq, Repr

/-- The tables that an event is written to.  Metrics are unique for a host name. -/
structure Database where
  hosts : List Host
  nodup : (hosts.map Host.id).Nodup
  summaries : List JobHostSummary
  nextSummaryId : ℕ
  metrics : String → Option HostMetric

structure Inventory where
  id : ℕ
  constructed : Bool

structure Job where
  id : ℕ
  inventory : Option Inventory

inductive DatabaseError where
  | integrityError
  deriving DecidableEq, Repr

/-! ## Counting the automation of host names -/

section Metrics

variable (time : ℕ)

def createMetrics (names : List String) (metrics : String → Option HostMetric) :
    String → Option HostMetric := fun name =>
  match metrics name with
  | some metric => some metric
  | none => if name ∈ names then some ⟨time, time, 0, false⟩ else none

/-- The update of the rows with one of the names, each of which is updated once. -/
def countAutomation (names : List String) (metrics : String → Option HostMetric) :
    String → Option HostMetric := fun name =>
  (metrics name).map fun metric =>
    if name ∈ names then
      { metric with
        lastAutomation := time
        automatedCounter := metric.automatedCounter + 1
        deleted := false }
    else metric

def updateHostMetrics (updatedHosts : List String) (metrics : String → Option HostMetric) :
    String → Option HostMetric :=
  (batches updatedHosts).foldl (fun metrics hosts =>
    countAutomation time hosts (createMetrics time hosts metrics)) metrics

end Metrics

/-! ## Recording the results -/

section Recording

variable (db : Database) (job : Job) (inventory : Inventory) (event : StatsEvent)

def Database.hasHost (id : ℕ) : Bool := db.hosts.any fun host => decide (host.id = id)

/-- The ids of the hosts that are fetched: those that the hosts of a constructed inventory stand
for, and otherwise those of the host map. -/
def fetchedIds : List ℕ :=
  if inventory.constructed then
    (db.hosts.filter fun host => host.inventory = inventory.id).map Host.instanceId
  else event.hostMap.ids.entries.map Sigma.snd

def allHosts : List Host :=
  db.hosts.filter fun host => host.id ∈ fetchedIds db inventory event

def hostMap : Dict String ℕ :=
  if inventory.constructed then
    assignAll Host.name (fun host => some host.id) (allHosts db inventory event) ∅
  else event.hostMap.ids

def constructedHostMap : Dict String ℕ :=
  if inventory.constructed then event.hostMap.ids else ∅

def existingHostIds : List ℕ := (allHosts db inventory event).map Host.id

/-- The count of a host under a statistic, or the default when there is no dictionary. -/
def EventData.count (data : EventData) (stat : Stat) (host : String) : ℕ :=
  match data stat with
  | some counts => (counts.lookup host).getD 0
  | none => 0

def summaryOf (time : ℕ) (host : String) (id : ℕ) : JobHostSummary where
  id := id
  job := job.id
  host := ((hostMap db inventory event).lookup host).filter fun id =>
    decide (id ∈ existingHostIds db inventory event)
  constructedHost := (constructedHostMap inventory event).lookup host
  hostName := host
  counts := fun stat => event.data.count stat host
  failed := decide (event.data.count .dark host ≠ 0 ∨ event.data.count .failures host ≠ 0)
  created := time

def newSummaries (time : ℕ) : List JobHostSummary :=
  (event.hostnames.zipIdx db.nextSummaryId).map fun entry =>
    summaryOf db job inventory event time entry.1 entry.2

/-- `bulk_create`, which fails when a constructed host is gone. -/
def bulkCreate (summaries : List JobHostSummary) : Except DatabaseError Database :=
  if summaries.all fun summary => summary.constructedHost.all db.hasHost then
    .ok { db with
      summaries := db.summaries ++ summaries
      nextSummaryId := db.nextSummaryId + summaries.length }
  else .error .integrityError

def hostMapping : Dict (Option ℕ) ℕ :=
  assignAll JobHostSummary.host (fun summary => some summary.id)
    (db.summaries.filter fun summary => summary.job = job.id) ∅

def updateHost (mapping : Dict (Option ℕ) ℕ) (host : Host) : Host :=
  { host with
    lastJob := if host.name ∈ event.hostnames then some job.id else host.lastJob
    lastJobHostSummary := (mapping.lookup (some host.id)).or host.lastJobHostSummary }

theorem map_id_updateHost (fetched : List ℕ) (mapping : Dict (Option ℕ) ℕ) (hosts : List Host) :
    (hosts.map fun host =>
      if host.id ∈ fetched then updateHost job event mapping host else host).map Host.id =
        hosts.map Host.id := by
  rw [List.map_map]
  refine List.map_congr_left fun host _ => ?_
  rw [Function.comp_apply]
  split
  · rfl
  · rfl

def updateHosts (fetched : List ℕ) (mapping : Dict (Option ℕ) ℕ) : Database :=
  { db with
    hosts := db.hosts.map fun host =>
      if host.id ∈ fetched then updateHost job event mapping host else host
    nodup := (map_id_updateHost job event fetched mapping db.hosts).symm ▸ db.nodup }

def updateHostSummaryFromStats (lower : String → String) (time : ℕ) :
    Except DatabaseError Database :=
  match job.inventory with
  | none => .ok db
  | some inventory => do
      let created ← bulkCreate db (newSummaries db job inventory event time)
      let updated := updateHosts created job event (existingHostIds db inventory event)
        (hostMapping created job)
      return { updated with
        metrics := updateHostMetrics time (event.hostnames.map lower) updated.metrics }

end Recording

def EventData.Names (data : EventData) (name : String) : Prop :=
  ∃ stat counts, data stat = some counts ∧ name ∈ counts

def Database.counter (db : Database) (name : String) : ℕ :=
  (db.metrics name).elim 0 HostMetric.automatedCounter

/-- The results of an event are recorded: each of its host names has one summary with its counts
and its host, the hosts of the summaries are marked with them and no others, and each lower case
name is counted once. -/
structure Recorded (lower : String → String) (db after : Database) (job : Job)
    (inventory : Inventory) (event : StatsEvent) : Prop where
  unique : ((after.summaries.filter fun summary => summary.job = job.id).map
    JobHostSummary.hostName).Nodup
  names : ∀ name, (∃ summary ∈ after.summaries, summary.job = job.id ∧ summary.hostName = name) ↔
    event.data.Names name
  counts : ∀ summary ∈ after.summaries, summary.job = job.id → ∀ stat,
    summary.counts stat = event.data.count stat summary.hostName
  linked : ∀ summary ∈ after.summaries, summary.job = job.id →
    summary.host = ((hostMap db inventory event).lookup summary.hostName).filter db.hasHost
  hosts : List.Forall₂ (fun host marked =>
    (∀ summary ∈ after.summaries, summary.job = job.id → summary.host = some host.id →
      marked = { host with lastJob := some job.id, lastJobHostSummary := some summary.id }) ∧
    ((∀ summary ∈ after.summaries, summary.job = job.id → summary.host ≠ some host.id) →
      marked = host)) db.hosts after.hosts
  metrics : ∀ name, event.data.Names name →
    after.counter (lower name) = db.counter (lower name) + 1

structure Fresh (db : Database) (job : Job) : Prop where
  summaries : ∀ summary ∈ db.summaries, summary.job ≠ job.id
  hosts : ∀ host ∈ db.hosts, host.lastJob ≠ some job.id

/-- No host was renamed into or out of the names of the event, no constructed host of them is
gone, and names that differ in case only are counted in one batch. -/
structure Undisturbed (lower : String → String) (db : Database) (inventory : Inventory)
    (event : StatsEvent) : Prop where
  listed : ∀ name, event.data.Names name → name ∈ event.hostnames
  constructed : ∀ name ∈ event.hostnames, ∀ id,
    (constructedHostMap inventory event).lookup name = some id → db.hasHost id = true
  named : ∀ host ∈ allHosts db inventory event, host.name ∈ event.hostnames ↔
    ∃ name ∈ event.hostnames, (hostMap db inventory event).lookup name = some host.id
  batches : ∀ name ∈ event.hostnames,
    ((batches (event.hostnames.map lower)).filter fun batch => lower name ∈ batch).length = 1

variable {lower : String → String} {time : ℕ} {db : Database} {job : Job} {inventory : Inventory}
  {event : StatsEvent}

/-! ## Metrics -/

theorem counter_countAutomation (hosts : List String) (metrics : String → Option HostMetric)
    (name : String) :
    (countAutomation time hosts (createMetrics time hosts metrics) name).elim 0
        HostMetric.automatedCounter =
      (metrics name).elim 0 HostMetric.automatedCounter + if name ∈ hosts then 1 else 0 := by
  rw [countAutomation, createMetrics]
  by_cases hname : name ∈ hosts
  · simp only [if_pos hname]
    cases metrics name <;> rfl
  · simp only [if_neg hname]
    cases metrics name <;> rfl

theorem counter_updateHostMetrics (updatedHosts : List String)
    (metrics : String → Option HostMetric) (name : String) :
    (updateHostMetrics time updatedHosts metrics name).elim 0 HostMetric.automatedCounter =
      (metrics name).elim 0 HostMetric.automatedCounter +
        ((batches updatedHosts).filter fun batch => name ∈ batch).length := by
  rw [updateHostMetrics]
  induction batches updatedHosts generalizing metrics with
  | nil => rfl
  | cons batch rest ih =>
    rw [List.foldl_cons, ih, counter_countAutomation, List.filter_cons]
    by_cases hname : name ∈ batch
    · simp only [hname, decide_true, if_true, List.length_cons]
      omega
    · simp only [hname, decide_false, if_false, Bool.false_eq_true, Nat.add_zero]

/-! ## Summaries -/

theorem mem_namesUnder {data : EventData} {stats : List Stat} {name : String}
    (hname : name ∈ namesUnder data stats) : data.Names name := by
  induction stats with
  | nil => exact absurd hname List.not_mem_nil
  | cons stat stats ih =>
    rw [namesUnder] at hname
    cases hcounts : data stat with
    | none =>
      rw [hcounts] at hname
      exact absurd hname List.not_mem_nil
    | some counts =>
      rw [hcounts] at hname
      rcases List.mem_append.mp hname with hkey | hlater
      · exact ⟨stat, counts, hcounts, AList.mem_keys.mp hkey⟩
      · exact ih hlater

theorem map_hostName_newSummaries :
    (newSummaries db job inventory event time).map JobHostSummary.hostName = event.hostnames := by
  rw [newSummaries, List.map_map]
  exact List.zipIdx_map_fst db.nextSummaryId event.hostnames

theorem exists_of_mem_newSummaries {summary : JobHostSummary}
    (hsummary : summary ∈ newSummaries db job inventory event time) :
    ∃ name ∈ event.hostnames, ∃ id, summary = summaryOf db job inventory event time name id := by
  obtain ⟨entry, hentry, rfl⟩ := List.mem_map.mp hsummary
  exact ⟨entry.1, List.fst_mem_of_mem_zipIdx hentry, entry.2, rfl⟩

theorem exists_newSummary {name : String} (hname : name ∈ event.hostnames) :
    ∃ id, summaryOf db job inventory event time name id ∈
      newSummaries db job inventory event time := by
  rw [← @map_hostName_newSummaries time db job inventory event] at hname
  obtain ⟨summary, hsummary, rfl⟩ := List.mem_map.mp hname
  obtain ⟨name, -, id, rfl⟩ := exists_of_mem_newSummaries hsummary
  exact ⟨id, hsummary⟩

theorem summary_ext {summary other : JobHostSummary}
    (hsummary : summary ∈ newSummaries db job inventory event time)
    (hother : other ∈ newSummaries db job inventory event time)
    (hname : summary.hostName = other.hostName) : summary = other := by
  have hnodup : ((newSummaries db job inventory event time).map JobHostSummary.hostName).Nodup := by
    rw [map_hostName_newSummaries]
    exact event.nodup
  exact List.inj_on_of_nodup_map hnodup hsummary hother hname

/-! ## The hosts of summaries -/

theorem hasHost_iff {id : ℕ} : db.hasHost id = true ↔ ∃ host ∈ db.hosts, host.id = id := by
  rw [Database.hasHost, List.any_eq_true]
  exact exists_congr fun host => and_congr_right fun _ => decide_eq_true_iff

theorem mem_allHosts {host : Host} : host ∈ allHosts db inventory event ↔
    host ∈ db.hosts ∧ host.id ∈ fetchedIds db inventory event := by
  rw [allHosts, List.mem_filter, decide_eq_true_eq]

theorem host_ext {host other : Host} (hhost : host ∈ db.hosts) (hother : other ∈ db.hosts)
    (hid : host.id = other.id) : host = other :=
  List.inj_on_of_nodup_map db.nodup hhost hother hid

theorem mem_existingHostIds {host : Host} (hhost : host ∈ db.hosts) :
    host.id ∈ existingHostIds db inventory event ↔ host ∈ allHosts db inventory event := by
  rw [existingHostIds, List.mem_map]
  constructor
  · rintro ⟨other, hother, hid⟩
    exact host_ext (mem_allHosts.mp hother).1 hhost hid ▸ hother
  · exact fun hfetched => ⟨host, hfetched, rfl⟩

theorem lookup_hostMap_constructed (hconstructed : inventory.constructed = true) {name : String}
    {id : ℕ} (hlookup : (hostMap db inventory event).lookup name = some id) :
    ∃ host ∈ allHosts db inventory event, host.name = name ∧ host.id = id := by
  rw [hostMap, if_pos hconstructed, lookup_assignAll, AList.lookup_empty, Option.or_none] at hlookup
  obtain ⟨host, hhost, hvalue⟩ := exists_of_last hlookup
  by_cases hname : host.name = name
  · rw [if_pos hname] at hvalue
    exact ⟨host, hhost, hname, Option.some.inj hvalue⟩
  · rw [if_neg hname] at hvalue
    exact nomatch hvalue

theorem fetched_of_lookup {host : Host} (hhost : host ∈ db.hosts) {name : String}
    (hlookup : (hostMap db inventory event).lookup name = some host.id) :
    host ∈ allHosts db inventory event := by
  by_cases hconstructed : inventory.constructed = true
  · obtain ⟨other, hother, -, hid⟩ := lookup_hostMap_constructed hconstructed hlookup
    exact host_ext (mem_allHosts.mp hother).1 hhost hid ▸ hother
  · rw [hostMap, if_neg hconstructed] at hlookup
    rw [mem_allHosts, fetchedIds, if_neg hconstructed]
    exact ⟨hhost, mem_values.mpr ⟨name, hlookup⟩⟩

theorem hostMap_injective {name other : String} {id : ℕ}
    (hname : (hostMap db inventory event).lookup name = some id)
    (hother : (hostMap db inventory event).lookup other = some id) : name = other := by
  by_cases hconstructed : inventory.constructed = true
  · obtain ⟨host, hhost, rfl, hid⟩ := lookup_hostMap_constructed hconstructed hname
    obtain ⟨second, hsecond, rfl, hsame⟩ := lookup_hostMap_constructed hconstructed hother
    exact congrArg Host.name (host_ext (mem_allHosts.mp hhost).1 (mem_allHosts.mp hsecond).1
      (hid.trans hsame.symm))
  · rw [hostMap, if_neg hconstructed] at hname hother
    exact event.hostMap.injective name other id hname hother

theorem host_summaryOf (name : String) (id : ℕ) :
    (summaryOf db job inventory event time name id).host =
      ((hostMap db inventory event).lookup name).filter db.hasHost := by
  have hhost : (summaryOf db job inventory event time name id).host =
      ((hostMap db inventory event).lookup name).filter fun id =>
        decide (id ∈ existingHostIds db inventory event) := rfl
  rw [hhost]
  cases hlookup : (hostMap db inventory event).lookup name with
  | none => rfl
  | some found =>
    have hexists : decide (found ∈ existingHostIds db inventory event) = db.hasHost found := by
      rw [Bool.eq_iff_iff, decide_eq_true_iff, hasHost_iff]
      constructor
      · intro hexisting
        obtain ⟨host, hfetched, hid⟩ := List.mem_map.mp hexisting
        exact ⟨host, (mem_allHosts.mp hfetched).1, hid⟩
      · rintro ⟨host, hhost, rfl⟩
        exact (mem_existingHostIds hhost).mpr (fetched_of_lookup hhost hlookup)
    rw [Option.filter_some, Option.filter_some, hexists]

theorem host_summaryOf_eq_some {host : Host} (hhost : host ∈ db.hosts) {name : String} {id : ℕ} :
    (summaryOf db job inventory event time name id).host = some host.id ↔
      (hostMap db inventory event).lookup name = some host.id := by
  rw [host_summaryOf, Option.filter_eq_some_iff]
  exact and_iff_left (hasHost_iff.mpr ⟨host, hhost, rfl⟩)

def Linked (db : Database) (inventory : Inventory) (event : StatsEvent) (host : Host) : Prop :=
  ∃ name ∈ event.hostnames, (hostMap db inventory event).lookup name = some host.id

theorem linked_iff {host : Host} (hhost : host ∈ db.hosts) :
    Linked db inventory event host ↔
      ∃ summary ∈ newSummaries db job inventory event time, summary.host = some host.id := by
  constructor
  · rintro ⟨name, hname, hlookup⟩
    obtain ⟨id, hsummary⟩ := @exists_newSummary time db job inventory event name hname
    exact ⟨_, hsummary, (host_summaryOf_eq_some hhost).mpr hlookup⟩
  · rintro ⟨summary, hsummary, hlink⟩
    obtain ⟨name, hname, id, rfl⟩ := exists_of_mem_newSummaries hsummary
    exact ⟨name, hname, (host_summaryOf_eq_some hhost).mp hlink⟩

theorem summary_unique {host : Host} (hhost : host ∈ db.hosts) {summary other : JobHostSummary}
    (hsummary : summary ∈ newSummaries db job inventory event time)
    (hother : other ∈ newSummaries db job inventory event time)
    (hlink : summary.host = some host.id) (hsame : other.host = some host.id) :
    summary = other := by
  refine summary_ext hsummary hother ?_
  obtain ⟨name, -, id, rfl⟩ := exists_of_mem_newSummaries hsummary
  obtain ⟨second, -, id', rfl⟩ := exists_of_mem_newSummaries hother
  exact hostMap_injective ((host_summaryOf_eq_some hhost).mp hlink)
    ((host_summaryOf_eq_some hhost).mp hsame)

/-! ## The tables after an event -/

def createdSummaries (db : Database) (job : Job) (inventory : Inventory) (event : StatsEvent)
    (time : ℕ) : Database :=
  { db with
    summaries := db.summaries ++ newSummaries db job inventory event time
    nextSummaryId := db.nextSummaryId + (newSummaries db job inventory event time).length }

def recordedDatabase (lower : String → String) (db : Database) (job : Job) (inventory : Inventory)
    (event : StatsEvent) (time : ℕ) : Database :=
  { updateHosts (createdSummaries db job inventory event time) job event
      (existingHostIds db inventory event)
      (hostMapping (createdSummaries db job inventory event time) job) with
    metrics := updateHostMetrics time (event.hostnames.map lower) db.metrics }

theorem constructedHost_all_iff :
    ((newSummaries db job inventory event time).all fun summary =>
      summary.constructedHost.all db.hasHost) = true ↔
      ∀ name ∈ event.hostnames, ∀ id,
        (constructedHostMap inventory event).lookup name = some id → db.hasHost id = true := by
  rw [List.all_eq_true]
  constructor
  · intro hall name hname id hlookup
    obtain ⟨summaryId, hsummary⟩ := @exists_newSummary time db job inventory event name hname
    have hsome : (summaryOf db job inventory event time name summaryId).constructedHost =
        some id := hlookup
    have hthere := hall _ hsummary
    rwa [hsome, Option.all_some] at hthere
  · intro hgone summary hsummary
    obtain ⟨name, hname, id, rfl⟩ := exists_of_mem_newSummaries hsummary
    have hlookup : (summaryOf db job inventory event time name id).constructedHost =
        (constructedHostMap inventory event).lookup name := rfl
    rw [hlookup]
    cases hfound : (constructedHostMap inventory event).lookup name with
    | none => rfl
    | some found => exact hgone name hname found hfound

theorem updateHostSummaryFromStats_eq_ok (hinventory : job.inventory = some inventory)
    {after : Database} :
    updateHostSummaryFromStats db job event lower time = .ok after ↔
      (∀ name ∈ event.hostnames, ∀ id,
        (constructedHostMap inventory event).lookup name = some id → db.hasHost id = true) ∧
      after = recordedDatabase lower db job inventory event time := by
  have hupdate : updateHostSummaryFromStats db job event lower time =
      (bulkCreate db (newSummaries db job inventory event time)).map fun created =>
        { updateHosts created job event (existingHostIds db inventory event)
            (hostMapping created job) with
          metrics := updateHostMetrics time (event.hostnames.map lower) created.metrics } := by
    rw [updateHostSummaryFromStats, hinventory]
    rfl
  rw [hupdate, ← @constructedHost_all_iff time db job inventory event, bulkCreate]
  split
  · next hall =>
    rw [and_iff_right hall, Except.map, Except.ok.injEq]
    exact eq_comm
  · next hgone =>
    exact iff_of_false (fun herror => nomatch herror) fun hall => hgone hall.1

theorem filter_createdSummaries (hfresh : Fresh db job) :
    ((createdSummaries db job inventory event time).summaries.filter fun summary =>
      summary.job = job.id) = newSummaries db job inventory event time := by
  have hold : (db.summaries.filter fun summary => decide (summary.job = job.id)) = [] :=
    List.filter_eq_nil_iff.mpr fun summary hsummary =>
      mt of_decide_eq_true (hfresh.summaries summary hsummary)
  have hnew : ((newSummaries db job inventory event time).filter fun summary =>
      decide (summary.job = job.id)) = newSummaries db job inventory event time := by
    refine List.filter_eq_self.mpr fun summary hsummary => ?_
    obtain ⟨name, -, id, rfl⟩ := exists_of_mem_newSummaries hsummary
    exact decide_eq_true rfl
  rw [createdSummaries, List.filter_append, hold, hnew, List.nil_append]

theorem mem_summaries_of_job (hfresh : Fresh db job) {summary : JobHostSummary} :
    summary ∈ (recordedDatabase lower db job inventory event time).summaries ∧
        summary.job = job.id ↔
      summary ∈ newSummaries db job inventory event time := by
  rw [← filter_createdSummaries hfresh, List.mem_filter, decide_eq_true_eq]
  rfl

theorem lookup_hostMapping (hfresh : Fresh db job) (id : ℕ) :
    (hostMapping (createdSummaries db job inventory event time) job).lookup (some id) =
      last (fun summary : JobHostSummary =>
        if summary.host = some id then some summary.id else none)
        (newSummaries db job inventory event time) := by
  rw [hostMapping, filter_createdSummaries hfresh, lookup_assignAll, AList.lookup_empty,
    Option.or_none]

def marked (db : Database) (job : Job) (inventory : Inventory) (event : StatsEvent) (time : ℕ)
    (host : Host) : Host :=
  if host.id ∈ existingHostIds db inventory event then
    updateHost job event (hostMapping (createdSummaries db job inventory event time) job) host
  else host

def Marked (db : Database) (job : Job) (inventory : Inventory) (event : StatsEvent) (time : ℕ)
    (host : Host) : Prop :=
  (∀ summary ∈ newSummaries db job inventory event time, summary.host = some host.id →
    marked db job inventory event time host =
      { host with lastJob := some job.id, lastJobHostSummary := some summary.id }) ∧
  ((∀ summary ∈ newSummaries db job inventory event time, summary.host ≠ some host.id) →
    marked db job inventory event time host = host)

theorem marked_of_linked (hfresh : Fresh db job) {host : Host} (hhost : host ∈ db.hosts)
    {summary : JobHostSummary} (hsummary : summary ∈ newSummaries db job inventory event time)
    (hlink : summary.host = some host.id) :
    marked db job inventory event time host =
      { host with
        lastJob := if host.name ∈ event.hostnames then some job.id else host.lastJob
        lastJobHostSummary := some summary.id } := by
  obtain ⟨name, -, hlookup⟩ := (linked_iff hhost).mpr ⟨summary, hsummary, hlink⟩
  have hexisting := (mem_existingHostIds hhost).mpr (fetched_of_lookup hhost hlookup)
  have hlast : last (fun other : JobHostSummary =>
      if other.host = some host.id then some other.id else none)
        (newSummaries db job inventory event time) = some summary.id := by
    rw [last_of_unique hsummary fun other hother hne => ?_, if_pos hlink]
    exact if_neg fun hsame => hne (summary_unique hhost hother hsummary hsame hlink)
  rw [marked, if_pos hexisting, updateHost, lookup_hostMapping hfresh, hlast, Option.some_or]

theorem marked_of_unlinked (hfresh : Fresh db job) {host : Host}
    (hfetched : host.id ∈ existingHostIds db inventory event)
    (hunlinked : ∀ summary ∈ newSummaries db job inventory event time,
      summary.host ≠ some host.id) :
    marked db job inventory event time host =
      { host with
        lastJob := if host.name ∈ event.hostnames then some job.id else host.lastJob } := by
  have hlast : last (fun other : JobHostSummary =>
      if other.host = some host.id then some other.id else none)
        (newSummaries db job inventory event time) = none :=
    last_eq_none_iff.mpr fun summary hsummary => if_neg (hunlinked summary hsummary)
  rw [marked, if_pos hfetched, updateHost, lookup_hostMapping hfresh, hlast, Option.none_or]

/-- The two marks of a host agree if its name is one of the event exactly when a name of the
event is mapped to it. -/
theorem marked_iff (hfresh : Fresh db job) {host : Host} (hhost : host ∈ db.hosts) :
    Marked db job inventory event time host ↔
      (host ∈ allHosts db inventory event →
        (host.name ∈ event.hostnames ↔ Linked db inventory event host)) := by
  by_cases hlinked : Linked db inventory event host
  · obtain ⟨summary, hsummary, hlink⟩ :=
      (@linked_iff time db job inventory event host hhost).mp hlinked
    have hfetched : host ∈ allHosts db inventory event :=
      hlinked.elim fun name hname => fetched_of_lookup hhost hname.2
    rw [forall_prop_of_true hfetched, iff_true_right hlinked]
    constructor
    · intro hmarked
      have hjob := congrArg Host.lastJob ((marked_of_linked hfresh hhost hsummary hlink).symm.trans
        (hmarked.1 summary hsummary hlink))
      by_contra hname
      rw [if_neg hname] at hjob
      exact hfresh.hosts host hhost hjob
    · intro hname
      constructor
      · intro other hother hsame
        rw [marked_of_linked hfresh hhost hother hsame, if_pos hname]
      · exact fun hnone => absurd hlink (hnone summary hsummary)
  · have hunlinked : ∀ summary ∈ newSummaries db job inventory event time,
        summary.host ≠ some host.id := fun summary hsummary hlink =>
      hlinked ((linked_iff hhost).mpr ⟨summary, hsummary, hlink⟩)
    rw [iff_false_right hlinked]
    by_cases hfetched : host ∈ allHosts db inventory event
    · rw [forall_prop_of_true hfetched]
      have hmark := @marked_of_unlinked time db job inventory event hfresh host
        ((mem_existingHostIds hhost).mpr hfetched) hunlinked
      constructor
      · intro hmarked hname
        have hjob := congrArg Host.lastJob (hmark.symm.trans (hmarked.2 hunlinked))
        rw [if_pos hname] at hjob
        exact hfresh.hosts host hhost hjob.symm
      · intro hname
        rw [if_neg hname] at hmark
        exact ⟨fun other hother hsame => absurd hsame (hunlinked other hother), fun _ => hmark⟩
    · refine iff_of_true ?_ fun hthere => absurd hthere hfetched
      refine ⟨fun other hother hsame => absurd hsame (hunlinked other hother), fun _ => ?_⟩
      exact if_neg fun hexisting => hfetched ((mem_existingHostIds hhost).mp hexisting)

/-! ## Recorded results -/

theorem hosts_recordedDatabase :
    (recordedDatabase lower db job inventory event time).hosts =
      db.hosts.map (marked db job inventory event time) := rfl

theorem counter_recordedDatabase (name : String) :
    (recordedDatabase lower db job inventory event time).counter name =
      db.counter name +
        ((batches (event.hostnames.map lower)).filter fun batch => name ∈ batch).length :=
  counter_updateHostMetrics _ _ _

theorem exists_summary_iff (hfresh : Fresh db job) {name : String} :
    (∃ summary ∈ (recordedDatabase lower db job inventory event time).summaries,
      summary.job = job.id ∧ summary.hostName = name) ↔ name ∈ event.hostnames := by
  constructor
  · rintro ⟨summary, hsummary, hjob, rfl⟩
    obtain ⟨name, hname, id, rfl⟩ := exists_of_mem_newSummaries
      ((mem_summaries_of_job hfresh).mp ⟨hsummary, hjob⟩)
    exact hname
  · intro hname
    obtain ⟨id, hsummary⟩ := @exists_newSummary time db job inventory event name hname
    obtain ⟨hmem, hjob⟩ := (@mem_summaries_of_job lower time db job inventory event hfresh _).mpr
      hsummary
    exact ⟨_, hmem, hjob, rfl⟩

theorem forall_marked_iff (hfresh : Fresh db job) :
    (List.Forall₂ (fun host after =>
      (∀ summary ∈ (recordedDatabase lower db job inventory event time).summaries,
        summary.job = job.id → summary.host = some host.id →
          after = { host with lastJob := some job.id, lastJobHostSummary := some summary.id }) ∧
      ((∀ summary ∈ (recordedDatabase lower db job inventory event time).summaries,
        summary.job = job.id → summary.host ≠ some host.id) → after = host)) db.hosts
          (recordedDatabase lower db job inventory event time).hosts) ↔
      ∀ host ∈ allHosts db inventory event,
        (host.name ∈ event.hostnames ↔ Linked db inventory event host) := by
  have hsummaries (P : JobHostSummary → Prop) :
      (∀ summary ∈ (recordedDatabase lower db job inventory event time).summaries,
        summary.job = job.id → P summary) ↔
        ∀ summary ∈ newSummaries db job inventory event time, P summary := by
    simp only [← @mem_summaries_of_job lower time db job inventory event hfresh, and_imp]
  rw [hosts_recordedDatabase, List.forall₂_map_right_iff, List.forall₂_same]
  constructor
  · intro hall host hfetched
    have hhost := (mem_allHosts.mp hfetched).1
    obtain ⟨hlinked, hunlinked⟩ := hall host hhost
    rw [hsummaries] at hlinked hunlinked
    exact (marked_iff hfresh hhost).mp ⟨hlinked, hunlinked⟩ hfetched
  · intro hall host hhost
    rw [hsummaries, hsummaries]
    exact (marked_iff hfresh hhost).mpr (hall host)

theorem recorded_recordedDatabase_iff (hfresh : Fresh db job) :
    Recorded lower db (recordedDatabase lower db job inventory event time) job inventory event ↔
      (∀ name, event.data.Names name → name ∈ event.hostnames) ∧
      (∀ host ∈ allHosts db inventory event,
        (host.name ∈ event.hostnames ↔ Linked db inventory event host)) ∧
      ∀ name ∈ event.hostnames,
        ((batches (event.hostnames.map lower)).filter fun batch => lower name ∈ batch).length =
          1 := by
  have hnames (name : String) (hname : name ∈ event.hostnames) : event.data.Names name :=
    mem_namesUnder ((event.mem_hostnames name).mp hname)
  constructor
  · intro hrecorded
    refine ⟨fun name hname => ?_, (forall_marked_iff hfresh).mp hrecorded.hosts,
      fun name hname => ?_⟩
    · exact (exists_summary_iff hfresh).mp ((hrecorded.names name).mpr hname)
    · have hcounter := hrecorded.metrics name (hnames name hname)
      rw [counter_recordedDatabase] at hcounter
      exact Nat.add_left_cancel hcounter
  · rintro ⟨hlisted, hmarked, hbatches⟩
    constructor
    · have hfilter := @filter_createdSummaries time db job inventory event hfresh
      exact (congrArg (List.map JobHostSummary.hostName) hfilter).trans map_hostName_newSummaries ▸
        event.nodup
    · exact fun name => (exists_summary_iff hfresh).trans ⟨hnames name, hlisted name⟩
    · intro summary hsummary hjob stat
      obtain ⟨name, -, id, rfl⟩ := exists_of_mem_newSummaries
        ((mem_summaries_of_job hfresh).mp ⟨hsummary, hjob⟩)
      rfl
    · intro summary hsummary hjob
      obtain ⟨name, -, id, rfl⟩ := exists_of_mem_newSummaries
        ((mem_summaries_of_job hfresh).mp ⟨hsummary, hjob⟩)
      exact host_summaryOf name id
    · exact (forall_marked_iff hfresh).mpr hmarked
    · intro name hname
      rw [counter_recordedDatabase, hbatches name (hlisted name hname)]

/-- The results of an event are recorded exactly when no host was renamed into or out of it, no
constructed host of it is gone and each lower case name is in one batch. -/
theorem recorded_iff_undisturbed (hinventory : job.inventory = some inventory)
    (hfresh : Fresh db job) :
    (∃ after, updateHostSummaryFromStats db job event lower time = .ok after ∧
      Recorded lower db after job inventory event) ↔ Undisturbed lower db inventory event := by
  simp only [updateHostSummaryFromStats_eq_ok hinventory]
  constructor
  · rintro ⟨after, ⟨hconstructed, rfl⟩, hrecorded⟩
    obtain ⟨hlisted, hmarked, hbatches⟩ := (recorded_recordedDatabase_iff hfresh).mp hrecorded
    exact ⟨hlisted, hconstructed, hmarked, hbatches⟩
  · intro hundisturbed
    exact ⟨_, ⟨hundisturbed.constructed, rfl⟩, (recorded_recordedDatabase_iff hfresh).mpr
      ⟨hundisturbed.listed, hundisturbed.named, hundisturbed.batches⟩⟩

def startedHosts : Dict String ℕ := (AList.singleton "web2" 2).insert "web1" 1

theorem lookup_startedHosts {name : String} {id : ℕ}
    (hlookup : startedHosts.lookup name = some id) :
    name = if id = 1 then "web1" else "web2" := by
  by_cases hname : name = "web1"
  · rw [hname, startedHosts, AList.lookup_insert] at hlookup
    rw [← Option.some.inj hlookup, if_pos rfl, hname]
  · rw [startedHosts, AList.lookup_insert_ne hname, lookup_singleton] at hlookup
    obtain ⟨rfl, hid⟩ := Option.ite_none_right_eq_some.mp hlookup
    rw [← Option.some.inj hid, if_neg (by decide)]

def twoHosts : StatsEvent where
  data stat := if stat = .ok then some ((AList.singleton "web2" 5).insert "web1" 3) else some ∅
  hostMap :=
    { ids := startedHosts
      injective := fun _ _ _ hname hother =>
        (lookup_startedHosts hname).trans (lookup_startedHosts hother).symm }
  hostnames := ["web1", "web2"]
  nodup := by decide
  mem_hostnames _ := Iff.rfl

def oneHostLeft (name : String) : Database where
  hosts := [⟨1, name, 1, 0, none, none⟩]
  nodup := List.nodup_singleton 1
  summaries := []
  nextSummaryId := 1
  metrics _ := none

def endedJob : Job := ⟨7, some ⟨1, false⟩⟩

theorem fresh_oneHostLeft (name : String) : Fresh (oneHostLeft name) endedJob where
  summaries _ hmem := absurd hmem List.not_mem_nil
  hosts host hmem := by
    rw [List.mem_singleton.mp hmem]
    exact fun hnone => nomatch hnone

theorem names_twoHosts {name : String} (hname : twoHosts.data.Names name) :
    name ∈ twoHosts.hostnames := by
  obtain ⟨stat, counts, hcounts, hmem⟩ := hname
  rw [twoHosts] at hcounts
  dsimp only at hcounts
  split at hcounts
  · obtain rfl := Option.some.inj hcounts
    exact hmem
  · obtain rfl := Option.some.inj hcounts
    exact absurd hmem (AList.notMem_empty name)

theorem deletedHost_recorded : Undisturbed id (oneHostLeft "web1") ⟨1, false⟩ twoHosts ∧
    ∃ after, updateHostSummaryFromStats (oneHostLeft "web1") endedJob twoHosts id 0 = .ok after ∧
      Recorded id (oneHostLeft "web1") after endedJob ⟨1, false⟩ twoHosts := by
  have hundisturbed : Undisturbed id (oneHostLeft "web1") ⟨1, false⟩ twoHosts :=
    { listed := fun _ => names_twoHosts
      constructed := fun _ _ _ hnone => nomatch hnone
      named := by decide
      batches := by decide }
  exact ⟨hundisturbed, (recorded_iff_undisturbed rfl (fresh_oneHostLeft "web1")).mpr hundisturbed⟩

theorem renamedHost_not_recorded :
    ¬ ∃ after, updateHostSummaryFromStats (oneHostLeft "web9") endedJob twoHosts id 0 = .ok after ∧
      Recorded id (oneHostLeft "web9") after endedJob ⟨1, false⟩ twoHosts := by
  rintro ⟨after, hafter, hrecorded⟩
  obtain ⟨-, rfl⟩ := (updateHostSummaryFromStats_eq_ok rfl).mp hafter
  have hnamed := ((recorded_recordedDatabase_iff (fresh_oneHostLeft "web9")).mp hrecorded).2.1
  have hlinked : Linked (oneHostLeft "web9") ⟨1, false⟩ twoHosts
      ⟨1, "web9", 1, 0, none, none⟩ := ⟨"web1", List.mem_cons_self, rfl⟩
  exact absurd ((hnamed _ List.mem_cons_self).mpr hlinked) (by decide)

end Forail.HostSummaries
