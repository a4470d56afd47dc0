import Forail.Core.Runs
import Forail.Models.Schedules
import Mathlib.Data.List.Count
import Mathlib.Data.List.Sort

/-!
# The periodic scheduler

Each tick of the scheduler first stores its own time, moves the schedules on that are
older than the tick before, and then launches those whose next run lies between the two
ticks.  Both limits are exclusive, and an exception while the next run is saved or the
template is asked for its cache timeout ends the tick.
-/

namespace Forail.PeriodicScheduler

open Forail.Runs Forail.Schedules Schedule

abbrev Occurrence := Pk × Time

/-- How `update_computed_fields` of a schedule goes on with a changed row: it may raise
before the row is saved, or in the update of the template afterwards. -/
inductive Update where
  | done
  | failsBeforeSave
  | failsAfterSave
  deriving DecidableEq, Repr

/-- What a tick meets at one schedule; `none` for an answer of `cache_timeout_blocked`
that is an exception. -/
structure Processing where
  delay : Time
  update : Update
  cacheTimeoutBlocked : Option Bool
  launchFails : Bool
  deriving DecidableEq, Repr

/-- The schedules, the time of the last tick, and what has become of the occurrences
that were stored as a next run.  Editing a schedule before its next run withdraws it. -/
structure SchedulerState where
  schedules : List Schedule
  scheduleLastRun : Time
  now : Time
  stored : List Occurrence
  launches : List Occurrence
  blocked : List Occurrence
  deriving DecidableEq, Repr

/-- The order of `Schedule.Meta`: the latest next run first, then by id. -/
def Precedes (first second : Schedule) : Prop :=
  second.nextRun.getD 0 < first.nextRun.getD 0 ∨
    second.nextRun.getD 0 = first.nextRun.getD 0 ∧ first.pk ≤ second.pk

instance : DecidableRel Precedes := fun _ _ => inferInstanceAs (Decidable (_ ∨ _))

def before (time : Time) (schedule : Schedule) : Bool :=
  schedule.nextRun.any fun nextRun => nextRun < time

def after (time : Time) (schedule : Schedule) : Bool :=
  schedule.nextRun.any fun nextRun => time < nextRun

def query (schedules : List Schedule) (property : Schedule → Bool) : List Schedule :=
  (schedules.filter fun schedule => schedule.enabled && property schedule).insertionSort Precedes

namespace SchedulerState

def initial (now : Time) : SchedulerState where
  schedules := []
  scheduleLastRun := now
  now := now
  stored := []
  launches := []
  blocked := []

def occurrences (schedule : Schedule) : List Occurrence :=
  (schedule.nextRun.map fun nextRun => (schedule.pk, nextRun)).toList

variable (rrulestr : Rrulestr) (time : Time) (processing : Pk → Processing)
  (state : SchedulerState)

def write (schedule : Schedule) : SchedulerState :=
  { state with
    schedules := replaced state.schedules schedule
    stored := state.stored ++ occurrences schedule }

def updateComputedFields (schedule : Schedule) : SchedulerState × Bool :=
  let found := processing schedule.pk
  match schedule.updateComputedFieldsNoSave rrulestr (time + found.delay) with
  | none => (state, false)
  | some computed =>
      if changed schedule computed then
        match found.update with
        | .done => (state.write computed, true)
        | .failsBeforeSave => (state, false)
        | .failsAfterSave => (state.write computed, false)
      else (state, true)

def advanceOld : List Schedule → SchedulerState → SchedulerState × Bool
  | [], state => (state, true)
  | schedule :: schedules, state =>
      match state.updateComputedFields rrulestr time processing schedule with
      | (state, false) => (state, false)
      | (state, true) => advanceOld schedules state

def launchDue : List Schedule → SchedulerState → SchedulerState
  | [], state => state
  | schedule :: schedules, state =>
      match state.updateComputedFields rrulestr time processing schedule with
      | (state, false) => state
      | (state, true) =>
          match (processing schedule.pk).cacheTimeoutBlocked with
          | none => state
          | some true =>
              launchDue schedules
                { state with blocked := state.blocked ++ occurrences schedule }
          | some false =>
              if (processing schedule.pk).launchFails then launchDue schedules state
              else
                launchDue schedules
                  { state with launches := state.launches ++ occurrences schedule }

def tick : SchedulerState :=
  let lastRun := state.scheduleLastRun
  let started := { state with scheduleLastRun := time, now := time }
  match advanceOld rrulestr time processing (query state.schedules (before lastRun)) started with
  | (advanced, false) => advanced
  | (advanced, true) =>
      launchDue rrulestr time processing
        (query advanced.schedules fun schedule => after lastRun schedule && before time schedule)
        advanced

/-- The occurrence that the row had is withdrawn when its time has not come. -/
def edit (stored saved : Schedule) (now : Time) : SchedulerState :=
  { state with
    schedules := replaced state.schedules saved
    now := now
    stored := (state.stored.filter fun occurrence =>
      !(decide (occurrence ∈ occurrences stored) && decide (now < occurrence.2))) ++
        occurrences saved }

end SchedulerState

inductive Event where
  | create (pk : Pk) (enabled : Bool) (rrule : String) (now : Time)
  | edit (pk : Pk) (enabled : Bool) (rrule : String) (now : Time)
  | tick (time : Time) (processing : Pk → Processing)

def step (rrulestr : Rrulestr) (state : SchedulerState) : Event → Option SchedulerState
  | .create pk enabled rrule now =>
      if pk ∈ state.schedules.map Schedule.pk ∨ now < state.now then none
      else
        ((Schedule.new pk enabled rrule).updateComputedFieldsNoSave rrulestr now).map fun saved =>
          { state with
            schedules := state.schedules ++ [saved]
            now := now
            stored := state.stored ++ SchedulerState.occurrences saved }
  | .edit pk enabled rrule now =>
      if now < state.now then none
      else
        (state.schedules.find? fun schedule => schedule.pk = pk).bind fun stored =>
          let edited := { stored with enabled := enabled, rrule := rrule }
          (edited.updateComputedFieldsNoSave rrulestr now).map fun saved =>
            state.edit stored saved now
  | .tick time processing =>
      if time < state.now then none else some (state.tick rrulestr time processing)

def Pending (state : SchedulerState) (occurrence : Occurrence) : Prop :=
  ∃ schedule ∈ state.schedules, schedule.pk = occurrence.1 ∧
    schedule.nextRun = some occurrence.2

/-- Every occurrence that was stored and not blocked is launched once, unless its time has
not passed at the last tick, and the next run is later than every launch. -/
structure FiresOnce (state : SchedulerState) : Prop where
  settled : ∀ occurrence ∈ state.stored, occurrence ∉ state.blocked →
    Pending state occurrence ∧ state.launches.count occurrence = 0 ∨
      ¬ Pending state occurrence ∧ state.launches.count occurrence = 1
  passed : ∀ schedule ∈ state.schedules, ∀ nextRun, schedule.nextRun = some nextRun →
    state.scheduleLastRun ≤ nextRun
  advanced : ∀ occurrence ∈ state.launches, ∀ schedule ∈ state.schedules,
    schedule.pk = occurrence.1 → ∀ nextRun, schedule.nextRun = some nextRun →
      occurrence.2 < nextRun

/-- Processing a schedule raises nothing, and the launch succeeds. -/
structure Processed (rrulestr : Rrulestr) (time : Time) (processing : Pk → Processing)
    (schedule : Schedule) : Prop where
  computed : schedule.updateComputedFieldsNoSave rrulestr
    (time + (processing schedule.pk).delay) ≠ none
  update : (processing schedule.pk).update = .done
  cacheTimeoutBlocked : (processing schedule.pk).cacheTimeoutBlocked ≠ none
  launch : (processing schedule.pk).launchFails = false

/-- No tick comes exactly at a next run, processing a schedule whose time has come raises
nothing, and a schedule is edited only before its next run. -/
def Undisturbed (rrulestr : Rrulestr) (state : SchedulerState) : Event → Prop
  | .create _ _ _ _ => True
  | .edit pk _ _ now => ∀ schedule ∈ state.schedules, schedule.pk = pk → ∀ nextRun,
      schedule.nextRun = some nextRun → now < nextRun
  | .tick time processing => ∀ schedule ∈ state.schedules, ∀ nextRun,
      schedule.nextRun = some nextRun → nextRun ≠ time ∧
        (nextRun < time → Processed rrulestr time processing schedule)

variable {rrulestr : Rrulestr} {time now : Time} {processing : Pk → Processing}
  {state state' : SchedulerState} {remaining rest : List Schedule} {schedule saved : Schedule}
  {event : Event} {occurrence : Occurrence}

/-! ## Rows and occurrences -/

open SchedulerState

theorem mem_occurrences_iff :
    occurrence ∈ occurrences schedule ↔
      schedule.pk = occurrence.1 ∧ schedule.nextRun = some occurrence.2 := by
  rw [occurrences, Option.mem_toList, Option.map_eq_some_iff]
  constructor
  · rintro ⟨nextRun, hnext, rfl⟩
    exact ⟨rfl, hnext⟩
  · rintro ⟨hpk, hnext⟩
    exact ⟨occurrence.2, hnext, by rw [hpk]⟩

theorem mem_replaced_iff {schedules : List Schedule} {row : Schedule}
    (hknown : ∃ stored ∈ schedules, stored.pk = saved.pk) :
    row ∈ replaced schedules saved ↔ row = saved ∨ row ∈ schedules ∧ row.pk ≠ saved.pk := by
  rw [replaced, List.mem_map]
  constructor
  · rintro ⟨other, hother, rfl⟩
    by_cases hsame : other.pk = saved.pk
    · exact Or.inl (if_pos hsame)
    · rw [if_neg hsame]
      exact Or.inr ⟨hother, hsame⟩
  · rintro (rfl | ⟨hmem, hne⟩)
    · obtain ⟨stored, hstored, hpk⟩ := hknown
      exact ⟨stored, hstored, if_pos hpk⟩
    · exact ⟨row, hmem, if_neg hne⟩

/-! ## The ledger of the occurrences -/

/-- Every stored occurrence is accounted for, and the next runs are later than `time`,
except for those of the remaining schedules. -/
structure Ledger (time : Time) (remaining : List Schedule) (state : SchedulerState) : Prop where
  saved : Saved state.schedules
  settled : ∀ occurrence ∈ state.stored, occurrence ∉ state.blocked →
    Pending state occurrence ∨ state.launches.count occurrence = 1
  advanced : ∀ occurrence ∈ state.launches, ∀ schedule ∈ state.schedules,
    schedule.pk = occurrence.1 → ∀ nextRun, schedule.nextRun = some nextRun →
      occurrence.2 < nextRun
  past : ∀ occurrence ∈ state.launches, occurrence.2 < time
  future : ∀ schedule ∈ state.schedules, ∀ nextRun, schedule.nextRun = some nextRun →
    time < nextRun ∨ schedule ∈ remaining

theorem Ledger.count_eq_zero (hkept : Ledger time remaining state)
    (hpending : Pending state occurrence) : state.launches.count occurrence = 0 := by
  apply List.count_eq_zero_of_not_mem
  intro hlaunched
  obtain ⟨schedule, hmem, hpk, hnext⟩ := hpending
  exact Nat.lt_irrefl _ (hkept.advanced occurrence hlaunched schedule hmem hpk _ hnext)

theorem Ledger.firesOnce (hkept : Ledger state.scheduleLastRun [] state) : FiresOnce state where
  settled := by
    intro occurrence hstored hblocked
    by_cases hpending : Pending state occurrence
    · exact Or.inl ⟨hpending, hkept.count_eq_zero hpending⟩
    · exact Or.inr ⟨hpending, (hkept.settled occurrence hstored hblocked).resolve_left hpending⟩
  passed := by
    intro schedule hmem nextRun hnext
    rcases hkept.future schedule hmem nextRun hnext with hlater | hremaining
    · exact Nat.le_of_lt hlater
    · exact absurd hremaining List.not_mem_nil
  advanced := hkept.advanced

/-- A row gets a later next run, and the occurrence that it had is launched, blocked or
withdrawn. -/
theorem Ledger.write (hkept : Ledger time remaining state) (hmem : schedule ∈ state.schedules)
    (hpk : saved.pk = schedule.pk) (hdisabled : saved.enabled = false → saved.nextRun = none)
    (hlater : ∀ nextRun, saved.nextRun = some nextRun → time < nextRun)
    (hschedules : state'.schedules = replaced state.schedules saved)
    (hstored : ∀ occurrence ∈ state'.stored, occurrence ∉ state'.blocked →
      occurrence ∈ occurrences saved ∨ state'.launches.count occurrence = 1 ∨
        occurrence ∈ state.stored ∧ occurrence ∉ state.blocked ∧
          occurrence ∉ occurrences schedule ∧
            state'.launches.count occurrence = state.launches.count occurrence)
    (hlaunches : ∀ occurrence ∈ state'.launches, occurrence ∈ state.launches ∨
      occurrence ∈ occurrences schedule ∧ occurrence.2 < time)
    (hrest : ∀ row ∈ remaining, row.pk ≠ schedule.pk → row ∈ rest) :
    Ledger time rest state' := by
  have hrows : ∀ row, row ∈ state'.schedules ↔
      row = saved ∨ row ∈ state.schedules ∧ row.pk ≠ saved.pk := by
    intro row
    rw [hschedules]
    exact mem_replaced_iff ⟨schedule, hmem, hpk.symm⟩
  have hpast : ∀ occurrence ∈ state'.launches, occurrence.2 < time := by
    intro occurrence hlaunched
    rcases hlaunches occurrence hlaunched with hbefore | ⟨-, hcome⟩
    · exact hkept.past occurrence hbefore
    · exact hcome
  refine ⟨hschedules ▸ hkept.saved.replaced hdisabled, ?_, ?_, hpast, ?_⟩
  · intro occurrence hoccurrence hblocked
    rcases hstored occurrence hoccurrence hblocked with
      hnew | honce | ⟨hbefore, hfree, hother, hcount⟩
    · obtain ⟨hnewPk, hnewNext⟩ := mem_occurrences_iff.mp hnew
      exact Or.inl ⟨saved, (hrows saved).mpr (Or.inl rfl), hnewPk, hnewNext⟩
    · exact Or.inr honce
    · rcases hkept.settled occurrence hbefore hfree with ⟨row, hrow, hrowPk, hrowNext⟩ | honce
      · by_cases hsame : row.pk = saved.pk
        · obtain rfl : row = schedule :=
            List.inj_on_of_nodup_map hkept.saved.nodup hrow hmem (hsame.trans hpk)
          exact absurd (mem_occurrences_iff.mpr ⟨hrowPk, hrowNext⟩) hother
        · exact Or.inl ⟨row, (hrows row).mpr (Or.inr ⟨hrow, hsame⟩), hrowPk, hrowNext⟩
      · exact Or.inr (hcount.trans honce)
  · intro occurrence hlaunched row hrow hrowPk nextRun hnext
    rcases (hrows row).mp hrow with rfl | ⟨hold, hne⟩
    · exact Nat.lt_trans (hpast occurrence hlaunched) (hlater nextRun hnext)
    · rcases hlaunches occurrence hlaunched with hbefore | ⟨hsame, -⟩
      · exact hkept.advanced occurrence hbefore row hold hrowPk nextRun hnext
      · have hsamePk := (mem_occurrences_iff.mp hsame).1
        exact absurd (hrowPk.trans (hsamePk.symm.trans hpk.symm)) hne
  · intro row hrow nextRun hnext
    rcases (hrows row).mp hrow with rfl | ⟨hold, hne⟩
    · exact Or.inl (hlater nextRun hnext)
    · rcases hkept.future row hold nextRun hnext with hfuture | hremaining
      · exact Or.inl hfuture
      · exact Or.inr (hrest row hremaining fun hsame => hne (hsame.trans hpk.symm))

/-! ## A tick -/

theorem updateComputedFields_of_processed {nextRun : Time}
    (hprocessed : Processed rrulestr time processing schedule)
    (hnext : schedule.nextRun = some nextRun) (hcome : nextRun < time) :
    ∃ saved, saved.pk = schedule.pk ∧ (saved.enabled = false → saved.nextRun = none) ∧
      (∀ later, saved.nextRun = some later → time < later) ∧
        state.updateComputedFields rrulestr time processing schedule =
          (state.write saved, true) := by
  obtain ⟨saved, hcomputed⟩ := Option.ne_none_iff_exists'.mp hprocessed.computed
  have hlater : ∀ later, saved.nextRun = some later → time < later := fun later hsaved =>
    Nat.lt_of_le_of_lt (Nat.le_add_right time _) (lt_nextRun hcomputed hsaved)
  have hchanged : changed schedule saved = true := by
    apply eq_true_of_ne_false
    intro hsame
    have hstays := (nextRun_eq_of_not_changed hsame).trans hnext
    exact Nat.lt_asymm hcome (hlater nextRun hstays)
  refine ⟨saved, (pk_updateComputedFieldsNoSave hcomputed).1, nextRun_of_disabled hcomputed,
    hlater, ?_⟩
  simp only [SchedulerState.updateComputedFields, hcomputed, hchanged, if_true, hprocessed.update]

theorem Ledger.processed {nextRun : Time} {launched blocked : List Occurrence}
    (hkept : Ledger time (schedule :: rest) state) (hmem : schedule ∈ state.schedules)
    (hnext : schedule.nextRun = some nextRun) (hcome : nextRun < time)
    (hpk : saved.pk = schedule.pk) (hdisabled : saved.enabled = false → saved.nextRun = none)
    (hlater : ∀ later, saved.nextRun = some later → time < later)
    (hfate : launched = [(schedule.pk, nextRun)] ∧ blocked = [] ∨
      launched = [] ∧ blocked = [(schedule.pk, nextRun)]) :
    Ledger time rest { state.write saved with
      launches := state.launches ++ launched, blocked := state.blocked ++ blocked } := by
  have hoccurrence : ∀ other : Occurrence,
      other ∈ occurrences schedule ↔ other = (schedule.pk, nextRun) := by
    intro other
    rw [mem_occurrences_iff, hnext, Prod.ext_iff, Option.some.injEq, eq_comm, @eq_comm _ nextRun]
  have hfresh : state.launches.count (schedule.pk, nextRun) = 0 :=
    hkept.count_eq_zero ⟨schedule, hmem, rfl, hnext⟩
  apply hkept.write hmem hpk hdisabled hlater rfl
  · intro other hstored hfree
    rcases List.mem_append.mp hstored with hbefore | hnew
    · by_cases hsame : other = (schedule.pk, nextRun)
      · rcases hfate with ⟨rfl, rfl⟩ | ⟨rfl, rfl⟩
        · refine Or.inr (Or.inl ?_)
          rw [hsame, List.count_append, hfresh, List.count_singleton_self]
        · exact absurd (List.mem_append_right _ (List.mem_singleton.mpr hsame)) hfree
      · have hcount : launched.count other = 0 := by
          apply List.count_eq_zero_of_not_mem
          rcases hfate with ⟨rfl, -⟩ | ⟨rfl, -⟩
          · exact fun hlaunched => hsame (List.mem_singleton.mp hlaunched)
          · exact List.not_mem_nil
        refine Or.inr (Or.inr ⟨hbefore, fun hblocked => hfree (List.mem_append_left _ hblocked),
          fun hfound => hsame ((hoccurrence other).mp hfound), ?_⟩)
        rw [List.count_append, hcount, Nat.add_zero]
    · exact Or.inl hnew
  · intro other hlaunched
    rcases List.mem_append.mp hlaunched with hbefore | hnew
    · exact Or.inl hbefore
    · rcases hfate with ⟨rfl, -⟩ | ⟨rfl, -⟩
      · obtain rfl := List.mem_singleton.mp hnew
        exact Or.inr ⟨(hoccurrence _).mpr rfl, hcome⟩
      · exact absurd hnew List.not_mem_nil
  · intro row hrow hne
    rcases List.mem_cons.mp hrow with rfl | hrest
    · exact absurd rfl hne
    · exact hrest

/-- A schedule of the tick, whose time has come and whose processing raises nothing. -/
structure Due (rrulestr : Rrulestr) (time : Time) (processing : Pk → Processing)
    (state : SchedulerState) (schedule : Schedule) : Prop where
  mem : schedule ∈ state.schedules
  come : ∃ nextRun, schedule.nextRun = some nextRun ∧ nextRun < time
  processed : Processed rrulestr time processing schedule

theorem ledger_launchDue {due : List Schedule} (hkept : Ledger time due state)
    (hdue : ∀ schedule ∈ due, Due rrulestr time processing state schedule)
    (hdistinct : (due.map Schedule.pk).Nodup) :
    Ledger time [] (launchDue rrulestr time processing due state) ∧
      (launchDue rrulestr time processing due state).scheduleLastRun = state.scheduleLastRun ∧
        (launchDue rrulestr time processing due state).now = state.now := by
  induction due generalizing state with
  | nil => exact ⟨hkept, rfl, rfl⟩
  | cons schedule due ih =>
    obtain ⟨hmem, ⟨nextRun, hnext, hcome⟩, hprocessed⟩ := hdue schedule List.mem_cons_self
    obtain ⟨hother, hdistinct⟩ := List.nodup_cons.mp hdistinct
    obtain ⟨saved, hpk, hdisabled, hlater, hupdate⟩ :=
      @updateComputedFields_of_processed _ _ _ state _ _ hprocessed hnext hcome
    have hoccurrences : occurrences schedule = [(schedule.pk, nextRun)] := by
      rw [occurrences, hnext]
      rfl
    have hrest : ∀ row ∈ due, ∀ launches blocked, Due rrulestr time processing
        { state.write saved with launches := launches, blocked := blocked } row := by
      intro row hrow launches blocked
      obtain ⟨hrowMem, hrowCome, hrowProcessed⟩ := hdue row (List.mem_cons_of_mem _ hrow)
      have hne : row.pk ≠ saved.pk := fun hsame =>
        hother (List.mem_map.mpr ⟨row, hrow, hsame.trans hpk⟩)
      exact ⟨(mem_replaced_iff ⟨schedule, hmem, hpk.symm⟩).mpr (Or.inr ⟨hrowMem, hne⟩),
        hrowCome, hrowProcessed⟩
    obtain ⟨blocked, hblocked⟩ := Option.ne_none_iff_exists'.mp hprocessed.cacheTimeoutBlocked
    cases blocked with
    | true =>
      have hnextLedger := hkept.processed hmem hnext hcome hpk hdisabled hlater
        (Or.inr ⟨rfl, rfl⟩)
      rw [List.append_nil] at hnextLedger
      simp only [launchDue, hupdate, hblocked, hoccurrences]
      exact ih hnextLedger (fun row hrow => hrest row hrow _ _) hdistinct
    | false =>
      have hnextLedger := hkept.processed hmem hnext hcome hpk hdisabled hlater
        (Or.inl ⟨rfl, rfl⟩)
      rw [List.append_nil] at hnextLedger
      simp only [launchDue, hupdate, hblocked, hoccurrences, hprocessed.launch,
        Bool.false_eq_true, if_false]
      exact ih hnextLedger (fun row hrow => hrest row hrow _ _) hdistinct

theorem mem_query_iff {schedules : List Schedule} {property : Schedule → Bool} :
    schedule ∈ query schedules property ↔
      schedule ∈ schedules ∧ schedule.enabled = true ∧ property schedule = true := by
  rw [query, List.mem_insertionSort, List.mem_filter, Bool.and_eq_true]

theorem nodup_query {schedules : List Schedule} (property : Schedule → Bool)
    (hsaved : Saved schedules) : ((query schedules property).map Schedule.pk).Nodup := by
  have hperm := (List.perm_insertionSort Precedes
    (schedules.filter fun schedule => schedule.enabled && property schedule)).map Schedule.pk
  exact hperm.nodup_iff.mpr (hsaved.filter _).nodup

theorem before_iff : before time schedule = true ↔
    ∃ nextRun, schedule.nextRun = some nextRun ∧ nextRun < time := by
  rw [before, Option.any_eq_true]
  simp only [decide_eq_true_eq]

theorem after_iff : after time schedule = true ↔
    ∃ nextRun, schedule.nextRun = some nextRun ∧ time < nextRun := by
  rw [after, Option.any_eq_true]
  simp only [decide_eq_true_eq]

theorem ledger_tick (hkept : Ledger state.scheduleLastRun [] state)
    (htime : state.scheduleLastRun ≤ time)
    (hallowed : Undisturbed rrulestr state (.tick time processing)) :
    Ledger time [] (state.tick rrulestr time processing) ∧
      (state.tick rrulestr time processing).scheduleLastRun = time ∧
        (state.tick rrulestr time processing).now = time := by
  have hfuture : ∀ schedule ∈ state.schedules, ∀ nextRun, schedule.nextRun = some nextRun →
      state.scheduleLastRun < nextRun := fun schedule hmem nextRun hnext =>
    (hkept.future schedule hmem nextRun hnext).resolve_right List.not_mem_nil
  have hold : query state.schedules (before state.scheduleLastRun) = [] := by
    apply List.eq_nil_iff_forall_not_mem.mpr
    intro schedule hquery
    obtain ⟨hmem, -, hbefore⟩ := mem_query_iff.mp hquery
    obtain ⟨nextRun, hnext, hearly⟩ := before_iff.mp hbefore
    exact Nat.lt_asymm hearly (hfuture schedule hmem nextRun hnext)
  have hdue : ∀ schedule, schedule ∈ query state.schedules (fun schedule =>
      after state.scheduleLastRun schedule && before time schedule) ↔
        schedule ∈ state.schedules ∧ before time schedule = true := by
    intro schedule
    rw [mem_query_iff, Bool.and_eq_true]
    constructor
    · rintro ⟨hmem, -, -, hbefore⟩
      exact ⟨hmem, hbefore⟩
    · rintro ⟨hmem, hbefore⟩
      obtain ⟨nextRun, hnext, -⟩ := before_iff.mp hbefore
      refine ⟨hmem, ?_, after_iff.mpr ⟨nextRun, hnext, hfuture schedule hmem nextRun hnext⟩, hbefore⟩
      apply eq_true_of_ne_false
      intro hdisabled
      have hnone := hkept.saved.disabled schedule hmem hdisabled
      exact Option.some_ne_none nextRun (hnext.symm.trans hnone)
  rw [tick, hold]
  apply ledger_launchDue
  · refine ⟨hkept.saved, hkept.settled, hkept.advanced, fun occurrence hlaunched =>
      Nat.lt_of_lt_of_le (hkept.past occurrence hlaunched) htime, ?_⟩
    intro schedule hmem nextRun hnext
    rcases Nat.lt_trichotomy nextRun time with hcome | hsame | hlater
    · exact Or.inr ((hdue schedule).mpr ⟨hmem, before_iff.mpr ⟨nextRun, hnext, hcome⟩⟩)
    · exact absurd hsame (hallowed schedule hmem nextRun hnext).1
    · exact Or.inl hlater
  · intro schedule hquery
    obtain ⟨hmem, hbefore⟩ := (hdue schedule).mp hquery
    obtain ⟨nextRun, hnext, hcome⟩ := before_iff.mp hbefore
    exact ⟨hmem, ⟨nextRun, hnext, hcome⟩, (hallowed schedule hmem nextRun hnext).2 hcome⟩
  · exact nodup_query _ hkept.saved

/-! ## A run of the scheduler -/

theorem ledger_initial (now : Time) : Ledger now [] (.initial now) where
  saved := ⟨List.nodup_nil, fun _ hmem => absurd hmem List.not_mem_nil⟩
  settled := fun _ hmem => absurd hmem List.not_mem_nil
  advanced := fun _ hmem => absurd hmem List.not_mem_nil
  past := fun _ hmem => absurd hmem List.not_mem_nil
  future := fun _ hmem => absurd hmem List.not_mem_nil

theorem Ledger.create (hkept : Ledger time [] state)
    (hfresh : saved.pk ∉ state.schedules.map Schedule.pk)
    (hdisabled : saved.enabled = false → saved.nextRun = none)
    (hlater : ∀ nextRun, saved.nextRun = some nextRun → time < nextRun) :
    Ledger time [] { state with
      schedules := state.schedules ++ [saved]
      now := now
      stored := state.stored ++ occurrences saved } where
  saved := hkept.saved.append hfresh hdisabled
  settled := by
    intro occurrence hstored hblocked
    rcases List.mem_append.mp hstored with hbefore | hnew
    · rcases hkept.settled occurrence hbefore hblocked with ⟨row, hrow, hpending⟩ | honce
      · exact Or.inl ⟨row, List.mem_append_left _ hrow, hpending⟩
      · exact Or.inr honce
    · obtain ⟨hpk, hnext⟩ := mem_occurrences_iff.mp hnew
      exact Or.inl ⟨saved, List.mem_append_right _ List.mem_cons_self, hpk, hnext⟩
  advanced := by
    intro occurrence hlaunched row hrow hpk nextRun hnext
    rcases List.mem_append.mp hrow with hbefore | hnew
    · exact hkept.advanced occurrence hlaunched row hbefore hpk nextRun hnext
    · obtain rfl := List.mem_singleton.mp hnew
      exact Nat.lt_trans (hkept.past occurrence hlaunched) (hlater nextRun hnext)
  past := hkept.past
  future := by
    intro row hrow nextRun hnext
    rcases List.mem_append.mp hrow with hbefore | hnew
    · exact hkept.future row hbefore nextRun hnext
    · obtain rfl := List.mem_singleton.mp hnew
      exact Or.inl (hlater nextRun hnext)

theorem Ledger.edit (hkept : Ledger time [] state) (hmem : schedule ∈ state.schedules)
    (hpk : saved.pk = schedule.pk) (hdisabled : saved.enabled = false → saved.nextRun = none)
    (hlater : ∀ nextRun, saved.nextRun = some nextRun → time < nextRun)
    (hearly : ∀ nextRun, schedule.nextRun = some nextRun → now < nextRun) :
    Ledger time [] (state.edit schedule saved now) := by
  apply hkept.write hmem hpk hdisabled hlater rfl
  · intro occurrence hstored hblocked
    rcases List.mem_append.mp hstored with hbefore | hnew
    · obtain ⟨hbefore, hkeeps⟩ := List.mem_filter.mp hbefore
      refine Or.inr (Or.inr ⟨hbefore, hblocked, fun hfound => ?_, rfl⟩)
      have hnext := (mem_occurrences_iff.mp hfound).2
      simp [hfound, hearly occurrence.2 hnext] at hkeeps
    · exact Or.inl hnew
  · exact fun _ hlaunched => Or.inl hlaunched
  · exact fun _ hnone => absurd hnone List.not_mem_nil

theorem ledger_step (hkept : Ledger state.scheduleLastRun [] state)
    (hclock : state.scheduleLastRun ≤ state.now) (hallowed : Undisturbed rrulestr state event)
    (hstep : step rrulestr state event = some state') :
    Ledger state'.scheduleLastRun [] state' ∧ state'.scheduleLastRun ≤ state'.now := by
  cases event with
  | create pk enabled rrule now =>
    obtain ⟨hfresh, hcreated⟩ := Option.ite_none_left_eq_some.mp hstep
    obtain ⟨hpkFresh, hnow⟩ := not_or.mp hfresh
    obtain ⟨saved, hcomputed, rfl⟩ := Option.map_eq_some_iff.mp hcreated
    have hpk : saved.pk = pk := (pk_updateComputedFieldsNoSave hcomputed).1
    have hlast : state.scheduleLastRun ≤ now := Nat.le_trans hclock (Nat.le_of_not_lt hnow)
    refine ⟨hkept.create (hpk ▸ hpkFresh) (nextRun_of_disabled hcomputed) ?_, hlast⟩
    exact fun nextRun hnext => Nat.lt_of_le_of_lt hlast (lt_nextRun hcomputed hnext)
  | edit pk enabled rrule now =>
    obtain ⟨hnow, hedited⟩ := Option.ite_none_left_eq_some.mp hstep
    obtain ⟨stored, hstored, hsaved⟩ := Option.bind_eq_some_iff.mp hedited
    obtain ⟨saved, hcomputed, rfl⟩ := Option.map_eq_some_iff.mp hsaved
    have hmem : stored ∈ state.schedules := List.mem_of_find?_eq_some hstored
    have hpk : stored.pk = pk := by simpa using List.find?_some hstored
    have hlast : state.scheduleLastRun ≤ now := Nat.le_trans hclock (Nat.le_of_not_lt hnow)
    refine ⟨hkept.edit hmem (pk_updateComputedFieldsNoSave hcomputed).1
      (nextRun_of_disabled hcomputed) ?_ (hallowed stored hmem hpk), hlast⟩
    exact fun nextRun hnext => Nat.lt_of_le_of_lt hlast (lt_nextRun hcomputed hnext)
  | tick time processing =>
    obtain ⟨hnow, hticked⟩ := Option.ite_none_left_eq_some.mp hstep
    obtain rfl := Option.some.inj hticked
    obtain ⟨hledger, hlast, hnow'⟩ :=
      ledger_tick hkept (Nat.le_trans hclock (Nat.le_of_not_lt hnow)) hallowed
    rw [hlast, hnow']
    exact ⟨hledger, Nat.le_refl time⟩

/-- Every occurrence is launched once in every run without a disturbance. -/
theorem schedules_fire_once
    (hrun : Run (step rrulestr) (Undisturbed rrulestr) (.initial now) state) :
    FiresOnce state := by
  have hkept : Ledger state.scheduleLastRun [] state ∧ state.scheduleLastRun ≤ state.now :=
    hrun.invariant (fun state => Ledger state.scheduleLastRun [] state ∧
        state.scheduleLastRun ≤ state.now) ⟨ledger_initial now, Nat.le_refl now⟩
      fun _ _ _ hkept hallowed hstep => ledger_step hkept.1 hkept.2 hallowed hstep
  exact hkept.1.firesOnce

/-! ## A tick exactly at a next run -/

def atNoon : Rrulestr := fun _ _ => some (.onceAt 12)

def calm : Pk → Processing := fun _ => ⟨0, .done, some false, false⟩

theorem schedules_fire_once_noon :
    ∃ state, Run (step atNoon) (Undisturbed atNoon) (.initial 0) state ∧
      state.launches = [(1, 12)] ∧ FiresOnce state := by
  have hcreated : Run (step atNoon) (Undisturbed atNoon) (.initial 0) _ :=
    .next (.create 1 true "noon" 0) .start trivial rfl
  have hrun := Run.next (.tick 13 calm) hcreated (by
    intro schedule hmem nextRun hnext
    obtain rfl := List.mem_singleton.mp hmem
    obtain rfl : 12 = nextRun := Option.some.inj hnext
    exact ⟨by decide, fun _ => ⟨by decide, rfl, by decide, rfl⟩⟩) rfl
  have hfires := schedules_fire_once hrun
  exact ⟨_, hrun, rfl, hfires⟩

theorem noon_never_launched :
    ¬ ∀ (rrulestr : Rrulestr) (now : Time) (state : SchedulerState),
      Run (step rrulestr) (fun _ _ => True) (.initial now) state → FiresOnce state := by
  intro hclaim
  have hevents : (([.create 1 true "noon" 0, .tick 12 calm, .tick 20 calm] : List Event).foldlM
      (step atNoon) (.initial 0)).any (fun state => decide (state.scheduleLastRun = 20 ∧
        state.schedules = [⟨1, true, "noon", some 12, some 12, some 12⟩])) = true := by decide
  obtain ⟨state, hrun, htest⟩ := exists_run_of_any _ hevents
  obtain ⟨hlast, hschedules⟩ := of_decide_eq_true htest
  have hpassed := (hclaim atNoon 0 state hrun).passed ⟨1, true, "noon", some 12, some 12, some 12⟩
    (hschedules ▸ List.mem_cons_self) 12 rfl
  rw [hlast] at hpassed
  exact absurd hpassed (by decide)

end Forail.PeriodicScheduler
