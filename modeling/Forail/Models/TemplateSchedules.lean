import Forail.Core.Runs
import Forail.Models.Schedules
import Mathlib.Data.List.MinMax
import Mathlib.Data.List.Nodup

/-!
# The next run of a template

A template shows the time of its next job run and the schedule responsible for it.  The
pair is recomputed when a schedule of the template is saved with a changed next run, or
deleted, but from the schedule with the latest next run, and not when there is none left.
-/

namespace Forail.TemplateSchedules

open Forail.Runs Forail.Schedules Schedule

def entry (schedule : Schedule) : Option (Pk × Time) :=
  if schedule.enabled then schedule.nextRun.map fun nextRun => (schedule.pk, nextRun) else none

def planned (schedules : List Schedule) : List (Pk × Time) := schedules.filterMap entry

structure UnifiedJobTemplate where
  schedules : List Schedule
  nextJobRun : Option Time
  nextSchedule : Option Pk
  deriving DecidableEq, Repr

namespace UnifiedJobTemplate

def created : UnifiedJobTemplate where
  schedules := []
  nextJobRun := none
  nextSchedule := none

/-- `update_computed_fields`; the first schedule by `-next_run` has the latest one. -/
def updateComputedFields (template : UnifiedJobTemplate) : UnifiedJobTemplate :=
  match (planned template.schedules).argmax Prod.snd with
  | none => template
  | some newNextSchedule =>
      if some newNextSchedule.1 = template.nextSchedule ∧
          some newNextSchedule.2 = template.nextJobRun then template
      else
        { template with
          nextSchedule := some newNextSchedule.1
          nextJobRun := some newNextSchedule.2 }

end UnifiedJobTemplate

inductive Event where
  | create (pk : Pk) (enabled : Bool) (rrule : String) (now : Time)
  | edit (pk : Pk) (enabled : Bool) (rrule : String) (now : Time)
  | updateComputedFields (pk : Pk) (now : Time)
  | delete (pk : Pk)
  deriving DecidableEq, Repr

def save (rrulestr : Rrulestr) (schedules : List Schedule) (schedule : Schedule) (now : Time) :
    Option (List Schedule × Bool) :=
  (schedule.updateComputedFieldsNoSave rrulestr now).map fun saved =>
    (replaced schedules saved, changed schedule saved)

def Event.schedules (rrulestr : Rrulestr) (schedules : List Schedule) :
    Event → Option (List Schedule × Bool)
  | create pk enabled rrule now =>
      if pk ∈ schedules.map Schedule.pk then none
      else
        ((Schedule.new pk enabled rrule).updateComputedFieldsNoSave rrulestr now).map fun saved =>
          (schedules ++ [saved], changed (Schedule.new pk enabled rrule) saved)
  | edit pk enabled rrule now =>
      (schedules.find? fun schedule => schedule.pk = pk).bind fun stored =>
        save rrulestr schedules { stored with enabled := enabled, rrule := rrule } now
  | updateComputedFields pk now =>
      (schedules.find? fun schedule => schedule.pk = pk).bind fun stored =>
        save rrulestr schedules stored now
  | delete pk =>
      if pk ∈ schedules.map Schedule.pk then
        some (schedules.filter fun schedule => schedule.pk ≠ pk, true)
      else none

def Event.setNull (nextSchedule : Option Pk) : Event → Option Pk
  | delete pk => if nextSchedule = some pk then none else nextSchedule
  | _ => nextSchedule

def step (rrulestr : Rrulestr) (template : UnifiedJobTemplate) (event : Event) :
    Option UnifiedJobTemplate :=
  (event.schedules rrulestr template.schedules).map fun result =>
    let template : UnifiedJobTemplate :=
      { template with
        schedules := result.1
        nextSchedule := event.setNull template.nextSchedule }
    if result.2 then template.updateComputedFields else template

def ShowsEarliest (template : UnifiedJobTemplate) : Prop :=
  (planned template.schedules = [] ∧ template.nextJobRun = none ∧ template.nextSchedule = none) ∨
    ∃ entry ∈ planned template.schedules,
      (∀ other ∈ planned template.schedules, entry.2 ≤ other.2) ∧
        template.nextJobRun = some entry.2 ∧ template.nextSchedule = some entry.1

/-- After the operation all schedules with a next run have the same one, and there is one
if there was one before. -/
def KeepsOneNextRun (rrulestr : Rrulestr) (template : UnifiedJobTemplate) (event : Event) :
    Prop :=
  ∀ result, event.schedules rrulestr template.schedules = some result →
    (∀ entry ∈ planned result.1, ∀ other ∈ planned result.1, entry.2 = other.2) ∧
      (planned result.1 = [] → planned template.schedules = [])

instance (rrulestr : Rrulestr) (template : UnifiedJobTemplate) (event : Event) :
    Decidable (KeepsOneNextRun rrulestr template event) :=
  match hresult : event.schedules rrulestr template.schedules with
  | none => isTrue fun _ hsome => absurd (hresult.symm.trans hsome).symm (Option.some_ne_none _)
  | some result =>
      decidable_of_iff ((∀ entry ∈ planned result.1, ∀ other ∈ planned result.1,
          entry.2 = other.2) ∧ (planned result.1 = [] → planned template.schedules = [])) (by
        rw [KeepsOneNextRun, hresult]
        simp only [Option.some.injEq, forall_eq'])

/-! ## The rows of the schedules -/

variable {rrulestr : Rrulestr} {schedules : List Schedule} {schedule : Schedule}
  {template template' : UnifiedJobTemplate} {event : Event} {now : Time} {pk : Pk}

theorem entry_eq (hdisabled : schedule.enabled = false → schedule.nextRun = none) :
    entry schedule = schedule.nextRun.map fun nextRun => (schedule.pk, nextRun) := by
  rw [entry]
  split
  · rfl
  · next hdisabled' => rw [hdisabled (Bool.eq_false_iff.mpr hdisabled'), Option.map_none]

theorem planned_replaced {saved stored : Schedule} (hsaved : Saved schedules)
    (hmem : stored ∈ schedules) (hpk : saved.pk = stored.pk)
    (hdisabled : saved.enabled = false → saved.nextRun = none)
    (hsame : saved.nextRun = stored.nextRun) :
    planned (replaced schedules saved) = planned schedules := by
  rw [planned, replaced, List.filterMap_map, planned]
  apply List.filterMap_congr
  intro other hother
  rw [Function.comp_apply]
  split
  · next hotherPk =>
    obtain rfl : other = stored :=
      List.inj_on_of_nodup_map hsaved.nodup hother hmem (hotherPk.trans hpk)
    rw [entry_eq hdisabled, entry_eq (hsaved.disabled other hother), hsame, hpk]
  · rfl

theorem planned_append {saved : Schedule} (hnone : saved.nextRun = none) :
    planned (schedules ++ [saved]) = planned schedules := by
  have hentry : entry saved = none := by simp [entry, hnone]
  rw [planned, List.filterMap_append, List.filterMap_cons_none hentry, List.filterMap_nil,
    List.append_nil, planned]

/-- What an operation does to the rows, and that the template is recomputed unless the
next runs stay. -/
structure Operated (schedules : List Schedule) (result : List Schedule × Bool) : Prop where
  saved : Saved result.1
  unchanged : result.2 = false → planned result.1 = planned schedules

theorem operated_save {stored : Schedule} {result : List Schedule × Bool}
    (hsaved : Saved schedules) (hmem : stored ∈ schedules) (hpk : schedule.pk = stored.pk)
    (hnext : schedule.nextRun = stored.nextRun)
    (hresult : save rrulestr schedules schedule now = some result) :
    Operated schedules result := by
  obtain ⟨saved, hcomputed, rfl⟩ := Option.map_eq_some_iff.mp hresult
  have hdisabled : saved.enabled = false → saved.nextRun = none :=
    nextRun_of_disabled hcomputed
  refine ⟨hsaved.replaced hdisabled, fun hsame => ?_⟩
  have hsavedPk : saved.pk = schedule.pk := (pk_updateComputedFieldsNoSave hcomputed).1
  exact planned_replaced hsaved hmem (hsavedPk.trans hpk) hdisabled
    ((nextRun_eq_of_not_changed hsame).trans hnext)

theorem operated_schedules {result : List Schedule × Bool} (hsaved : Saved schedules)
    (hresult : event.schedules rrulestr schedules = some result) : Operated schedules result := by
  cases event with
  | create pk enabled rrule now =>
    obtain ⟨hfresh, hcreated⟩ := Option.ite_none_left_eq_some.mp hresult
    obtain ⟨saved, hcomputed, rfl⟩ := Option.map_eq_some_iff.mp hcreated
    have hpk : saved.pk = pk := (pk_updateComputedFieldsNoSave hcomputed).1
    refine ⟨hsaved.append (hpk ▸ hfresh) (nextRun_of_disabled hcomputed), fun hsame => ?_⟩
    exact planned_append (nextRun_eq_of_not_changed hsame)
  | edit pk enabled rrule now =>
    obtain ⟨stored, hstored, hedited⟩ := Option.bind_eq_some_iff.mp hresult
    have hmem : stored ∈ schedules := List.mem_of_find?_eq_some hstored
    have hpk : ({ stored with enabled := enabled, rrule := rrule } : Schedule).pk = stored.pk := rfl
    exact operated_save hsaved hmem hpk rfl hedited
  | updateComputedFields pk now =>
    obtain ⟨stored, hstored, hupdated⟩ := Option.bind_eq_some_iff.mp hresult
    exact operated_save hsaved (List.mem_of_find?_eq_some hstored) rfl rfl hupdated
  | delete pk =>
    obtain ⟨-, hdeleted⟩ := Option.ite_none_right_eq_some.mp hresult
    obtain rfl := Option.some.inj hdeleted
    exact ⟨hsaved.filter _, fun hsame => absurd hsame Bool.true_eq_false.mp⟩

/-! ## The pair of the template -/

theorem schedules_updateComputedFields :
    template.updateComputedFields.schedules = template.schedules := by
  rw [UnifiedJobTemplate.updateComputedFields]
  cases (planned template.schedules).argmax Prod.snd with
  | none => rfl
  | some entry =>
    dsimp only
    split <;> rfl

theorem exists_latest_of_planned (hplanned : planned template.schedules ≠ []) :
    ∃ entry ∈ planned template.schedules,
      (∀ other ∈ planned template.schedules, other.2 ≤ entry.2) ∧
        template.updateComputedFields.nextJobRun = some entry.2 ∧
          template.updateComputedFields.nextSchedule = some entry.1 := by
  cases hfirst : (planned template.schedules).argmax Prod.snd with
  | none => exact absurd (List.argmax_eq_none.mp hfirst) hplanned
  | some entry =>
    refine ⟨entry, List.argmax_mem hfirst, fun other hother =>
      List.le_of_mem_argmax hother hfirst, ?_⟩
    simp only [UnifiedJobTemplate.updateComputedFields, hfirst]
    by_cases hsame : some entry.1 = template.nextSchedule ∧ some entry.2 = template.nextJobRun
    · rw [if_pos hsame]
      exact ⟨hsame.2.symm, hsame.1.symm⟩
    · rw [if_neg hsame]
      exact ⟨rfl, rfl⟩

theorem updateComputedFields_of_not_planned (hempty : planned template.schedules = []) :
    template.updateComputedFields = template := by
  rw [UnifiedJobTemplate.updateComputedFields, hempty, List.argmax_nil]

theorem showsEarliest_updateComputedFields
    (hone : ∀ entry ∈ planned template.schedules, ∀ other ∈ planned template.schedules,
      entry.2 = other.2)
    (hnone : planned template.schedules = [] →
      template.nextJobRun = none ∧ template.nextSchedule = none) :
    ShowsEarliest template.updateComputedFields := by
  by_cases hempty : planned template.schedules = []
  · rw [updateComputedFields_of_not_planned hempty]
    exact Or.inl ⟨hempty, hnone hempty⟩
  · obtain ⟨entry, hmem, -, hpair⟩ := exists_latest_of_planned hempty
    rw [ShowsEarliest, schedules_updateComputedFields]
    exact Or.inr ⟨entry, hmem, fun other hother => (hone entry hmem other hother).le, hpair⟩

theorem setNull_none (event : Event) : event.setNull none = none := by
  cases event <;> simp [Event.setNull]

theorem setNull_of_not_recomputed {result : List Schedule × Bool}
    (hresult : event.schedules rrulestr schedules = some result) (hkeeps : result.2 = false)
    (nextSchedule : Option Pk) : event.setNull nextSchedule = nextSchedule := by
  cases event with
  | delete pk =>
    obtain ⟨-, hdeleted⟩ := Option.ite_none_right_eq_some.mp hresult
    obtain rfl := Option.some.inj hdeleted
    exact Bool.noConfusion hkeeps
  | _ => rfl

theorem shows_step (hsaved : Saved template.schedules) (hshows : ShowsEarliest template)
    (hallowed : KeepsOneNextRun rrulestr template event)
    (hstep : step rrulestr template event = some template') :
    Saved template'.schedules ∧ ShowsEarliest template' := by
  obtain ⟨result, hresult, rfl⟩ := Option.map_eq_some_iff.mp hstep
  obtain ⟨hone, hkeeps⟩ := hallowed result hresult
  have hoperated := operated_schedules hsaved hresult
  cases hrecomputed : result.2 with
  | true =>
    rw [if_pos rfl, schedules_updateComputedFields]
    refine ⟨hoperated.saved, showsEarliest_updateComputedFields hone fun hempty => ?_⟩
    rcases hshows with ⟨-, hrun, hschedule⟩ | ⟨entry, hmem, -⟩
    · refine ⟨hrun, ?_⟩
      simp only [hschedule]
      exact setNull_none event
    · rw [hkeeps hempty] at hmem
      exact absurd hmem List.not_mem_nil
  | false =>
    refine ⟨hoperated.saved, ?_⟩
    simp only [ShowsEarliest, Bool.false_eq_true, if_false, hoperated.unchanged hrecomputed,
      setNull_of_not_recomputed hresult hrecomputed]
    exact hshows

/-- The template shows its earliest next run in every run whose operations leave the
schedules with one next run, and never take the last one away. -/
theorem earliest_next_run_shown
    (hrun : Run (step rrulestr) (KeepsOneNextRun rrulestr) .created template) :
    ShowsEarliest template := by
  have hkept : Saved template.schedules ∧ ShowsEarliest template := by
    refine hrun.invariant (fun template => Saved template.schedules ∧ ShowsEarliest template) ?_ ?_
    · exact ⟨⟨List.nodup_nil, fun _ hmem => absurd hmem List.not_mem_nil⟩,
        Or.inl ⟨rfl, rfl, rfl⟩⟩
    · exact fun _ _ _ hkept hallowed hstep => shows_step hkept.1 hkept.2 hallowed hstep
  exact hkept.2

/-! ## Two schedules with different next runs -/

def namedHours : Rrulestr := fun rrule _ =>
  if rrule = "noon" then some (.onceAt 12) else if rrule = "six" then some (.onceAt 18) else none

theorem earliest_next_run_shown_twice :
    ∃ template, Run (step namedHours) (KeepsOneNextRun namedHours) .created template ∧
      template.nextJobRun = some 18 ∧ ShowsEarliest template := by
  have hrun : Run (step namedHours) (KeepsOneNextRun namedHours) .created
      ⟨[⟨2, true, "six", some 18, some 18, some 18⟩], some 18, some 2⟩ :=
    run_of_checked [.create 1 true "six" 0, .create 2 true "six" 0, .delete 1] (by decide)
  exact ⟨_, hrun, rfl, earliest_next_run_shown hrun⟩

theorem latest_next_run_shown :
    ¬ ∀ (rrulestr : Rrulestr) (template : UnifiedJobTemplate),
      Run (step rrulestr) (fun _ _ => True) .created template → ShowsEarliest template := by
  intro hclaim
  have hevents : (([.create 1 true "noon" 0, .create 2 true "six" 0] : List Event).foldlM
      (step namedHours) .created).any (fun template => decide
        (template.nextJobRun = some 18 ∧ planned template.schedules = [(1, 12), (2, 18)])) =
          true := by decide
  obtain ⟨template, hrun, htest⟩ := exists_run_of_any _ hevents
  obtain ⟨hlate, hplanned⟩ := of_decide_eq_true htest
  rcases hclaim namedHours template hrun with ⟨-, hnone, -⟩ | ⟨entry, hmem, hleast, hshown, -⟩
  · exact absurd (hlate.symm.trans hnone) (Option.some_ne_none _)
  · have hnoon := hleast (1, 12) (hplanned ▸ List.mem_cons_self)
    have hsix : (18 : ℕ) = entry.2 := Option.some.inj (hlate.symm.trans hshown)
    rw [← hsix] at hnoon
    exact absurd hnoon (by decide)

end Forail.TemplateSchedules
