import Mathlib.Data.List.Basic
import Mathlib.Data.List.Nodup
import Mathlib.Data.Option.Basic

/-!
# Schedules

A schedule of a template has a recurrence rule, from which its next run and the limits
of the rule are computed whenever it is saved.  The occurrences of a rule come from a
library that only promises that the occurrence after a time is later than it.
-/

namespace Forail.Schedules

abbrev Time := ℕ
abbrev Pk := ℕ

/-- A parsed recurrence rule: the occurrence after a time, whether a local time exists,
the first occurrence, and the end of the rule. -/
structure RuleSet where
  after : Time → Option Time
  datetimeExists : Time → Bool
  first : Option Time
  endDate : Option Time
  lt_of_after : ∀ {time occurrence}, after time = some occurrence → time < occurrence

def RuleSet.onceAt (occurrence : Time) : RuleSet where
  after := fun time => if time < occurrence then some occurrence else none
  datetimeExists := fun _ => true
  first := some occurrence
  endDate := some occurrence
  lt_of_after := by
    intro time found hafter
    obtain ⟨hlt, hfound⟩ := Option.ite_none_right_eq_some.mp hafter
    exact Option.some.inj hfound ▸ hlt

/-- `Schedule.rrulestr`, which looks at the clock to skip the far past of a rule, and
raises for a rule that it cannot parse. -/
abbrev Rrulestr := String → Time → Option RuleSet

structure Schedule where
  pk : Pk
  enabled : Bool
  rrule : String
  nextRun : Option Time
  dtstart : Option Time
  dtend : Option Time
  deriving DecidableEq, Repr

namespace Schedule

def new (pk : Pk) (enabled : Bool) (rrule : String) : Schedule where
  pk := pk
  enabled := enabled
  rrule := rrule
  nextRun := none
  dtstart := none
  dtend := none

/-- The next run of the rule.  An imaginary local time is skipped, which raises when no
occurrence follows it. -/
def nextRunActual (rules : RuleSet) (enabled : Bool) (now : Time) : Option (Option Time) :=
  if enabled then
    match rules.after now with
    | none => some none
    | some occurrence =>
        if rules.datetimeExists occurrence then some (some occurrence)
        else (rules.after occurrence).map some
  else some none

/-- `update_computed_fields_no_save`, without its answer; `none` stands for an
exception. -/
def updateComputedFieldsNoSave (rrulestr : Rrulestr) (now : Time) (schedule : Schedule) :
    Option Schedule :=
  (rrulestr schedule.rrule now).bind fun rules =>
    (nextRunActual rules schedule.enabled now).map fun nextRun =>
      { schedule with nextRun := nextRun, dtstart := rules.first, dtend := rules.endDate }

def changed (before after : Schedule) : Bool :=
  decide (before.nextRun ≠ after.nextRun) || decide (before.dtstart ≠ after.dtstart) ||
    decide (before.dtend ≠ after.dtend)

variable {rrulestr : Rrulestr} {now : Time} {schedule schedule' : Schedule}

section

variable (hcomputed : schedule.updateComputedFieldsNoSave rrulestr now = some schedule')
include hcomputed

theorem updateComputedFieldsNoSave_eq_some :
    ∃ rules nextRun, nextRunActual rules schedule.enabled now = some nextRun ∧
      schedule' = { schedule with
        nextRun := nextRun, dtstart := rules.first, dtend := rules.endDate } := by
  obtain ⟨rules, -, hnext⟩ := Option.bind_eq_some_iff.mp hcomputed
  obtain ⟨nextRun, hnextRun, rfl⟩ := Option.map_eq_some_iff.mp hnext
  exact ⟨rules, nextRun, hnextRun, rfl⟩

theorem pk_updateComputedFieldsNoSave :
    schedule'.pk = schedule.pk ∧ schedule'.enabled = schedule.enabled := by
  obtain ⟨rules, nextRun, -, rfl⟩ := updateComputedFieldsNoSave_eq_some hcomputed
  exact ⟨rfl, rfl⟩

theorem lt_nextRun
    {occurrence : Time} (hnext : schedule'.nextRun = some occurrence) : now < occurrence := by
  obtain ⟨rules, nextRun, hnextRun, rfl⟩ := updateComputedFieldsNoSave_eq_some hcomputed
  obtain rfl : nextRun = some occurrence := hnext
  rw [nextRunActual] at hnextRun
  split at hnextRun
  · cases hafter : rules.after now with
    | none => simp [hafter] at hnextRun
    | some first =>
      have hfirst : now < first := rules.lt_of_after hafter
      simp only [hafter] at hnextRun
      split at hnextRun
      · obtain rfl : first = occurrence := by simpa using hnextRun
        exact hfirst
      · obtain ⟨second, hsecond, hsame⟩ := Option.map_eq_some_iff.mp hnextRun
        obtain rfl : second = occurrence := by simpa using hsame
        exact Nat.lt_trans hfirst (rules.lt_of_after hsecond)
  · simp at hnextRun

theorem nextRun_of_disabled (hdisabled : schedule'.enabled = false) : schedule'.nextRun = none := by
  obtain ⟨rules, nextRun, hnextRun, rfl⟩ := updateComputedFieldsNoSave_eq_some hcomputed
  have henabled : schedule.enabled = false := hdisabled
  rw [nextRunActual, henabled] at hnextRun
  exact (Option.some.inj hnextRun).symm

end

theorem nextRun_eq_of_not_changed (hsame : changed schedule schedule' = false) :
    schedule'.nextRun = schedule.nextRun := by
  simp only [changed, Bool.or_eq_false_iff, decide_eq_false_iff_not, not_not] at hsame
  exact hsame.1.1.symm

end Schedule

/-! ## The rows of the schedules -/

def replaced (schedules : List Schedule) (schedule : Schedule) : List Schedule :=
  schedules.map fun other => if other.pk = schedule.pk then schedule else other

structure Saved (schedules : List Schedule) : Prop where
  nodup : (schedules.map Schedule.pk).Nodup
  disabled : ∀ schedule ∈ schedules, schedule.enabled = false → schedule.nextRun = none

variable {schedules : List Schedule}

theorem Saved.replaced {saved : Schedule} (hsaved : Saved schedules)
    (hdisabled : saved.enabled = false → saved.nextRun = none) :
    Saved (replaced schedules saved) where
  nodup := by
    have hpks : (Schedules.replaced schedules saved).map Schedule.pk =
        schedules.map Schedule.pk := by
      rw [Schedules.replaced, List.map_map]
      apply List.map_congr_left
      intro other _
      rw [Function.comp_apply]
      split
      · next hsame => exact hsame.symm
      · rfl
    rw [hpks]
    exact hsaved.nodup
  disabled := by
    intro other hmem
    obtain ⟨before, hbefore, rfl⟩ := List.mem_map.mp hmem
    split
    · exact hdisabled
    · exact hsaved.disabled before hbefore

theorem Saved.append {saved : Schedule} (hsaved : Saved schedules)
    (hfresh : saved.pk ∉ schedules.map Schedule.pk)
    (hdisabled : saved.enabled = false → saved.nextRun = none) : Saved (schedules ++ [saved]) where
  nodup := by
    rw [List.map_append]
    apply List.nodup_append.mpr
    refine ⟨hsaved.nodup, List.nodup_singleton _, ?_⟩
    intro pk hpk other hother hsame
    obtain rfl : other = saved.pk := List.mem_singleton.mp hother
    exact hfresh (hsame ▸ hpk)
  disabled := by
    intro other hmem
    rcases List.mem_append.mp hmem with hbefore | hnew
    · exact hsaved.disabled other hbefore
    · exact (List.mem_singleton.mp hnew) ▸ hdisabled

theorem Saved.filter (hsaved : Saved schedules) (keep : Schedule → Bool) :
    Saved (schedules.filter keep) where
  nodup := hsaved.nodup.sublist (List.filter_sublist.map Schedule.pk)
  disabled := fun other hmem => hsaved.disabled other (List.mem_filter.mp hmem).1

end Forail.Schedules
