import Forail.Analytics.Gather

/-!
# Collection intervals and their slices

A collection may be asked for with a start and an end.  Without a start each slicing
function looks the start up itself.
-/

namespace Forail.CollectionIntervals

open Forail.Analytics Forail.Slices

structure CollectionInterval extends Interval where
  since : Option ℤ

/-- The end of the collection, no more than four weeks behind its start. -/
def resolveUntil (now : ℤ) : Option ℤ → Option ℤ → ℤ
  | some since, some untilTime =>
      if since + fourWeeks < untilTime then since + fourWeeks else untilTime
  | some since, none => min (since + fourWeeks) now
  | none, some untilTime => untilTime
  | none, none => now

/-- `none` for the `ValueError` of a start that is not before the end. -/
def calculateCollectionInterval (now : ℤ) (lastGather since untilTime : Option ℤ) :
    Option CollectionInterval :=
  let untilTime := untilTime.map fun time => if now < time then now else time
  let since := since.map fun time => if now < time then now else time
  let untilTime := resolveUntil now since untilTime
  if since.any fun since => untilTime ≤ since then none
  else
    let horizon := untilTime - fourWeeks
    let lastGather := lastGather.getD horizon
    some
      { since := since.map fun time => if time < horizon then horizon else time
        untilTime := untilTime
        lastGather := if lastGather < horizon then horizon else lastGather }

/-! ## Slicing functions -/

theorem fourHours_pos : 0 < fourHours := by decide

section

variable (interval : CollectionInterval) (entry : Option Entry)

/-- `none` when the entry is no time. -/
def trivialSlicing : Option (List (ℤ × ℤ)) :=
  match interval.since with
  | some since => some [(since, interval.untilTime)]
  | none =>
      (lastEntry interval.toInterval entry).map fun lastEntry => [(lastEntry, interval.untilTime)]

def fourHourSlicing : List (ℤ × ℤ) :=
  let lastEntry :=
    match interval.since with
    | some since => since
    | none =>
        (lastEntry interval.toInterval entry).getD
          (max interval.lastGather interval.toInterval.horizon)
  slicesFrom fourHours fourHours_pos lastEntry interval.untilTime

def lowestDate : Option ℤ → Option ℤ → Option ℤ
  | some minLastAutomation, some minLastDeleted => some (min minLastAutomation minLastDeleted)
  | minLastAutomation, minLastDeleted => minLastAutomation.or minLastDeleted

/-- The function is a generator, which ends at a `return` without another slice. -/
def hostMetricSlicing (minLastAutomation minLastDeleted : Option ℤ) (fullSyncEnabled : Bool) :
    Option (List (ℤ × ℤ)) :=
  match interval.since with
  | some _ => some []
  | none =>
      hostMetricSlices interval.untilTime (lowestDate minLastAutomation minLastDeleted)
        fullSyncEnabled entry

end

/-- What a slicing function is called with beside the interval: the recorded entry of the
collector, the dates of the host metrics, and whether all of them are to be sent. -/
structure Recording where
  entry : Option Entry
  minLastAutomation : Option ℤ
  minLastDeleted : Option ℤ
  fullSyncEnabled : Bool

def slices (slicing : Slicing) (interval : CollectionInterval) (recording : Recording) :
    Option (List (ℤ × ℤ)) :=
  match slicing with
  | .trivialSlicing => trivialSlicing interval recording.entry
  | .fourHourSlicing => some (fourHourSlicing interval recording.entry)
  | .hostMetricSlicing =>
      hostMetricSlicing interval recording.entry recording.minLastAutomation
        recording.minLastDeleted recording.fullSyncEnabled

/-! ## A scheduled run -/

theorem ite_eq_min (now time : ℤ) : (if now < time then now else time) = min time now := by
  by_cases hlt : now < time
  · rw [if_pos hlt, min_eq_right hlt.le]
  · rw [if_neg hlt, min_eq_left (not_lt.mp hlt)]

theorem ite_eq_max (time horizon : ℤ) :
    (if time < horizon then horizon else time) = max time horizon := by
  by_cases hlt : time < horizon
  · rw [if_pos hlt, max_eq_right hlt.le]
  · rw [if_neg hlt, max_eq_left (not_lt.mp hlt)]

theorem calculateCollectionInterval_scheduled (now : ℤ) (lastGather : Option ℤ) :
    CollectionIntervals.calculateCollectionInterval now lastGather none none =
      some ⟨Analytics.calculateCollectionInterval now lastGather, none⟩ := by
  rw [Analytics.calculateCollectionInterval, ← ite_eq_max]
  rfl

/-! ## Tilings -/

def width : Slicing → ℤ
  | .trivialSlicing => fourWeeks
  | .fourHourSlicing => fourHours
  | .hostMetricSlicing => thirtyDays

/-- Where a collection starts: where it is asked to, or else at the recorded entry or the
last gathering, but not before the horizon.  The host metrics start at the recorded entry,
or all of them at their lowest date, if there are any. -/
def startOf (slicing : Slicing) (interval : CollectionInterval) (recording : Recording) :
    Option ℤ :=
  match interval.since, slicing, recording.entry with
  | some since, _, _ => some since
  | none, .hostMetricSlicing, entry =>
      match if recording.fullSyncEnabled then none else entry with
      | some (.time time) => some time
      | _ => lowestDate recording.minLastAutomation recording.minLastDeleted
  | none, _, some (.time time) => some (max time interval.toInterval.horizon)
  | none, _, _ => some (max interval.lastGather interval.toInterval.horizon)

def SlicesTile (slicing : Slicing) (interval : CollectionInterval) (recording : Recording) : Prop :=
  ∃ result, slices slicing interval recording = some result ∧
    match startOf slicing interval recording with
    | some start => Tiles (width slicing) start interval.untilTime result
    | none => result = []

/-- A start before the end, an end that is not in the future, and no more than four weeks
between them. -/
structure Sound (now : ℤ) (interval : CollectionInterval) : Prop where
  until_le : interval.untilTime ≤ now
  since_lt : ∀ since ∈ interval.since, since < interval.untilTime
  span : ∀ since ∈ interval.since, interval.untilTime - since ≤ fourWeeks

def Earlier (entry : Option Entry) (untilTime : ℤ) : Prop :=
  match entry with
  | none => True
  | some (.time time) => time < untilTime
  | some .other => False

/-- When the slices of a function make up the collection.  Four-hour slices always do; a
single slice does not when neither a start nor an entry is there and the last gathering
is not before the end; and the host metrics have no slices when a start is given. -/
def Tiling (slicing : Slicing) (now : ℤ) (lastGather since untilTime : Option ℤ)
    (entry : Option Entry) : Prop :=
  match slicing with
  | .trivialSlicing => since.isSome ∨ entry.isSome ∨
      ∀ gathered ∈ lastGather, gathered < min (untilTime.getD now) now
  | .fourHourSlicing => True
  | .hostMetricSlicing => since = none

variable {now : ℤ} {lastGather since untilTime : Option ℤ} {interval : CollectionInterval}
  {recording : Recording}

theorem calculate_none
    (hinterval : CollectionIntervals.calculateCollectionInterval now lastGather none untilTime =
      some interval) :
    interval.since = none ∧ interval.untilTime = min (untilTime.getD now) now ∧
      interval.lastGather = max (lastGather.getD interval.toInterval.horizon)
        interval.toInterval.horizon := by
  have huntil : resolveUntil now none (untilTime.map fun time => if now < time then now else time) =
      min (untilTime.getD now) now := by
    cases untilTime with
    | none => exact (min_self now).symm
    | some time => exact ite_eq_min now time
  rw [CollectionIntervals.calculateCollectionInterval, Option.map_none, huntil] at hinterval
  obtain rfl := Option.some.inj hinterval
  exact ⟨rfl, rfl, ite_eq_max _ _⟩

theorem calculate_some {start : ℤ}
    (hinterval : CollectionIntervals.calculateCollectionInterval now lastGather (some start)
      untilTime = some interval) :
    interval.since = some (min start now) ∧ min start now < interval.untilTime ∧
      interval.untilTime ≤ now ∧ interval.untilTime - min start now ≤ fourWeeks := by
  rw [CollectionIntervals.calculateCollectionInterval, Option.map_some, ite_eq_min] at hinterval
  have huntil : resolveUntil now (some (min start now))
        (untilTime.map fun time => if now < time then now else time) ≤ now ∧
      resolveUntil now (some (min start now))
        (untilTime.map fun time => if now < time then now else time) ≤
          min start now + fourWeeks := by
    cases untilTime with
    | none => exact ⟨min_le_right _ _, min_le_left _ _⟩
    | some time =>
      rw [Option.map_some, ite_eq_min, resolveUntil]
      split <;> omega
  generalize resolveUntil now (some (min start now))
    (untilTime.map fun time => if now < time then now else time) = stop at hinterval huntil
  dsimp only at hinterval
  split at hinterval
  · exact absurd hinterval fun h => nomatch h
  next hlt =>
    have hlt : min start now < stop := not_le.mp fun hle => hlt (decide_eq_true hle)
    have hhorizon : ¬ min start now < stop - fourWeeks := by omega
    obtain rfl := Option.some.inj hinterval
    rw [Option.map_some, if_neg hhorizon]
    exact ⟨rfl, hlt, huntil.1, by dsimp only; omega⟩

theorem sound_of_calculate
    (hinterval : CollectionIntervals.calculateCollectionInterval now lastGather since untilTime =
      some interval) : Sound now interval := by
  cases since with
  | none =>
    obtain ⟨hsince, huntil, -⟩ := calculate_none hinterval
    refine ⟨huntil ▸ min_le_right _ _, fun since hmem => ?_, fun since hmem => ?_⟩
    · exact absurd (hsince ▸ hmem) (Option.not_mem_none since)
    · exact absurd (hsince ▸ hmem) (Option.not_mem_none since)
  | some start =>
    obtain ⟨hsince, hlt, hle, hspan⟩ := calculate_some hinterval
    refine ⟨hle, fun since hmem => ?_, fun since hmem => ?_⟩
    · rw [hsince] at hmem
      exact (Option.some.inj hmem) ▸ hlt
    · rw [hsince] at hmem
      exact (Option.some.inj hmem) ▸ hspan

theorem slicesTile_of_eq {slicing : Slicing} {result : List (ℤ × ℤ)} {start : ℤ}
    (hslices : slices slicing interval recording = some result)
    (hstart : startOf slicing interval recording = some start) :
    SlicesTile slicing interval recording ↔
      Tiles (width slicing) start interval.untilTime result := by
  constructor
  · rintro ⟨other, hother, htiles⟩
    rw [hstart] at htiles
    rw [Option.some.inj (hslices.symm.trans hother)]
    exact htiles
  · intro htiles
    refine ⟨result, hslices, ?_⟩
    rw [hstart]
    exact htiles

theorem lastEntry_eq (hearlier : Earlier recording.entry interval.untilTime) :
    ∃ start, lastEntry interval.toInterval recording.entry =
        some (max start interval.toInterval.horizon) ∧
      (recording.entry = none ∧ start = interval.lastGather ∨
        recording.entry = some (.time start) ∧ start < interval.untilTime) := by
  cases hentry : recording.entry with
  | none => exact ⟨interval.lastGather, rfl, .inl ⟨rfl, rfl⟩⟩
  | some entry =>
    cases entry with
    | time time =>
      rw [hentry] at hearlier
      exact ⟨time, rfl, .inr ⟨rfl, hearlier⟩⟩
    | other =>
      rw [hentry] at hearlier
      exact absurd hearlier id

theorem startOf_of_lastEntry {slicing : Slicing} (hslicing : slicing ≠ .hostMetricSlicing)
    (hsince : interval.since = none) {start : ℤ}
    (hentry : recording.entry = none ∧ start = interval.lastGather ∨
      recording.entry = some (.time start) ∧ start < interval.untilTime) :
    startOf slicing interval recording = some (max start interval.toInterval.horizon) := by
  unfold startOf
  rw [hsince]
  rcases hentry with ⟨hentry, rfl⟩ | ⟨hentry, -⟩
  · rw [hentry]
    cases slicing with
    | hostMetricSlicing => exact absurd rfl hslicing
    | trivialSlicing => rfl
    | fourHourSlicing => rfl
  · rw [hentry]
    cases slicing with
    | hostMetricSlicing => exact absurd rfl hslicing
    | trivialSlicing => rfl
    | fourHourSlicing => rfl

theorem startOf_since {start : ℤ} (slicing : Slicing) (hsince : interval.since = some start) :
    startOf slicing interval recording = some start := by
  unfold startOf
  rw [hsince]

theorem horizon_lt : interval.toInterval.horizon < interval.untilTime := by
  have hpos : 0 < fourWeeks := by decide
  rw [Interval.horizon]
  omega

theorem slicesTile_trivial_iff (hearlier : Earlier recording.entry interval.untilTime)
    (hsound : Sound now interval) :
    SlicesTile .trivialSlicing interval recording ↔
      interval.since.isSome ∨ recording.entry.isSome ∨
        interval.lastGather < interval.untilTime := by
  cases hsince : interval.since with
  | some since =>
    have hslices : slices .trivialSlicing interval recording =
        some [(since, interval.untilTime)] := by
      rw [slices, trivialSlicing, hsince]
    rw [slicesTile_of_eq hslices (startOf_since _ hsince), tiles_singleton_iff]
    exact iff_of_true ⟨hsound.since_lt since hsince, hsound.span since hsince⟩ (.inl rfl)
  | none =>
    obtain ⟨start, hlast, hentry⟩ := lastEntry_eq hearlier
    have hslices : slices .trivialSlicing interval recording =
        some [(max start interval.toInterval.horizon, interval.untilTime)] := by
      rw [slices, trivialSlicing, hsince, hlast]
      rfl
    have hspan : interval.untilTime - max start interval.toInterval.horizon ≤ fourWeeks := by
      have hle : interval.untilTime - fourWeeks ≤ max start interval.toInterval.horizon :=
        le_max_right _ _
      omega
    rw [slicesTile_of_eq hslices (startOf_of_lastEntry (by decide) hsince hentry),
      tiles_singleton_iff, width, max_lt_iff, and_iff_left horizon_lt, and_iff_left hspan]
    rcases hentry with ⟨hentry, rfl⟩ | ⟨hentry, hlt⟩
    · rw [hentry]
      simp only [Option.isSome_none, Bool.false_eq_true, false_or]
    · rw [hentry]
      exact iff_of_true hlt (.inr (.inl rfl))

theorem slicesTile_fourHour (hearlier : Earlier recording.entry interval.untilTime) :
    SlicesTile .fourHourSlicing interval recording := by
  cases hsince : interval.since with
  | some since =>
    have hslices : slices .fourHourSlicing interval recording =
        some (slicesFrom fourHours fourHours_pos since interval.untilTime) := by
      rw [slices, fourHourSlicing, hsince]
    rw [slicesTile_of_eq hslices (startOf_since _ hsince)]
    exact tiles_slicesFrom _ _ _
  | none =>
    obtain ⟨start, hlast, hentry⟩ := lastEntry_eq hearlier
    have hslices : slices .fourHourSlicing interval recording =
        some (slicesFrom fourHours fourHours_pos (max start interval.toInterval.horizon)
          interval.untilTime) := by
      rw [slices, fourHourSlicing, hsince]
      simp only [hlast, Option.getD_some]
    rw [slicesTile_of_eq hslices (startOf_of_lastEntry (by decide) hsince hentry)]
    exact tiles_slicesFrom _ _ _

theorem slicesTile_hostMetric_iff (hearlier : Earlier recording.entry interval.untilTime)
    (hsound : Sound now interval) :
    SlicesTile .hostMetricSlicing interval recording ↔ interval.since = none := by
  cases hsince : interval.since with
  | some since =>
    have hslices : slices .hostMetricSlicing interval recording = some [] := by
      rw [slices, hostMetricSlicing, hsince]
    rw [slicesTile_of_eq hslices (startOf_since _ hsince), tiles_nil_iff]
    exact iff_of_false (not_le.mpr (hsound.since_lt since hsince)) (Option.some_ne_none since)
  | none =>
    refine iff_of_true ?_ rfl
    unfold SlicesTile slices hostMetricSlicing startOf hostMetricSlices
    rw [hsince]
    dsimp only
    cases hentry : if recording.fullSyncEnabled then none else recording.entry with
    | none =>
      cases lowestDate recording.minLastAutomation recording.minLastDeleted with
      | none => exact ⟨[], rfl, rfl⟩
      | some start => exact ⟨_, rfl, tiles_slicesFrom _ _ _⟩
    | some entry =>
      cases entry with
      | time start => exact ⟨_, rfl, tiles_slicesFrom _ _ _⟩
      | other =>
        have hother : recording.entry = some .other := by
          split at hentry
          · exact absurd hentry fun h => nomatch h
          · exact hentry
        rw [hother] at hearlier
        exact absurd hearlier id

/-- For every start, end and clock that are accepted, and entries before the end: the interval
is sound, and its slices make up the collection exactly where the function tiles. -/
theorem slices_tile_iff (slicing : Slicing)
    (hinterval : CollectionIntervals.calculateCollectionInterval now lastGather since untilTime =
      some interval) (hearlier : Earlier recording.entry interval.untilTime) :
    Sound now interval ∧ SlicesTile slicing interval recording ↔
      Tiling slicing now lastGather since untilTime recording.entry := by
  have hsound := sound_of_calculate hinterval
  have hsince : interval.since.isSome = since.isSome := by
    cases since with
    | none => rw [(calculate_none hinterval).1]
    | some start => rw [(calculate_some hinterval).1]; rfl
  rw [and_iff_right hsound]
  cases slicing with
  | trivialSlicing =>
    rw [slicesTile_trivial_iff hearlier hsound, hsince, Tiling]
    cases since with
    | some start => exact iff_of_true (.inl rfl) (.inl rfl)
    | none =>
      obtain ⟨-, huntil, hlast⟩ := calculate_none hinterval
      refine or_congr Iff.rfl (or_congr Iff.rfl ?_)
      rw [hlast, max_lt_iff, and_iff_left horizon_lt, ← huntil]
      cases lastGather with
      | none =>
        exact iff_of_true horizon_lt fun _ hmem => absurd hmem (Option.not_mem_none _)
      | some gathered =>
        rw [Option.getD_some]
        exact ⟨fun hlt _ hmem => (Option.some.inj hmem) ▸ hlt, fun hall => hall gathered rfl⟩
  | fourHourSlicing => exact iff_of_true (slicesTile_fourHour hearlier) trivial
  | hostMetricSlicing =>
    rw [slicesTile_hostMetric_iff hearlier hsound, Tiling, ← Option.not_isSome_iff_eq_none,
      ← Option.not_isSome_iff_eq_none, hsince]

def unrecorded : Recording where
  entry := none
  minLastAutomation := some 0
  minLastDeleted := none
  fullSyncEnabled := false

theorem unrecorded_hostMetrics_tile :
    SlicesTile .hostMetricSlicing ⟨Analytics.calculateCollectionInterval day none, none⟩
      unrecorded :=
  ((slices_tile_iff .hostMetricSlicing (calculateCollectionInterval_scheduled day none)
    (by exact trivial : Earlier unrecorded.entry day)).mpr rfl).2

/-- The host metrics of a day, with the start of the day given: the generator returns the
slice and yields none. -/
theorem hostMetrics_of_day_lost :
    ∃ interval, CollectionIntervals.calculateCollectionInterval day none (some 0) none =
        some interval ∧
      slices .hostMetricSlicing interval unrecorded = some [] ∧
      ¬ (Sound day interval ∧ SlicesTile .hostMetricSlicing interval unrecorded) := by
  refine ⟨⟨⟨day, day - fourWeeks⟩, some 0⟩, rfl, rfl, ?_⟩
  rintro ⟨-, slices, hslices, htiles⟩
  obtain rfl := Option.some.inj hslices
  exact absurd (tiles_nil_iff.mp htiles) (by decide)

end Forail.CollectionIntervals
