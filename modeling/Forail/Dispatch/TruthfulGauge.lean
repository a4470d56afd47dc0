import Forail.Dispatch.FlushOutcomes

/-!
# The gauge of the events in memory

A step keeps the gauge equal to the number of buffered events, and does not divide by zero,
exactly when it does no harm.  So the gauge is right in every state of a run exactly when no
step of the run does harm.
-/

namespace Forail.CallbackReceiver

open Forail.Runs

/-! ## One step -/

variable {failures : Failures} {buff : Buffer} {metered metered' : Metered} {remaining : ℕ}
  {force : Bool}

theorem truthful_initial : Truthful .initial := ⟨rfl, rfl⟩

theorem length_append_buffer (cls : EventClass) (event : Event) (buff : Buffer) :
    ((Receiver.append cls event buff).flatMap Prod.snd).length =
      (buff.flatMap Prod.snd).length + 1 := by
  induction buff with
  | nil => rfl
  | cons entry buff ih =>
    obtain ⟨other, events⟩ := entry
    rw [Receiver.append]
    split
    · simp only [List.flatMap_cons, List.length_append, List.length_singleton]
      omega
    · simp only [List.flatMap_cons, List.length_append, ih]
      omega

theorem not_truthful_of_popped (htruthful : Truthful metered)
    (hgauge : metered'.inMemory = metered.inMemory + 1)
    (hbuffer : metered'.receiver.buff = metered.receiver.buff) : ¬ Truthful metered' := by
  intro hafter
  have hright := hafter.inMemory
  rw [Receiver.buffered, hbuffer, hgauge, htruthful.inMemory] at hright
  exact Int.ne_of_gt (Int.lt_succ _) hright

theorem truthful_read_iff (htruthful : Truthful metered) (summaryFails : Bool)
    (reading : Reading) :
    Truthful (metered.read summaryFails reading) ↔ HarmlessReading reading := by
  cases reading with
  | nothing => exact iff_of_true ⟨htruthful.inMemory, htruthful.zeroDivisions⟩ trivial
  | undecodable => exact iff_of_false (not_truthful_of_popped htruthful rfl rfl) id
  | raised popped =>
    cases popped with
    | false => exact iff_of_true htruthful rfl
    | true => exact iff_of_false (not_truthful_of_popped htruthful rfl rfl) nofun
  | body message =>
    rw [Metered.read, Metered.receive, HarmlessReading]
    split
    · next hflush =>
      refine iff_of_false (not_truthful_of_popped htruthful rfl rfl) fun hharmless => ?_
      exact hharmless.1 hflush
    · next hflush =>
      rw [and_iff_right hflush]
      split
      · next heof =>
        have hsame : metered.inMemory + 1 - 1 = metered.inMemory := Int.add_sub_cancel _ _
        exact iff_of_true ⟨hsame.trans htruthful.inMemory, htruthful.zeroDivisions⟩ (.inl heof)
      · next heof =>
        rw [or_iff_right heof]
        split
        · next hmalformed =>
          refine iff_of_false (not_truthful_of_popped htruthful rfl rfl) fun hfine => ?_
          exact Bool.noConfusion (hfine.symm.trans hmalformed)
        · next hwellFormed =>
          refine iff_of_true ⟨?_, htruthful.zeroDivisions⟩ (eq_false_of_ne_true hwellFormed)
          change metered.inMemory + 1 = (((Receiver.append message.eventClass
            (metered.receiver.create message) metered.receiver.buff).flatMap Prod.snd).length : ℤ)
          rw [length_append_buffer, htruthful.inMemory]
          rfl

/-- The buffer that a flush leaves, which is given up when the last attempt raises. -/
def FlushResult.left (result : FlushResult) (failures : Failures) (remaining : ℕ) : Buffer :=
  if result.raises failures = true ∧ remaining = 0 then [] else result.buff

theorem attempt_of_due (hdue : metered.receiver.due force failures = true) (remaining : ℕ) :
    let result := flushBuffer failures metered.receiver.buff
    let next := metered.attempt force remaining failures
    next.inMemory = metered.inMemory - result.subtracted ∧
      next.zeroDivisions = metered.zeroDivisions + (if result.dividesByZero then 1 else 0) ∧
      next.receiver.buff = result.left failures remaining := by
  have hraises : (metered.receiver.flush force failures).2 =
      (flushBuffer failures metered.receiver.buff).raises failures :=
    congrArg Prod.snd (if_pos hdue)
  have hbuff : (metered.receiver.flush force failures).1.buff =
      (flushBuffer failures metered.receiver.buff).buff :=
    congrArg (fun flushed : Receiver × Bool => flushed.1.buff) (if_pos hdue)
  dsimp only
  rw [Metered.attempt, if_pos hdue, hraises, FlushResult.left]
  dsimp only
  split
  · next hcalm =>
    rw [hcalm]
    exact ⟨rfl, rfl, hbuff.trans (if_neg fun hlast => Bool.false_ne_true hlast.1).symm⟩
  · next hraised =>
    split
    · next hlast => exact ⟨rfl, rfl, (if_pos ⟨eq_true_of_ne_false hraised, hlast⟩).symm⟩
    · next hlast => exact ⟨rfl, rfl, hbuff.trans (if_neg fun hboth => hlast hboth.2).symm⟩

theorem Flushes.harmless_of_raised {result : FlushResult}
    (hflushes : Flushes failures buff result) (hraised : result.raised = true) :
    (result.subtracted + ((result.left failures remaining).flatMap Prod.snd).length =
        (buff.flatMap Prod.snd).length ∧ result.dividesByZero = false) ↔
      HarmlessFlush buff remaining failures := by
  have hlength := hflushes.length
  have hpos := hflushes.length_pos hraised
  have hsubtracted : result.subtracted = 0 := if_pos hraised
  have hdivides : result.dividesByZero = false := by rw [FlushResult.dividesByZero, hraised]; rfl
  have hraises : result.raises failures = true := by rw [FlushResult.raises, hraised]; rfl
  have hclean : ¬ Clean failures buff := by
    intro hclean
    have hcalm := hflushes.steady.mpr fun entry hentry => (hclean entry hentry).1
    exact Bool.noConfusion (hcalm.symm.trans hraised)
  have hfruitless : Fruitless failures buff ↔
      result.saved.length = 0 ∧ result.dropped.length = 0 := by
    rw [← hflushes.fruitless, and_iff_right hraised, List.length_eq_zero_iff,
      List.length_eq_zero_iff]
  rw [hsubtracted, FlushResult.left, and_iff_left hdivides, HarmlessFlush,
    or_iff_right fun hharmless => hclean hharmless.1, hfruitless]
  by_cases hlast : remaining = 0
  · rw [if_pos ⟨hraises, hlast⟩]
    exact iff_of_false (Nat.ne_of_lt hpos) fun hmore => hmore.1 hlast
  · rw [if_neg fun hboth => hlast hboth.2, and_iff_right hlast]
    omega

theorem Flushes.harmless_of_calm {result : FlushResult}
    (hflushes : Flushes failures buff result) (hcalm : result.raised = false) :
    (result.subtracted + ((result.left failures remaining).flatMap Prod.snd).length =
        (buff.flatMap Prod.snd).length ∧ result.dividesByZero = false) ↔
      HarmlessFlush buff remaining failures := by
  have hlength := hflushes.length
  have haccepted := hflushes.accepted hcalm
  have hsubtracted : result.subtracted = result.saved.length :=
    if_neg fun hraised => Bool.noConfusion (hcalm.symm.trans hraised)
  have hdivides : result.dividesByZero = false ↔ Divisible failures buff := by
    rw [← Bool.not_eq_true, hflushes.dividesByZero_iff, ← hflushes.steady, and_iff_right hcalm,
      not_not]
  have hfruitless : ¬ Fruitless failures buff := fun hfruitless =>
    Bool.noConfusion (hcalm.symm.trans (hflushes.fruitless.mpr hfruitless).1)
  have hclean : Clean failures buff ↔ result.dropped.length = 0 := by
    rw [hflushes.clean hcalm, List.length_eq_zero_iff]
  rw [hsubtracted, hdivides, HarmlessFlush, or_iff_left fun hharmless => hfruitless hharmless.2,
    hclean, and_left_comm, and_comm]
  refine and_congr_right fun hdivisible => ?_
  have hraises : result.raises failures = failures.metrics := by
    have hdivided := hdivides.mpr hdivisible
    rw [FlushResult.dividesByZero, hcalm, Bool.not_false, Bool.true_and] at hdivided
    rw [FlushResult.raises, hcalm, hdivided, Bool.or_false, Bool.false_or]
  rw [FlushResult.left, hraises]
  by_cases hgiven : failures.metrics = true ∧ remaining = 0
  · rw [if_pos hgiven, List.flatMap_nil, List.length_nil]
    constructor
    · intro hall
      exact ⟨by omega, fun _ _ => by omega⟩
    · intro hharmless
      have hall := hharmless.2 hgiven.2 hgiven.1
      omega
  · rw [if_neg hgiven, and_iff_left fun hlast hmetrics => absurd ⟨hmetrics, hlast⟩ hgiven]
    omega

/-- What a flush subtracts and leaves are the events that were buffered, and it does not
divide by zero, exactly when it does no harm. -/
theorem Flushes.harmless_iff {result : FlushResult} (hflushes : Flushes failures buff result) :
    (result.subtracted + ((result.left failures remaining).flatMap Prod.snd).length =
        (buff.flatMap Prod.snd).length ∧ result.dividesByZero = false) ↔
      HarmlessFlush buff remaining failures := by
  cases hraised : result.raised with
  | true => exact hflushes.harmless_of_raised hraised
  | false => exact hflushes.harmless_of_calm hraised

theorem truthful_attempt_iff (htruthful : Truthful metered) (force : Bool) (remaining : ℕ)
    (failures : Failures) : Truthful (metered.attempt force remaining failures) ↔
      (metered.receiver.due force failures = true →
        HarmlessFlush metered.receiver.buff remaining failures) := by
  cases hdue : metered.receiver.due force failures with
  | false =>
    refine iff_of_true ?_ fun hdue => absurd hdue Bool.false_ne_true
    have hflush : metered.receiver.flush force failures = (metered.receiver, false) :=
      if_neg (by rw [← Receiver.due, hdue]; exact Bool.false_ne_true)
    rw [Metered.attempt, hflush, hdue]
    exact ⟨htruthful.inMemory, htruthful.zeroDivisions⟩
  | true =>
    obtain ⟨hgauge, hzero, hbuff⟩ := attempt_of_due hdue remaining
    rw [imp_iff_right rfl, ← (flushes_flushBuffer failures metered.receiver.buff).harmless_iff]
    generalize flushBuffer failures metered.receiver.buff = result at *
    have hbefore := htruthful.inMemory
    have hdivisions := htruthful.zeroDivisions
    rw [Receiver.buffered] at hbefore
    have hiff : Truthful (metered.attempt force remaining failures) ↔
        (metered.attempt force remaining failures).inMemory =
          (((metered.attempt force remaining failures).receiver.buff.flatMap Prod.snd).length : ℤ) ∧
        (metered.attempt force remaining failures).zeroDivisions = 0 :=
      ⟨fun h => ⟨h.inMemory, h.zeroDivisions⟩, fun h => ⟨h.1, h.2⟩⟩
    rw [hiff, hgauge, hzero, hbuff, hdivisions]
    refine and_congr ?_ ?_
    · omega
    · cases result.dividesByZero with
      | false => exact iff_of_true rfl rfl
      | true => exact iff_of_false Nat.one_ne_zero fun hzero => Bool.noConfusion hzero

theorem truthful_step_iff (htruthful : Truthful metered) {action : Action}
    (hstep : metered.step action = some metered') :
    Truthful metered' ↔ Harmless metered action := by
  cases action with
  | read reading summaryFails =>
    obtain ⟨-, hread⟩ := Option.ite_none_right_eq_some.mp hstep
    obtain rfl := Option.some.inj hread
    exact truthful_read_iff htruthful summaryFails reading
  | flush failures =>
    obtain ⟨⟨force, remaining⟩, hflushing, hattempt⟩ := Option.map_eq_some_iff.mp hstep
    obtain rfl := hattempt
    rw [truthful_attempt_iff htruthful]
    constructor
    · intro hharmless force' remaining' hsame hdue
      obtain ⟨rfl, rfl⟩ := Prod.mk.inj (Option.some.inj (hflushing.symm.trans hsame))
      exact hharmless hdue
    · exact fun hharmless hdue => hharmless force remaining hflushing hdue

/-- A flush divides by zero exactly when nothing raises before and it saves as many events as
came without a creation time.  Whatever steps can be taken, the gauge is right in every state
and no flush divides by zero exactly when none of these steps does harm. -/
theorem flush_metrics_iff (failures : Failures) (buff : Buffer)
    (allowed : Metered → Action → Prop) :
    ((flushBuffer failures buff).dividesByZero = true ↔
      (∀ entry ∈ buff, Steady failures entry.1 entry.2) ∧ ¬ Divisible failures buff) ∧
    ((∀ metered, Run Metered.step allowed .initial metered → Truthful metered) ↔
      ∀ metered action metered', Run Metered.step allowed .initial metered →
        allowed metered action → metered.step action = some metered' →
          Harmless metered action) := by
  refine ⟨(flushes_flushBuffer failures buff).dividesByZero_iff, ?_⟩
  constructor
  · intro htruthful metered action metered' hrun hallowed hstep
    have hnext := htruthful metered' (.next action hrun hallowed hstep)
    exact (truthful_step_iff (htruthful metered hrun) hstep).mp hnext
  · intro hharmless metered hrun
    induction hrun with
    | start => exact truthful_initial
    | next action hrun hallowed hstep ih =>
      exact (truthful_step_iff ih hstep).mpr (hharmless _ action _ hrun hallowed hstep)

/-! ### Messages that do harm -/

def untroubled : Failures where
  elapsed := true
  ensureConnection := fun _ => false
  bulkCreate := fun _ => false
  save := fun _ => false
  emit := fun _ => false
  metrics := false

def undated : Message where
  references := [.jobEvent]
  event := "runner_on_ok"
  stdout := some "ok"
  created := false
  skipWebsocketMessage := false
  malformed := false

/-- One saved event without a creation time is enough for a division by zero, and one message
that cannot be decoded for a gauge that stays too high. -/
theorem undated_divides_by_zero :
    (¬ ∀ failures buff, (flushBuffer failures buff).dividesByZero = false) ∧
      ¬ ∀ metered, Run Metered.step (fun _ _ => True) .initial metered →
        metered.inMemory = metered.receiver.buffered.length := by
  constructor
  · intro hclaim
    have hzero : (flushBuffer untroubled (Receiver.initial.pop undated).buff).dividesByZero =
        true := by decide
    exact Bool.noConfusion (hzero.symm.trans (hclaim untroubled _))
  · intro hclaim
    have hgauge := hclaim _ (.next (.read .undecodable false) .start trivial rfl)
    exact absurd hgauge (by decide)

end Forail.CallbackReceiver
