import Mathlib.Data.List.Induction
import Mathlib.Data.Option.Basic

/-!
# Runs of a partial step function

A system is a partial function from a state and an event to the next state.
A run takes events one after the other, and `allowed` restricts which event may
be taken in which state.  An invariant needs to be checked for the first state
and for one allowed step.
-/

namespace Forail.Runs

variable {State Event : Type*} {step : State → Event → Option State}
  {allowed : State → Event → Prop} {start state : State}

inductive Run (step : State → Event → Option State)
    (allowed : State → Event → Prop) (start : State) : State → Prop where
  | start : Run step allowed start start
  | next {state state' : State} (event : Event)
      (hrun : Run step allowed start state) (hallowed : allowed state event)
      (hstep : step state event = some state') : Run step allowed start state'

theorem Run.invariant (invariant : State → Prop) (hstart : invariant start)
    (hstep : ∀ state event state', invariant state → allowed state event →
      step state event = some state' → invariant state')
    (hrun : Run step allowed start state) : invariant state := by
  induction hrun with
  | start => exact hstart
  | next event _ hallowed htaken ih => exact hstep _ event _ ih hallowed htaken

theorem Run.keeps {View : Type*} (settled : State → Prop) (view : State → View)
    (hstep : ∀ state event state', settled state → allowed state event →
      step state event = some state' → settled state' ∧ view state' = view state)
    (hrun : Run step allowed start state) (hsettled : settled start) :
    settled state ∧ view state = view start := by
  induction hrun with
  | start => exact ⟨hsettled, rfl⟩
  | next event _ hallowed htaken ih =>
    obtain ⟨hsettled', hview⟩ := hstep _ event _ ih.1 hallowed htaken
    exact ⟨hsettled', hview.trans ih.2⟩

theorem Run.trans {middle : State} (hfirst : Run step allowed start middle)
    (hsecond : Run step allowed middle state) : Run step allowed start state := by
  induction hsecond with
  | start => exact hfirst
  | next event _ hallowed hstep ih => exact .next event ih hallowed hstep

theorem Run.mono {allowed' : State → Event → Prop}
    (hallowed : ∀ state event, allowed state event → allowed' state event)
    (hrun : Run step allowed start state) : Run step allowed' start state := by
  induction hrun with
  | start => exact .start
  | next event _ hevent hstep ih => exact .next event ih (hallowed _ event hevent) hstep

theorem run_of_allowed (events : List Event) {state : State}
    (hallowed : ∀ event ∈ events, ∀ state, allowed state event)
    (hevents : events.foldlM step start = some state) : Run step allowed start state := by
  induction events generalizing start with
  | nil =>
    obtain rfl : start = state := by simpa using hevents
    exact .start
  | cons event events ih =>
    rw [List.foldlM_cons] at hevents
    obtain ⟨middle, hmiddle, hrest⟩ := Option.bind_eq_some_iff.mp hevents
    have hevent : allowed start event := hallowed event List.mem_cons_self start
    exact Run.trans (.next event .start hevent hmiddle)
      (ih (fun other hother => hallowed other (List.mem_cons_of_mem _ hother)) hrest)

theorem run_of_foldlM (events : List Event) {state : State}
    (hevents : events.foldlM step start = some state) :
    Run step (fun _ _ => True) start state :=
  run_of_allowed events (fun _ _ _ => trivial) hevents

theorem run_of_checked [∀ state event, Decidable (allowed state event)] (events : List Event)
    {state : State}
    (hevents : events.foldlM (fun state event =>
      if allowed state event then step state event else none) start = some state) :
    Run step allowed start state := by
  induction events generalizing start with
  | nil =>
    obtain rfl : start = state := by simpa using hevents
    exact .start
  | cons event events ih =>
    rw [List.foldlM_cons] at hevents
    obtain ⟨middle, hmiddle, hrest⟩ := Option.bind_eq_some_iff.mp hevents
    obtain ⟨hallowed, hstep⟩ := Option.ite_none_right_eq_some.mp hmiddle
    exact Run.trans (.next event .start hallowed hstep) (ih hrest)

/-- An invariant that says what the events so far have done holds with all of them at the end
of the list. -/
theorem foldlM_invariant (invariant : List Event → State → Prop) {events : List Event}
    (hstart : invariant [] start)
    (hstep : ∀ before event after, events = before ++ event :: after → ∀ state state',
      invariant before state → step state event = some state' →
      invariant (before ++ [event]) state')
    (hevents : events.foldlM step start = some state) : invariant events state := by
  induction events using List.reverseRecOn generalizing state with
  | nil =>
    obtain rfl : start = state := by simpa using hevents
    exact hstart
  | append_singleton events event ih =>
    rw [List.foldlM_append] at hevents
    obtain ⟨middle, hmiddle, hlast⟩ := Option.bind_eq_some_iff.mp hevents
    rw [List.foldlM_cons] at hlast
    obtain ⟨last, htaken, hend⟩ := Option.bind_eq_some_iff.mp hlast
    obtain rfl : last = state := by simpa using hend
    apply hstep events event [] rfl middle last _ htaken
    apply ih _ hmiddle
    intro before other after hsplit
    exact hstep before other (after ++ [event]) (by rw [hsplit, List.append_assoc]; rfl)

/-- When it does not depend on the state whether an event is taken, a list is taken when all
of its events are. -/
theorem isSome_foldlM {taken : Event → Prop} {events : List Event}
    (htaken : ∀ state, ∀ event ∈ events, (step state event).isSome = true ↔ taken event) :
    (events.foldlM step start).isSome = true ↔ ∀ event ∈ events, taken event := by
  induction events generalizing start with
  | nil => exact ⟨fun _ _ hmem => absurd hmem List.not_mem_nil, fun _ => rfl⟩
  | cons event events ih =>
    have hfirst := htaken start event List.mem_cons_self
    rw [List.foldlM_cons, List.forall_mem_cons, ← hfirst]
    cases hstep : step start event with
    | none => exact ⟨fun hsome => absurd hsome Bool.false_ne_true,
        fun hsome => absurd hsome.1 Bool.false_ne_true⟩
    | some middle =>
      rw [Option.isSome_some, and_iff_right rfl]
      exact ih fun state other hother => htaken state other (List.mem_cons_of_mem _ hother)

theorem exists_run_of_any (events : List Event) {test : State → Bool}
    (htest : (events.foldlM step start).any test = true) :
    ∃ state, Run step (fun _ _ => True) start state ∧ test state = true := by
  obtain ⟨state, hstate, hpassed⟩ := Option.any_eq_true .. |>.mp htest
  exact ⟨state, run_of_foldlM events hstate, hpassed⟩

end Forail.Runs
