import Forail.Dispatch.FlushMetrics

/-!
# What a flush does with the events

The outcomes of the single events decide whether the save of a class and the flush of the
buffer raise, how many events they save, and whether they drop some.
-/

namespace Forail.CallbackReceiver

/-! ## The save of a class -/

variable {failures : Failures} {cls : EventClass} {event event' : Event} {events : List Event}
  {buff : Buffer}

theorem retryCount_retried (hretried : event.retried = some event') :
    event'.retryCount = event.retryCount + 1 := by
  rw [Event.retried] at hretried
  dsimp only at hretried
  split at hretried
  · obtain ⟨stdout, -, rfl⟩ := Option.map_eq_some_iff.mp hretried
    split
    · rfl
    · rfl
  · exact congrArg Event.retryCount (Option.some.inj hretried).symm

theorem saveIndividually_cons (hbulk : failures.bulkCreate cls = true) (event : Event)
    (events : List Event) :
    let rest := saveIndividually failures events
    let result := saveIndividually failures (event :: events)
    (saveOutcome failures cls event = .saved ∧
        result = { rest with saved := event :: rest.saved }) ∨
      (saveOutcome failures cls event = .raises ∧
        ∃ tried, result = ⟨tried :: events, [], [], true⟩) ∨
      (saveOutcome failures cls event = .dropped ∧
        ∃ tried, result = { rest with dropped := tried :: rest.dropped }) ∨
      (saveOutcome failures cls event = .kept ∧
        ∃ tried, result = { rest with kept := tried :: rest.kept }) := by
  have hfails : ¬ failures.bulkCreate cls = false := by
    rw [hbulk]
    exact Bool.noConfusion
  dsimp only
  rw [saveIndividually, saveOutcome]
  by_cases hsave : failures.save event.id = false
  · rw [if_pos hsave, if_pos (Or.inr hsave)]
    exact .inl ⟨rfl, rfl⟩
  · rw [if_neg hsave, if_neg (not_or.mpr ⟨hfails, hsave⟩)]
    cases hretried : event.retried with
    | none =>
      rw [if_pos (retried_eq_none_iff.mp hretried)]
      exact .inr (.inl ⟨rfl, _, rfl⟩)
    | some tried =>
      have htext : ¬ (event.retryCount = 0 ∧ event.stdout = none) := by
        rw [← retried_eq_none_iff, hretried]
        exact Option.some_ne_none tried
      dsimp only
      rw [if_neg htext, retryCount_retried hretried]
      split
      · exact .inr (.inr (.inl ⟨rfl, tried, rfl⟩))
      · exact .inr (.inr (.inr ⟨rfl, tried, rfl⟩))

/-- What single saves do, as far as the numbers of events and the order of outcomes go. -/
structure Saves (failures : Failures) (cls : EventClass) (events : List Event)
    (result : SaveResult) : Prop where
  length : result.saved.length + result.kept.length + result.dropped.length = events.length
  raised : result.raised = false ↔ ∀ event ∈ events, saveOutcome failures cls event ≠ .raises
  saved : result.raised = false →
    result.saved = events.filter fun event => saveOutcome failures cls event = .saved
  dropped : result.raised = false →
    (result.dropped = [] ↔ ∀ event ∈ events, saveOutcome failures cls event ≠ .dropped)
  fruitless : (result.raised = true ∧ result.saved = [] ∧ result.dropped = []) ↔
    ∃ event, events.find? (fun event => saveOutcome failures cls event ≠ .kept) = some event ∧
      saveOutcome failures cls event = .raises

theorem saves_saveIndividually (hbulk : failures.bulkCreate cls = true) (events : List Event) :
    Saves failures cls events (saveIndividually failures events) := by
  induction events with
  | nil =>
    constructor
    case length => rfl
    case raised => simp [saveIndividually]
    case saved => exact fun _ => rfl
    case dropped => simp [saveIndividually]
    case fruitless => simp [saveIndividually]
  | cons event events ih =>
    obtain ⟨houtcome, hresult⟩ | ⟨houtcome, tried, hresult⟩ | ⟨houtcome, tried, hresult⟩ |
      ⟨houtcome, tried, hresult⟩ := saveIndividually_cons hbulk event events
    all_goals
      rw [hresult]
      constructor
      case length => simp only [List.length_cons, List.length_nil]; grind [Saves]
      case raised => simp [houtcome, ih.raised]
      case saved => simp +contextual [houtcome, ih.saved]
      case dropped => simp +contextual [houtcome, ih.dropped]
      case fruitless => simp [houtcome, ih.fruitless]

theorem saves_bulk (hbulk : failures.bulkCreate cls = false) (events : List Event) :
    Saves failures cls events ⟨[], events, [], false⟩ := by
  have houtcome : ∀ event, saveOutcome failures cls event = .saved := fun _ => if_pos (.inl hbulk)
  constructor
  case length => rfl
  case raised => simp [houtcome]
  case saved => simp [houtcome]
  case dropped => simp [houtcome]
  case fruitless => simp [houtcome]

theorem saves_saveClass (hconnected : Connected failures cls events) :
    Saves failures cls (prepared events) (saveClass failures cls events) := by
  rw [saveClass]
  split
  · next hnil =>
    subst hnil
    cases hbulk : failures.bulkCreate cls with
    | false => exact saves_bulk hbulk []
    | true => exact saves_saveIndividually hbulk []
  · next hsome =>
    rw [saveEvents]
    cases hbulk : failures.bulkCreate cls with
    | false => exact saves_bulk hbulk _
    | true =>
      rw [if_neg Bool.noConfusion, hconnected hsome hbulk, if_neg Bool.noConfusion]
      exact saves_saveIndividually hbulk _

theorem saveClass_of_not_connected (hlost : ¬ Connected failures cls events) :
    saveClass failures cls events = ⟨prepared events, [], [], true⟩ := by
  rw [Connected, Classical.not_imp, Classical.not_imp] at hlost
  obtain ⟨hsome, hbulk, hensure⟩ := hlost
  rw [saveClass, if_neg hsome, saveEvents, hbulk, if_neg Bool.noConfusion,
    if_pos (eq_true_of_ne_false hensure)]

theorem announce_snd_iff : (announce failures events).2 = false ↔
    ∀ event ∈ events, Sent failures event := by
  induction events with
  | nil => exact iff_of_true rfl fun _ hmem => absurd hmem List.not_mem_nil
  | cons event events ih =>
    rw [announce, List.forall_mem_cons, ← ih]
    split
    · next hraises =>
      exact iff_of_false Bool.noConfusion fun hall => not_sent_iff.mpr hraises hall.1
    · next hsent => exact (and_iff_right (not_not.mp (mt not_sent_iff.mp hsent))).symm

structure SavesClass (failures : Failures) (cls : EventClass) (events : List Event)
    (result : SaveResult) : Prop where
  length : result.saved.length + result.kept.length + result.dropped.length = events.length
  steady : (result.raised = false ∧ (announce failures result.saved).2 = false) ↔
    Steady failures cls events
  accepted : result.raised = false → result.saved.length =
    events.countP fun event => saveOutcome failures cls event = .saved
  dropped : result.raised = false →
    (result.dropped = [] ↔ ∀ event ∈ events, saveOutcome failures cls event ≠ .dropped)
  interrupted : (result.raised = true ∧ result.saved = [] ∧ result.dropped = []) ↔
    Interrupted failures cls events
  idle : (result.raised = false ∧ result.saved = [] ∧ result.dropped = []) ↔
    Idle failures cls events

theorem forall_prepared {property : Event → Prop}
    (hproperty : ∀ event, property { event with created := true } ↔ property event) :
    (∀ event ∈ prepared events, property event) ↔ ∀ event ∈ events, property event := by
  rw [prepared, List.forall_mem_map]
  exact forall₂_congr fun event _ => hproperty event

section

variable {result : SaveResult} (hsaves : Saves failures cls (prepared events) result)
include hsaves

theorem Saves.raised_prepared : result.raised = false ↔
    ∀ event ∈ events, saveOutcome failures cls event ≠ .raises :=
  hsaves.raised.trans (forall_prepared fun _ => Iff.rfl)

theorem Saves.dropped_prepared (hcalm : result.raised = false) :
    result.dropped = [] ↔ ∀ event ∈ events, saveOutcome failures cls event ≠ .dropped :=
  (hsaves.dropped hcalm).trans (forall_prepared fun _ => Iff.rfl)

theorem Saves.saved_prepared (hcalm : result.raised = false) :
    result.saved = [] ↔ ∀ event ∈ events, saveOutcome failures cls event ≠ .saved := by
  rw [hsaves.saved hcalm, List.filter_eq_nil_iff]
  refine Iff.trans (forall₂_congr fun event _ => ?_) (forall_prepared fun _ => Iff.rfl)
  rw [decide_eq_true_iff]

theorem Saves.sent_prepared (hcalm : result.raised = false) :
    (announce failures result.saved).2 = false ↔
      ∀ event ∈ events, saveOutcome failures cls event = .saved → Sent failures event := by
  rw [announce_snd_iff, hsaves.saved hcalm, List.forall_mem_filter]
  refine Iff.trans (forall₂_congr fun event _ => ?_) (forall_prepared fun _ => Iff.rfl)
  rw [decide_eq_true_iff]

theorem Saves.steady_iff (hconnected : Connected failures cls events) :
    (result.raised = false ∧ (announce failures result.saved).2 = false) ↔
      Steady failures cls events := by
  constructor
  · intro hcalm
    exact ⟨hconnected, hsaves.raised_prepared.mp hcalm.1,
      (hsaves.sent_prepared hcalm.1).mp hcalm.2⟩
  · intro hsteady
    have hcalm := hsaves.raised_prepared.mpr hsteady.texts
    exact ⟨hcalm, (hsaves.sent_prepared hcalm).mpr hsteady.sent⟩

theorem Saves.interrupted_iff (hconnected : Connected failures cls events) :
    (result.raised = true ∧ result.saved = [] ∧ result.dropped = []) ↔
      Interrupted failures cls events := by
  rw [hsaves.fruitless, Interrupted, or_iff_right (not_not.mpr hconnected),
    and_iff_right hconnected, prepared, List.find?_map]
  constructor
  · intro hfirst
    obtain ⟨tried, hfind, hraises⟩ := hfirst
    obtain ⟨event, hevent, rfl⟩ := Option.map_eq_some_iff.mp hfind
    exact ⟨event, hevent, hraises⟩
  · intro hfirst
    obtain ⟨event, hfind, hraises⟩ := hfirst
    exact ⟨_, Option.map_eq_some_iff.mpr ⟨event, hfind, rfl⟩, hraises⟩

theorem Saves.idle_iff (hconnected : Connected failures cls events) :
    (result.raised = false ∧ result.saved = [] ∧ result.dropped = []) ↔
      Idle failures cls events := by
  constructor
  · intro hidle
    obtain ⟨hcalm, hnone, hstay⟩ := hidle
    refine ⟨hconnected, fun event hevent => ?_⟩
    cases houtcome : saveOutcome failures cls event with
    | saved => exact absurd houtcome ((hsaves.saved_prepared hcalm).mp hnone event hevent)
    | kept => rfl
    | dropped => exact absurd houtcome ((hsaves.dropped_prepared hcalm).mp hstay event hevent)
    | raises => exact absurd houtcome (hsaves.raised_prepared.mp hcalm event hevent)
  · intro hidle
    obtain ⟨-, hkept⟩ := hidle
    have hother : ∀ outcome : SaveOutcome, .kept ≠ outcome →
        ∀ event ∈ events, saveOutcome failures cls event ≠ outcome :=
      fun _ hne event hevent => hkept event hevent ▸ hne
    have hcalm := hsaves.raised_prepared.mpr (hother .raises SaveOutcome.noConfusion)
    exact ⟨hcalm, (hsaves.saved_prepared hcalm).mpr (hother .saved SaveOutcome.noConfusion),
      (hsaves.dropped_prepared hcalm).mpr (hother .dropped SaveOutcome.noConfusion)⟩

end

theorem savesClass_saveClass (failures : Failures) (cls : EventClass) (events : List Event) :
    SavesClass failures cls events (saveClass failures cls events) := by
  by_cases hconnected : Connected failures cls events
  · have hsaves := saves_saveClass hconnected
    constructor
    case length => rw [hsaves.length, prepared, List.length_map]
    case steady => exact hsaves.steady_iff hconnected
    case accepted =>
      intro hcalm
      rw [hsaves.saved hcalm, ← List.countP_eq_length_filter, prepared, List.countP_map]
      rfl
    case dropped => exact hsaves.dropped_prepared
    case interrupted => exact hsaves.interrupted_iff hconnected
    case idle => exact hsaves.idle_iff hconnected
  · rw [saveClass_of_not_connected hconnected]
    constructor
    case length => simp [prepared]
    case steady =>
      refine iff_of_false (fun hcalm => Bool.noConfusion hcalm.1) fun hsteady => ?_
      exact hconnected hsteady.connected
    case accepted => exact fun hcalm => Bool.noConfusion hcalm
    case dropped => exact fun hcalm => Bool.noConfusion hcalm
    case interrupted => exact iff_of_true ⟨rfl, rfl, rfl⟩ (.inl hconnected)
    case idle =>
      exact iff_of_false (fun hcalm => Bool.noConfusion hcalm.1) fun hidle => hconnected hidle.1

/-! ## The flush of the buffer -/

theorem fruitless_cons : Fruitless failures ((cls, events) :: buff) ↔
    Interrupted failures cls events ∨ Idle failures cls events ∧ Fruitless failures buff := by
  constructor
  · intro hfruitless
    obtain ⟨before, entry, after, hbuff, hidle, hinterrupted⟩ := hfruitless
    cases before with
    | nil =>
      obtain ⟨rfl, rfl⟩ := List.cons.inj hbuff
      exact .inl hinterrupted
    | cons head before =>
      obtain ⟨rfl, rfl⟩ := List.cons.inj hbuff
      obtain ⟨hhead, hbefore⟩ := List.forall_mem_cons.mp hidle
      exact .inr ⟨hhead, before, entry, after, rfl, hbefore, hinterrupted⟩
  · intro hfirst
    cases hfirst with
    | inl hinterrupted =>
      exact ⟨[], (cls, events), buff, rfl, fun _ hmem => absurd hmem List.not_mem_nil, hinterrupted⟩
    | inr hlater =>
      obtain ⟨hidle, before, entry, after, rfl, hbefore, hinterrupted⟩ := hlater
      exact ⟨(cls, events) :: before, entry, after, rfl,
        List.forall_mem_cons.mpr ⟨hidle, hbefore⟩, hinterrupted⟩

structure Flushes (failures : Failures) (buff : Buffer) (result : FlushResult) : Prop where
  length : result.saved.length + (result.buff.flatMap Prod.snd).length + result.dropped.length =
    (buff.flatMap Prod.snd).length
  steady : result.raised = false ↔ ∀ entry ∈ buff, Steady failures entry.1 entry.2
  accepted : result.raised = false → result.saved.length = acceptedCount failures buff
  missing : result.raised = false → result.missingCreated = missingCount buff
  dropped : result.raised = false → (result.dropped = [] ↔
    ∀ entry ∈ buff, ∀ event ∈ entry.2, saveOutcome failures entry.1 event ≠ .dropped)
  fruitless : (result.raised = true ∧ result.saved = [] ∧ result.dropped = []) ↔
    Fruitless failures buff

theorem flushes_stopped {result : SaveResult} (hclass : SavesClass failures cls events result)
    (hraised : ¬ (result.raised = false ∧ (announce failures result.saved).2 = false))
    (wrapups : List ℕ) (missing : ℕ)
    (hfruitless : (result.saved = [] ∧ result.dropped = []) ↔
      Fruitless failures ((cls, events) :: buff)) :
    Flushes failures ((cls, events) :: buff)
      ⟨(cls, result.kept) :: buff, result.saved, result.dropped, wrapups, true, missing⟩ where
  length := by
    have hlength := hclass.length
    simp only [List.flatMap_cons, List.length_append]
    omega
  steady := by
    refine iff_of_false Bool.noConfusion fun hsteady => hraised ?_
    exact hclass.steady.mpr (List.forall_mem_cons.mp hsteady).1
  accepted := fun hcalm => Bool.noConfusion hcalm
  missing := fun hcalm => Bool.noConfusion hcalm
  dropped := fun hcalm => Bool.noConfusion hcalm
  fruitless := (and_iff_right rfl).trans hfruitless

theorem flushes_flushBuffer (failures : Failures) (buff : Buffer) :
    Flushes failures buff (flushBuffer failures buff) := by
  induction buff with
  | nil =>
    constructor
    case length => rfl
    case steady => exact iff_of_true rfl fun _ hmem => absurd hmem List.not_mem_nil
    case accepted => exact fun _ => rfl
    case missing => exact fun _ => rfl
    case dropped => exact fun _ => iff_of_true rfl fun _ hmem => absurd hmem List.not_mem_nil
    case fruitless =>
      refine iff_of_false (fun hraised => Bool.noConfusion hraised.1) fun hfruitless => ?_
      obtain ⟨before, entry, after, hbuff, -, -⟩ := hfruitless
      exact List.cons_ne_nil _ _ (List.append_eq_nil_iff.mp hbuff.symm).2
  | cons entry buff ih =>
    obtain ⟨cls, events⟩ := entry
    have hclass := savesClass_saveClass failures cls events
    rw [flushBuffer_cons]
    dsimp only
    generalize saveClass failures cls events = result at hclass
    split
    · next hraised =>
      refine flushes_stopped hclass ?_ _ _ ?_
      · exact fun hcalm => Bool.noConfusion (hcalm.1.symm.trans hraised)
      · rw [fruitless_cons, ← hclass.interrupted, ← hclass.idle, hraised]
        simp
    · next hcalm =>
      rw [Bool.not_eq_true] at hcalm
      split
      · next hunsent =>
        have hsome : result.saved ≠ [] := by
          intro hnone
          rw [hnone] at hunsent
          exact Bool.noConfusion hunsent
        refine flushes_stopped hclass ?_ _ _ ?_
        · exact fun hcalm => Bool.noConfusion (hcalm.2.symm.trans hunsent)
        · rw [fruitless_cons, ← hclass.interrupted, ← hclass.idle]
          simp [hsome]
      · next hsent =>
        rw [Bool.not_eq_true] at hsent
        constructor
        case length =>
          have hlength := hclass.length
          have hrest := ih.length
          simp only [List.flatMap_cons, List.length_append]
          omega
        case steady =>
          rw [List.forall_mem_cons, ← hclass.steady, ih.steady]
          exact (and_iff_right ⟨hcalm, hsent⟩).symm
        case accepted =>
          intro hrest
          rw [List.length_append, hclass.accepted hcalm, ih.accepted hrest, acceptedCount,
            acceptedCount, List.flatMap_cons, List.length_append, List.countP_eq_length_filter]
        case missing =>
          intro hrest
          rw [ih.missing hrest, missingCount, missingCount, List.flatMap_cons, List.countP_append]
        case dropped =>
          intro hrest
          rw [List.append_eq_nil_iff, List.forall_mem_cons, hclass.dropped hcalm, ih.dropped hrest]
        case fruitless =>
          rw [fruitless_cons, ← hclass.interrupted, ← hclass.idle, ← ih.fruitless, hcalm]
          simp only [List.append_eq_nil_iff]
          tauto

theorem Flushes.clean {result : FlushResult} (hflushes : Flushes failures buff result)
    (hcalm : result.raised = false) : Clean failures buff ↔ result.dropped = [] := by
  rw [hflushes.dropped hcalm]
  constructor
  · exact fun hclean entry hentry => (hclean entry hentry).2
  · exact fun hstay entry hentry => ⟨hflushes.steady.mp hcalm entry hentry, hstay entry hentry⟩

theorem Flushes.dividesByZero_iff {result : FlushResult}
    (hflushes : Flushes failures buff result) : result.dividesByZero = true ↔
      (∀ entry ∈ buff, Steady failures entry.1 entry.2) ∧ ¬ Divisible failures buff := by
  rw [FlushResult.dividesByZero, Bool.and_eq_true, Bool.not_eq_true', ← hflushes.steady,
    decide_eq_true_iff]
  refine and_congr_right fun hcalm => ?_
  rw [Divisible, not_or, not_not, ← hflushes.accepted hcalm, hflushes.missing hcalm, Ne,
    ← List.length_eq_zero_iff]

theorem Flushes.length_pos {result : FlushResult} (hflushes : Flushes failures buff result)
    (hraised : result.raised = true) : 0 < (buff.flatMap Prod.snd).length := by
  rw [List.length_pos_iff]
  intro hempty
  have hsteady : ∀ entry ∈ buff, Steady failures entry.1 entry.2 := by
    intro entry hentry
    have hnone : entry.2 = [] := List.flatMap_eq_nil_iff.mp hempty entry hentry
    rw [hnone]
    exact ⟨fun hsome => absurd rfl hsome, fun _ hmem => absurd hmem List.not_mem_nil,
      fun _ hmem => absurd hmem List.not_mem_nil⟩
  exact Bool.noConfusion ((hflushes.steady.mpr hsteady).symm.trans hraised)

end Forail.CallbackReceiver
