import Forail.Dispatch.EventMarks

/-!
# Marks that reach the parents

An event that is still buffered while the wrap-up event is built is marked by nobody, and
marks are not passed on beyond the parents.  So marks reach all parents in every order of
steps only when no event has to be marked by the propagation at all.
-/

namespace Forail.EventMarks

open Forail.Runs

variable {events : List JobEvent} {rows : List Row} {row : Row} {mark mark' : Mark}
  {parents : List String} {receiver receiver' : Receiver} {pid : ℕ}

/-! ## Rows -/

@[simp]
theorem Row.event_mark (row : Row) (mark : Mark) : (row.mark mark).event = row.event := by
  cases mark <;> rfl

theorem Row.marked_mark (row : Row) (mark mark' : Mark) :
    (row.mark mark).marked mark' = true ↔ row.marked mark' = true ∨ mark' = mark := by
  cases mark <;> cases mark' <;> simp [Row.mark, Row.marked]

@[simp]
theorem event_createFromData (event : JobEvent) : (createFromData event).event = event := by
  rw [createFromData]
  split
  · split
    · split <;> rfl
    · rfl
  · rfl

/-- A row after an update of others or of itself. -/
structure Row.Grown (row row' : Row) : Prop where
  event : row'.event = row.event
  marked : ∀ mark, row.marked mark = true → row'.marked mark = true

theorem Row.Grown.refl (row : Row) : Row.Grown row row := ⟨rfl, fun _ hmarked => hmarked⟩

theorem of_mem_markParents {row' : Row} (hrow' : row' ∈ markParents rows mark parents) :
    ∃ row ∈ rows, row.Grown row' ∧ ∀ mark', row'.marked mark' = true →
      row.marked mark' = true ∨ (mark' = mark ∧ row.event.uuid ∈ parents) := by
  obtain ⟨row, hrow, rfl⟩ := List.mem_map.mp hrow'
  refine ⟨row, hrow, ?_⟩
  split
  · next hparent =>
    refine ⟨⟨row.event_mark mark, fun mark' hmarked => ?_⟩, fun mark' hmarked => ?_⟩
    · exact (row.marked_mark mark mark').mpr (.inl hmarked)
    · exact ((row.marked_mark mark mark').mp hmarked).imp_right fun hmark => ⟨hmark, hparent⟩
  · exact ⟨.refl row, fun _ hmarked => .inl hmarked⟩

theorem exists_mem_markParents (hrow : row ∈ rows) (mark : Mark) (parents : List String) :
    ∃ row' ∈ markParents rows mark parents, row.Grown row' := by
  refine ⟨_, List.mem_map_of_mem hrow, ?_⟩
  split
  · exact ⟨row.event_mark mark, fun mark' hmarked =>
      (row.marked_mark mark mark').mpr (.inl hmarked)⟩
  · exact .refl row

/-! ## Steps -/

inductive Taken (receiver : Receiver) : Receiver → Prop where
  | popped (pid : ℕ) (event : JobEvent) (queue : List JobEvent)
      (hqueue : receiver.queue = event :: queue)
      (hbuilding : (receiver.workers pid).building = none) :
      Taken receiver { receiver.setWorker pid
        ⟨none, (receiver.workers pid).buff ++ [createFromData event]⟩ with queue := queue }
  | started (pid : ℕ) (event : JobEvent) (queue : List JobEvent)
      (hqueue : receiver.queue = event :: queue)
      (hbuilding : (receiver.workers pid).building = none) :
      Taken receiver { receiver.setWorker pid
        ⟨some (createFromData event, .select .changed), (receiver.workers pid).buff⟩ with
        queue := queue }
  | selected (pid : ℕ) (row : Row) (mark : Mark)
      (hbuilding : (receiver.workers pid).building = some (row, .select mark)) :
      Taken receiver (receiver.setWorker pid
        ⟨some (row, .update mark (parentUuids receiver.saved mark)),
          (receiver.workers pid).buff⟩)
  | updated (pid : ℕ) (row : Row) (mark : Mark) (parents : List String) (worker : Worker)
      (hbuilding : (receiver.workers pid).building = some (row, .update mark parents))
      (hworker : worker = ⟨some (row, .select .failed), (receiver.workers pid).buff⟩ ∨
        worker = ⟨none, (receiver.workers pid).buff ++ [row]⟩) :
      Taken receiver { receiver.setWorker pid worker with
        saved := markParents receiver.saved mark parents }
  | raised (pid : ℕ) (row : Row) (statement : Statement)
      (hbuilding : (receiver.workers pid).building = some (row, statement)) :
      Taken receiver { receiver.setWorker pid ⟨none, (receiver.workers pid).buff⟩ with
        lost := receiver.lost ++ [row.event] }
  | flushed (pid : ℕ) (outcome : Row → Outcome)
      (hbuilding : (receiver.workers pid).building = none) :
      Taken receiver { receiver.setWorker pid
        ⟨none, (receiver.workers pid).buff.filter fun row => outcome row = .kept⟩ with
        saved := receiver.saved ++
          (receiver.workers pid).buff.filter fun row => outcome row = .saved
        lost := receiver.lost ++
          ((receiver.workers pid).buff.filter fun row => outcome row = .dropped).map Row.event }

theorem taken_of_step {action : Action} (hstep : step receiver action = some receiver') :
    Taken receiver receiver' := by
  cases action with
  | pop pid =>
    rw [step.eq_def] at hstep
    dsimp only at hstep
    split at hstep
    · next event queue hqueue hbuilding =>
      obtain rfl := Option.some.inj hstep
      split
      · exact .started pid event queue hqueue hbuilding
      · exact .popped pid event queue hqueue hbuilding
    · exact absurd hstep.symm (Option.some_ne_none _)
  | execute pid =>
    rw [step, execute.eq_def] at hstep
    split at hstep
    · exact absurd hstep.symm (Option.some_ne_none _)
    · next row mark hbuilding =>
      obtain rfl := Option.some.inj hstep
      exact .selected pid row mark hbuilding
    · next row parents hbuilding =>
      obtain rfl := Option.some.inj hstep
      exact .updated pid row .changed parents _ hbuilding (.inl rfl)
    · next row parents hbuilding =>
      obtain rfl := Option.some.inj hstep
      exact .updated pid row .failed parents _ hbuilding (.inr rfl)
  | raise pid =>
    rw [step.eq_def] at hstep
    dsimp only at hstep
    split at hstep
    · exact absurd hstep.symm (Option.some_ne_none _)
    · next row statement hbuilding =>
      obtain rfl := Option.some.inj hstep
      exact .raised pid row statement hbuilding
  | flush pid outcome =>
    rw [step.eq_def] at hstep
    dsimp only at hstep
    split at hstep
    · exact absurd hstep.symm (Option.some_ne_none _)
    · next hbuilding =>
      obtain rfl := Option.some.inj hstep
      exact .flushed pid outcome hbuilding

/-! ## Events that are saved once -/

def Receiver.Held (receiver : Receiver) (row : Row) : Prop :=
  ∃ pid, row ∈ (receiver.workers pid).rows

theorem Worker.mem_rows {worker : Worker} :
    row ∈ worker.rows ↔ (∃ statement, worker.building = some (row, statement)) ∨
      row ∈ worker.buff := by
  rw [Worker.rows, List.mem_append]
  apply or_congr_left
  cases worker.building with
  | none => simp
  | some built => cases built; simp [eq_comm]

theorem Receiver.held_setWorker {worker : Worker} {gained given : List Row}
    (hrows : ∀ row, row ∈ worker.rows ∨ row ∈ given ↔
      row ∈ (receiver.workers pid).rows ∨ row ∈ gained) (row : Row) :
    (receiver.setWorker pid worker).Held row ∨ row ∈ given ↔ receiver.Held row ∨ row ∈ gained := by
  constructor
  · rintro (⟨other, hrow⟩ | hgiven)
    · by_cases hother : other = pid
      · subst hother
        rw [Receiver.workers_setWorker_self] at hrow
        exact ((hrows row).mp (.inl hrow)).imp_left fun hrow => ⟨other, hrow⟩
      · rw [Receiver.workers_setWorker_of_ne _ _ _ hother] at hrow
        exact .inl ⟨other, hrow⟩
    · exact ((hrows row).mp (.inr hgiven)).imp_left fun hrow => ⟨pid, hrow⟩
  · rintro (⟨other, hrow⟩ | hgained)
    · by_cases hother : other = pid
      · subst hother
        refine ((hrows row).mpr (.inl hrow)).imp_left fun hrow => ⟨other, ?_⟩
        rw [Receiver.workers_setWorker_self]
        exact hrow
      · refine .inl ⟨other, ?_⟩
        rw [Receiver.workers_setWorker_of_ne _ _ _ hother]
        exact hrow
    · refine ((hrows row).mpr (.inr hgained)).imp_left fun hrow => ⟨pid, ?_⟩
      rw [Receiver.workers_setWorker_self]
      exact hrow

/-- What holds in every state of a run: the events are where they were put, saved rows
have the marks of their own, marks have a reason, and the parents that were read still
have a marked child. -/
structure Sound (events : List JobEvent) (receiver : Receiver) : Prop where
  known : ∀ event, event ∈ events ↔ event ∈ receiver.queue ∨
    (∃ row, receiver.Held row ∧ row.event = event) ∨
    (∃ row ∈ receiver.saved, row.event = event) ∨ event ∈ receiver.lost
  fresh : ∀ row, receiver.Held row → row = createFromData row.event
  own : ∀ row ∈ receiver.saved, ∀ mark, row.event.own mark = true → row.marked mark = true
  justified : ∀ mark, ∀ row ∈ receiver.saved, row.marked mark = true →
    row.event.own mark = true ∨
      ∃ child ∈ receiver.saved, row.IsParent child ∧ child.marked mark = true
  parents : ∀ pid row mark parents,
    (receiver.workers pid).building = some (row, .update mark parents) →
      ∀ uuid ∈ parents, ∃ child ∈ receiver.saved,
        child.event.parentUuid = uuid ∧ child.marked mark = true

/-- The rows that a step gets from the queue, saves and drops. -/
structure Moves (receiver receiver' : Receiver) (gained others dropped : List Row) : Prop where
  queue : receiver.queue.map createFromData = gained ++ receiver'.queue.map createFromData
  held : ∀ row, receiver'.Held row ∨ row ∈ others ++ dropped ↔ receiver.Held row ∨ row ∈ gained
  saved : receiver'.saved = receiver.saved ++ others ∨
    others = [] ∧ ∃ pid row mark parents,
      (receiver.workers pid).building = some (row, .update mark parents) ∧
        receiver'.saved = markParents receiver.saved mark parents
  lost : receiver'.lost = receiver.lost ++ dropped.map Row.event

theorem moves_of_taken (htaken : Taken receiver receiver') :
    ∃ gained others dropped, Moves receiver receiver' gained others dropped := by
  cases htaken with
  | popped pid event queue hqueue hbuilding =>
    refine ⟨[createFromData event], [], [], ?_, fun row => ?_, .inl (List.append_nil _).symm,
      (List.append_nil _).symm⟩
    · rw [hqueue]
      rfl
    · refine receiver.held_setWorker (fun row => ?_) row
      simp [Worker.mem_rows, hbuilding]
  | started pid event queue hqueue hbuilding =>
    refine ⟨[createFromData event], [], [], ?_, fun row => ?_, .inl (List.append_nil _).symm,
      (List.append_nil _).symm⟩
    · rw [hqueue]
      rfl
    · refine receiver.held_setWorker (fun row => ?_) row
      simp [Worker.mem_rows, hbuilding, or_comm, eq_comm]
  | selected pid row mark hbuilding =>
    refine ⟨[], [], [], rfl, fun row => ?_, .inl (List.append_nil _).symm,
      (List.append_nil _).symm⟩
    refine receiver.held_setWorker (fun row => ?_) row
    simp [Worker.mem_rows, hbuilding]
  | updated pid row mark parents worker hbuilding hworker =>
    refine ⟨[], [], [], rfl, fun row => ?_, .inr ⟨rfl, pid, row, mark, parents, hbuilding, rfl⟩,
      (List.append_nil _).symm⟩
    refine receiver.held_setWorker (fun row => ?_) row
    rcases hworker with rfl | rfl
    · simp [Worker.mem_rows, hbuilding]
    · simp [Worker.mem_rows, hbuilding, or_comm, eq_comm]
  | raised pid row statement hbuilding =>
    refine ⟨[], [], [row], rfl, fun row => ?_, .inl (List.append_nil _).symm, rfl⟩
    refine receiver.held_setWorker (fun row => ?_) row
    simp [Worker.mem_rows, hbuilding, or_comm, eq_comm]
  | flushed pid outcome hbuilding =>
    refine ⟨[], _, _, rfl, fun row => ?_, .inl rfl, rfl⟩
    refine receiver.held_setWorker (fun row => ?_) row
    simp only [Worker.mem_rows, hbuilding, List.mem_append, List.mem_filter, decide_eq_true_eq,
      List.not_mem_nil, or_false]
    cases outcome row <;> simp

namespace Moves

variable {gained others dropped : List Row}

section

variable (hmoves : Moves receiver receiver' gained others dropped)
include hmoves

theorem queue_eq : receiver.queue = gained.map Row.event ++ receiver'.queue := by
  have hevents : ∀ queue : List JobEvent, (queue.map createFromData).map Row.event = queue := by
    intro queue
    rw [List.map_map]
    exact List.map_id'' event_createFromData queue
  rw [← hevents receiver.queue, hmoves.queue, List.map_append, hevents]

theorem grown (hrow : row ∈ receiver.saved) :
    ∃ row' ∈ receiver'.saved, row.Grown row' := by
  rcases hmoves.saved with hsaved | ⟨-, pid, built, mark, parents, -, hsaved⟩
  · rw [hsaved]
    exact ⟨row, List.mem_append_left _ hrow, .refl row⟩
  · rw [hsaved]
    exact exists_mem_markParents hrow mark parents

theorem saved_events (event : JobEvent) :
    (∃ row ∈ receiver'.saved, row.event = event) ↔
      (∃ row ∈ receiver.saved, row.event = event) ∨ ∃ row ∈ others, row.event = event := by
  rcases hmoves.saved with hsaved | ⟨rfl, pid, built, mark, parents, -, hsaved⟩
  · rw [hsaved]
    simp only [List.mem_append, or_and_right, exists_or]
  · rw [hsaved]
    simp only [List.not_mem_nil, false_and, exists_false, or_false]
    constructor
    · rintro ⟨row', hrow', rfl⟩
      obtain ⟨row, hrow, hgrown, -⟩ := of_mem_markParents hrow'
      exact ⟨row, hrow, hgrown.event.symm⟩
    · rintro ⟨row, hrow, rfl⟩
      obtain ⟨row', hrow', hgrown⟩ := exists_mem_markParents hrow mark parents
      exact ⟨row', hrow', hgrown.event⟩

theorem held_events (event : JobEvent) :
    ((∃ row, receiver'.Held row ∧ row.event = event) ∨ (∃ row ∈ others, row.event = event) ∨
        ∃ row ∈ dropped, row.event = event) ↔
      (∃ row, receiver.Held row ∧ row.event = event) ∨ ∃ row ∈ gained, row.event = event := by
  rw [← exists_or, ← exists_or, ← exists_or]
  apply exists_congr
  intro row
  rw [← or_and_right, ← or_and_right, ← or_and_right, ← List.mem_append]
  exact and_congr_left fun _ => hmoves.held row

theorem known_iff (event : JobEvent) :
    (event ∈ receiver'.queue ∨ (∃ row, receiver'.Held row ∧ row.event = event) ∨
        (∃ row ∈ receiver'.saved, row.event = event) ∨ event ∈ receiver'.lost) ↔
      event ∈ receiver.queue ∨ (∃ row, receiver.Held row ∧ row.event = event) ∨
        (∃ row ∈ receiver.saved, row.event = event) ∨ event ∈ receiver.lost := by
  have hheld := hmoves.held_events event
  rw [hmoves.queue_eq, hmoves.saved_events, hmoves.lost, List.mem_append, List.mem_append,
    List.mem_map, List.mem_map]
  grind

end

end Moves

theorem building_setWorker {worker : Worker} {other : ℕ} {built : Row × Statement}
    (hbuilding : ((receiver.setWorker pid worker).workers other).building = some built) :
    worker.building = some built ∨ (receiver.workers other).building = some built := by
  by_cases hother : other = pid
  · subst hother
    rw [Receiver.workers_setWorker_self] at hbuilding
    exact .inl hbuilding
  · rw [Receiver.workers_setWorker_of_ne _ _ _ hother] at hbuilding
    exact .inr hbuilding

theorem parents_of_taken (htaken : Taken receiver receiver')
    (hbuilding : (receiver'.workers pid).building = some (row, .update mark parents)) :
    (∃ pid row, (receiver.workers pid).building = some (row, .update mark parents)) ∨
      parents = parentUuids receiver.saved mark := by
  cases htaken with
  | popped other event queue hqueue hidle =>
    rcases building_setWorker hbuilding with hnone | hold
    · exact absurd hnone.symm (Option.some_ne_none _)
    · exact .inl ⟨pid, row, hold⟩
  | started other event queue hqueue hidle =>
    rcases building_setWorker hbuilding with hselect | hold
    · cases hselect
    · exact .inl ⟨pid, row, hold⟩
  | selected other built selected hselect =>
    rcases building_setWorker hbuilding with hupdate | hold
    · cases hupdate
      exact .inr rfl
    · exact .inl ⟨pid, row, hold⟩
  | updated other built updated uuids worker hupdate hworker =>
    rcases building_setWorker hbuilding with hnext | hold
    · rcases hworker with rfl | rfl
      · cases hnext
      · exact absurd hnext.symm (Option.some_ne_none _)
    · exact .inl ⟨pid, row, hold⟩
  | raised other built statement hraised =>
    rcases building_setWorker hbuilding with hnone | hold
    · exact absurd hnone.symm (Option.some_ne_none _)
    · exact .inl ⟨pid, row, hold⟩
  | flushed other outcome hidle =>
    rcases building_setWorker hbuilding with hnone | hold
    · exact absurd hnone.symm (Option.some_ne_none _)
    · exact .inl ⟨pid, row, hold⟩

namespace Sound

theorem initial (events : List JobEvent) : Sound events (.initial events) where
  known := by
    intro event
    simp [Receiver.initial, Receiver.Held, Worker.idle, Worker.rows]
  fresh := by
    rintro row ⟨pid, hrow⟩
    exact absurd hrow List.not_mem_nil
  own := fun row hrow => absurd hrow List.not_mem_nil
  justified := fun mark row hrow => absurd hrow List.not_mem_nil
  parents := fun pid row mark parents hbuilding => absurd hbuilding.symm (Option.some_ne_none _)

section Moved

variable {gained others dropped : List Row}

theorem fresh_of_moves (hsound : Sound events receiver)
    (hmoves : Moves receiver receiver' gained others dropped)
    (hrow : receiver'.Held row ∨ row ∈ others ++ dropped) : row = createFromData row.event := by
  rcases (hmoves.held row).mp hrow with hheld | hgained
  · exact hsound.fresh row hheld
  · have hmem : row ∈ receiver.queue.map createFromData :=
      hmoves.queue ▸ List.mem_append_left _ hgained
    obtain ⟨event, -, rfl⟩ := List.mem_map.mp hmem
    rw [event_createFromData]

theorem own_of_moves (hsound : Sound events receiver)
    (hmoves : Moves receiver receiver' gained others dropped) (hrow : row ∈ others) (mark : Mark) :
    row.event.own mark = row.marked mark := by
  rw [JobEvent.own, ← hsound.fresh_of_moves hmoves (.inr (List.mem_append_left _ hrow))]

end Moved

theorem step (hsound : Sound events receiver) (htaken : Taken receiver receiver') :
    Sound events receiver' := by
  obtain ⟨gained, others, dropped, hmoves⟩ := moves_of_taken htaken
  have hread : ∀ pid row mark parents,
      (receiver.workers pid).building = some (row, .update mark parents) →
        ∀ uuid ∈ parents, ∃ child ∈ receiver'.saved,
          child.event.parentUuid = uuid ∧ child.marked mark = true := by
    intro pid row mark parents hbuilding uuid huuid
    obtain ⟨child, hchild, hparent, hmarked⟩ :=
      hsound.parents pid row mark parents hbuilding uuid huuid
    obtain ⟨child', hchild', hgrown⟩ := hmoves.grown hchild
    exact ⟨child', hchild', hgrown.event ▸ hparent, hgrown.marked mark hmarked⟩
  have hreason : ∀ mark, ∀ row ∈ receiver.saved, row.marked mark = true →
      row.event.own mark = true ∨
        ∃ child ∈ receiver'.saved, row.IsParent child ∧ child.marked mark = true := by
    intro mark row hrow hmarked
    refine (hsound.justified mark row hrow hmarked).imp_right ?_
    rintro ⟨child, hchild, hparent, hchildMarked⟩
    obtain ⟨child', hchild', hgrown⟩ := hmoves.grown hchild
    refine ⟨child', hchild', ?_, hgrown.marked mark hchildMarked⟩
    rw [Row.IsParent, hgrown.event]
    exact hparent
  refine ⟨fun event => ?_, fun row hrow => hsound.fresh_of_moves hmoves (.inl hrow),
    ?_, ?_, ?_⟩
  · rw [hmoves.known_iff]
    exact hsound.known event
  · intro row' hrow' mark' hown
    rcases hmoves.saved with hsaved | ⟨-, pid, built, mark, parents, -, hsaved⟩
    · rw [hsaved] at hrow'
      rcases List.mem_append.mp hrow' with hrow | hrow
      · exact hsound.own row' hrow mark' hown
      · exact hsound.own_of_moves hmoves hrow mark' ▸ hown
    · rw [hsaved] at hrow'
      obtain ⟨row, hrow, hgrown, -⟩ := of_mem_markParents hrow'
      rw [hgrown.event] at hown
      exact hgrown.marked mark' (hsound.own row hrow mark' hown)
  · intro mark' row' hrow' hmarked
    rcases hmoves.saved with hsaved | ⟨-, pid, built, mark, parents, hbuilding, hsaved⟩
    · rcases List.mem_append.mp (hsaved ▸ hrow') with hrow | hrow
      · exact hreason mark' row' hrow hmarked
      · exact .inl ((hsound.own_of_moves hmoves hrow mark').trans hmarked)
    · obtain ⟨row, hrow, hgrown, hcases⟩ := of_mem_markParents (hsaved ▸ hrow')
      simp only [Row.IsParent, hgrown.event]
      rcases hcases mark' hmarked with hmarked | ⟨rfl, hparent⟩
      · exact hreason mark' row hrow hmarked
      · obtain ⟨child, hchild, huuid, hchildMarked⟩ :=
          hread pid built mark' parents hbuilding row.event.uuid hparent
        exact .inr ⟨child, hchild, huuid.symm, hchildMarked⟩
  · intro pid row mark parents hbuilding uuid huuid
    rcases parents_of_taken htaken hbuilding with ⟨other, built, hold⟩ | rfl
    · exact hread other built mark parents hold uuid huuid
    · obtain ⟨child, hchild, rfl⟩ := List.mem_map.mp huuid
      obtain ⟨hchild, hmarked⟩ := List.mem_filter.mp hchild
      obtain ⟨child', hchild', hgrown⟩ := hmoves.grown hchild
      exact ⟨child', hchild', by rw [hgrown.event], hgrown.marked mark hmarked⟩

theorem of_reachable (hreach : Reachable events receiver) : Sound events receiver :=
  hreach.invariant (Sound events) (.initial events)
    fun _ _ _ hsound _ hstep => hsound.step (taken_of_step hstep)

end Sound

/-! ## Events that mark nobody -/

def OwnMarksClosed (events : List JobEvent) : Prop :=
  ∀ mark, ∀ child ∈ events, child.own mark = true → ∀ parent ∈ events,
    parent.uuid = child.parentUuid → parent.own mark = true

def OwnOnly (receiver : Receiver) : Prop :=
  ∀ row ∈ receiver.saved, ∀ mark, row.marked mark = true → row.event.own mark = true

theorem Sound.mem_events (hsound : Sound events receiver) (hrow : row ∈ receiver.saved) :
    row.event ∈ events :=
  (hsound.known row.event).mpr (.inr (.inr (.inl ⟨row, hrow, rfl⟩)))

theorem OwnOnly.step (hclosed : OwnMarksClosed events) (hsound : Sound events receiver)
    (hown : OwnOnly receiver) (htaken : Taken receiver receiver') : OwnOnly receiver' := by
  obtain ⟨gained, others, dropped, hmoves⟩ := moves_of_taken htaken
  intro row' hrow' mark' hmarked
  rcases hmoves.saved with hsaved | ⟨-, pid, built, mark, parents, hbuilding, hsaved⟩
  · rcases List.mem_append.mp (hsaved ▸ hrow') with hrow | hrow
    · exact hown row' hrow mark' hmarked
    · exact (hsound.own_of_moves hmoves hrow mark').trans hmarked
  · obtain ⟨row, hrow, hgrown, hcases⟩ := of_mem_markParents (hsaved ▸ hrow')
    rw [hgrown.event]
    rcases hcases mark' hmarked with hmarked | ⟨rfl, hparent⟩
    · exact hown row hrow mark' hmarked
    · -- the child was marked when it was read, so it is so by itself
      obtain ⟨child, hchild, huuid, hchildMarked⟩ :=
        hsound.parents pid built mark' parents hbuilding row.event.uuid hparent
      exact hclosed mark' child.event (hsound.mem_events hchild)
        (hown child hchild mark' hchildMarked)
        row.event (hsound.mem_events hrow) huuid.symm

theorem OwnOnly.of_reachable (hclosed : OwnMarksClosed events)
    (hreach : Reachable events receiver) : OwnOnly receiver := by
  have hboth := hreach.invariant (fun receiver => Sound events receiver ∧ OwnOnly receiver)
    ⟨.initial events, fun row hrow => absurd hrow List.not_mem_nil⟩
    fun _ _ _ hboth _ hstep =>
      ⟨hboth.1.step (taken_of_step hstep), hboth.2.step hclosed hboth.1 (taken_of_step hstep)⟩
  exact hboth.2

theorem marksReachParents_of_closed (hclosed : OwnMarksClosed events)
    (hreach : Reachable events receiver) : MarksReachParents receiver.saved := by
  have hsound := Sound.of_reachable hreach
  have hown := OwnOnly.of_reachable hclosed hreach
  refine ⟨fun mark child hchild hmarked parent hparent hlink => ?_, hsound.justified⟩
  apply hsound.own parent hparent mark
  exact hclosed mark child.event (hsound.mem_events hchild) (hown child hchild mark hmarked)
    parent.event (hsound.mem_events hparent) hlink

/-! ## A worker that is late -/

/-- The worker has popped the event and done nothing else about it. -/
def Worker.Holds (worker : Worker) (event : JobEvent) : Prop :=
  worker = ⟨none, [createFromData event]⟩ ∨
    worker = ⟨some (createFromData event, .select .changed), []⟩

/-- A receiver that has run on without popping or losing an event, and whose workers are
the given ones. -/
structure Continued (receiver receiver' : Receiver) (workers : ℕ → Worker) : Prop where
  run : Run step (fun _ _ => True) receiver receiver'
  queue : receiver'.queue = receiver.queue
  lost : receiver'.lost = receiver.lost
  workers : receiver'.workers = workers

theorem exists_popped {event : JobEvent} {queue : List JobEvent}
    (hqueue : receiver.queue = event :: queue) (hidle : receiver.workers pid = .idle) :
    ∃ receiver' worker, Run step (fun _ _ => True) receiver receiver' ∧ worker.Holds event ∧
      receiver'.queue = queue ∧ receiver'.lost = receiver.lost ∧
      receiver'.workers = Function.update receiver.workers pid worker := by
  have hpopped : ∃ worker : Worker, worker.Holds event ∧
      step receiver (.pop pid) = some { receiver.setWorker pid worker with queue := queue } := by
    by_cases hstats : event.event = .playbookOnStats
    · refine ⟨_, .inr rfl, ?_⟩
      simp [step, hqueue, hidle, hstats, Worker.idle]
    · refine ⟨_, .inl rfl, ?_⟩
      simp [step, hqueue, hidle, hstats, Worker.idle]
  obtain ⟨worker, hholds, hstep⟩ := hpopped
  exact ⟨_, worker, .next (.pop pid) .start trivial hstep, hholds, rfl, rfl, rfl⟩

theorem exists_flushed {event : JobEvent} (hholds : (receiver.workers pid).Holds event) :
    ∃ receiver', Continued receiver receiver' (Function.update receiver.workers pid .idle) ∧
      createFromData event ∈ receiver'.saved := by
  have hflush : ∀ receiver : Receiver, receiver.workers pid = ⟨none, [createFromData event]⟩ →
      ∃ receiver', Continued receiver receiver' (Function.update receiver.workers pid .idle) ∧
        createFromData event ∈ receiver'.saved := by
    intro receiver hworker
    refine ⟨{ receiver.setWorker pid .idle with
      saved := receiver.saved ++ [createFromData event] }, ⟨?_, rfl, rfl, rfl⟩, by simp⟩
    refine .next (.flush pid fun _ => .saved) .start trivial ?_
    simp [step, hworker, Worker.idle, Receiver.setWorker]
  rcases hholds with hworker | hworker
  · exact hflush receiver hworker
  · let changed := markParents receiver.saved .changed (parentUuids receiver.saved .changed)
    let built : Receiver :=
      { receiver.setWorker pid ⟨none, [createFromData event]⟩ with
        saved := markParents changed .failed (parentUuids changed .failed) }
    have hbuilt : Run step (fun _ _ => True) receiver built := by
      refine run_of_foldlM [.execute pid, .execute pid, .execute pid, .execute pid] ?_
      simp [step, execute, hworker, Receiver.setWorker, built, changed]
    obtain ⟨flushed, hflushed, hsaved⟩ := hflush built (receiver.workers_setWorker_self pid _)
    refine ⟨flushed, ⟨hbuilt.trans hflushed.run, hflushed.queue, hflushed.lost, ?_⟩, hsaved⟩
    rw [hflushed.workers]
    exact Function.update_idem _ _ _

theorem exists_processed {before queue : List JobEvent}
    (hqueue : receiver.queue = before ++ queue) (hidle : receiver.workers pid = .idle) :
    ∃ receiver', Run step (fun _ _ => True) receiver receiver' ∧ receiver'.queue = queue ∧
      receiver'.lost = receiver.lost ∧ receiver'.workers = receiver.workers := by
  induction before generalizing receiver with
  | nil => exact ⟨receiver, .start, hqueue, rfl, rfl⟩
  | cons event before ih =>
    obtain ⟨popped, worker, hpopped, hholds, hrest, hlost, hworkers⟩ := exists_popped hqueue hidle
    have hworker : popped.workers pid = worker := by rw [hworkers, Function.update_self]
    obtain ⟨flushed, hflushed, -⟩ := exists_flushed (hworker.symm ▸ hholds)
    have hsame : flushed.workers = receiver.workers := by
      rw [hflushed.workers, hworkers, Function.update_idem, ← hidle, Function.update_eq_self]
    obtain ⟨receiver', hrun, hend, hnone, hrestored⟩ :=
      ih (hflushed.queue.trans hrest) (by rw [hsame, hidle])
    refine ⟨receiver', hpopped.trans (hflushed.run.trans hrun), hend, ?_, hrestored.trans hsame⟩
    rw [hnone, hflushed.lost, hlost]

/-- One worker pops an event and saves it only after all the others, which another worker
processes. -/
theorem exists_late {event : JobEvent} (hevent : event ∈ events) :
    ∃ receiver, Reachable events receiver ∧ receiver.AllSaved ∧
      createFromData event ∈ receiver.saved := by
  obtain ⟨before, after, rfl⟩ := List.append_of_mem hevent
  obtain ⟨first, hfirst, hfirstQueue, hfirstLost, hfirstWorkers⟩ :=
    @exists_processed (.initial (before ++ event :: after)) 0 before (event :: after) rfl rfl
  obtain ⟨popped, worker, hpopped, hholds, hpoppedQueue, hpoppedLost, hpoppedWorkers⟩ :=
    @exists_popped first 1 event after hfirstQueue (congrFun hfirstWorkers 1)
  have hfree : popped.workers 0 = .idle := by
    rw [hpoppedWorkers, Function.update_of_ne Nat.zero_ne_one, hfirstWorkers]
    rfl
  obtain ⟨second, hsecond, hsecondQueue, hsecondLost, hsecondWorkers⟩ :=
    @exists_processed popped 0 after [] (by rw [hpoppedQueue, List.append_nil]) hfree
  have hlate : second.workers 1 = worker := by
    rw [hsecondWorkers, hpoppedWorkers, Function.update_self]
  obtain ⟨last, hlast, hsaved⟩ := exists_flushed (hlate.symm ▸ hholds)
  refine ⟨last, hfirst.trans (hpopped.trans (hsecond.trans hlast.run)), ⟨?_, fun pid => ?_, ?_⟩,
    hsaved⟩
  · rw [hlast.queue, hsecondQueue]
  · rw [hlast.workers, hsecondWorkers, hpoppedWorkers, Function.update_idem, hfirstWorkers]
    by_cases hpid : pid = 1
    · rw [hpid, Function.update_self]
    · rw [Function.update_of_ne hpid]
      rfl
  · rw [hlast.lost, hsecondLost, hpoppedLost, hfirstLost]
    rfl

theorem closed_of_marksReachParents
    (hmarks : ∀ receiver, Reachable events receiver → receiver.AllSaved →
      MarksReachParents receiver.saved) : OwnMarksClosed events := by
  intro mark child hchild hown parent hparent hlink
  obtain ⟨receiver, hreach, hsaved, hlate⟩ := exists_late hparent
  have hsound := Sound.of_reachable hreach
  obtain ⟨row, hrow, rfl⟩ : ∃ row ∈ receiver.saved, row.event = child := by
    have hknown := (hsound.known child).mp hchild
    rw [hsaved.queue, hsaved.lost] at hknown
    rcases hknown with hqueue | ⟨row, ⟨pid, hheld⟩, -⟩ | hrow | hlost
    · exact absurd hqueue List.not_mem_nil
    · rw [hsaved.workers pid] at hheld
      exact absurd hheld List.not_mem_nil
    · exact hrow
    · exact absurd hlost List.not_mem_nil
  refine (hmarks receiver hreach hsaved).reached mark row hrow (hsound.own row hrow mark hown)
    (createFromData parent) hlate ?_
  rw [Row.IsParent, event_createFromData]
  exact hlink

/-- In every order of steps the marks reach the parents of the saved events exactly when no
parent needs a mark that it does not have by itself. -/
theorem marksReachParents_iff (events : List JobEvent) :
    (∀ receiver, Reachable events receiver → receiver.AllSaved →
      MarksReachParents receiver.saved) ↔ OwnMarksClosed events :=
  ⟨closed_of_marksReachParents,
    fun hclosed _ hreach _ => marksReachParents_of_closed hclosed hreach⟩

/-! ## A task with a failed host -/

def noData : EventData := ⟨false, none, some [], some [], some []⟩

def taskStart : JobEvent := ⟨.playbookOnTaskStart, noData, "task", "play"⟩

def hostFailed : JobEvent := ⟨.runnerOnFailed, noData, "host", "task"⟩

def statsOfFailure : JobEvent :=
  ⟨.playbookOnStats, { noData with failures := some [1] }, "stats", "playbook"⟩

theorem task_not_marked :
    ¬ ∀ (events : List JobEvent) (receiver : Receiver), Reachable events receiver →
      receiver.AllSaved → MarksReachParents receiver.saved := by
  intro hclaim
  have hclosed := closed_of_marksReachParents (hclaim [taskStart, hostFailed, statsOfFailure])
  have hmarked : taskStart.own .failed = true :=
    hclosed .failed hostFailed (List.mem_cons_of_mem _ List.mem_cons_self) rfl taskStart
      List.mem_cons_self rfl
  exact Bool.false_ne_true hmarked

end Forail.EventMarks
