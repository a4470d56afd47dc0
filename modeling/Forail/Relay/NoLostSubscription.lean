import Forail.Core.Runs
import Forail.Relay.Subscriptions

/-!
# No lost subscription

A producer that stops is removed with the subscriptions it has got meanwhile, and the reader
takes the last payload for messages that carry none.  Otherwise no subscription is lost.
-/

namespace Forail.Subscriptions

open Forail.Runs

variable {remoteHost name group channel originChannel : String} {debug : Bool}
  {groups : List String} {connection after : Connection} {producer : Producer}
  {producers : String → Option Producer} {payload : Payload} {message : Message} {event : Event}
  {phase : Phase} {next : Producer → Option Producer}

/-! ## The property -/

/-- The reader goes on, a channel whose last request for a group was to subscribe is in the
subscriptions of a producer of the group that does not stop, and no other channel is. -/
structure Faithful (remoteHost : String) (connection : Connection) : Prop where
  reading : connection.reading = true
  kept : ∀ group channel, connection.subscribed group channel = true →
    ∃ producer, connection.producers (producerName remoteHost group) = some producer ∧
      channel ∈ producer.subscriptions ∧ producer.phase ≠ .stopping
  dropped : ∀ group channel, connection.subscribed group channel = false →
    ∀ producer, connection.producers (producerName remoteHost group) = some producer →
      channel ∉ producer.subscriptions

def Message.NoRequest : Message → Prop
  | .text (some (.subscribe _ _)) | .text (some (.unsubscribe _ _)) => False
  | _ => True

/-- What may happen next: no group is subscribed to while its producer stops, nothing malformed
is received, and the last payload is there when a message carries none. -/
def Careful (remoteHost : String) (debug : Bool) (connection : Connection) : Event → Prop
  | .message (.text (some (.subscribe groups _))) =>
      ∀ group ∈ groups, ∀ producer ∈ connection.producers (producerName remoteHost group),
        producer.phase ≠ .stopping
  | .message (.text (some .malformed)) => False
  | .message (.text none) => debug = true → connection.payload ≠ none
  | .message .nonText => connection.payload ≠ none
  | _ => True

instance : DecidablePred (Careful remoteHost debug connection)
  | .message (.text (some (.subscribe groups _))) =>
      inferInstanceAs (Decidable (∀ group ∈ groups,
        ∀ producer ∈ connection.producers (producerName remoteHost group),
          producer.phase ≠ .stopping))
  | .message (.text (some .malformed)) => .isFalse id
  | .message (.text none) => inferInstanceAs (Decidable (debug = true → connection.payload ≠ none))
  | .message .nonText => inferInstanceAs (Decidable (connection.payload ≠ none))
  | .message (.text (some (.unsubscribe _ _))) | .message (.text (some .other)) | .joined _
  | .received _ _ | .sent _ | .timeout _ | .left _ => .isTrue trivial

/-! ## Names -/

theorem producerName_injective (remoteHost : String) :
    Function.Injective (producerName remoteHost) := by
  intro group other hsame
  exact (String.append_right_inj _).mp hsame

theorem producerName_ne_metrics (remoteHost group : String) :
    producerName remoteHost group ≠ "metrics" := by
  intro hsame
  have hlist := congrArg String.toList hsame
  rw [producerName, String.toList_append, String.toList_append] at hlist
  have hdash : '-' ∈ "metrics".toList := by
    rw [← hlist]
    simp
  exact absurd hdash (by decide)

/-! ## Requests for several groups -/

section

variable {Key Value : Type*} [DecidableEq Key] {table : Key → Option Value}
  {keyOf : String → Key}

theorem foldl_update_apply (update : Option Value → Option Value) (hkeyOf : Function.Injective keyOf)
    (hupdate : ∀ value, update (update value) = update value) (groups : List String)
    (table : Key → Option Value) (group : String) :
    groups.foldl (fun table group =>
      Function.update table (keyOf group) (update (table (keyOf group)))) table (keyOf group) =
        if group ∈ groups then update (table (keyOf group)) else table (keyOf group) := by
  induction groups generalizing table with
  | nil => rfl
  | cons first groups ih =>
    rw [List.foldl_cons, ih]
    by_cases hfirst : group = first
    · subst hfirst
      rw [Function.update_self, hupdate, ite_self, if_pos List.mem_cons_self]
    · rw [Function.update_of_ne fun hsame => hfirst (hkeyOf hsame)]
      simp [hfirst]

theorem foldl_update_eq_self (update : Option Value → Option Value) (hsame : ∀ group ∈ groups,
    update (table (keyOf group)) = table (keyOf group)) :
    groups.foldl (fun table group =>
      Function.update table (keyOf group) (update (table (keyOf group)))) table = table := by
  induction groups with
  | nil => rfl
  | cons first groups ih =>
    obtain ⟨hfirst, hrest⟩ := List.forall_mem_cons.mp hsame
    rw [List.foldl_cons, hfirst, Function.update_eq_self]
    exact ih hrest

end

theorem foldl_subscribe_apply (group : String) :
    groups.foldl (subscribe remoteHost originChannel) producers (producerName remoteHost group) =
      if group ∈ groups then
        some (added originChannel (producers (producerName remoteHost group)))
      else producers (producerName remoteHost group) := by
  refine foldl_update_apply (fun value => some (added originChannel value))
    (producerName_injective remoteHost) (fun value => ?_) groups producers group
  cases value with
  | none => simp [added]
  | some producer => simp [added]

theorem foldl_unsubscribe_apply (group : String) :
    groups.foldl (unsubscribe remoteHost originChannel) producers
        (producerName remoteHost group) =
      if group ∈ groups then
        (producers (producerName remoteHost group)).map (removed originChannel)
      else producers (producerName remoteHost group) := by
  refine foldl_update_apply (Option.map (removed originChannel))
    (producerName_injective remoteHost) (fun value => ?_) groups producers group
  cases value with
  | none => rfl
  | some producer => simp [removed]

/-! ## Requests -/

theorem mem_added_iff {old : Option Producer} :
    channel ∈ (added originChannel old).subscriptions ↔
      channel = originChannel ∨ ∃ producer ∈ old, channel ∈ producer.subscriptions := by
  cases old with
  | none => simp [added]
  | some producer => simp [added]

theorem phase_added_ne_stopping {old : Option Producer}
    (hold : ∀ producer ∈ old, producer.phase ≠ .stopping) :
    (added originChannel old).phase ≠ .stopping := by
  cases old with
  | none => exact Phase.noConfusion
  | some producer => exact hold producer rfl

theorem Faithful.subscribe (hfaithful : Faithful remoteHost connection)
    (hgoesOn : ∀ group ∈ groups, ∀ producer ∈ connection.producers
      (producerName remoteHost group), producer.phase ≠ .stopping) :
    Faithful remoteHost { connection with
      payload := some (.subscribe groups originChannel)
      producers := groups.foldl (subscribe remoteHost originChannel) connection.producers
      subscribed := noteRequest connection.subscribed (.subscribe groups originChannel) } where
  reading := hfaithful.reading
  kept := by
    intro group channel hsubscribed
    dsimp only
    rw [foldl_subscribe_apply]
    rcases Bool.or_eq_true_iff.mp hsubscribed with hnew | hold
    · obtain ⟨hgroup, rfl⟩ := of_decide_eq_true hnew
      rw [if_pos hgroup]
      exact ⟨_, rfl, mem_added_iff.mpr (.inl rfl), phase_added_ne_stopping (hgoesOn group hgroup)⟩
    · obtain ⟨producer, hproducer, hchannel, hphase⟩ := hfaithful.kept group channel hold
      split
      · next hgroup =>
        exact ⟨_, rfl, mem_added_iff.mpr (.inr ⟨producer, hproducer, hchannel⟩),
          phase_added_ne_stopping (hgoesOn group hgroup)⟩
      · exact ⟨producer, hproducer, hchannel, hphase⟩
  dropped := by
    intro group channel hsubscribed producer hproducer hchannel
    obtain ⟨hother, hold⟩ := Bool.or_eq_false_iff.mp hsubscribed
    dsimp only at hproducer
    rw [foldl_subscribe_apply] at hproducer
    split at hproducer
    · next hgroup =>
      obtain rfl := Option.some.inj hproducer
      rcases mem_added_iff.mp hchannel with hsame | ⟨producer, hproducer, hchannel⟩
      · exact of_decide_eq_false hother ⟨hgroup, hsame⟩
      · exact hfaithful.dropped group channel hold producer hproducer hchannel
    · exact hfaithful.dropped group channel hold producer hproducer hchannel

theorem Faithful.unsubscribe (hfaithful : Faithful remoteHost connection) :
    Faithful remoteHost { connection with
      payload := some (.unsubscribe groups originChannel)
      producers := groups.foldl (unsubscribe remoteHost originChannel) connection.producers
      subscribed := noteRequest connection.subscribed (.unsubscribe groups originChannel) } where
  reading := hfaithful.reading
  kept := by
    intro group channel hsubscribed
    obtain ⟨hother, hold⟩ := Bool.and_eq_true_iff.mp hsubscribed
    obtain ⟨producer, hproducer, hchannel, hphase⟩ := hfaithful.kept group channel hold
    dsimp only
    rw [foldl_unsubscribe_apply]
    split
    · next hgroup =>
      refine ⟨removed originChannel producer, by rw [hproducer]; rfl, ?_, hphase⟩
      refine Finset.mem_erase.mpr ⟨fun hsame => ?_, hchannel⟩
      rw [decide_eq_true ⟨hgroup, hsame⟩] at hother
      exact Bool.noConfusion hother
    · exact ⟨producer, hproducer, hchannel, hphase⟩
  dropped := by
    intro group channel hsubscribed producer hproducer hchannel
    dsimp only at hproducer
    rw [foldl_unsubscribe_apply] at hproducer
    split at hproducer
    · next hgroup =>
      obtain ⟨old, hold, rfl⟩ := Option.map_eq_some_iff.mp hproducer
      obtain ⟨hne, hchannel⟩ := Finset.mem_erase.mp hchannel
      have hnot : connection.subscribed group channel = false := by
        simpa [noteRequest, hne] using hsubscribed
      exact hfaithful.dropped group channel hnot old hold hchannel
    · next hgroup =>
      have hnot : connection.subscribed group channel = false := by
        simpa [noteRequest, hgroup] using hsubscribed
      exact hfaithful.dropped group channel hnot producer hproducer hchannel

/-! ## Producers -/

theorem advance_eq_some (hadvance : connection.advance name phase next = some after) :
    ∃ producer, connection.producers name = some producer ∧ producer.phase = phase ∧
      after = { connection with
        producers := Function.update connection.producers name (next producer) } := by
  rw [Connection.advance] at hadvance
  split at hadvance
  · next producer hproducer =>
    obtain ⟨hphase, hafter⟩ := Option.ite_none_right_eq_some.mp hadvance
    exact ⟨producer, hproducer, hphase, (Option.some.inj hafter).symm⟩
  · exact absurd hadvance.symm (Option.some_ne_none _)

theorem Faithful.advance (hfaithful : Faithful remoteHost connection)
    (hadvance : connection.advance name phase next = some after)
    (hgoesOn : ∀ producer, producer.phase = phase → phase ≠ .stopping →
      producer.subscriptions ≠ ∅ → ∃ producer', next producer = some producer' ∧
        producer'.subscriptions = producer.subscriptions ∧ producer'.phase ≠ .stopping)
    (hfewer : ∀ producer producer', next producer = some producer' →
      producer'.subscriptions ⊆ producer.subscriptions) : Faithful remoteHost after := by
  obtain ⟨old, hold, hphase, rfl⟩ := advance_eq_some hadvance
  refine ⟨hfaithful.reading, ?_, ?_⟩
  · intro group channel hsubscribed
    obtain ⟨producer, hproducer, hchannel, hrunning⟩ := hfaithful.kept group channel hsubscribed
    by_cases hname : producerName remoteHost group = name
    · subst hname
      obtain rfl := Option.some.inj (hold.symm.trans hproducer)
      obtain ⟨producer', hnext, hsame, hrunning'⟩ := hgoesOn old hphase (hphase ▸ hrunning)
        (Finset.ne_empty_of_mem hchannel)
      exact ⟨producer', (Function.update_self _ _ _).trans hnext, hsame ▸ hchannel, hrunning'⟩
    · exact ⟨producer, (Function.update_of_ne hname _ _).trans hproducer, hchannel, hrunning⟩
  · intro group channel hsubscribed producer hproducer hchannel
    by_cases hname : producerName remoteHost group = name
    · subst hname
      dsimp only at hproducer
      rw [Function.update_self] at hproducer
      exact hfaithful.dropped group channel hsubscribed old hold
        (hfewer old producer hproducer hchannel)
    · dsimp only at hproducer
      rw [Function.update_of_ne hname] at hproducer
      exact hfaithful.dropped group channel hsubscribed producer hproducer hchannel

theorem advance_unread (hadvance : connection.advance name phase next = some after) :
    after.payload = connection.payload ∧ after.subscribed = connection.subscribed := by
  obtain ⟨-, -, -, rfl⟩ := advance_eq_some hadvance
  exact ⟨rfl, rfl⟩

/-! ## Steps -/

def LastRequest (connection : Connection) : Prop :=
  match connection.payload with
  | some (.subscribe groups originChannel) =>
      ∀ group ∈ groups, connection.subscribed group originChannel = true
  | some (.unsubscribe groups originChannel) =>
      ∀ group ∈ groups, connection.subscribed group originChannel = false
  | some .malformed => False
  | _ => True

structure Consistent (remoteHost : String) (connection : Connection) : Prop
    extends Faithful remoteHost connection where
  last : LastRequest connection

theorem consistent_start (remoteHost : String) : Consistent remoteHost Connection.start where
  reading := rfl
  kept := fun _ _ hsubscribed => Bool.noConfusion hsubscribed
  dropped := by
    intro group channel _ producer hproducer
    have hname : producerName remoteHost group ≠ "metrics" := producerName_ne_metrics _ _
    have hnone : Connection.start.producers (producerName remoteHost group) = none :=
      Function.update_of_ne hname _ fun _ => none
    exact absurd (hproducer.symm.trans hnone) (Option.some_ne_none _)
  last := trivial

section

variable (hconsistent : Consistent remoteHost connection)
include hconsistent

theorem Consistent.process_eq_self
    (hpayload : connection.payload ≠ none) : process remoteHost connection = connection := by
  have hlast := hconsistent.last
  rw [LastRequest] at hlast
  rw [process.eq_def]
  split
  · next hnone => exact absurd hnone hpayload
  · next hmalformed =>
    rw [hmalformed] at hlast
    exact hlast.elim
  · next groups originChannel hsubscribe =>
    rw [hsubscribe] at hlast
    have hsame : groups.foldl (subscribe remoteHost originChannel) connection.producers =
        connection.producers := by
      apply foldl_update_eq_self fun value => some (added originChannel value)
      intro group hgroup
      obtain ⟨producer, hproducer, hchannel, -⟩ :=
        hconsistent.kept group originChannel (hlast group hgroup)
      rw [hproducer, added, Finset.insert_eq_self.mpr hchannel]
    rw [hsame]
  · next groups originChannel hunsubscribe =>
    rw [hunsubscribe] at hlast
    have hsame : groups.foldl (unsubscribe remoteHost originChannel) connection.producers =
        connection.producers := by
      apply foldl_update_eq_self (Option.map (removed originChannel))
      intro group hgroup
      cases hproducer : connection.producers (producerName remoteHost group) with
      | none => rfl
      | some producer =>
        have hchannel :=
          hconsistent.dropped group originChannel (hlast group hgroup) producer hproducer
        rw [Option.map_some, removed, Finset.erase_eq_of_notMem hchannel]
    rw [hsame]
  · rfl

theorem Consistent.receive_of_noRequest
    (hcareful : Careful remoteHost debug connection (.message message))
    (hnone : message.NoRequest) :
    ∃ payload, receive remoteHost debug connection message =
        { connection with payload := payload } ∧
      LastRequest { connection with payload := payload } := by
  cases message with
  | nonText =>
    exact ⟨connection.payload, hconsistent.process_eq_self hcareful, hconsistent.last⟩
  | text payload =>
    cases payload with
    | none =>
      refine ⟨connection.payload, if_neg fun hunbound => ?_, hconsistent.last⟩
      obtain ⟨hdebug, hisNone⟩ := Bool.and_eq_true_iff.mp hunbound
      exact hcareful hdebug (Option.isNone_iff_eq_none.mp hisNone)
    | some payload =>
      cases payload with
      | subscribe => exact hnone.elim
      | unsubscribe => exact hnone.elim
      | other => exact ⟨some .other, rfl, trivial⟩
      | malformed => exact hcareful.elim

theorem Consistent.receive (hcareful : Careful remoteHost debug connection (.message message)) :
    Consistent remoteHost (receive remoteHost debug connection message) := by
  by_cases hnone : message.NoRequest
  · obtain ⟨payload, hafter, hlast⟩ := hconsistent.receive_of_noRequest hcareful hnone
    rw [hafter]
    exact ⟨⟨hconsistent.reading, hconsistent.kept, hconsistent.dropped⟩, hlast⟩
  · cases message with
    | nonText => exact absurd trivial hnone
    | text payload =>
      cases payload with
      | none => exact absurd trivial hnone
      | some payload =>
        cases payload with
        | subscribe groups originChannel =>
          refine ⟨hconsistent.toFaithful.subscribe hcareful, fun group hgroup => ?_⟩
          exact Bool.or_eq_true_iff.mpr (.inl (decide_eq_true ⟨hgroup, rfl⟩))
        | unsubscribe groups originChannel =>
          refine ⟨hconsistent.toFaithful.unsubscribe, fun group hgroup => ?_⟩
          refine Bool.and_eq_false_iff.mpr (.inl ?_)
          rw [decide_eq_true ⟨hgroup, rfl⟩]
          rfl
        | _ => exact absurd trivial hnone

theorem Consistent.advance (hadvance : connection.advance name phase next = some after)
    (hgoesOn : ∀ producer, producer.phase = phase → phase ≠ .stopping →
      producer.subscriptions ≠ ∅ → ∃ producer', next producer = some producer' ∧
        producer'.subscriptions = producer.subscriptions ∧ producer'.phase ≠ .stopping)
    (hfewer : ∀ producer producer', next producer = some producer' →
      producer'.subscriptions ⊆ producer.subscriptions) : Consistent remoteHost after where
  toFaithful := hconsistent.toFaithful.advance hadvance hgoesOn hfewer
  last := by
    obtain ⟨hpayload, hsubscribed⟩ := advance_unread hadvance
    have hlast := hconsistent.last
    rw [LastRequest] at hlast ⊢
    rwa [hpayload, hsubscribed]

theorem Consistent.step (hcareful : Careful remoteHost debug connection event)
    (hstep : step remoteHost debug connection event = some after) :
    Consistent remoteHost after := by
  cases event with
  | message message =>
    obtain ⟨-, hafter⟩ := Option.ite_none_right_eq_some.mp hstep
    exact Option.some.inj hafter ▸ hconsistent.receive hcareful
  | joined name =>
    apply hconsistent.advance hstep
    · exact fun producer _ _ _ => ⟨_, rfl, rfl, Phase.noConfusion⟩
    · exact fun producer producer' hnext => Option.some.inj hnext ▸ Finset.Subset.refl _
  | received name needsRelay =>
    apply hconsistent.advance hstep
    · refine fun producer _ _ _ => ⟨_, rfl, rfl, ?_⟩
      cases needsRelay <;> exact Phase.noConfusion
    · exact fun producer producer' hnext => Option.some.inj hnext ▸ Finset.Subset.refl _
  | sent name =>
    apply hconsistent.advance hstep
    · exact fun producer _ _ _ => ⟨_, rfl, rfl, Phase.noConfusion⟩
    · exact fun producer producer' hnext => Option.some.inj hnext ▸ Finset.Subset.refl _
  | timeout name =>
    apply hconsistent.advance hstep
    · intro producer hphase hrunning hsubscriptions
      refine ⟨producer, by rw [timedOut, if_neg hsubscriptions], rfl, ?_⟩
      rw [hphase]
      exact hrunning
    · intro producer producer' hnext
      rw [← Option.some.inj hnext, timedOut]
      split <;> exact Finset.Subset.refl _
  | left name =>
    apply hconsistent.advance hstep
    · exact fun producer _ hrunning => absurd rfl hrunning
    · exact fun producer producer' hnext => absurd hnext.symm (Option.some_ne_none _)

end

theorem not_faithful_of_not_careful (hcareless : ¬ Careful remoteHost debug connection event)
    (hstep : step remoteHost debug connection event = some after) :
    ¬ Faithful remoteHost after := by
  intro hfaithful
  cases event with
  | message message =>
    obtain ⟨-, hafter⟩ := Option.ite_none_right_eq_some.mp hstep
    obtain rfl := Option.some.inj hafter
    cases message with
    | nonText =>
      have hreading := hfaithful.reading
      rw [receive, process, not_not.mp hcareless] at hreading
      exact Bool.noConfusion hreading
    | text payload =>
      cases payload with
      | none =>
        obtain ⟨rfl, hunbound⟩ := Classical.not_imp.mp hcareless
        have hreading := hfaithful.reading
        rw [receive, not_not.mp hunbound] at hreading
        exact Bool.noConfusion hreading
      | some payload =>
        cases payload with
        | subscribe groups originChannel =>
          apply hcareless
          intro group hgroup producer hproducer hstopping
          obtain ⟨producer', hproducer', -, hrunning⟩ := hfaithful.kept group originChannel
            (Bool.or_eq_true_iff.mpr (.inl (decide_eq_true ⟨hgroup, rfl⟩)))
          have hadded := (foldl_subscribe_apply group).symm.trans hproducer'
          rw [if_pos hgroup, hproducer] at hadded
          exact hrunning (Option.some.inj hadded ▸ hstopping)
        | malformed => exact Bool.noConfusion hfaithful.reading
        | _ => exact hcareless trivial
  | _ => exact hcareless trivial

/-- In careful runs no subscription is lost, and messages without a decoded request change
nothing.  Every other step loses a subscription or ends the reader. -/
theorem noLostSubscription_of_careful (hrun : Run (step remoteHost debug)
    (Careful remoteHost debug) Connection.start connection) :
    Faithful remoteHost connection ∧
      (∀ message after, message.NoRequest →
        Careful remoteHost debug connection (.message message) →
        step remoteHost debug connection (.message message) = some after →
          after.producers = connection.producers ∧ after.subscribed = connection.subscribed ∧
            after.reading = connection.reading) ∧
      ∀ event after, step remoteHost debug connection event = some after →
        (Faithful remoteHost after ↔ Careful remoteHost debug connection event) := by
  have hconsistent : Consistent remoteHost connection :=
    hrun.invariant (Consistent remoteHost) (consistent_start remoteHost)
      fun _ _ _ hconsistent hcareful hstep => hconsistent.step hcareful hstep
  refine ⟨hconsistent.toFaithful, ?_, ?_⟩
  · intro message after hnone hcareful hstep
    obtain ⟨-, hafter⟩ := Option.ite_none_right_eq_some.mp hstep
    obtain ⟨payload, hreceive, -⟩ := hconsistent.receive_of_noRequest hcareful hnone
    rw [← Option.some.inj hafter, hreceive]
    exact ⟨rfl, rfl, rfl⟩
  · intro event after hstep
    constructor
    · intro hfaithful
      by_contra hcareless
      exact not_faithful_of_not_careful hcareless hstep hfaithful
    · exact fun hcareful => (hconsistent.step hcareful hstep).toFaithful

def stoppingProducer : List Event :=
  [.message (.text (some (.subscribe ["jobs"] "first"))), .joined "web1-jobs",
    .received "web1-jobs" true, .sent "web1-jobs",
    .message (.text (some (.unsubscribe ["jobs"] "first"))), .message .nonText,
    .timeout "web1-jobs"]

def subscribedAfter : List Event :=
  stoppingProducer ++ [.left "web1-jobs", .message (.text (some (.subscribe ["jobs"] "second")))]

def subscribedMeanwhile : List Event :=
  stoppingProducer ++ [.message (.text (some (.subscribe ["jobs"] "second"))), .left "web1-jobs"]

theorem faithful_subscribedAfter : ∃ connection,
    Run (step "web1" false) (Careful "web1" false) Connection.start connection ∧
      connection.subscribed "jobs" "second" = true ∧ Faithful "web1" connection := by
  have hevents : (subscribedAfter.foldlM (fun (connection : Connection) event =>
      if Careful "web1" false connection event then step "web1" false connection event else none)
      Connection.start).any (fun connection => connection.subscribed "jobs" "second") = true := by
    decide +kernel
  obtain ⟨connection, hconnection, hsubscribed⟩ := Option.any_eq_true .. |>.mp hevents
  have hrun := run_of_checked _ hconnection
  exact ⟨connection, hrun, hsubscribed, (noLostSubscription_of_careful hrun).1⟩

theorem lost_subscribedMeanwhile : ¬ ∀ (remoteHost : String) (debug : Bool)
    (connection : Connection),
    Run (step remoteHost debug) (fun _ _ => True) Connection.start connection →
      Faithful remoteHost connection ∧ ∀ message after, message.NoRequest →
        step remoteHost debug connection (.message message) = some after →
          after.producers = connection.producers ∧ after.subscribed = connection.subscribed ∧
            after.reading = connection.reading := by
  intro hall
  have hevents : (subscribedMeanwhile.foldlM (step "web1" false) Connection.start).any
      (fun connection => connection.subscribed "jobs" "second" &&
        decide (connection.producers "web1-jobs" = none)) = true := by
    decide +kernel
  obtain ⟨connection, hrun, htest⟩ := exists_run_of_any _ hevents
  obtain ⟨hsubscribed, hnone⟩ := Bool.and_eq_true_iff.mp htest
  obtain ⟨producer, hproducer, -⟩ :=
    (hall "web1" false connection hrun).1.kept "jobs" "second" hsubscribed
  have hsome : connection.producers "web1-jobs" = some producer := hproducer
  exact absurd (hsome.symm.trans (of_decide_eq_true hnone)) (Option.some_ne_none _)

end Forail.Subscriptions
