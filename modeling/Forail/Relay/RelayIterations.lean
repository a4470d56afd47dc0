import Forail.Relay.RelayConsistency

/-!
# Iterations of the relay manager

The hosts that an iteration adds have lost their connections to its clean-ups, unless they had
none, so that each has one connection afterwards.
-/

namespace Forail.Relay

open Forail.Runs

variable {localHostname : String} {manager after : Manager} {hostname : Host}
  {address : String} {id : ℕ} {connection : RelayConnection} {newHosts : List Host}
  {relay relay' : AList fun _ : Host => ℕ} {cleanups : AList fun _ : Host => Cleanup}
  {event : Event}

/-! ## Iterations on their way -/

structure Iteration (relay : AList fun _ : Host => ℕ)
    (cleanups : AList fun _ : Host => Cleanup) (newHosts : List Host) : Prop where
  nodup : newHosts.Nodup
  waits : ∀ hostname id, cleanups.lookup hostname = some (.waiting id) →
    ∀ id', relay.lookup hostname = some id' → id' = id
  gone : ∀ hostname ∈ newHosts, hostname ∈ relay → hostname ∈ cleanups

theorem Iteration.mono (hiteration : Iteration relay cleanups newHosts)
    (hsubset : ∀ hostname id, relay'.lookup hostname = some id →
      relay.lookup hostname = some id) : Iteration relay' cleanups newHosts where
  nodup := hiteration.nodup
  waits := fun hostname id hwaiting id' hlookup =>
    hiteration.waits hostname id hwaiting id' (hsubset hostname id' hlookup)
  gone := by
    intro hostname hnew hmem
    obtain ⟨id, hlookup⟩ := Option.isSome_iff_exists.mp (AList.lookup_isSome.mpr hmem)
    exact hiteration.gone hostname hnew
      (AList.lookup_isSome.mp (Option.isSome_of_eq_some (hsubset hostname id hlookup)))

theorem Iteration.begin (hiteration : Iteration relay cleanups newHosts)
    (hlookup : relay.lookup hostname = some id) :
    Iteration relay (cleanups.insert hostname (.waiting id)) newHosts where
  nodup := hiteration.nodup
  waits := by
    intro other id' hwaiting id'' hother
    rcases lookup_insert_eq_some_iff.mp hwaiting with ⟨rfl, hsame⟩ | ⟨-, hold⟩
    · rw [← Cleanup.waiting.inj hsame]
      exact Option.some.inj (hother.symm.trans hlookup)
    · exact hiteration.waits other id' hold id'' hother
  gone := fun other hnew hmem => (AList.mem_insert _).mpr (.inr (hiteration.gone other hnew hmem))

theorem Iteration.finish (hiteration : Iteration relay cleanups newHosts)
    (hnone : hostname ∉ relay) : Iteration relay (cleanups.erase hostname) newHosts where
  nodup := hiteration.nodup
  waits := fun other id' hwaiting =>
    hiteration.waits other id' (lookup_erase_eq_some_iff.mp hwaiting).2
  gone := by
    intro other hnew hmem
    refine AList.mem_erase.mpr ⟨?_, hiteration.gone other hnew hmem⟩
    rintro rfl
    exact hnone hmem

structure Consistent (manager : Manager) : Prop extends Kept manager where
  notRaised : manager.polling ≠ .raised
  iteration : ∀ cleanups newHosts, manager.polling = .cleaning cleanups newHosts →
    Iteration manager.relayConnections cleanups newHosts

theorem consistent_start : Consistent Manager.start where
  registered := fun _ _ hlookup => absurd hlookup.symm (Option.some_ne_none _)
  alive := fun _ _ hconnection => absurd hconnection.symm (Option.some_ne_none _)
  known := fun _ _ hlookup => absurd hlookup.symm (Option.some_ne_none _)
  current := fun _ _ hmem => absurd hmem List.not_mem_nil
  listening := fun _ _ hlistener => absurd hlistener.symm (Option.some_ne_none _)
  notRaised := Polling.noConfusion
  iteration := fun _ _ hpolling => Polling.noConfusion hpolling

theorem Consistent.of_kept (hconsistent : Consistent manager) (hkept : Kept after)
    (hpolling : after.polling = manager.polling)
    (hsubset : ∀ hostname id, after.relayConnections.lookup hostname = some id →
      manager.relayConnections.lookup hostname = some id) : Consistent after where
  toKept := hkept
  notRaised := hpolling ▸ hconsistent.notRaised
  iteration := fun cleanups newHosts hcleaning =>
    (hconsistent.iteration cleanups newHosts (hpolling ▸ hcleaning)).mono hsubset

theorem Kept.iterate {polling : Polling} (hkept : Kept manager) :
    Kept { manager with polling := polling } :=
  ⟨hkept.registered, hkept.alive, hkept.known, hkept.current, hkept.listening⟩

theorem onWsHeartbeat_polling {heartbeat : Heartbeat} :
    (manager.onWsHeartbeat localHostname heartbeat).polling = manager.polling := by
  rw [Manager.onWsHeartbeat.eq_def]
  split
  · rfl
  · split <;> simp

theorem listenerResumes_fields :
    (manager.listenerResumes hostname).polling = manager.polling ∧
      (manager.listenerResumes hostname).announced = manager.announced := by
  rw [Manager.listenerResumes, Manager.cleanupEnds]
  split <;> exact ⟨rfl, rfl⟩

theorem Consistent.onWsHeartbeat (hconsistent : Consistent manager)
    (hidle : manager.listener = none) (localHostname : String) (heartbeat : Heartbeat) :
    Consistent (manager.onWsHeartbeat localHostname heartbeat) := by
  have hkept := hconsistent.toKept.onWsHeartbeat hidle localHostname heartbeat
  apply hconsistent.of_kept hkept onWsHeartbeat_polling
  · rw [Manager.onWsHeartbeat.eq_def]
    split
    · exact fun _ _ hlookup => hlookup
    · split <;> simp

theorem Consistent.listenerResumes (hconsistent : Consistent manager)
    (hlistener : manager.listener = some (hostname, id)) (hdone : manager.Done id) :
    Consistent (manager.listenerResumes hostname) := by
  apply hconsistent.of_kept (hconsistent.toKept.listenerResumes hlistener hdone)
    listenerResumes_fields.1
  · intro other id hlookup
    rw [Manager.listenerResumes, Manager.cleanupEnds] at hlookup
    split at hlookup
    · exact (lookup_erase_eq_some_iff.mp hlookup).2
    · exact hlookup

theorem Consistent.modify (hconsistent : Consistent manager)
    (change : RelayConnection → RelayConnection)
    (hchange : ∀ connection, (change connection).hostname = connection.hostname ∧
      ((change connection).done = false → connection.done = false)) (id : ℕ) :
    Consistent (manager.modify id change) :=
  hconsistent.of_kept (hconsistent.toKept.modify change hchange id) rfl fun _ _ hlookup => hlookup

/-! ## The beginning of an iteration -/

theorem lookup_scheduled (hostnames : List Host) (hostname : Host) :
    (hostnames.map fun hostname => (⟨hostname, .scheduled⟩ : Σ _ : Host, Cleanup)).toAList.lookup
      hostname = if hostname ∈ hostnames then some .scheduled else none := by
  rw [AList.lookup_to_alist]
  induction hostnames with
  | nil => rfl
  | cons first hostnames ih =>
    rw [List.map_cons]
    by_cases hfirst : hostname = first
    · subst hfirst
      rw [List.dlookup_cons_eq, if_pos List.mem_cons_self]
    · rw [List.dlookup_cons_ne _ _ hfirst, ih]
      simp [hfirst]

theorem nodup_newRemoteHosts : manager.newRemoteHosts.Nodup := by
  apply List.Nodup.union
  exact manager.knownHosts.nodupKeys.sublist List.filter_sublist

theorem mem_changedHosts_iff :
    hostname ∈ manager.changedHosts ↔
      ∃ address connection, manager.knownHosts.lookup hostname = some address ∧
        manager.connection? hostname = some connection ∧ address ≠ connection.remoteHost := by
  rw [Manager.changedHosts, List.mem_map]
  constructor
  · rintro ⟨⟨other, address⟩, hentry, rfl⟩
    obtain ⟨hknown, hchanged⟩ := List.mem_filter.mp hentry
    split at hchanged
    · exact absurd hchanged Bool.false_ne_true
    · next connection hconnection =>
      exact ⟨address, connection, AList.mem_lookup_iff.mpr hknown, hconnection,
        of_decide_eq_true hchanged⟩
  · rintro ⟨address, connection, hlookup, hconnection, hne⟩
    refine ⟨⟨hostname, address⟩, List.mem_filter.mpr ⟨AList.mem_lookup_iff.mp hlookup, ?_⟩, rfl⟩
    rw [hconnection]
    exact decide_eq_true hne

theorem deleted_of_mem_newRemoteHosts (hnew : hostname ∈ manager.newRemoteHosts)
    (hmem : hostname ∈ manager.relayConnections) : hostname ∈ manager.deletedRemoteHosts := by
  rcases List.mem_union_iff.mp hnew with hknown | hchanged
  · exact absurd hmem (of_decide_eq_true (List.mem_filter.mp hknown).2)
  · exact List.mem_union_iff.mpr (.inl (List.mem_union_iff.mpr (.inr hchanged)))

theorem iteration_poll : Iteration manager.relayConnections
    (manager.deletedRemoteHosts.map fun hostname =>
      (⟨hostname, .scheduled⟩ : Σ _ : Host, Cleanup)).toAList manager.newRemoteHosts where
  nodup := nodup_newRemoteHosts
  waits := by
    intro hostname id hwaiting
    rw [lookup_scheduled] at hwaiting
    exact Cleanup.noConfusion (Option.some.inj (Option.ite_none_right_eq_some.mp hwaiting).2)
  gone := by
    intro hostname hnew hmem
    rw [← AList.lookup_isSome, lookup_scheduled,
      if_pos (deleted_of_mem_newRemoteHosts hnew hmem)]
    rfl

/-! ## Steps -/

theorem polling_addHosts_cases (newHosts : List Host) (manager : Manager) :
    (manager.CanAdd newHosts ∧ (addHosts newHosts manager).polling = .asleep) ∨
      (¬ manager.CanAdd newHosts ∧ (addHosts newHosts manager).polling = .raised) := by
  by_cases hcan : manager.CanAdd newHosts
  · exact .inl ⟨hcan, polling_addHosts_iff.mpr hcan⟩
  · exact .inr ⟨hcan, ((addHosts_fields newHosts manager).2).resolve_left
      fun hasleep => hcan (polling_addHosts_iff.mp hasleep)⟩

theorem Consistent.addHosts (hconsistent : Consistent manager) (hcan : manager.CanAdd newHosts)
    (hnodup : newHosts.Nodup)
    (hnew : ∀ hostname ∈ newHosts, hostname ∉ manager.relayConnections) :
    Consistent (addHosts newHosts manager) where
  toKept := (hconsistent.toKept.addHosts hcan hnodup hnew).1
  notRaised := by
    rw [polling_addHosts_iff.mpr hcan]
    exact Polling.noConfusion
  iteration := by
    intro cleanups newHosts hcleaning
    rw [polling_addHosts_iff.mpr hcan] at hcleaning
    exact Polling.noConfusion hcleaning

theorem Consistent.poll (hconsistent : Consistent manager) (hcareful : Careful manager .polls) :
    Consistent manager.poll := by
  rw [Manager.poll]
  split
  · next hnone =>
    refine hconsistent.addHosts (hcareful hnone) nodup_newRemoteHosts fun hostname hnew hmem => ?_
    have hdeleted := deleted_of_mem_newRemoteHosts hnew hmem
    rw [hnone] at hdeleted
    exact absurd hdeleted List.not_mem_nil
  · refine ⟨hconsistent.toKept.iterate, Polling.noConfusion, fun cleanups newHosts hcleaning => ?_⟩
    obtain ⟨rfl, rfl⟩ := Polling.cleaning.inj hcleaning
    exact iteration_poll

theorem Consistent.cleanupStarts (hconsistent : Consistent manager)
    (hcleaning : manager.polling = .cleaning cleanups newHosts) (hostname : Host) :
    (∀ id, (manager.cleanupStarts hostname).1 = some id →
      Consistent { (manager.cleanupStarts hostname).2 with
        polling := .cleaning (cleanups.insert hostname (.waiting id)) newHosts }) ∧
      ((manager.cleanupStarts hostname).1 = none →
        Consistent { (manager.cleanupStarts hostname).2 with
          polling := .cleaning (cleanups.erase hostname) newHosts }) := by
  have hkept := hconsistent.toKept.cleanupStarts hostname
  have hiteration := hconsistent.iteration cleanups newHosts hcleaning
  constructor
  · intro id hwaits
    refine ⟨hkept.iterate, Polling.noConfusion, fun cleanups' newHosts' hpolling => ?_⟩
    obtain ⟨rfl, rfl⟩ := Polling.cleaning.inj hpolling
    rw [cleanupStarts_waits] at hwaits
    simpa using hiteration.begin hwaits
  · intro hnone
    refine ⟨hkept.iterate, Polling.noConfusion, fun cleanups' newHosts' hpolling => ?_⟩
    obtain ⟨rfl, rfl⟩ := Polling.cleaning.inj hpolling
    rw [cleanupStarts_waits] at hnone
    simpa using hiteration.finish (AList.lookup_eq_none.mp hnone)

theorem Consistent.cleanupEnds (hconsistent : Consistent manager)
    (hcleaning : manager.polling = .cleaning cleanups newHosts)
    (hwaiting : cleanups.lookup hostname = some (.waiting id)) (hdone : manager.Done id)
    (hends : manager.cleanupEnds hostname = some after) :
    Consistent { after with polling := .cleaning (cleanups.erase hostname) newHosts } := by
  have hiteration := hconsistent.iteration cleanups newHosts hcleaning
  have hkept := hconsistent.toKept.cleanupEnds
    (done_of_lookup hdone (hiteration.waits hostname id hwaiting)) hends
  refine ⟨hkept.iterate, Polling.noConfusion, fun cleanups' newHosts' hpolling => ?_⟩
  obtain ⟨rfl, rfl⟩ := Polling.cleaning.inj hpolling
  obtain ⟨-, hafter⟩ := Option.ite_none_right_eq_some.mp hends
  obtain rfl := Option.some.inj hafter
  have hfewer : Iteration (manager.relayConnections.erase hostname) cleanups newHosts :=
    hiteration.mono fun other id' hlookup => (lookup_erase_eq_some_iff.mp hlookup).2
  exact hfewer.finish fun hmem => (AList.mem_erase.mp hmem).1 rfl

inductive Steps (localHostname : String) (manager : Manager) : Event → Manager → Prop where
  | heartbeat (beat : Heartbeat) (hidle : manager.listener = none) :
      Steps localHostname manager (.heartbeat beat) (manager.onWsHeartbeat localHostname beat)
  | listenerResumes {hostname : Host} {id : ℕ}
      (hlistener : manager.listener = some (hostname, id)) (hdone : manager.Done id) :
      Steps localHostname manager .listenerResumes (manager.listenerResumes hostname)
  | established (id : ℕ) : Steps localHostname manager (.established id)
      (manager.modify id fun connection => { connection with connected := true })
  | ended (id : ℕ) : Steps localHostname manager (.ended id)
      (manager.modify id fun connection => { connection with connected := false, done := true })
  | polls (hasleep : manager.polling = .asleep) : Steps localHostname manager .polls manager.poll
  | cleanupWaits {hostname : Host} {cleanups : AList fun _ : Host => Cleanup}
      {newHosts : List Host} {id : ℕ} (hcleaning : manager.polling = .cleaning cleanups newHosts)
      (hwaits : (manager.cleanupStarts hostname).1 = some id) :
      Steps localHostname manager (.cleanupStarts hostname)
        { (manager.cleanupStarts hostname).2 with
          polling := .cleaning (cleanups.insert hostname (.waiting id)) newHosts }
  | cleanupDone {hostname : Host} {cleanups : AList fun _ : Host => Cleanup}
      {newHosts : List Host} (hcleaning : manager.polling = .cleaning cleanups newHosts)
      (hnone : (manager.cleanupStarts hostname).1 = none) :
      Steps localHostname manager (.cleanupStarts hostname)
        { (manager.cleanupStarts hostname).2 with
          polling := .cleaning (cleanups.erase hostname) newHosts }
  | cleanupEnds {hostname : Host} {cleanups : AList fun _ : Host => Cleanup}
      {newHosts : List Host} {id : ℕ} {ended : Manager}
      (hcleaning : manager.polling = .cleaning cleanups newHosts)
      (hwaiting : cleanups.lookup hostname = some (.waiting id)) (hdone : manager.Done id)
      (hends : manager.cleanupEnds hostname = some ended) :
      Steps localHostname manager (.cleanupResumes hostname)
        { ended with polling := .cleaning (cleanups.erase hostname) newHosts }
  | cleanupRaises {hostname : Host} (hnotMem : hostname ∉ manager.relayConnections) :
      Steps localHostname manager (.cleanupResumes hostname) { manager with polling := .raised }
  | proceeds {cleanups : AList fun _ : Host => Cleanup} {newHosts : List Host}
      (hcleaning : manager.polling = .cleaning cleanups newHosts) (hfinished : cleanups.keys = []) :
      Steps localHostname manager .proceeds (addHosts newHosts manager)

theorem steps_of_step (hstep : step localHostname manager event = some after) :
    Steps localHostname manager event after := by
  rw [step.eq_def] at hstep
  split at hstep
  · obtain ⟨hidle, hafter⟩ := Option.ite_none_right_eq_some.mp hstep
    exact Option.some.inj hafter ▸ .heartbeat _ hidle
  · split at hstep
    · next hlistener =>
      obtain ⟨hdone, hafter⟩ := Option.ite_none_right_eq_some.mp hstep
      exact Option.some.inj hafter ▸ .listenerResumes hlistener hdone
    · exact absurd hstep.symm (Option.some_ne_none _)
  · split at hstep
    · obtain ⟨-, hafter⟩ := Option.ite_none_left_eq_some.mp hstep
      exact Option.some.inj hafter ▸ .established _
    · exact absurd hstep.symm (Option.some_ne_none _)
  · split at hstep
    · obtain ⟨-, hafter⟩ := Option.ite_none_left_eq_some.mp hstep
      exact Option.some.inj hafter ▸ .ended _
    · exact absurd hstep.symm (Option.some_ne_none _)
  · split at hstep
    · next hasleep => exact Option.some.inj hstep ▸ .polls hasleep
    · exact absurd hstep.symm (Option.some_ne_none _)
  · split at hstep
    · next hcleaning =>
      split at hstep
      · dsimp only at hstep
        split at hstep
        · next hwaits => exact Option.some.inj hstep ▸ .cleanupWaits hcleaning hwaits
        · next hnone => exact Option.some.inj hstep ▸ .cleanupDone hcleaning hnone
      · exact absurd hstep.symm (Option.some_ne_none _)
    · exact absurd hstep.symm (Option.some_ne_none _)
  · split at hstep
    · next hcleaning =>
      split at hstep
      · next hwaiting =>
        obtain ⟨hdone, hafter⟩ := Option.ite_none_right_eq_some.mp hstep
        split at hafter
        · next hends => exact Option.some.inj hafter ▸ .cleanupEnds hcleaning hwaiting hdone hends
        · next hnone =>
          exact Option.some.inj hafter ▸ .cleanupRaises (cleanupEnds_eq_none_iff.mp hnone)
      · exact absurd hstep.symm (Option.some_ne_none _)
    · exact absurd hstep.symm (Option.some_ne_none _)
  · split at hstep
    · next hcleaning =>
      obtain ⟨hfinished, hafter⟩ := Option.ite_none_right_eq_some.mp hstep
      exact Option.some.inj hafter ▸ .proceeds hcleaning hfinished
    · exact absurd hstep.symm (Option.some_ne_none _)

theorem Consistent.step (hconsistent : Consistent manager) (hcareful : Careful manager event)
    (hstep : step localHostname manager event = some after) : Consistent after := by
  cases steps_of_step hstep with
  | heartbeat beat hidle => exact hconsistent.onWsHeartbeat hidle localHostname beat
  | listenerResumes hlistener hdone => exact hconsistent.listenerResumes hlistener hdone
  | established id =>
    apply hconsistent.modify
    exact fun _ => ⟨rfl, fun hdone => hdone⟩
  | ended id =>
    apply hconsistent.modify
    exact fun _ => ⟨rfl, fun hdone => Bool.noConfusion hdone⟩
  | polls => exact hconsistent.poll hcareful
  | cleanupWaits hcleaning hwaits => exact (hconsistent.cleanupStarts hcleaning _).1 _ hwaits
  | cleanupDone hcleaning hnone => exact (hconsistent.cleanupStarts hcleaning _).2 hnone
  | cleanupEnds hcleaning hwaiting hdone hends =>
    exact hconsistent.cleanupEnds hcleaning hwaiting hdone hends
  | cleanupRaises hnotMem => exact absurd hcareful hnotMem
  | proceeds hcleaning hfinished =>
    have hiteration := hconsistent.iteration _ _ hcleaning
    refine hconsistent.addHosts ((careful_proceeds_iff hcleaning).mp hcareful) hiteration.nodup
      fun hostname hnew hmem => ?_
    have hcleanup := hiteration.gone hostname hnew hmem
    rw [AList.mem_keys, hfinished] at hcleanup
    exact absurd hcleanup List.not_mem_nil

theorem raised_of_not_careful (hcareless : ¬ Careful manager event)
    (hstep : step localHostname manager event = some after) : after.polling = .raised := by
  cases steps_of_step hstep with
  | polls =>
    obtain ⟨hnone, hcannot⟩ := Classical.not_imp.mp hcareless
    rw [Manager.poll, if_pos hnone]
    exact ((polling_addHosts_cases _ _).resolve_left fun hcan => hcannot hcan.1).2
  | cleanupEnds _ _ _ hends =>
    rw [cleanupEnds_eq_none_iff.mpr hcareless] at hends
    exact absurd hends.symm (Option.some_ne_none _)
  | cleanupRaises => rfl
  | proceeds hcleaning =>
    rw [careful_proceeds_iff hcleaning] at hcareless
    exact ((polling_addHosts_cases _ _).resolve_left fun hcan => hcareless hcan.1).2
  | _ => exact absurd trivial hcareless

/-! ## Hosts with another address -/

/-- Only heartbeats change what is announced, and those that are not offline announce an
address. -/
theorem announced_of_step (honline : ¬ event.Offline hostname)
    (hannounced : ∃ address, manager.announced hostname = some address)
    (hstep : step localHostname manager event = some after) :
    ∃ address, after.announced hostname = some address := by
  cases steps_of_step hstep with
  | heartbeat beat =>
    rw [Manager.onWsHeartbeat.eq_def]
    split
    · exact hannounced
    · split
      · next ip _ _ =>
        by_cases hhostname : hostname = beat.hostname
        · exact ⟨ip, hhostname ▸ Function.update_self _ _ _⟩
        · exact hannounced.imp fun address => (Function.update_of_ne hhostname _ _).trans
      · next hoffline _ =>
        have hhostname : hostname ≠ beat.hostname :=
          fun hsame => honline ⟨beat, rfl, hoffline, hsame.symm⟩
        exact hannounced.imp fun address => (Function.update_of_ne hhostname _ _).trans
      · exact hannounced
  | listenerResumes =>
    rw [listenerResumes_fields.2]
    exact hannounced
  | polls =>
    rw [Manager.poll]
    split
    · rw [(addHosts_fields _ _).1]
      exact hannounced
    · exact hannounced
  | cleanupWaits => simpa using hannounced
  | cleanupDone => simpa using hannounced
  | cleanupEnds _ _ _ hends =>
    obtain ⟨-, hended⟩ := Option.ite_none_right_eq_some.mp hends
    exact Option.some.inj hended ▸ hannounced
  | proceeds =>
    rw [(addHosts_fields _ _).1]
    exact hannounced
  | _ => exact hannounced

theorem newHosts_of_step (hproceeds : event ≠ .proceeds) (hraised : after.polling ≠ .raised)
    (hcleaning : manager.polling = .cleaning cleanups newHosts)
    (hstep : step localHostname manager event = some after) :
    ∃ cleanups', after.polling = .cleaning cleanups' newHosts := by
  cases steps_of_step hstep with
  | heartbeat => exact ⟨cleanups, onWsHeartbeat_polling.trans hcleaning⟩
  | listenerResumes => exact ⟨cleanups, listenerResumes_fields.1.trans hcleaning⟩
  | established | ended => exact ⟨cleanups, hcleaning⟩
  | polls hasleep => exact Polling.noConfusion (hasleep.symm.trans hcleaning)
  | cleanupWaits hcleaning' | cleanupDone hcleaning' | cleanupEnds hcleaning' =>
    obtain ⟨-, rfl⟩ := Polling.cleaning.inj (hcleaning.symm.trans hcleaning')
    exact ⟨_, rfl⟩
  | cleanupRaises => exact absurd rfl hraised
  | proceeds => exact absurd rfl hproceeds

/-- An iteration is on its way that adds a host, which is announced. -/
structure Awaited (hostname : Host) (manager : Manager) : Prop where
  consistent : Consistent manager
  adds : ∃ cleanups newHosts, manager.polling = .cleaning cleanups newHosts ∧ hostname ∈ newHosts
  announced : ∃ address, manager.announced hostname = some address

theorem Awaited.step (hawaited : Awaited hostname manager) (hcareful : Careful manager event)
    (honline : ¬ event.Offline hostname) (hproceeds : event ≠ .proceeds)
    (hstep : step localHostname manager event = some after) : Awaited hostname after := by
  have hconsistent := hawaited.consistent.step hcareful hstep
  obtain ⟨cleanups, newHosts, hcleaning, hnew⟩ := hawaited.adds
  obtain ⟨cleanups', hcleaning'⟩ :=
    newHosts_of_step hproceeds hconsistent.notRaised hcleaning hstep
  exact ⟨hconsistent, ⟨cleanups', newHosts, hcleaning', hnew⟩,
    announced_of_step honline hawaited.announced hstep⟩

theorem Consistent.awaited_poll (hconsistent : Consistent manager)
    (hannounced : manager.announced hostname = some address)
    (hconnection : manager.connection? hostname = some connection)
    (hchanged : connection.remoteHost ≠ address)
    (hstep : Relay.step localHostname manager .polls = some after) : Awaited hostname after := by
  obtain ⟨id, hlookup, -⟩ := Option.bind_eq_some_iff.mp hconnection
  have hmem := AList.lookup_isSome.mp (Option.isSome_of_eq_some hlookup)
  have hknown := hconsistent.current hostname address hmem hannounced
  have hnew : hostname ∈ manager.changedHosts :=
    mem_changedHosts_iff.mpr ⟨address, connection, hknown, hconnection, hchanged.symm⟩
  have hadds : hostname ∈ manager.newRemoteHosts := List.mem_union_iff.mpr (.inr hnew)
  have hdeleted : manager.deletedRemoteHosts ≠ [] :=
    List.ne_nil_of_mem (deleted_of_mem_newRemoteHosts hadds hmem)
  have hcareful : Careful manager .polls := fun hnone => absurd hnone hdeleted
  have hconsistent' := hconsistent.step hcareful hstep
  cases steps_of_step hstep with
  | polls =>
    rw [Manager.poll, if_neg hdeleted] at hconsistent' ⊢
    exact ⟨hconsistent', ⟨_, _, rfl, hadds⟩, ⟨address, hannounced⟩⟩

theorem Awaited.proceeds (hawaited : Awaited hostname manager)
    (hcareful : Careful manager .proceeds)
    (hstep : Relay.step localHostname manager .proceeds = some after) :
    ∃ address, after.announced hostname = some address ∧ after.OneConnection hostname address := by
  obtain ⟨cleanups, newHosts, hcleaning, hnew⟩ := hawaited.adds
  obtain ⟨address, hannounced⟩ := hawaited.announced
  have hcan := (careful_proceeds_iff hcleaning).mp hcareful
  have hiteration := hawaited.consistent.iteration cleanups newHosts hcleaning
  cases steps_of_step hstep with
  | proceeds hcleaning' hfinished =>
    obtain ⟨rfl, rfl⟩ := Polling.cleaning.inj (hcleaning.symm.trans hcleaning')
    refine ⟨address, (congrFun (addHosts_fields _ _).1 hostname).trans hannounced, ?_⟩
    obtain ⟨known, hknown⟩ := Option.isSome_iff_exists.mp
      (AList.lookup_isSome.mpr (hcan hostname hnew).2)
    have haddress : known = address := by
      rcases hawaited.consistent.known hostname known hknown with hsame | hnone
      · exact Option.some.inj (hsame.symm.trans hannounced)
      · exact absurd (hannounced.symm.trans hnone) (Option.some_ne_none _)
    subst haddress
    refine (hawaited.consistent.toKept.addHosts hcan hiteration.nodup ?_).2.2 hostname hnew known
      hknown
    intro other hother hmem
    have hcleanup := hiteration.gone other hother hmem
    rw [AList.mem_keys, hfinished] at hcleanup
    exact absurd hcleanup List.not_mem_nil

theorem Consistent.reconnects (hconsistent : Consistent manager) :
    Reconnects localHostname Careful manager := by
  intro hostname address connection begun last ended hannounced hconnection hchanged hbegun hrun
    hcareful hended
  have hfirst := hconsistent.awaited_poll hannounced hconnection hchanged hbegun
  have hlast : Awaited hostname last := by
    apply hrun.invariant (Awaited hostname) hfirst
    rintro manager event after hawaited ⟨hcareful, honline, hproceeds⟩ hstep
    exact hawaited.step hcareful honline hproceeds hstep
  exact hlast.proceeds hcareful hended

/-- In careful runs no iteration raises, and hosts with another address are connected to it.
Every step that is not careful raises. -/
theorem relay_of_careful (hrun : Run (step localHostname) Careful Manager.start manager) :
    manager.polling ≠ .raised ∧ Reconnects localHostname Careful manager ∧
      ∀ event after, step localHostname manager event = some after →
        (after.polling = .raised ↔ ¬ Careful manager event) := by
  have hconsistent : Consistent manager :=
    hrun.invariant Consistent consistent_start fun _ _ _ hconsistent hcareful hstep =>
      hconsistent.step hcareful hstep
  refine ⟨hconsistent.notRaised, hconsistent.reconnects, fun event after hstep => ?_⟩
  constructor
  · exact fun hraised hcareful => (hconsistent.step hcareful hstep).notRaised hraised
  · exact fun hcareless => raised_of_not_careful hcareless hstep

def movedHost : List Event :=
  [.heartbeat ⟨some "web1", some "10.0.0.1", .online⟩, .polls, .established 0,
    .heartbeat ⟨some "web1", some "10.0.0.2", .online⟩, .polls, .cleanupStarts (some "web1"),
    .ended 0, .cleanupResumes (some "web1")]

def announcedAgain : List Event :=
  movedHost ++ [.heartbeat ⟨some "web1", some "10.0.0.2", .online⟩, .proceeds]

theorem relay_announcedAgain : ∃ manager, Run (step "task1") Careful Manager.start manager ∧
    manager.relayConnections.lookup (some "web1") = some 1 ∧ manager.polling ≠ .raised ∧
      Reconnects "task1" Careful manager := by
  have hevents : (announcedAgain.foldlM (fun (manager : Manager) event =>
      if Careful manager event then step "task1" manager event else none) Manager.start).any
      (fun manager => manager.relayConnections.lookup (some "web1") == some 1) = true := by
    decide +kernel
  obtain ⟨manager, hmanager, hlookup⟩ := Option.any_eq_true .. |>.mp hevents
  have hrun := run_of_checked _ hmanager
  obtain ⟨hraised, hreconnects, -⟩ := relay_of_careful hrun
  exact ⟨manager, hrun, eq_of_beq hlookup, hraised, hreconnects⟩

def Polling.isRaised : Polling → Bool
  | .raised => true
  | _ => false

theorem raised_movedHost : ¬ ∀ (localHostname : String) (manager : Manager),
    Run (step localHostname) (fun _ _ => True) Manager.start manager →
      manager.polling ≠ .raised ∧ Reconnects localHostname (fun _ _ => True) manager := by
  intro hall
  have hevents : ((movedHost ++ [Event.proceeds]).foldlM (step "task1") Manager.start).any
      (fun manager => manager.polling.isRaised) = true := by
    decide +kernel
  obtain ⟨manager, hrun, hraised⟩ := exists_run_of_any _ hevents
  have hnotRaised := (hall "task1" manager hrun).1
  cases hpolling : manager.polling with
  | raised => exact hnotRaised hpolling
  | _ =>
    rw [hpolling] at hraised
    exact absurd hraised Bool.false_ne_true

end Forail.Relay
