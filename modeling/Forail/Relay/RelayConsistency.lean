import Forail.Core.Runs
import Forail.Relay.RelayManager

/-!
# Consistency of the relay manager

A host that is announced with another address loses its entry to the clean-up of its old
connection, before the iteration looks up the new address.
-/

namespace Forail.Relay

open Forail.Runs

variable {localHostname : String} {manager after : Manager} {hostname other : Host}
  {address : String} {id : ℕ} {connection : RelayConnection} {heartbeat : Heartbeat}
  {hostnames newHosts : List Host}
  {cleanups : AList fun _ : Host => Cleanup} {event : Event}

/-! ## Dictionaries -/

section

variable {Key Value : Type*} [DecidableEq Key] {table : AList fun _ : Key => Value}
  {key key' : Key} {value value' : Value}

theorem lookup_erase_eq_some_iff :
    (table.erase key).lookup key' = some value ↔ key' ≠ key ∧ table.lookup key' = some value := by
  by_cases hkey : key' = key
  · subst hkey
    rw [AList.lookup_erase]
    exact ⟨fun hsome => absurd hsome.symm (Option.some_ne_none _), fun hboth => absurd rfl hboth.1⟩
  · rw [AList.lookup_erase_ne hkey, and_iff_right hkey]

theorem lookup_insert_eq_some_iff :
    (table.insert key value).lookup key' = some value' ↔
      (key' = key ∧ value = value') ∨ (key' ≠ key ∧ table.lookup key' = some value') := by
  by_cases hkey : key' = key
  · subst hkey
    rw [AList.lookup_insert, Option.some_inj]
    exact ⟨fun hvalue => .inl ⟨rfl, hvalue⟩, fun hcases => hcases.elim And.right
      fun hother => absurd rfl hother.1⟩
  · rw [AList.lookup_insert_ne hkey]
    exact ⟨fun hsome => .inr ⟨hkey, hsome⟩, fun hcases => hcases.elim
      (fun hsame => absurd hsame.1 hkey) And.right⟩

theorem getElem?_concat_eq_some_iff {values : List Value} {index : ℕ} :
    (values ++ [value])[index]? = some value' ↔
      values[index]? = some value' ∨ (index = values.length ∧ value = value') := by
  rcases lt_trichotomy index values.length with hlt | rfl | hgt
  · rw [List.getElem?_append_left hlt]
    exact ⟨.inl, fun hcases => hcases.resolve_right fun hlast => Nat.ne_of_lt hlt hlast.1⟩
  · rw [List.getElem?_concat_length, List.getElem?_eq_none le_rfl]
    simp
  · rw [List.getElem?_eq_none (by rw [List.length_append]; exact hgt),
      List.getElem?_eq_none (Nat.le_of_lt hgt)]
    simp [Nat.ne_of_gt hgt]

end

/-! ## The property -/

/-- A host has exactly one connection whose task has not ended, which is the registered one. -/
def Manager.OneConnection (manager : Manager) (hostname : Host) (address : String) : Prop :=
  ∃ id connection, manager.relayConnections.lookup hostname = some id ∧
    manager.connections[id]? = some connection ∧ connection.remoteHost = address ∧
    connection.done = false ∧
    ∀ other connection', manager.connections[other]? = some connection' →
      connection'.hostname = hostname → connection'.done = false → other = id

def Event.Offline (hostname : Host) (event : Event) : Prop :=
  ∃ beat : Heartbeat, event = .heartbeat beat ∧ beat.action = .offline ∧ beat.hostname = hostname

def Manager.CanAdd (manager : Manager) (hostnames : List Host) : Prop :=
  ∀ hostname ∈ hostnames, hostname ≠ none ∧ hostname ∈ manager.knownHosts

/-- What may happen next, when the branches are left out that raise: the host of a clean-up that
ends is still registered, and the hosts to add have names and are known. -/
def Careful (manager : Manager) : Event → Prop
  | .polls => manager.deletedRemoteHosts = [] → manager.CanAdd manager.newRemoteHosts
  | .cleanupResumes hostname => hostname ∈ manager.relayConnections
  | .proceeds =>
      match manager.polling with
      | .cleaning _ newHosts => manager.CanAdd newHosts
      | _ => True
  | _ => True

instance (hostnames : List Host) : Decidable (manager.CanAdd hostnames) :=
  inferInstanceAs (Decidable (∀ _ ∈ hostnames, _))

instance : DecidablePred (Careful manager)
  | .polls => inferInstanceAs (Decidable (_ → _))
  | .cleanupResumes hostname => inferInstanceAs (Decidable (hostname ∈ manager.relayConnections))
  | .proceeds =>
      match hpolling : manager.polling with
      | .cleaning _ newHosts => decidable_of_iff (manager.CanAdd newHosts) (by simp [Careful, hpolling])
      | .asleep | .raised => .isTrue (by simp [Careful, hpolling])
  | .heartbeat _ | .listenerResumes | .established _ | .ended _ | .cleanupStarts _ =>
      .isTrue trivial

theorem careful_proceeds_iff (hcleaning : manager.polling = .cleaning cleanups newHosts) :
    Careful manager .proceeds ↔ manager.CanAdd newHosts := by
  rw [Careful.eq_def]
  dsimp only
  rw [hcleaning]

/-- A host that is announced with another address than that of its connection when an iteration
begins, and not announced offline in it, has one connection to its address after it. -/
def Reconnects (localHostname : String) (allowed : Manager → Event → Prop)
    (manager : Manager) : Prop :=
  ∀ hostname address connection begun last ended,
    manager.announced hostname = some address → manager.connection? hostname = some connection →
    connection.remoteHost ≠ address → step localHostname manager .polls = some begun →
    Run (step localHostname) (fun manager event => allowed manager event ∧
      ¬ event.Offline hostname ∧ event ≠ .proceeds) begun last →
    allowed last .proceeds → step localHostname last .proceeds = some ended →
    ∃ address', ended.announced hostname = some address' ∧ ended.OneConnection hostname address'

/-! ## The dictionaries of the manager -/

/-- What holds of the connections and the known hosts, whatever the polling loop does. -/
structure Kept (manager : Manager) : Prop where
  registered : ∀ hostname id, manager.relayConnections.lookup hostname = some id →
    ∃ connection, manager.connections[id]? = some connection ∧ connection.hostname = hostname
  alive : ∀ id connection, manager.connections[id]? = some connection →
    connection.done = false → manager.relayConnections.lookup connection.hostname = some id
  known : ∀ hostname address, manager.knownHosts.lookup hostname = some address →
    manager.announced hostname = some address ∨ manager.announced hostname = none
  current : ∀ hostname address, hostname ∈ manager.relayConnections →
    manager.announced hostname = some address → manager.knownHosts.lookup hostname = some address
  listening : ∀ hostname id, manager.listener = some (hostname, id) →
    manager.relayConnections.lookup hostname = some id ∨
      (hostname ∉ manager.relayConnections ∧ hostname ∉ manager.knownHosts)

theorem Kept.modify (hkept : Kept manager) (change : RelayConnection → RelayConnection)
    (hchange : ∀ connection, (change connection).hostname = connection.hostname ∧
      ((change connection).done = false → connection.done = false)) (id : ℕ) :
    Kept (manager.modify id change) := by
  have hsame : ∀ (index : ℕ) (connection : RelayConnection),
      (manager.modify id change).connections[index]? = some connection →
        ∃ connection' : RelayConnection, manager.connections[index]? = some connection' ∧
          connection.hostname = connection'.hostname ∧
            (connection.done = false → connection'.done = false) := by
    intro index connection hconnection
    rw [Manager.modify, List.getElem?_modify] at hconnection
    obtain ⟨connection', hconnection', hchanged⟩ := Option.map_eq_some_iff.mp hconnection
    refine ⟨connection', hconnection', ?_⟩
    split at hchanged
    · subst hchanged
      exact hchange connection'
    · subst hchanged
      exact ⟨rfl, fun hdone => hdone⟩
  refine ⟨?_, ?_, hkept.known, hkept.current, hkept.listening⟩
  · intro hostname index hlookup
    obtain ⟨connection, hconnection, hhostname⟩ := hkept.registered hostname index hlookup
    change ∃ connection, (manager.connections.modify id change)[index]? = some connection ∧ _
    rw [List.getElem?_modify, hconnection]
    refine ⟨_, rfl, ?_⟩
    dsimp only
    split
    · exact (hchange connection).1.trans hhostname
    · exact hhostname
  · intro index connection hconnection hdone
    obtain ⟨connection', hconnection', hhostname, hstill⟩ := hsame index connection hconnection
    rw [hhostname]
    exact hkept.alive index connection' hconnection' (hstill hdone)

theorem Kept.cleanupEnds (hkept : Kept manager)
    (hdone : ∀ id connection, manager.relayConnections.lookup hostname = some id →
      manager.connections[id]? = some connection → connection.done = true)
    (hends : manager.cleanupEnds hostname = some after) : Kept after := by
  obtain ⟨-, hafter⟩ := Option.ite_none_right_eq_some.mp hends
  obtain rfl := Option.some.inj hafter
  refine ⟨?_, ?_, ?_, ?_, ?_⟩
  · intro other id hlookup
    exact hkept.registered other id (lookup_erase_eq_some_iff.mp hlookup).2
  · intro id connection hconnection hrunning
    have hlookup := hkept.alive id connection hconnection hrunning
    refine lookup_erase_eq_some_iff.mpr ⟨?_, hlookup⟩
    rintro rfl
    rw [hdone id connection hlookup hconnection] at hrunning
    exact Bool.noConfusion hrunning
  · intro other address hlookup
    exact hkept.known other address (lookup_erase_eq_some_iff.mp hlookup).2
  · intro other address hmem hannounced
    obtain ⟨hne, hmem⟩ := AList.mem_erase.mp hmem
    exact lookup_erase_eq_some_iff.mpr ⟨hne, hkept.current other address hmem hannounced⟩
  · intro other id hlistener
    by_cases hother : other = hostname
    · subst hother
      exact .inr ⟨fun hmem => (AList.mem_erase.mp hmem).1 rfl,
        fun hmem => (AList.mem_erase.mp hmem).1 rfl⟩
    · refine (hkept.listening other id hlistener).imp (fun hlookup => ?_) fun hnone => ?_
      · exact lookup_erase_eq_some_iff.mpr ⟨hother, hlookup⟩
      · exact ⟨fun hmem => hnone.1 (AList.mem_erase.mp hmem).2,
          fun hmem => hnone.2 (AList.mem_erase.mp hmem).2⟩

theorem cleanupEnds_eq_none_iff :
    manager.cleanupEnds hostname = none ↔ hostname ∉ manager.relayConnections := by
  rw [Manager.cleanupEnds, ite_eq_right_iff]
  exact ⟨fun hnone hmem => absurd (hnone hmem) (Option.some_ne_none _),
    fun hnotMem hmem => absurd hmem hnotMem⟩

theorem Kept.cleanupStarts (hkept : Kept manager) (hostname : Host) :
    Kept (manager.cleanupStarts hostname).2 := by
  rw [Manager.cleanupStarts.eq_def]
  split
  · next id _ =>
    exact hkept.modify (fun connection => { connection with cancelled := true })
      (fun _ => ⟨rfl, fun hdone => hdone⟩) id
  · next hnone =>
    have hnotMem := AList.lookup_eq_none.mp hnone
    refine ⟨hkept.registered, hkept.alive, ?_, ?_, ?_⟩
    · intro other address hlookup
      exact hkept.known other address (lookup_erase_eq_some_iff.mp hlookup).2
    · intro other address hmem hannounced
      refine lookup_erase_eq_some_iff.mpr ⟨?_, hkept.current other address hmem hannounced⟩
      rintro rfl
      exact hnotMem hmem
    · intro other id hlistener
      exact (hkept.listening other id hlistener).imp_right fun hother =>
        ⟨hother.1, fun hmem => hother.2 (AList.mem_erase.mp hmem).2⟩

@[simp]
theorem cleanupStarts_announced :
    (manager.cleanupStarts hostname).2.announced = manager.announced := by
  rw [Manager.cleanupStarts.eq_def]
  split <;> rfl

@[simp]
theorem cleanupStarts_relayConnections :
    (manager.cleanupStarts hostname).2.relayConnections = manager.relayConnections := by
  rw [Manager.cleanupStarts.eq_def]
  split <;> rfl

@[simp]
theorem cleanupStarts_polling :
    (manager.cleanupStarts hostname).2.polling = manager.polling := by
  rw [Manager.cleanupStarts.eq_def]
  split <;> rfl

theorem cleanupStarts_waits :
    (manager.cleanupStarts hostname).1 = manager.relayConnections.lookup hostname := by
  rw [Manager.cleanupStarts.eq_def]
  split
  · next hlookup => exact hlookup.symm
  · next hnone => exact hnone.symm

/-! ## The listener -/

theorem Kept.onWsHeartbeat (hkept : Kept manager) (hidle : manager.listener = none)
    (localHostname : String) (heartbeat : Heartbeat) :
    Kept (manager.onWsHeartbeat localHostname heartbeat) := by
  rw [Manager.onWsHeartbeat.eq_def]
  split
  · exact hkept
  · split
    · next ip _ _ =>
      refine ⟨hkept.registered, hkept.alive, ?_, ?_, ?_⟩
      · intro hostname address hlookup
        dsimp only
        rcases lookup_insert_eq_some_iff.mp hlookup with ⟨rfl, rfl⟩ | ⟨hne, hlookup⟩
        · exact .inl (Function.update_self _ _ _)
        · rw [Function.update_of_ne hne]
          exact hkept.known hostname address hlookup
      · intro hostname address hmem hannounced
        apply lookup_insert_eq_some_iff.mpr
        by_cases hhostname : hostname = heartbeat.hostname
        · subst hhostname
          dsimp only at hannounced
          rw [Function.update_self] at hannounced
          exact .inl ⟨rfl, Option.some.inj hannounced⟩
        · dsimp only at hannounced
          rw [Function.update_of_ne hhostname] at hannounced
          exact .inr ⟨hhostname, hkept.current hostname address hmem hannounced⟩
      · intro hostname id hlistener
        exact absurd (hidle.symm.trans hlistener).symm (Option.some_ne_none _)
    · have hstarted := hkept.cleanupStarts heartbeat.hostname
      refine ⟨hstarted.registered, hstarted.alive, ?_, ?_, ?_⟩
      · intro hostname address hlookup
        dsimp only
        by_cases hhostname : hostname = heartbeat.hostname
        · subst hhostname
          exact .inr (Function.update_self _ _ _)
        · rw [Function.update_of_ne hhostname]
          simpa using hstarted.known hostname address hlookup
      · intro hostname address hmem hannounced
        dsimp only at hannounced
        by_cases hhostname : hostname = heartbeat.hostname
        · subst hhostname
          rw [Function.update_self] at hannounced
          exact absurd hannounced.symm (Option.some_ne_none _)
        · rw [Function.update_of_ne hhostname] at hannounced
          exact hstarted.current hostname address hmem (by simpa using hannounced)
      · intro hostname id hlistener
        left
        obtain ⟨id', hwaits, hsame⟩ := Option.map_eq_some_iff.mp hlistener
        obtain ⟨rfl, rfl⟩ := Prod.mk.inj hsame
        rw [cleanupStarts_waits] at hwaits
        simpa using hwaits
    · exact hkept

theorem Kept.idle (hkept : Kept manager) : Kept { manager with listener := none } :=
  ⟨hkept.registered, hkept.alive, hkept.known, hkept.current,
    fun _ _ hlistener => absurd hlistener.symm (Option.some_ne_none _)⟩

theorem done_of_lookup (hdone : manager.Done id)
    (hsame : ∀ id', manager.relayConnections.lookup hostname = some id' → id' = id) :
    ∀ id connection, manager.relayConnections.lookup hostname = some id →
      manager.connections[id]? = some connection → connection.done = true := by
  intro id' connection hlookup hconnection
  obtain rfl := hsame id' hlookup
  obtain ⟨connection', hmem, hdone⟩ := hdone
  obtain rfl := Option.some.inj (hconnection.symm.trans hmem)
  exact hdone

theorem Kept.listenerResumes (hkept : Kept manager)
    (hlistener : manager.listener = some (hostname, id)) (hdone : manager.Done id) :
    Kept (manager.listenerResumes hostname) := by
  rw [Manager.listenerResumes]
  cases hends : manager.cleanupEnds hostname with
  | none => exact hkept.idle
  | some ended =>
    refine (hkept.cleanupEnds (done_of_lookup hdone fun id' hlookup => ?_) hends).idle
    rcases hkept.listening hostname id hlistener with hsame | ⟨hnone, -⟩
    · exact Option.some.inj (hlookup.symm.trans hsame)
    · rw [AList.lookup_eq_none.mpr hnone] at hlookup
      exact absurd hlookup.symm (Option.some_ne_none _)

/-! ## The end of an iteration -/

theorem Kept.connect (hkept : Kept manager) (hnew : hostname ∉ manager.relayConnections)
    (hknown : manager.knownHosts.lookup hostname = some address) :
    Kept (manager.connect hostname address) := by
  refine ⟨?_, ?_, hkept.known, ?_, ?_⟩
  · intro other id hlookup
    rcases lookup_insert_eq_some_iff.mp hlookup with ⟨rfl, rfl⟩ | ⟨-, hlookup⟩
    · exact ⟨_, getElem?_concat_eq_some_iff.mpr (.inr ⟨rfl, rfl⟩), rfl⟩
    · obtain ⟨connection, hconnection, hother⟩ := hkept.registered other id hlookup
      exact ⟨connection, getElem?_concat_eq_some_iff.mpr (.inl hconnection), hother⟩
  · intro id connection hconnection hrunning
    apply lookup_insert_eq_some_iff.mpr
    rcases getElem?_concat_eq_some_iff.mp hconnection with hold | ⟨rfl, rfl⟩
    · have hlookup := hkept.alive id connection hold hrunning
      refine .inr ⟨?_, hlookup⟩
      rintro rfl
      exact hnew (AList.lookup_isSome.mp (Option.isSome_of_eq_some hlookup))
    · exact .inl ⟨rfl, rfl⟩
  · intro other address' hmem hannounced
    rcases (AList.mem_insert _).mp hmem with rfl | hmem
    · rcases hkept.known other address hknown with hsame | hnone
      · exact hknown.trans (hsame.symm.trans hannounced)
      · rw [show manager.announced other = _ from hannounced] at hnone
        exact absurd hnone (Option.some_ne_none _)
    · exact hkept.current other address' hmem hannounced
  · intro other id hlistener
    rcases hkept.listening other id hlistener with hlookup | ⟨hnone, hunknown⟩
    · refine .inl (lookup_insert_eq_some_iff.mpr (.inr ⟨?_, hlookup⟩))
      rintro rfl
      exact hnew (AList.lookup_isSome.mp (Option.isSome_of_eq_some hlookup))
    · refine .inr ⟨fun hmem => ?_, hunknown⟩
      rcases (AList.mem_insert _).mp hmem with rfl | hmem
      · exact hunknown (AList.lookup_isSome.mp (Option.isSome_of_eq_some hknown))
      · exact hnone hmem

theorem Kept.oneConnection_connect (hkept : Kept manager)
    (hnew : hostname ∉ manager.relayConnections) :
    (manager.connect hostname address).OneConnection hostname address := by
  refine ⟨manager.connections.length, ⟨hostname, address, false, false, false⟩,
    AList.lookup_insert _, getElem?_concat_eq_some_iff.mpr (.inr ⟨rfl, rfl⟩), rfl, rfl, ?_⟩
  intro id connection hconnection hhostname hrunning
  rcases getElem?_concat_eq_some_iff.mp hconnection with hold | ⟨rfl, -⟩
  · have hlookup := hkept.alive id connection hold hrunning
    rw [hhostname] at hlookup
    exact absurd (AList.lookup_isSome.mp (Option.isSome_of_eq_some hlookup)) hnew
  · rfl

theorem oneConnection_connect_of_ne (hne : other ≠ hostname) {address' : String}
    (hone : manager.OneConnection other address') :
    (manager.connect hostname address).OneConnection other address' := by
  obtain ⟨id, connection, hlookup, hconnection, hremote, hrunning, hall⟩ := hone
  refine ⟨id, connection, lookup_insert_eq_some_iff.mpr (.inr ⟨hne, hlookup⟩),
    getElem?_concat_eq_some_iff.mpr (.inl hconnection), hremote, hrunning, ?_⟩
  intro id' connection' hconnection' hhostname hrunning'
  rcases getElem?_concat_eq_some_iff.mp hconnection' with hold | ⟨-, rfl⟩
  · exact hall id' connection' hold hhostname hrunning'
  · exact absurd hhostname.symm hne

theorem addHosts_fields (hostnames : List Host) (manager : Manager) :
    (addHosts hostnames manager).announced = manager.announced ∧
      ((addHosts hostnames manager).polling = .asleep ∨
        (addHosts hostnames manager).polling = .raised) := by
  induction hostnames generalizing manager with
  | nil => exact ⟨rfl, .inl rfl⟩
  | cons hostname hostnames ih =>
    rw [addHosts.eq_def]
    dsimp only
    split
    · exact ih _
    · exact ⟨rfl, .inr rfl⟩

theorem polling_addHosts_iff :
    (addHosts hostnames manager).polling = .asleep ↔ manager.CanAdd hostnames := by
  induction hostnames generalizing manager with
  | nil => exact ⟨fun _ _ hmem => absurd hmem List.not_mem_nil, fun _ => rfl⟩
  | cons hostname hostnames ih =>
    rw [addHosts.eq_def, Manager.CanAdd, List.forall_mem_cons, ← AList.lookup_isSome]
    dsimp only
    split
    · next name address hlookup =>
      rw [ih, hlookup]
      exact ⟨fun hall => ⟨⟨Option.some_ne_none _, rfl⟩, hall⟩, And.right⟩
    · next hnot =>
      constructor
      · exact fun hasleep => Polling.noConfusion hasleep
      · rintro ⟨⟨hname, hsome⟩, -⟩
        obtain ⟨name, rfl⟩ := Option.ne_none_iff_exists'.mp hname
        obtain ⟨address, hlookup⟩ := Option.isSome_iff_exists.mp hsome
        exact (hnot name address rfl hlookup).elim

theorem Kept.asleep (hkept : Kept manager) : Kept { manager with polling := .asleep } :=
  ⟨hkept.registered, hkept.alive, hkept.known, hkept.current, hkept.listening⟩

theorem Kept.addHosts (hkept : Kept manager) (hcan : manager.CanAdd hostnames)
    (hnodup : hostnames.Nodup)
    (hnew : ∀ hostname ∈ hostnames, hostname ∉ manager.relayConnections) :
    Kept (addHosts hostnames manager) ∧
      (∀ hostname address, hostname ∉ hostnames → manager.OneConnection hostname address →
        (Relay.addHosts hostnames manager).OneConnection hostname address) ∧
      ∀ hostname ∈ hostnames, ∀ address, manager.knownHosts.lookup hostname = some address →
        (Relay.addHosts hostnames manager).OneConnection hostname address := by
  induction hostnames generalizing manager with
  | nil =>
    exact ⟨hkept.asleep, fun _ _ _ hone => hone, fun _ hmem => absurd hmem List.not_mem_nil⟩
  | cons first hostnames ih =>
    obtain ⟨⟨hname, hknown⟩, hcanRest⟩ := List.forall_mem_cons.mp hcan
    obtain ⟨hfresh, hnodupRest⟩ := List.nodup_cons.mp hnodup
    obtain ⟨hfirst, hnewRest⟩ := List.forall_mem_cons.mp hnew
    obtain ⟨name, rfl⟩ := Option.ne_none_iff_exists'.mp hname
    obtain ⟨address, hlookup⟩ := Option.isSome_iff_exists.mp (AList.lookup_isSome.mpr hknown)
    have hadd : Relay.addHosts (some name :: hostnames) manager =
        Relay.addHosts hostnames (manager.connect (some name) address) := by
      rw [Relay.addHosts.eq_def]
      dsimp only
      rw [hlookup]
    rw [hadd]
    have hnew' : ∀ hostname ∈ hostnames,
        hostname ∉ (manager.connect (some name) address).relayConnections := by
      intro hostname hmem hconnected
      rcases (AList.mem_insert _).mp hconnected with rfl | hconnected
      · exact hfresh hmem
      · exact hnewRest hostname hmem hconnected
    obtain ⟨hkept', hothers, hadded⟩ :=
      ih (hkept.connect hfirst hlookup) hcanRest hnodupRest hnew'
    refine ⟨hkept', ?_, ?_⟩
    · intro hostname address' hnotMem hone
      obtain ⟨hne, hrest⟩ := List.ne_and_not_mem_of_not_mem_cons hnotMem
      exact hothers hostname address' hrest (oneConnection_connect_of_ne hne hone)
    · intro hostname hmem address' haddress
      rcases List.mem_cons.mp hmem with rfl | hmem
      · obtain rfl := Option.some.inj (hlookup.symm.trans haddress)
        exact hothers _ _ hfresh (hkept.oneConnection_connect hfirst)
      · exact hadded hostname hmem address' haddress

end Forail.Relay
