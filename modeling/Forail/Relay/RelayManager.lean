import Mathlib.Data.List.AList
import Mathlib.Data.List.Lattice
import Mathlib.Logic.Function.Basic

/-!
# The relay manager

The manager keeps the web hosts that heartbeats announce, and a relay connection to each of
them.  Its listener and its polling loop run in turns, with a switch at every `await`.  The
connection of the listener to the database stays up.
-/

namespace Forail.Relay

/-! ## Hosts and connections -/

abbrev Host := Option String

inductive Action where
  | online
  | offline
  | other
  deriving DecidableEq

structure Heartbeat where
  hostname : Host
  ip : Option String
  action : Action

def Heartbeat.address (heartbeat : Heartbeat) : Option String :=
  if heartbeat.ip.getD "" = "" then heartbeat.hostname else heartbeat.ip

/-- `WebsocketRelayConnection`, with the host it was made for.  It is done when its task has
ended. -/
structure RelayConnection where
  hostname : Host
  remoteHost : String
  connected : Bool
  cancelled : Bool
  done : Bool
  deriving DecidableEq

/-- A clean-up of the polling loop, which has not begun or waits for the task of a
connection. -/
inductive Cleanup where
  | scheduled
  | waiting (connection : ℕ)
  deriving DecidableEq

/-- The polling loop sleeps between two iterations, waits for the clean-ups of an iteration
before new hosts are added, or has raised. -/
inductive Polling where
  | asleep
  | cleaning (cleanups : AList fun _ : Host => Cleanup) (newRemoteHosts : List Host)
  | raised

/-- `WebSocketRelayManager`, with all connections it has made, the clean-up its listener
waits for, and the last announcement of each host. -/
structure Manager where
  knownHosts : AList fun _ : Host => String
  relayConnections : AList fun _ : Host => ℕ
  connections : List RelayConnection
  listener : Option (Host × ℕ)
  polling : Polling
  announced : Host → Option String

def Manager.start : Manager := ⟨∅, ∅, [], none, .asleep, fun _ => none⟩

namespace Manager

variable (localHostname : String) (manager : Manager)

def connection? (hostname : Host) : Option RelayConnection :=
  (manager.relayConnections.lookup hostname).bind fun id => manager.connections[id]?

def modify (id : ℕ) (change : RelayConnection → RelayConnection) : Manager :=
  { manager with connections := manager.connections.modify id change }

def Done (id : ℕ) : Prop := ∃ connection ∈ manager.connections[id]?, connection.done = true

instance (id : ℕ) : Decidable (manager.Done id) :=
  inferInstanceAs (Decidable (∃ connection ∈ _, _))

/-! ## Clean-ups -/

def cleanupStarts (hostname : Host) : Option ℕ × Manager :=
  match manager.relayConnections.lookup hostname with
  | some id => (some id, manager.modify id fun connection => { connection with cancelled := true })
  | none => (none, { manager with knownHosts := manager.knownHosts.erase hostname })

/-- `cleanup_offline_host` after the wait.  It raises when the host has no connection. -/
def cleanupEnds (hostname : Host) : Option Manager :=
  if hostname ∈ manager.relayConnections then
    some { manager with
      relayConnections := manager.relayConnections.erase hostname
      knownHosts := manager.knownHosts.erase hostname }
  else none

/-! ## The listener -/

def onWsHeartbeat (heartbeat : Heartbeat) : Manager :=
  if heartbeat.hostname = some localHostname then manager
  else
    match heartbeat.action, heartbeat.address with
    | .online, some ip =>
        { manager with
          knownHosts := manager.knownHosts.insert heartbeat.hostname ip
          announced := Function.update manager.announced heartbeat.hostname (some ip) }
    | .offline, some _ =>
        let started := manager.cleanupStarts heartbeat.hostname
        { started.2 with
          listener := started.1.map fun id => (heartbeat.hostname, id)
          announced := Function.update manager.announced heartbeat.hostname none }
    | _, _ => manager

/-- The clean-up of the listener ends.  What it raises is logged. -/
def listenerResumes (hostname : Host) : Manager :=
  { (manager.cleanupEnds hostname).getD manager with listener := none }

/-! ## The polling loop -/

def changedHosts : List Host :=
  (manager.knownHosts.entries.filter fun entry =>
    match manager.connection? entry.1 with
    | none => false
    | some connection => decide (entry.2 ≠ connection.remoteHost)).map Sigma.fst

def closedHosts : List Host :=
  manager.relayConnections.keys.filter fun hostname =>
    match manager.connection? hostname with
    | none => false
    | some connection => !connection.connected

def deletedRemoteHosts : List Host :=
  (manager.relayConnections.keys.filter fun hostname => hostname ∉ manager.knownHosts) ∪
    manager.changedHosts ∪ manager.closedHosts

def newRemoteHosts : List Host :=
  (manager.knownHosts.keys.filter fun hostname => hostname ∉ manager.relayConnections) ∪
    manager.changedHosts

def connect (hostname : Host) (address : String) : Manager :=
  { manager with
    connections := manager.connections ++ [⟨hostname, address, false, false, false⟩]
    relayConnections := manager.relayConnections.insert hostname manager.connections.length }

end Manager

/-- The end of an iteration, which raises for a host without a name, whose statistics cannot be
made, and for one that is not known. -/
def addHosts : List Host → Manager → Manager
  | [], manager => { manager with polling := .asleep }
  | hostname :: hostnames, manager =>
      match hostname, manager.knownHosts.lookup hostname with
      | some _, some address => addHosts hostnames (manager.connect hostname address)
      | _, _ => { manager with polling := .raised }

def Manager.poll (manager : Manager) : Manager :=
  if manager.deletedRemoteHosts = [] then addHosts manager.newRemoteHosts manager
  else
    let cleanups := (manager.deletedRemoteHosts.map fun hostname =>
      (⟨hostname, .scheduled⟩ : Σ _ : Host, Cleanup)).toAList
    { manager with polling := .cleaning cleanups manager.newRemoteHosts }

/-! ## Steps -/

/-- What can happen next: the listener gets a heartbeat or its clean-up ends, a connection is
established or its task ends, an iteration begins, one of its clean-ups begins or ends, and the
iteration goes on after them. -/
inductive Event where
  | heartbeat (heartbeat : Heartbeat)
  | listenerResumes
  | established (id : ℕ)
  | ended (id : ℕ)
  | polls
  | cleanupStarts (hostname : Host)
  | cleanupResumes (hostname : Host)
  | proceeds

open Manager in
def step (localHostname : String) (manager : Manager) : Event → Option Manager
  | .heartbeat heartbeat =>
      if manager.listener = none then some (manager.onWsHeartbeat localHostname heartbeat)
      else none
  | .listenerResumes =>
      match manager.listener with
      | some (hostname, id) =>
          if manager.Done id then some (manager.listenerResumes hostname) else none
      | none => none
  | .established id =>
      match manager.connections[id]? with
      | some connection =>
          if connection.cancelled || connection.done then none
          else some (manager.modify id fun connection => { connection with connected := true })
      | none => none
  | .ended id =>
      match manager.connections[id]? with
      | some connection =>
          if connection.done then none
          else some (manager.modify id fun connection =>
            { connection with connected := false, done := true })
      | none => none
  | .polls =>
      match manager.polling with
      | .asleep => some manager.poll
      | _ => none
  | .cleanupStarts hostname =>
      match manager.polling with
      | .cleaning cleanups newHosts =>
          match cleanups.lookup hostname with
          | some .scheduled =>
              let started := manager.cleanupStarts hostname
              match started.1 with
              | some id => some { started.2 with
                  polling := .cleaning (cleanups.insert hostname (.waiting id)) newHosts }
              | none => some { started.2 with
                  polling := .cleaning (cleanups.erase hostname) newHosts }
          | _ => none
      | _ => none
  | .cleanupResumes hostname =>
      match manager.polling with
      | .cleaning cleanups newHosts =>
          match cleanups.lookup hostname with
          | some (.waiting id) =>
              if manager.Done id then
                match manager.cleanupEnds hostname with
                | some manager =>
                    some { manager with polling := .cleaning (cleanups.erase hostname) newHosts }
                | none => some { manager with polling := .raised }
              else none
          | _ => none
      | _ => none
  | .proceeds =>
      match manager.polling with
      | .cleaning cleanups newHosts =>
          if cleanups.keys = [] then some (addHosts newHosts manager) else none
      | _ => none

end Forail.Relay
