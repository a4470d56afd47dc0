import Mathlib.Data.Finset.Erase
import Mathlib.Data.Finset.Insert
import Mathlib.Data.String.Basic
import Mathlib.Logic.Function.Basic

/-!
# Relay subscriptions

A relay connection reads the requests of a web node, and has one producer for each group that
is subscribed to.  A producer without subscriptions stops after a timeout, and leaves its group
before it is removed.  The websocket and Redis stay up.
-/

namespace Forail.Subscriptions

/-! ## Messages -/

/-- What `json.loads` makes of a text.  A malformed one is no dictionary or a request that lacks
a field. -/
inductive Payload where
  | subscribe (groups : List String) (originChannel : String)
  | unsubscribe (groups : List String) (originChannel : String)
  | other
  | malformed

/-- A message of the web node, which is a text, maybe one that cannot be decoded, or no text. -/
inductive Message where
  | text (payload : Option Payload)
  | nonText

/-! ## Producers -/

/-- Where a producer is: it joins its group, receives, relays a message, or leaves its group. -/
inductive Phase where
  | starting
  | receiving
  | sending
  | stopping
  deriving DecidableEq

structure Producer where
  subscriptions : Finset String
  phase : Phase
  deriving DecidableEq

/-- `WebsocketRelayConnection` while it is connected, with the variable `payload` of its reader
and the channels whose last decoded request for a group was to subscribe. -/
structure Connection where
  producers : String → Option Producer
  payload : Option Payload
  reading : Bool
  subscribed : String → String → Bool

def Connection.start : Connection where
  producers := Function.update (fun _ => none) "metrics" (some ⟨{"metrics"}, .starting⟩)
  payload := none
  reading := true
  subscribed := fun _ _ => false

def producerName (remoteHost group : String) : String := remoteHost ++ "-" ++ group

/-! ## The reader -/

/-- A subscription is added to a producer, which is started if there is none. -/
def added (originChannel : String) : Option Producer → Producer
  | none => ⟨{originChannel}, .starting⟩
  | some producer =>
      { producer with subscriptions := insert originChannel producer.subscriptions }

def removed (originChannel : String) (producer : Producer) : Producer :=
  { producer with subscriptions := producer.subscriptions.erase originChannel }

section

variable (remoteHost : String)

def subscribe (originChannel : String) (producers : String → Option Producer) (group : String) :
    String → Option Producer :=
  let name := producerName remoteHost group
  Function.update producers name (some (added originChannel (producers name)))

def unsubscribe (originChannel : String) (producers : String → Option Producer)
    (group : String) : String → Option Producer :=
  let name := producerName remoteHost group
  Function.update producers name ((producers name).map (removed originChannel))

/-- The part of the loop of `run_connection` after a message has been decoded or was no text. -/
def process (connection : Connection) : Connection :=
  match connection.payload with
  | none | some .malformed => { connection with reading := false }
  | some (.subscribe groups originChannel) =>
      { connection with
        producers := groups.foldl (subscribe remoteHost originChannel) connection.producers }
  | some (.unsubscribe groups originChannel) =>
      { connection with
        producers := groups.foldl (unsubscribe remoteHost originChannel) connection.producers }
  | some .other => connection

end

def noteRequest (subscribed : String → String → Bool) : Payload → String → String → Bool
  | .subscribe groups originChannel => fun group channel =>
      decide (group ∈ groups ∧ channel = originChannel) || subscribed group channel
  | .unsubscribe groups originChannel => fun group channel =>
      !decide (group ∈ groups ∧ channel = originChannel) && subscribed group channel
  | _ => subscribed

/-- One message in the loop of `run_connection`.  A text that cannot be decoded is logged with
the last payload when messages for debugging are. -/
def receive (remoteHost : String) (debug : Bool) (connection : Connection) :
    Message → Connection
  | .text (some payload) =>
      process remoteHost { connection with
        payload := some payload
        subscribed := noteRequest connection.subscribed payload }
  | .text none =>
      if debug && connection.payload.isNone then { connection with reading := false }
      else connection
  | .nonText => process remoteHost connection

/-! ## Steps -/

/-- What can happen next: the reader gets a message, or a producer joins its group, receives a
message, has relayed it, gets none for ten seconds, or leaves its group. -/
inductive Event where
  | message (message : Message)
  | joined (name : String)
  | received (name : String) (needsRelay : Bool)
  | sent (name : String)
  | timeout (name : String)
  | left (name : String)

/-- A producer goes on from a phase, unless it is in another one. -/
def Connection.advance (connection : Connection) (name : String) (phase : Phase)
    (next : Producer → Option Producer) : Option Connection :=
  match connection.producers name with
  | some producer =>
      if producer.phase = phase then
        some { connection with
          producers := Function.update connection.producers name (next producer) }
      else none
  | none => none

def timedOut (producer : Producer) : Producer :=
  if producer.subscriptions = ∅ then { producer with phase := .stopping } else producer

def step (remoteHost : String) (debug : Bool) (connection : Connection) :
    Event → Option Connection
  | .message message =>
      if connection.reading then some (receive remoteHost debug connection message) else none
  | .joined name =>
      connection.advance name .starting fun producer => some { producer with phase := .receiving }
  | .received name needsRelay =>
      connection.advance name .receiving fun producer =>
        some { producer with phase := if needsRelay then .sending else .receiving }
  | .sent name =>
      connection.advance name .sending fun producer => some { producer with phase := .receiving }
  | .timeout name => connection.advance name .receiving fun producer => some (timedOut producer)
  | .left name => connection.advance name .stopping fun _ => none

end Forail.Subscriptions
