import Forail.Core.Texts
import Forail.Eda.EventRules

/-!
# The address of a client

`RequestContextMiddleware` records who makes a request.  A proxy appends the address of
its peer to `X-Forwarded-For`, so what stands behind the last address of a stranger was
written by the proxies of the installation.
-/

namespace Forail.ClientAddress

open Forail.Texts

structure Request where
  remoteAddr : Option String
  forwardedFor : Option String
  userAgent : Option String
  sessionKey : Option String

structure RequestContext where
  actorIp : String
  actorUserAgent : String
  actorSessionId : String
  deriving DecidableEq

def hops (forwarded : String) : List String :=
  (split [','] forwarded.toList).map fun hop => EventRules.strip (String.ofList hop)

def Known (proxyAllowed : List String) (hop : String) : Prop := hop = "" ∨ hop ∈ proxyAllowed

instance (proxyAllowed : List String) : DecidablePred (Known proxyAllowed) :=
  fun hop => inferInstanceAs (Decidable (hop = "" ∨ hop ∈ proxyAllowed))

def firstUnknown (proxyAllowed : List String) (remoteAddr : String) : List String → String
  | [] => remoteAddr
  | hop :: rest =>
      if Known proxyAllowed hop then firstUnknown proxyAllowed remoteAddr rest else hop

def Request.actorIp (proxyAllowed : List String) (request : Request) : String :=
  let remoteAddr := request.remoteAddr.getD ""
  let forwarded := request.forwardedFor.getD ""
  if forwarded ≠ "" ∧ remoteAddr ∈ proxyAllowed then
    firstUnknown proxyAllowed remoteAddr (hops forwarded).reverse
  else remoteAddr

def processRequest (proxyIpAllowedList : Option (List String)) (sha256 : String → String)
    (request : Request) : RequestContext where
  actorIp := request.actorIp (proxyIpAllowedList.getD [])
  actorUserAgent := String.ofList ((request.userAgent.getD "").toList.take 512)
  actorSessionId :=
    match request.sessionKey with
    | some key => if key = "" then "" else sha256 key
    | none => ""

def Request.forwardedHops (request : Request) : List String := hops (request.forwardedFor.getD "")

variable {proxyAllowed : List String} {remoteAddr client : String} {before after : List String}

theorem firstUnknown_append (hbefore : ∀ hop ∈ before, Known proxyAllowed hop) :
    firstUnknown proxyAllowed remoteAddr (before ++ after) =
      firstUnknown proxyAllowed remoteAddr after := by
  induction before with
  | nil => rfl
  | cons hop before ih =>
    obtain ⟨hknown, hbefore⟩ := List.forall_mem_cons.mp hbefore
    rw [List.cons_append, firstUnknown, if_pos hknown, ih hbefore]

theorem firstUnknown_reverse (hclient : ¬ Known proxyAllowed client)
    (hafter : ∀ hop ∈ after, Known proxyAllowed hop) :
    firstUnknown proxyAllowed remoteAddr (before ++ client :: after).reverse = client := by
  have hskipped : ∀ hop ∈ after.reverse, Known proxyAllowed hop :=
    fun hop hmem => hafter hop (List.mem_reverse.mp hmem)
  rw [List.reverse_append, List.reverse_cons, List.append_assoc, firstUnknown_append hskipped,
    List.singleton_append, firstUnknown, if_neg hclient]

theorem firstUnknown_of_known {entries : List String}
    (hknown : ∀ hop ∈ entries, Known proxyAllowed hop) :
    firstUnknown proxyAllowed remoteAddr entries = remoteAddr := by
  rw [← List.append_nil entries, firstUnknown_append hknown, firstUnknown]

theorem hops_empty : hops "" = [""] := by decide

variable {request : Request}

theorem actorIp_of_trusted (htrusted : request.remoteAddr.getD "" ∈ proxyAllowed) :
    request.actorIp proxyAllowed =
      firstUnknown proxyAllowed (request.remoteAddr.getD "") request.forwardedHops.reverse := by
  rw [Request.actorIp, Request.forwardedHops]
  by_cases hempty : request.forwardedFor.getD "" = ""
  · have hknown : Known proxyAllowed "" := .inl rfl
    rw [hempty, hops_empty, if_neg fun h => h.1 rfl, List.reverse_singleton, firstUnknown,
      if_pos hknown, firstUnknown]
  · exact if_pos ⟨hempty, htrusted⟩

theorem actorIp_of_untrusted (huntrusted : request.remoteAddr.getD "" ∉ proxyAllowed) :
    request.actorIp proxyAllowed = request.remoteAddr.getD "" :=
  if_neg fun h => huntrusted h.2

/-- Two requests of the same trusted peer that agree from the last address of a stranger on are
recorded with this address, and those without one with their peer.  The header of a peer that is
not trusted has no influence. -/
theorem actorIp_not_forged (proxyIpAllowedList : Option (List String)) (sha256 : String → String)
    (request request' : Request)
    (hpeer : request.remoteAddr.getD "" = request'.remoteAddr.getD "") :
    (request.remoteAddr.getD "" ∈ proxyIpAllowedList.getD [] →
      (∀ before before' client after, request.forwardedHops = before ++ client :: after →
        request'.forwardedHops = before' ++ client :: after →
        ¬ Known (proxyIpAllowedList.getD []) client →
        (∀ hop ∈ after, Known (proxyIpAllowedList.getD []) hop) →
          (processRequest proxyIpAllowedList sha256 request).actorIp = client ∧
            (processRequest proxyIpAllowedList sha256 request').actorIp = client) ∧
      ((∀ hop ∈ request.forwardedHops, Known (proxyIpAllowedList.getD []) hop) →
        (∀ hop ∈ request'.forwardedHops, Known (proxyIpAllowedList.getD []) hop) →
          (processRequest proxyIpAllowedList sha256 request).actorIp =
              request.remoteAddr.getD "" ∧
            (processRequest proxyIpAllowedList sha256 request').actorIp =
              request.remoteAddr.getD "")) ∧
    (request.remoteAddr.getD "" ∉ proxyIpAllowedList.getD [] → ∀ forwardedFor,
      processRequest proxyIpAllowedList sha256 { request with forwardedFor := forwardedFor } =
        processRequest proxyIpAllowedList sha256 request) := by
  refine ⟨fun htrusted => ?_, fun huntrusted forwardedFor => ?_⟩
  · have htrusted' : request'.remoteAddr.getD "" ∈ proxyIpAllowedList.getD [] := hpeer ▸ htrusted
    simp only [processRequest]
    rw [actorIp_of_trusted htrusted, actorIp_of_trusted htrusted']
    constructor
    · intro before before' client after hhops hhops' hclient hafter
      rw [hhops, hhops']
      exact ⟨firstUnknown_reverse hclient hafter, firstUnknown_reverse hclient hafter⟩
    · intro hknown hknown'
      rw [firstUnknown_of_known fun hop hmem => hknown hop (List.mem_reverse.mp hmem),
        firstUnknown_of_known fun hop hmem => hknown' hop (List.mem_reverse.mp hmem)]
      exact ⟨rfl, hpeer.symm⟩
  · have huntrusted' : ({ request with forwardedFor := forwardedFor } : Request).remoteAddr.getD ""
        ∉ proxyIpAllowedList.getD [] := huntrusted
    rw [processRequest, processRequest, actorIp_of_untrusted huntrusted,
      actorIp_of_untrusted huntrusted']

def proxied (forwardedFor : String) : Request where
  remoteAddr := some "10.0.0.1"
  forwardedFor := some forwardedFor
  userAgent := none
  sessionKey := none

theorem proxied_not_forged :
    (processRequest (some ["10.0.0.1"]) id (proxied "1.2.3.4, 9.9.9.9, 10.0.0.1")).actorIp =
        "9.9.9.9" ∧
      (processRequest (some ["10.0.0.1"]) id (proxied "10.0.0.1,9.9.9.9, 10.0.0.1")).actorIp =
        "9.9.9.9" := by
  refine ((actorIp_not_forged (some ["10.0.0.1"]) id (proxied "1.2.3.4, 9.9.9.9, 10.0.0.1")
    (proxied "10.0.0.1,9.9.9.9, 10.0.0.1") rfl).1 ?_).1 ["1.2.3.4"] ["10.0.0.1"] "9.9.9.9"
      ["10.0.0.1"] ?_ ?_ ?_ ?_
  all_goals decide

end Forail.ClientAddress
