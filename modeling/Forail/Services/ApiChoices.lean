import Forail.Core.Json
import Forail.Core.Texts

/-!
# Choices from an API

A survey names a URL from which choices are fetched.  The destination is checked with one
lookup of its name, and the request is made with another one.
-/

namespace Forail.ApiChoices

open Forail.Json
open Forail.Texts

/-! ## Addresses -/

inductive Address
  | v4 (bits : BitVec 32)
  | v6 (bits : BitVec 128)
  deriving DecidableEq

def inNetwork {width : ℕ} (bits network : BitVec width) (length : ℕ) : Bool :=
  bits >>> (width - length) == network >>> (width - length)

def reservedNetworks : List (BitVec 16 × ℕ) :=
  [(0x0000, 8), (0x0100, 8), (0x0200, 7), (0x0400, 6), (0x0800, 5), (0x1000, 4), (0x4000, 3),
    (0x6000, 3), (0x8000, 3), (0xa000, 3), (0xc000, 3), (0xe000, 4), (0xf000, 5), (0xf800, 6),
    (0xfe00, 9)]

namespace Address

def isLoopback : Address → Bool
  | v4 bits => inNetwork bits 0x7f000000 8
  | v6 bits => bits == 1

def isLinkLocal : Address → Bool
  | v4 bits => inNetwork bits 0xa9fe0000 16
  | v6 bits => inNetwork (bits.extractLsb' 112 16) 0xfe80 10

def isMulticast : Address → Bool
  | v4 bits => inNetwork bits 0xe0000000 4
  | v6 bits => inNetwork (bits.extractLsb' 112 16) 0xff00 8

def isReserved : Address → Bool
  | v4 bits => inNetwork bits 0xf0000000 4
  | v6 bits => reservedNetworks.any fun network =>
      inNetwork (bits.extractLsb' 112 16) network.1 network.2

def isUnspecified : Address → Bool
  | v4 bits => bits == 0
  | v6 bits => bits == 0

end Address

def apiForbiddenMessage : List ((Address → Bool) × String) :=
  [(Address.isLoopback, "a loopback address"),
    (Address.isLinkLocal, "a link-local address (this is where cloud metadata lives)"),
    (Address.isMulticast, "a multicast address"),
    (Address.isReserved, "a reserved address"),
    (Address.isUnspecified, "the unspecified address")]

/-- What the loop over `infos` refuses; `none` is a text that is no address. -/
def addressRefusal : Option Address → Option String
  | none => some "the host resolves to an address that cannot be parsed"
  | some address => (apiForbiddenMessage.find? fun entry => entry.1 address).map fun entry =>
      "the host resolves to " ++ entry.2

/-! ## Splitting URLs -/

structure Notations where
  lower : Text → Text
  upper : Text → Text
  strip : Text → Text
  /-- what the brackets of a location hold is an address -/
  bracketed : Text → Bool
  /-- normalization does not change where a location ends -/
  normalized : Text → Bool

variable (notations : Notations)

def partition (char : Char) (text : Text) : Text × Text :=
  (text.takeWhile (· ≠ char), (text.dropWhile (· ≠ char)).tail)

def isSchemeChar (char : Char) : Bool := char.isAlphanum || char ∈ ['+', '-', '.']

/-- The scheme and the location that `urlsplit` finds, or a `ValueError`. -/
def urlsplit (url : Text) : Option (Text × Text) :=
  let url := (url.dropWhile (·.toNat ≤ 32)).filter (· ∉ ['\t', '\r', '\n'])
  let head := (partition ':' url).1
  let (scheme, url) :=
    if ':' ∈ url ∧ (head.head?.any Char.isAlpha) ∧ head.all isSchemeChar then
      (head.map Char.toLower, (partition ':' url).2)
    else ([], url)
  let netloc := if url.take 2 = ['/', '/'] then (url.drop 2).takeWhile (· ∉ ['/', '?', '#']) else []
  if (('[' ∈ netloc) == (']' ∈ netloc)) ∧ ('[' ∈ netloc → notations.bracketed netloc) ∧
      (netloc.all (·.toNat < 128) ∨ notations.normalized netloc) then
    some (scheme, netloc)
  else none

def hostinfo (netloc : Text) : Text × Text :=
  let hostinfo := (netloc.reverse.takeWhile (· ≠ '@')).reverse
  if '[' ∈ hostinfo then
    let bracketed := partition ']' (partition '[' hostinfo).2
    (bracketed.1, (partition ':' bracketed.2).2)
  else partition ':' hostinfo

def hostname (netloc : Text) : Text :=
  let (host, _) := hostinfo netloc
  notations.lower (host.takeWhile (· ≠ '%')) ++ host.dropWhile (· ≠ '%')

def portValid (netloc : Text) : Bool :=
  let (_, port) := hostinfo netloc
  port.all Char.isDigit && (intOfDigits port).any (· ≤ 65535)

/-! ## The check -/

/-- `SURVEY_DYNAMIC_CHOICES_API_ALLOWLIST`; a host that is no text is `none`. -/
inductive Setting
  | text (host : Text)
  | hosts (hosts : List (Option Text))
  | other

def apiAllowlist : Setting → List Text
  | .text host => ([host].filter fun host => notations.strip host ≠ []).map fun host =>
      notations.lower (notations.strip host)
  | .hosts hosts => (hosts.reduceOption.filter fun host => notations.strip host ≠ []).map fun host =>
      notations.lower (notations.strip host)
  | .other => []

inductive Lookup
  | addresses (addresses : List (Option Address))
  | osError
  | raises

def apiDestinationRefusal (setting : Setting) (getaddrinfo : Text → Lookup) (url : Text) :
    Except String (Option String) :=
  match urlsplit notations url with
  | none => .ok (some "the URL cannot be parsed")
  | some (scheme, netloc) =>
    let host := hostname notations netloc
    let allow := apiAllowlist notations setting
    if scheme ≠ "https".toList then
      .ok (some ("the scheme must be https, got " ++
        if scheme = [] then "none" else String.ofList scheme))
    else if host = [] then .ok (some "the URL has no host")
    else if allow = [] then .ok (some
      "SURVEY_DYNAMIC_CHOICES_API_ALLOWLIST is empty, so no destination is permitted")
    else if !allow.contains (notations.lower host) then
      .ok (some "the host is not listed in SURVEY_DYNAMIC_CHOICES_API_ALLOWLIST")
    else if !portValid netloc then .error "ValueError"
    else match getaddrinfo host with
      | .osError => .ok (some "the host does not resolve")
      | .raises => .error "UnicodeError"
      | .addresses infos => .ok (infos.findSome? addressRefusal)

/-! ## The request -/

structure Destination where
  scheme : Text
  host : Text
  deriving DecidableEq

structure Connection extends Destination where
  address : Option Address
  deriving DecidableEq

/-- The surroundings of a call: its lookups, which may differ, which connections are accepted,
how the library reads a URL (`none` where it refuses the request), and where the responses
redirect to. -/
structure World where
  getaddrinfo : ℕ → Text → Lookup
  accepts : Option Address → Bool
  destination : (post : Bool) → (config : Value) → (url : Text) → Option Destination
  redirect : ℕ → Option Text

/-- The addresses that are tried: the first one that accepts ends the attempts. -/
def tried (accepts : Option Address → Bool) : List (Option Address) → List (Option Address)
  | [] => []
  | address :: addresses =>
      if accepts address then [address] else address :: tried accepts addresses

def World.connect (world : World) (lookup : ℕ) (destination : Destination) : List Connection :=
  match world.getaddrinfo lookup destination.host with
  | .addresses addresses => (tried world.accepts addresses).map fun address => ⟨destination, address⟩
  | _ => []

/-- `requests.get` or `requests.post`, with the redirects that are followed. -/
def World.request (world : World) (post allowRedirects : Bool) (config : Value) :
    ℕ → ℕ → Text → List Connection
  | 0, _, _ => []
  | hops + 1, lookup, url =>
    match world.destination post config url with
    | none => []
    | some destination => world.connect lookup destination ++
        match world.redirect lookup with
        | some location =>
            if allowRedirects then world.request post allowRedirects config hops (lookup + 1) location
            else []
        | none => []

/-- `_resolve_api_endpoint` up to the response: the method of the request that it makes, with
its URL.  A value that is no text raises, or is false. -/
def resolveApiEndpoint (setting : Setting) (world : World) (dc : Value) : Option (Bool × Text) :=
  match dc.tryGetOr "url" (.str "") with
  | .ok (.str url) =>
    if url = "" then none
    else match apiDestinationRefusal notations setting (world.getaddrinfo 0) url.toList with
      | .ok none =>
        match dc.tryGetOr "method" (.str "GET") with
        | .ok (.str method) =>
          let method := notations.upper method.toList
          if method = "GET".toList ∨ method = "POST".toList then
            some (method = "POST".toList, url.toList)
          else none
        | _ => none
      | _ => none
  | _ => none

def connections (setting : Setting) (world : World) (dc : Value) : List Connection :=
  match resolveApiEndpoint notations setting world dc with
  | some (post, url) => world.request post false dc 31 1 url
  | none => []

/-! ## Where connections go -/

/-- The address is not one of the forbidden ones. -/
structure Allowed (address : Address) : Prop where
  loopback : address.isLoopback = false
  linkLocal : address.isLinkLocal = false
  multicast : address.isMulticast = false
  reserved : address.isReserved = false
  unspecified : address.isUnspecified = false

def AllowedAddress (address : Option Address) : Prop := ∃ bits, address = some bits ∧ Allowed bits

def Listed (setting : Setting) (destination : Destination) : Prop :=
  destination.scheme = "https".toList ∧
    notations.lower destination.host ∈ apiAllowlist notations setting

/-- The URL and the method are there, and the first lookup refuses nothing. -/
structure Requested (setting : Setting) (world : World) (dc : Value) (post : Bool) (url : Text) :
    Prop where
  text : ∃ text, dc.tryGetOr "url" (.str "") = .ok (.str text) ∧ text ≠ "" ∧ text.toList = url
  checked : apiDestinationRefusal notations setting (world.getaddrinfo 0) url = .ok none
  method : ∃ text, dc.tryGetOr "method" (.str "GET") = .ok (.str text) ∧
    (notations.upper text.toList = "GET".toList ∨ notations.upper text.toList = "POST".toList) ∧
    decide (notations.upper text.toList = "POST".toList) = post

def NeverForbidden (setting : Setting) (world : World) (dc : Value) : Prop :=
  ∀ connection ∈ connections notations setting world dc,
    Listed notations setting connection.toDestination ∧ AllowedAddress connection.address

variable {notations} {setting : Setting} {world : World} {dc : Value}

theorem addressRefusal_eq_none_iff {address : Option Address} :
    addressRefusal address = none ↔ AllowedAddress address := by
  cases address with
  | none => exact iff_of_false nofun fun ⟨_, hsame, _⟩ => nomatch hsame
  | some bits =>
    rw [addressRefusal, Option.map_eq_none_iff, List.find?_eq_none]
    simp only [apiForbiddenMessage, List.forall_mem_cons, Bool.not_eq_true]
    constructor
    · rintro ⟨hloopback, hlinkLocal, hmulticast, hreserved, hunspecified, -⟩
      exact ⟨bits, rfl, hloopback, hlinkLocal, hmulticast, hreserved, hunspecified⟩
    · rintro ⟨_, hsame, hallowed⟩
      cases hsame
      exact ⟨hallowed.loopback, hallowed.linkLocal, hallowed.multicast, hallowed.reserved,
        hallowed.unspecified, nofun⟩

theorem resolveApiEndpoint_eq_some_iff {post : Bool} {url : Text} :
    resolveApiEndpoint notations setting world dc = some (post, url) ↔
      Requested notations setting world dc post url := by
  constructor
  · intro hresolve
    rw [resolveApiEndpoint] at hresolve
    split at hresolve
    · next hurl =>
      split at hresolve
      · cases hresolve
      · next hnonempty =>
        split at hresolve
        · next hcheck =>
          split at hresolve
          · next method hmethod =>
            dsimp only at hresolve
            split at hresolve
            · next hallowed =>
              cases hresolve
              exact ⟨⟨_, hurl, hnonempty, rfl⟩, hcheck, method, hmethod, hallowed, rfl⟩
            · cases hresolve
          · cases hresolve
        · cases hresolve
    · cases hresolve
  · rintro ⟨⟨_, hurl, hnonempty, rfl⟩, hcheck, method, hmethod, hallowed, rfl⟩
    simp only [resolveApiEndpoint, hurl, if_neg hnonempty, hcheck, hmethod, if_pos hallowed]

theorem request_eq (post : Bool) (url : Text) :
    world.request post false dc 31 1 url =
      ((world.destination post dc url).map (world.connect 1)).getD [] := by
  rw [World.request]
  cases world.destination post dc url with
  | none => rfl
  | some destination =>
    cases world.redirect 1 <;> simp

/-- No connection is forbidden exactly when the destination that the library reads in the URL is
listed, and the second lookup gives no forbidden address that is tried. -/
theorem neverForbidden_iff (notations : Notations) (setting : Setting) (world : World)
    (dc : Value) : NeverForbidden notations setting world dc ↔
      ∀ post url destination infos,
        Requested notations setting world dc post url →
        world.destination post dc url = some destination →
        world.getaddrinfo 1 destination.host = .addresses infos → infos ≠ [] →
        Listed notations setting destination ∧
          ∀ address ∈ tried world.accepts infos, addressRefusal address = none := by
  have htried : ∀ {infos}, infos ≠ [] → ∃ address, address ∈ tried world.accepts infos := by
    intro infos hinfos
    obtain ⟨address, infos, rfl⟩ := List.exists_cons_of_ne_nil hinfos
    refine ⟨address, ?_⟩
    rw [tried]
    split <;> simp
  rw [NeverForbidden, connections]
  constructor
  · intro hsafe post url destination infos hrequested hdestination hlookup hinfos
    simp only [resolveApiEndpoint_eq_some_iff.mpr hrequested, request_eq, hdestination,
      Option.map_some, Option.getD_some, World.connect, hlookup, List.forall_mem_map] at hsafe
    obtain ⟨first, hfirst⟩ := htried hinfos
    exact ⟨(hsafe first hfirst).1, fun address haddress =>
      addressRefusal_eq_none_iff.mpr (hsafe address haddress).2⟩
  · intro hallowed
    split
    · next post url hresolve =>
      rw [request_eq]
      cases hdestination : world.destination post dc url with
      | none => exact nofun
      | some destination =>
        rw [Option.map_some, Option.getD_some, World.connect]
        split
        · next infos hlookup =>
          rw [List.forall_mem_map]
          intro address haddress
          have hinfos : infos ≠ [] := by
            rintro rfl
            exact nomatch haddress
          obtain ⟨hlisted, hnone⟩ := hallowed post url destination infos
            (resolveApiEndpoint_eq_some_iff.mp hresolve) hdestination hlookup hinfos
          exact ⟨hlisted, addressRefusal_eq_none_iff.mp (hnone address haddress)⟩
        · exact nofun
    · exact nofun

def asciiNotations : Notations where
  lower text := text.map Char.toLower
  upper text := text.map Char.toUpper
  strip text := text
  bracketed _ := true
  normalized _ := true

def reboundWorld : World where
  getaddrinfo lookup _ := .addresses [some (.v4 (if lookup = 0 then 0x0a000005 else 0xa9fea9fe))]
  accepts _ := true
  destination _ _ _ := some ⟨"https".toList, "cmdb.example".toList⟩
  redirect _ := none

theorem rebound_forbidden :
    ¬ ∀ notations setting world dc, NeverForbidden notations setting world dc := by
  intro hsafe
  have hconnections : connections asciiNotations (.text "cmdb.example".toList) reboundWorld
      (.dict [("url", .str "https://cmdb.example/x")]) =
        [⟨⟨"https".toList, "cmdb.example".toList⟩, some (.v4 0xa9fea9fe)⟩] := by
    decide +kernel
  have hmetadata := hsafe asciiNotations (.text "cmdb.example".toList) reboundWorld
    (.dict [("url", .str "https://cmdb.example/x")]) _
    (hconnections ▸ List.mem_singleton.mpr rfl)
  obtain ⟨_, _, hsame, hallowed⟩ := hmetadata
  cases hsame
  exact absurd hallowed.linkLocal (by decide)

end Forail.ApiChoices
