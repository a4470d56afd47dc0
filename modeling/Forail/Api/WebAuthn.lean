import Forail.Core.Runs
import Mathlib.Data.List.Nodup
import Mathlib.Data.Nat.Basic
import Mathlib.Logic.Function.Basic
import Mathlib.Order.Basic

/-!
# WebAuthn authentication

`authenticate/begin` stores a challenge, and `authenticate/complete` looks for the
credential and for a challenge, verifies the assertion and stores the counter of
the authenticator.  The reads of a completion and its writes are separate steps:
no row is locked, and the writes of one request become visible together, when it
commits.
-/

namespace Forail.WebAuthn

open Forail.Runs

abbrev UserId := ℕ

abbrev Client := ℕ

abbrev Bytes := List UInt8

abbrev Time := ℕ

def challengeTtlSeconds : ℕ := 300

structure User where
  pk : UserId
  username : String
  deriving DecidableEq, Repr

structure WebAuthnCredential where
  pk : ℕ
  user : UserId
  credentialId : Bytes
  publicKey : Bytes
  signCount : ℕ
  lastUsedAt : Option Time
  deriving DecidableEq, Repr

structure WebAuthnAuthenticationChallenge where
  pk : ℕ
  user : Option UserId
  challenge : Bytes
  createdAt : Time
  expiresAt : Time
  deriving DecidableEq, Repr

/-- The new counter must exceed the stored one, or both are zero. -/
def isReplay (storedCount presentedCount : ℕ) : Bool :=
  if storedCount = 0 ∧ presentedCount = 0 then false else presentedCount ≤ storedCount

theorem isReplay_eq_false_iff {storedCount presentedCount : ℕ} :
    isReplay storedCount presentedCount = false ↔
      storedCount < presentedCount ∨ storedCount = 0 ∧ presentedCount = 0 := by
  rw [isReplay]
  split
  · next hzero => exact iff_of_true rfl (.inr hzero)
  · next hzero => rw [decide_eq_false_iff_not, Nat.not_le, or_iff_left hzero]

/-! ## The tables -/

structure CredentialTable where
  rows : List WebAuthnCredential
  pkUnique : (rows.map WebAuthnCredential.pk).Nodup
  credentialIdUnique : (rows.map WebAuthnCredential.credentialId).Nodup

namespace CredentialTable

variable (table : CredentialTable)

def get (rawId : Bytes) : Option WebAuthnCredential :=
  table.rows.find? fun row => row.credentialId = rawId

theorem mem_rows_of_get {table : CredentialTable} {rawId : Bytes} {row : WebAuthnCredential}
    (hget : table.get rawId = some row) : row ∈ table.rows :=
  List.mem_of_find?_eq_some hget

theorem eq_of_pk_eq {table : CredentialTable} {row other : WebAuthnCredential}
    (hrow : row ∈ table.rows) (hother : other ∈ table.rows) (hpk : row.pk = other.pk) :
    row = other :=
  List.inj_on_of_nodup_map table.pkUnique hrow hother hpk

def saveRow (pk signCount : ℕ) (now : Time) (row : WebAuthnCredential) : WebAuthnCredential :=
  if row.pk = pk then { row with signCount := signCount, lastUsedAt := some now } else row

@[simp]
theorem pk_saveRow (pk signCount : ℕ) (now : Time) (row : WebAuthnCredential) :
    (saveRow pk signCount now row).pk = row.pk := by
  rw [saveRow]
  split <;> rfl

@[simp]
theorem credentialId_saveRow (pk signCount : ℕ) (now : Time) (row : WebAuthnCredential) :
    (saveRow pk signCount now row).credentialId = row.credentialId := by
  rw [saveRow]
  split <;> rfl

def save (pk signCount : ℕ) (now : Time) : CredentialTable where
  rows := table.rows.map (saveRow pk signCount now)
  pkUnique := by
    rw [List.map_map, show WebAuthnCredential.pk ∘ saveRow pk signCount now =
      WebAuthnCredential.pk from funext fun row => pk_saveRow pk signCount now row]
    exact table.pkUnique
  credentialIdUnique := by
    rw [List.map_map, show WebAuthnCredential.credentialId ∘ saveRow pk signCount now =
      WebAuthnCredential.credentialId from
        funext fun row => credentialId_saveRow pk signCount now row]
    exact table.credentialIdUnique

end CredentialTable

structure Database where
  users : List User
  credentials : CredentialTable
  challenges : List WebAuthnAuthenticationChallenge
  nextChallenge : ℕ

namespace Database

variable (db : Database) (now : Time)

def purgeExpiredChallenges : Database :=
  { db with challenges := db.challenges.filter fun row => now ≤ row.expiresAt }

def namedUser (username : String) : Option UserId :=
  if username = "" then none
  else (db.users.find? fun user => user.username = username).map User.pk

structure AuthenticationOptions where
  challenge : Bytes
  allowCredentials : List Bytes
  deriving DecidableEq, Repr

def allowCredentials (user : Option UserId) : List Bytes :=
  (db.credentials.rows.filter fun row => user = some row.user).map
    WebAuthnCredential.credentialId

/-- `authenticate/begin` with the stripped name of its body, and the challenge that
is drawn for it.  The challenges of the table are unique. -/
def authenticateBegin (username : String) (challenge : Bytes) :
    Option (AuthenticationOptions × Database) :=
  let db := db.purgeExpiredChallenges now
  let user := db.namedUser username
  if challenge ∈ db.challenges.map WebAuthnAuthenticationChallenge.challenge then none
  else
    some (⟨challenge, db.allowCredentials user⟩,
      { db with
        challenges := db.challenges ++
          [{ pk := db.nextChallenge
             user := user
             challenge := challenge
             createdAt := now
             expiresAt := now + challengeTtlSeconds * 1000000 }]
        nextChallenge := db.nextChallenge + 1 })

/-- The query for a fresh challenge.  `user__in=[user, None]` leaves the `None` out:
`IN` does not match a null. -/
def freshChallenges (user : UserId) : List WebAuthnAuthenticationChallenge :=
  db.challenges.filter fun row => decide (now ≤ row.expiresAt) && decide (row.user = some user)

def IsFirst (user : UserId) : Option WebAuthnAuthenticationChallenge → Prop
  | none => db.freshChallenges now user = []
  | some row => row ∈ db.freshChallenges now user ∧
      ∀ other ∈ db.freshChallenges now user, other.createdAt ≤ row.createdAt

instance (user : UserId) : DecidablePred (db.IsFirst now user)
  | none => inferInstanceAs (Decidable (_ = []))
  | some _ => inferInstanceAs (Decidable (_ ∧ _))

def storeLogin (stored : WebAuthnCredential) (challenge : WebAuthnAuthenticationChallenge)
    (signCount : ℕ) : Database :=
  { db with
    credentials := db.credentials.save stored.pk signCount now
    challenges := db.challenges.filter fun row => row.pk ≠ challenge.pk }

end Database

/-! ## Completion -/

/-- The `webauthn` package.  `rawId` is the decoded id of an assertion, and
`verify` answers with the counter that the authenticator presents. -/
structure WebAuthnPackage (Assertion : Type) where
  rawId : Assertion → Option Bytes
  verify : Assertion → (expectedChallenge : Bytes) → (expectedOrigin expectedRpId : String) →
    (publicKey : Bytes) → (currentSignCount : ℕ) → Except String ℕ

structure AuthenticateRequest (Assertion : Type) where
  credential : Assertion
  origin : String
  rpId : String
  deriving DecidableEq

structure Session where
  mfaPending : Bool
  mfaPendingUser : Option UserId
  deriving DecidableEq, Repr

inductive Response where
  | refused (detail : String)
  | mfaSatisfied (user : UserId)
  | loggedIn (user : UserId)
  deriving DecidableEq, Repr

def Session.finish (session : Session) (user : UserId) : Response × Session :=
  if session.mfaPending ∧ session.mfaPendingUser = some user then
    (.mfaSatisfied user, ⟨false, none⟩)
  else (.loggedIn user, session)

variable {Assertion : Type}

namespace WebAuthnPackage

variable (package : WebAuthnPackage Assertion)

def findCredential (db : Database) (request : AuthenticateRequest Assertion) :
    Except String WebAuthnCredential :=
  match package.rawId request.credential with
  | none => .error "Invalid credential id encoding."
  | some rawId =>
      match db.credentials.get rawId with
      | none => .error "Unknown credential."
      | some stored => .ok stored

theorem mem_rows_of_findCredential {db : Database} {request : AuthenticateRequest Assertion}
    {stored : WebAuthnCredential} (hfound : package.findCredential db request = .ok stored) :
    stored ∈ db.credentials.rows := by
  rw [findCredential] at hfound
  split at hfound
  · cases hfound
  · split at hfound
    · cases hfound
    · next hget =>
      obtain rfl := Except.ok.inj hfound
      exact CredentialTable.mem_rows_of_get hget

def checkAssertion (request : AuthenticateRequest Assertion) (stored : WebAuthnCredential)
    (challenge : WebAuthnAuthenticationChallenge) : Except String ℕ :=
  match package.verify request.credential challenge.challenge request.origin request.rpId
      stored.publicKey stored.signCount with
  | .error message => .error ("Verification failed: " ++ message)
  | .ok signCount =>
      if isReplay stored.signCount signCount then .error "Replay detected." else .ok signCount

theorem not_replay_of_checkAssertion {request : AuthenticateRequest Assertion}
    {stored : WebAuthnCredential} {challenge : WebAuthnAuthenticationChallenge} {signCount : ℕ}
    (hcheck : package.checkAssertion request stored challenge = .ok signCount) :
    isReplay stored.signCount signCount = false := by
  rw [checkAssertion] at hcheck
  split at hcheck
  · cases hcheck
  · split at hcheck
    · cases hcheck
    · next hreplay =>
      obtain rfl := Except.ok.inj hcheck
      exact eq_false_of_ne_true hreplay

/-- `authenticate/complete` on its own: nothing else happens between its reads and
its writes.  `first` is the answer of the database for the newest challenge. -/
def authenticateComplete (db : Database) (now : Time) (session : Session)
    (request : AuthenticateRequest Assertion)
    (first : Option WebAuthnAuthenticationChallenge) : Response × Session × Database :=
  match package.findCredential db request with
  | .error detail => (.refused detail, session, db)
  | .ok stored =>
      match first with
      | none => (.refused "Authentication challenge expired or missing.", session, db)
      | some challenge =>
          match package.checkAssertion request stored challenge with
          | .error detail => (.refused detail, session, db)
          | .ok signCount =>
              let (response, session) := session.finish stored.user
              (response, session, db.storeLogin now stored challenge signCount)

end WebAuthnPackage

/-! ## Requests side by side -/

structure Completion where
  credential : ℕ
  challenge : ℕ
  signCount : ℕ
  deriving DecidableEq, Repr

/-- A completion on its way, with the rows it has read.  `since` keeps the
completions that were stored after it read the credential. -/
structure Attempt (Assertion : Type) where
  request : AuthenticateRequest Assertion
  stored : WebAuthnCredential
  challenge : Option WebAuthnAuthenticationChallenge
  since : List Completion

structure State (Assertion : Type) where
  db : Database
  now : Time
  attempts : Client → Option (Attempt Assertion)
  completions : List Completion

inductive Event (Assertion : Type) where
  | clock (time : Time)
  | begin (username : String) (challenge : Bytes)
  | findCredential (client : Client) (request : AuthenticateRequest Assertion)
  | findChallenge (client : Client) (first : WebAuthnAuthenticationChallenge)
  | complete (client : Client)

namespace State

variable (state : State Assertion)

def initial (users : List User) (credentials : CredentialTable) (now : Time) :
    State Assertion where
  db := ⟨users, credentials, [], 0⟩
  now := now
  attempts := fun _ => none
  completions := []

def setAttempt (client : Client) (attempt : Option (Attempt Assertion)) : State Assertion :=
  { state with attempts := Function.update state.attempts client attempt }

def storeCompletion (client : Client) (stored : WebAuthnCredential)
    (challenge : WebAuthnAuthenticationChallenge) (signCount : ℕ) : State Assertion :=
  let completion : Completion := ⟨stored.pk, challenge.pk, signCount⟩
  { db := state.db.storeLogin state.now stored challenge signCount
    now := state.now
    attempts := Function.update
      (fun other => (state.attempts other).map fun attempt =>
        { attempt with since := attempt.since ++ [completion] }) client none
    completions := state.completions ++ [completion] }

end State

/-- A request that is refused on its way is answered at once and leaves nothing
behind. -/
def step (package : WebAuthnPackage Assertion) (state : State Assertion) :
    Event Assertion → Option (State Assertion)
  | .clock time => if state.now ≤ time then some { state with now := time } else none
  | .begin username challenge =>
      (state.db.authenticateBegin state.now username challenge).map fun answer =>
        { state with db := answer.2 }
  | .findCredential client request =>
      match package.findCredential state.db request with
      | .error _ => none
      | .ok stored => some (state.setAttempt client (some ⟨request, stored, none, []⟩))
  | .findChallenge client first =>
      (state.attempts client).bind fun attempt =>
        if state.db.IsFirst state.now attempt.stored.user (some first) then
          some (state.setAttempt client (some { attempt with challenge := some first }))
        else none
  | .complete client =>
      (state.attempts client).bind fun attempt =>
        attempt.challenge.bind fun challenge =>
          match package.checkAssertion attempt.request attempt.stored challenge with
          | .error _ => some (state.setAttempt client none)
          | .ok signCount =>
              some (state.storeCompletion client attempt.stored challenge signCount)

/-! ## A security key -/

structure SignedAssertion where
  id : Bytes
  challenge : Bytes
  signCount : ℕ
  deriving DecidableEq, Repr

def signedAssertions : WebAuthnPackage SignedAssertion where
  rawId assertion := some assertion.id
  verify assertion expectedChallenge _ _ _ currentSignCount :=
    if assertion.challenge ≠ expectedChallenge then
      .error "Client data challenge was not expected challenge"
    else if currentSignCount = 0 ∧ assertion.signCount = 0 ∨
        currentSignCount < assertion.signCount then .ok assertion.signCount
    else .error "Response sign count was not greater than current count"

def securityKeys : CredentialTable where
  rows := [⟨1, 1, [7], [9], 4, none⟩]
  pkUnique := by decide
  credentialIdUnique := by decide

def keyStart : State SignedAssertion := .initial [⟨1, "alice"⟩] securityKeys 0

def keyAnswer (signCount : ℕ) : AuthenticateRequest SignedAssertion :=
  ⟨⟨[7], [3], signCount⟩, "https://localhost", "localhost"⟩

end Forail.WebAuthn
