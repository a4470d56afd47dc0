import Forail.Api.WebAuthn
import Mathlib.Data.List.MinMax

/-!
# The challenge of a completion

`authenticate/complete` verifies an assertion against the newest fresh challenge of
the credential's owner.  A challenge that was begun without a user is never looked
at, and a challenge of the owner only as long as no later one was begun for the same
name.
-/

namespace Forail.WebAuthn

open Forail.Runs

variable {Assertion : Type} {package : WebAuthnPackage Assertion}
  {state state' : State Assertion} {event : Event Assertion}
  {request : AuthenticateRequest Assertion} {stored : WebAuthnCredential}
  {challenge : WebAuthnAuthenticationChallenge} {signCount : ℕ}

/-- Whatever the database answers, the assertion is matched to the challenge, and the
login accepted. -/
def AcceptedOver (package : WebAuthnPackage Assertion) (state : State Assertion)
    (request : AuthenticateRequest Assertion) (stored : WebAuthnCredential)
    (challenge : WebAuthnAuthenticationChallenge) : Prop :=
  ∀ first, state.db.IsFirst state.now stored.user first → first = some challenge ∧
    ∀ session, (package.authenticateComplete state.db state.now session request first).1 =
      (session.finish stored.user).1

def NewestOf (state : State Assertion) (user : UserId)
    (challenge : WebAuthnAuthenticationChallenge) : Prop :=
  ∀ other ∈ state.db.challenges, other.user = some user → state.now ≤ other.expiresAt →
    other ≠ challenge → other.createdAt < challenge.createdAt

theorem mem_freshChallenges_iff {db : Database} {now : Time} {user : UserId}
    {row : WebAuthnAuthenticationChallenge} :
    row ∈ db.freshChallenges now user ↔
      row ∈ db.challenges ∧ now ≤ row.expiresAt ∧ row.user = some user := by
  simp only [Database.freshChallenges, List.mem_filter, Bool.and_eq_true, decide_eq_true_eq]

theorem exists_isFirst (db : Database) (now : Time) (user : UserId) :
    ∃ first, db.IsFirst now user first := by
  cases hrows : (db.freshChallenges now user).argmax
      WebAuthnAuthenticationChallenge.createdAt with
  | none => exact ⟨none, List.argmax_eq_none.mp hrows⟩
  | some row =>
    exact ⟨some row, List.argmax_mem hrows, fun _ hother => List.le_of_mem_argmax hother hrows⟩

theorem isFirst_iff_of_newest (hissued : challenge ∈ state.db.challenges)
    (hfresh : state.now ≤ challenge.expiresAt) (howner : challenge.user = some stored.user)
    (hnewest : NewestOf state stored.user challenge)
    {first : Option WebAuthnAuthenticationChallenge}
    (hfirst : state.db.IsFirst state.now stored.user first) : first = some challenge := by
  have hmem : challenge ∈ state.db.freshChallenges state.now stored.user :=
    mem_freshChallenges_iff.mpr ⟨hissued, hfresh, howner⟩
  cases first with
  | none =>
    rw [Database.IsFirst] at hfirst
    rw [hfirst] at hmem
    exact absurd hmem List.not_mem_nil
  | some row =>
    obtain ⟨hrow, hlatest⟩ := hfirst
    obtain ⟨hrow, hrowFresh, hrowOwner⟩ := mem_freshChallenges_iff.mp hrow
    by_contra hother
    have holder := hnewest row hrow hrowOwner hrowFresh fun hsame => hother (congrArg some hsame)
    exact absurd (hlatest challenge hmem) (Nat.not_le.mpr holder)

theorem newest_of_isFirst (hmatched : ∀ first,
    state.db.IsFirst state.now stored.user first → first = some challenge) :
    challenge.user = some stored.user ∧ NewestOf state stored.user challenge := by
  obtain ⟨first, hfirst⟩ := exists_isFirst state.db state.now stored.user
  obtain rfl := hmatched first hfirst
  refine ⟨(mem_freshChallenges_iff.mp hfirst.1).2.2, fun other hother howner hfresh hne => ?_⟩
  have hmem := mem_freshChallenges_iff.mpr ⟨hother, hfresh, howner⟩
  by_contra hnewer
  -- a tie, so the database may answer with the other one
  have htie : state.db.IsFirst state.now stored.user (some other) :=
    ⟨hmem, fun row hrow => (hfirst.2 row hrow).trans (Nat.not_lt.mp hnewer)⟩
  exact hne (Option.some.inj (hmatched _ htie))

/-- A correct assertion over a challenge that was begun for the owner, or for nobody,
is accepted exactly when the challenge is the newest one of the owner. -/
theorem accepted_iff_newest (hfound : package.findCredential state.db request = .ok stored)
    (hissued : challenge ∈ state.db.challenges) (hfresh : state.now ≤ challenge.expiresAt)
    (hassertion : package.checkAssertion request stored challenge = .ok signCount) :
    AcceptedOver package state request stored challenge ↔
      challenge.user = some stored.user ∧ NewestOf state stored.user challenge := by
  constructor
  · intro haccepted
    exact newest_of_isFirst fun first hfirst => (haccepted first hfirst).1
  · intro hnewest first hfirst
    obtain rfl := isFirst_iff_of_newest hissued hfresh hnewest.1 hnewest.2 hfirst
    refine ⟨rfl, fun session => ?_⟩
    simp only [WebAuthnPackage.authenticateComplete, hfound, hassertion]

/-! ## A login without a name -/

def keyHolder : List User := [⟨1, "alice"⟩]

def begunFor (user : Option UserId) : State SignedAssertion where
  db := ⟨keyHolder, securityKeys, [⟨0, user, [3], 0, 300000000⟩], 1⟩
  now := 0
  attempts := fun _ => none
  completions := []

theorem accepted_iff_newest_named :
    AcceptedOver signedAssertions (begunFor (some 1)) (keyAnswer 5) ⟨1, 1, [7], [9], 4, none⟩
      ⟨0, some 1, [3], 0, 300000000⟩ := by
  apply (accepted_iff_newest rfl (List.mem_singleton_self _) (by decide) rfl).mpr
  refine ⟨rfl, fun other hother _ _ hne => ?_⟩
  exact absurd (List.mem_singleton.mp hother) hne

theorem userless_challenge_missed :
    ¬ ∀ (users : List User) (credentials : CredentialTable) (start : Time)
      (state : State SignedAssertion) (request : AuthenticateRequest SignedAssertion)
      (stored : WebAuthnCredential) (challenge : WebAuthnAuthenticationChallenge)
      (signCount : ℕ),
      Run (step signedAssertions) (fun _ _ => True) (.initial users credentials start) state →
        signedAssertions.findCredential state.db request = .ok stored →
          challenge ∈ state.db.challenges → state.now ≤ challenge.expiresAt →
            (challenge.user = none ∨ challenge.user = some stored.user) →
              signedAssertions.checkAssertion request stored challenge = .ok signCount →
                AcceptedOver signedAssertions state request stored challenge := by
  intro hclaim
  have hrun : Run (step signedAssertions) (fun _ _ => True) (.initial keyHolder securityKeys 0)
      (begunFor none) := .next (.begin "" [3]) .start trivial rfl
  have haccepted := hclaim keyHolder securityKeys 0 _ (keyAnswer 5) ⟨1, 1, [7], [9], 4, none⟩
    ⟨0, none, [3], 0, 300000000⟩ 5 hrun rfl (List.mem_singleton_self _) (by decide) (.inl rfl) rfl
  exact absurd (haccepted none rfl).1 (by decide)

end Forail.WebAuthn
