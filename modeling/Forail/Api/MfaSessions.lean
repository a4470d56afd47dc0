import Forail.Api.WebAuthn

/-!
# The second factor of a session

A middleware marks the session of a user who needs WebAuthn as pending, unless it finds
the marker that the user is satisfied.  A completed assertion takes the pending flag away
but does not set the marker, so the next request marks the session again.
-/

namespace Forail.MfaSessions

open Forail.Runs Forail.WebAuthn

inductive WebauthnRequired where
  | none
  | admins
  | all
  deriving DecidableEq, Repr

def isWebauthnRequired (setting : WebauthnRequired) (isAdmin : Bool) : Bool :=
  if setting = .all then true else decide (setting = .admins) && isAdmin

structure Member where
  isSuperuser : Bool
  isOrganizationAdmin : Bool
  orgSettings : List WebauthnRequired
  deriving DecidableEq, Repr

def Member.required (member : Member) : Bool :=
  let isAdmin := member.isSuperuser || member.isOrganizationAdmin
  member.orgSettings.any fun setting => isWebauthnRequired setting isAdmin

/-- The keys of a session: the user who is logged in, and those of the second factor. -/
structure UserSession where
  user : Option UserId
  mfa : WebAuthn.Session
  mfaSatisfiedFor : Option UserId
  deriving DecidableEq, Repr

namespace UserSession

def fresh (user : Option UserId) : UserSession where
  user := user
  mfa := ⟨false, none⟩
  mfaSatisfiedFor := none

def safePaths : List String :=
  ["/api/v2/webauthn/", "/api/login/", "/api/logout/", "/sso/", "/api/v2/me/", "/api/v2/ping/",
    "/api/v2/config/"]

def isSafePath (path : String) : Bool :=
  safePaths.any fun safe => safe.toList.isPrefixOf path.toList

variable (members : UserId → Member) (session : UserSession)

def processRequest (path : String) : UserSession :=
  match session.user with
  | none => session
  | some user =>
      if isSafePath path then session
      else if session.mfa.mfaPending then session
      else if session.mfaSatisfiedFor = some user then session
      else if (members user).required = false then { session with mfaSatisfiedFor := some user }
      else { session with mfa := ⟨true, some user⟩ }

def login (user : UserId) : UserSession :=
  match session.user with
  | none => { session with user := some user }
  | some other => if other = user then session else fresh (some user)

def complete (user : UserId) : UserSession :=
  match session.mfa.finish user with
  | (.loggedIn _, _) => session.login user
  | (_, mfa) => { session with mfa := mfa }

end UserSession

/-- A session, with what its user has done in it: a request outside the safe paths, and
an assertion. -/
structure SessionState where
  session : UserSession
  requested : Bool
  asserted : Bool
  deriving DecidableEq, Repr

/-- The requests of a session; a completion that is refused verifies no user. -/
inductive Event where
  | request (path : String)
  | authenticateBegin
  | authenticateComplete (verified : Option UserId)
  deriving DecidableEq, Repr

namespace SessionState

def initial (user : Option UserId) : SessionState where
  session := .fresh user
  requested := false
  asserted := false

def step (members : UserId → Member) (state : SessionState) : Event → Option SessionState
  | .request path =>
      some { state with
        session := state.session.processRequest members path
        requested := state.requested ||
          (state.session.user.isSome && !UserSession.isSafePath path) }
  | .authenticateBegin => some state
  | .authenticateComplete none => some state
  | .authenticateComplete (some user) =>
      let session := state.session.complete user
      some
        { session := session
          requested := decide (session.user = state.session.user) && state.requested
          asserted := true }

end SessionState

/-- The session of a user who needs WebAuthn is pending after a request until the user has
completed an assertion, and not pending afterwards. -/
structure PendingUntilAsserted (members : UserId → Member) (state : SessionState) : Prop where
  pending : ∀ user, state.session.user = some user → (members user).required = true →
    state.requested = true → state.asserted = false → state.session.mfa.mfaPending = true
  settled : ∀ user, state.session.user = some user → (members user).required = true →
    state.asserted = true → state.session.mfa.mfaPending = false

/-- A user who needs WebAuthn and has completed an assertion requests safe paths only. -/
def NoRequestAfterAssertion (members : UserId → Member) (state : SessionState) : Event → Prop
  | .request path => ∀ user, state.session.user = some user → (members user).required = true →
      state.asserted = true → UserSession.isSafePath path = true
  | _ => True

variable {members : UserId → Member} {state state' : SessionState} {session : UserSession}
  {event : Event} {user : UserId}

/-! ## The keys of a session -/

/-- The pending user is the user of the session, and satisfied users need no
WebAuthn. -/
structure WellMarked (members : UserId → Member) (session : UserSession) : Prop where
  pendingUser : session.mfa.mfaPending = true →
    session.mfa.mfaPendingUser = session.user ∧ session.user ≠ none
  satisfied : ∀ user, session.mfaSatisfiedFor = some user → (members user).required = false

theorem wellMarked_fresh (user : Option UserId) : WellMarked members (.fresh user) where
  pendingUser := fun hpending => absurd hpending Bool.false_ne_true
  satisfied := fun _ hsatisfied => absurd hsatisfied.symm (Option.some_ne_none _)

theorem processRequest_cases (members : UserId → Member) (session : UserSession)
    (path : String) :
    session.processRequest members path = session ∧
        (session.user = none ∨ UserSession.isSafePath path = true ∨
          session.mfa.mfaPending = true ∨ session.mfaSatisfiedFor = session.user) ∨
      ∃ user, session.user = some user ∧
        ((members user).required = false ∧
            session.processRequest members path = { session with mfaSatisfiedFor := some user } ∨
          session.processRequest members path = { session with mfa := ⟨true, some user⟩ }) := by
  cases huser : session.user with
  | none => exact Or.inl ⟨by simp [UserSession.processRequest, huser], Or.inl rfl⟩
  | some user =>
    simp only [UserSession.processRequest, huser]
    split
    · next hsafe => exact Or.inl ⟨rfl, Or.inr (Or.inl hsafe)⟩
    · split
      · next hpending => exact Or.inl ⟨rfl, Or.inr (Or.inr (Or.inl hpending))⟩
      · split
        · next hsatisfied => exact Or.inl ⟨rfl, Or.inr (Or.inr (Or.inr hsatisfied))⟩
        · split
          · next hfree => exact Or.inr ⟨user, rfl, Or.inl ⟨hfree, rfl⟩⟩
          · exact Or.inr ⟨user, rfl, Or.inr rfl⟩

theorem user_processRequest (path : String) :
    (session.processRequest members path).user = session.user := by
  rcases processRequest_cases members session path with
    ⟨hsame, -⟩ | ⟨user, huser, ⟨-, hmarked⟩ | hmarked⟩
  · rw [hsame]
  · rw [hmarked]
  · rw [hmarked]

theorem wellMarked_processRequest (hmarked : WellMarked members session) (path : String) :
    WellMarked members (session.processRequest members path) := by
  rcases processRequest_cases members session path with
    ⟨hsame, -⟩ | ⟨user, huser, ⟨hfree, hsatisfied⟩ | hpending⟩
  · rw [hsame]
    exact hmarked
  · rw [hsatisfied]
    exact ⟨hmarked.pendingUser, fun other hother => Option.some.inj hother ▸ hfree⟩
  · rw [hpending]
    exact ⟨fun _ => ⟨huser.symm, huser ▸ Option.some_ne_none user⟩, hmarked.satisfied⟩

theorem pending_processRequest {path : String} (hmarked : WellMarked members session)
    (huser : session.user = some user) (hrequired : (members user).required = true)
    (hpath : UserSession.isSafePath path = false) :
    (session.processRequest members path).mfa.mfaPending = true := by
  rcases processRequest_cases members session path with
    ⟨hsame, hnone | hsafe | hpending | hsatisfied⟩ | ⟨other, hother, ⟨hfree, -⟩ | hmarks⟩
  · exact absurd (huser.symm.trans hnone) (Option.some_ne_none user)
  · exact absurd (hpath.symm.trans hsafe) Bool.false_ne_true
  · rw [hsame]
    exact hpending
  · have hfree := hmarked.satisfied user (hsatisfied.trans huser)
    exact absurd (hfree.symm.trans hrequired) Bool.false_ne_true
  · obtain rfl := Option.some.inj (huser.symm.trans hother)
    exact absurd (hfree.symm.trans hrequired) Bool.false_ne_true
  · rw [hmarks]

theorem processRequest_of_safe {path : String} (hpath : UserSession.isSafePath path = true) :
    session.processRequest members path = session := by
  rw [UserSession.processRequest]
  split
  · rfl
  · rw [if_pos hpath]

theorem complete_spec (hmarked : WellMarked members session) (user : UserId) :
    WellMarked members (session.complete user) ∧
      (session.complete user).mfa.mfaPending = false ∧
        (session.complete user).user = some user := by
  by_cases hpending : session.mfa.mfaPending = true ∧ session.mfa.mfaPendingUser = some user
  · obtain ⟨hsame, -⟩ := hmarked.pendingUser hpending.1
    have hcomplete : session.complete user = { session with mfa := ⟨false, none⟩ } := by
      rw [UserSession.complete, Session.finish, if_pos hpending]
    rw [hcomplete]
    exact ⟨⟨fun hfalse => absurd hfalse Bool.false_ne_true, hmarked.satisfied⟩, rfl,
      hsame.symm.trans hpending.2⟩
  · have hcomplete : session.complete user = session.login user := by
      rw [UserSession.complete, Session.finish, if_neg hpending]
    have hquiet : session.user = none ∨ session.user = some user →
        session.mfa.mfaPending = false := by
      intro howner
      apply Bool.eq_false_iff.mpr
      intro hflag
      obtain ⟨hsame, hknown⟩ := hmarked.pendingUser hflag
      exact hpending ⟨hflag, hsame.trans (howner.resolve_left hknown)⟩
    rw [hcomplete, UserSession.login]
    cases huser : session.user with
    | none =>
      refine ⟨⟨fun hflag => ?_, hmarked.satisfied⟩, hquiet (Or.inl huser), rfl⟩
      exact absurd ((hquiet (Or.inl huser)).symm.trans hflag) Bool.false_ne_true
    | some other =>
      dsimp only
      split
      · next hsame =>
        subst hsame
        exact ⟨hmarked, hquiet (Or.inr huser), huser⟩
      · exact ⟨wellMarked_fresh _, rfl, rfl⟩

/-! ## A run of a session -/

theorem pending_step (hmarked : WellMarked members state.session)
    (hkept : PendingUntilAsserted members state)
    (hallowed : NoRequestAfterAssertion members state event)
    (hstep : state.step members event = some state') :
    WellMarked members state'.session ∧ PendingUntilAsserted members state' := by
  cases event with
  | authenticateBegin =>
    obtain rfl := Option.some.inj hstep
    exact ⟨hmarked, hkept⟩
  | request path =>
    obtain rfl := Option.some.inj hstep
    refine ⟨wellMarked_processRequest hmarked path, ?_, ?_⟩
    · intro user huser hrequired hrequested hfresh
      replace huser := (user_processRequest path).symm.trans huser
      cases hpath : UserSession.isSafePath path with
      | false => exact pending_processRequest hmarked huser hrequired hpath
      | true =>
        rw [processRequest_of_safe hpath]
        rw [hpath, Bool.not_true, Bool.and_false, Bool.or_false] at hrequested
        exact hkept.pending user huser hrequired hrequested hfresh
    · intro user huser hrequired hasserted
      replace huser := (user_processRequest path).symm.trans huser
      rw [processRequest_of_safe (hallowed user huser hrequired hasserted)]
      exact hkept.settled user huser hrequired hasserted
  | authenticateComplete verified =>
    cases verified with
    | none =>
      obtain rfl := Option.some.inj hstep
      exact ⟨hmarked, hkept⟩
    | some user =>
      obtain rfl := Option.some.inj hstep
      obtain ⟨hcomplete, hcleared, -⟩ := complete_spec hmarked user
      exact ⟨hcomplete, fun _ _ _ _ hfresh => absurd hfresh.symm Bool.false_ne_true,
        fun _ _ _ _ => hcleared⟩

/-- The session is pending until its user has completed an assertion, and not pending
afterwards, in every run without a request after the assertion. -/
theorem pending_until_asserted {owner : Option UserId}
    (hrun : Run (SessionState.step members) (NoRequestAfterAssertion members) (.initial owner)
      state) : PendingUntilAsserted members state := by
  have hkept : WellMarked members state.session ∧ PendingUntilAsserted members state := by
    refine hrun.invariant (fun state => WellMarked members state.session ∧
      PendingUntilAsserted members state) ?_ ?_
    · exact ⟨wellMarked_fresh owner, fun _ _ _ hrequested =>
        absurd hrequested Bool.false_ne_true, fun _ _ _ hasserted =>
          absurd hasserted Bool.false_ne_true⟩
    · exact fun _ _ _ hkept hallowed hstep => pending_step hkept.1 hkept.2 hallowed hstep
  exact hkept.2

/-! ## A request after the assertion -/

def strictMembers : UserId → Member := fun _ => ⟨false, false, [.all]⟩

theorem pending_until_asserted_factor :
    ∃ state, Run (SessionState.step strictMembers) (NoRequestAfterAssertion strictMembers)
        (.initial (some 7)) state ∧ state.requested = true ∧ state.asserted = true ∧
      PendingUntilAsserted strictMembers state := by
  have hpending : Run (SessionState.step strictMembers) (NoRequestAfterAssertion strictMembers)
      (.initial (some 7)) _ :=
    .next (.request "/api/v2/jobs/") .start
      (fun _ _ _ hasserted => absurd hasserted Bool.false_ne_true) rfl
  have hrun := Run.next (.authenticateComplete (some 7)) hpending (by exact trivial) rfl
  have hkept := pending_until_asserted hrun
  exact ⟨_, hrun, by decide, by decide, hkept⟩

theorem pending_after_assertion :
    ¬ ∀ (members : UserId → Member) (owner : Option UserId) (state : SessionState),
      Run (SessionState.step members) (fun _ _ => True) (.initial owner) state →
        PendingUntilAsserted members state := by
  intro hclaim
  have hevents : (([.request "/api/v2/jobs/", .authenticateBegin, .authenticateComplete (some 7),
      .request "/api/v2/jobs/"] : List Event).foldlM (SessionState.step strictMembers)
        (.initial (some 7))).any (fun state => decide (state.session.user = some 7) &&
          state.asserted && state.session.mfa.mfaPending) = true := by decide
  obtain ⟨state, hrun, htest⟩ := exists_run_of_any _ hevents
  simp only [Bool.and_eq_true, decide_eq_true_eq] at htest
  obtain ⟨⟨huser, hasserted⟩, hpending⟩ := htest
  have hsettled := (hclaim strictMembers _ state hrun).settled 7 huser rfl hasserted
  exact Bool.false_ne_true (hsettled.symm.trans hpending)

end Forail.MfaSessions
