import Forail.Api.WebAuthn
import Mathlib.Data.List.Forall2

/-!
# One login for each challenge and counter

Two completions that read the same rows both pass their checks.  When no completion
comes between the reads and the writes of another one with its challenge, or with a
counter that the other one does not exceed, every challenge is used once and the
stored counter only grows.
-/

namespace Forail.WebAuthn

open Forail.Runs

variable {Assertion : Type} {package : WebAuthnPackage Assertion}
  {state state' middle : State Assertion} {event : Event Assertion}

/-! ## What was read and what is stored -/

/-- What the completions that were stored since a row was read account for: the
challenge of the attempt is still unused but for them, and the counter of its
credential has come from none but them. -/
structure Attempt.Accounted (attempt : Attempt Assertion) (state : State Assertion) : Prop where
  challenge : ∀ challenge, attempt.challenge = some challenge →
    challenge.pk < state.db.nextChallenge ∧
      ∀ completion ∈ state.completions, completion.challenge = challenge.pk →
        completion ∈ attempt.since
  stored : ∃ row ∈ state.db.credentials.rows, row.pk = attempt.stored.pk ∧
    (row.signCount = attempt.stored.signCount ∨
      ∃ completion ∈ attempt.since, completion.credential = attempt.stored.pk ∧
        completion.signCount = row.signCount)

structure Accounted (state : State Assertion) : Prop where
  issued : ∀ row ∈ state.db.challenges, row.pk < state.db.nextChallenge ∧
    ∀ completion ∈ state.completions, completion.challenge ≠ row.pk
  consumed : ∀ completion ∈ state.completions, completion.challenge < state.db.nextChallenge
  counted : ∀ completion ∈ state.completions, ∀ row ∈ state.db.credentials.rows,
    row.pk = completion.credential → completion.signCount ≤ row.signCount
  attempts : ∀ client attempt, state.attempts client = some attempt → attempt.Accounted state

/-- The counters that were used for a credential and are not zero. -/
def usedCounters (state : State Assertion) (credential : ℕ) : List ℕ :=
  (state.completions.filter fun completion =>
    decide (completion.credential = credential) && decide (completion.signCount ≠ 0)).map
      Completion.signCount

def CountersKept (before after : CredentialTable) : Prop :=
  List.Forall₂ (fun row row' => row.pk = row'.pk ∧ row.signCount ≤ row'.signCount)
    before.rows after.rows

structure ReplayProtected (before after : State Assertion) : Prop where
  challengeOnce : (after.completions.map Completion.challenge).Nodup
  countersDiffer : ∀ credential, (usedCounters after credential).Nodup
  countersKept : CountersKept before.db.credentials after.db.credentials

/-- No completion was stored since the completing request read its rows that has
used its challenge, or that has stored a counter of its credential which the
presented one replays. -/
def CompletesAlone (package : WebAuthnPackage Assertion) (state : State Assertion) :
    Event Assertion → Prop
  | .complete client => ∀ attempt challenge signCount,
      state.attempts client = some attempt → attempt.challenge = some challenge →
        package.checkAssertion attempt.request attempt.stored challenge = .ok signCount →
          ∀ completion ∈ attempt.since, completion.challenge ≠ challenge.pk ∧
            (completion.credential = attempt.stored.pk →
              isReplay completion.signCount signCount = false)
  | _ => True

theorem countersKept_refl (table : CredentialTable) : CountersKept table table :=
  List.forall₂_same.mpr fun _ _ => ⟨rfl, le_refl _⟩

theorem CountersKept.trans {first second third : CredentialTable}
    (hfirst : CountersKept first second) (hsecond : CountersKept second third) :
    CountersKept first third := by
  rw [CountersKept, List.forall₂_iff_get] at *
  obtain ⟨hlength, hrows⟩ := hfirst
  obtain ⟨hlength', hrows'⟩ := hsecond
  refine ⟨hlength.trans hlength', fun index hindex hindex' => ?_⟩
  have hbefore := hrows index hindex (hlength ▸ hindex)
  have hafter := hrows' index (hlength ▸ hindex) hindex'
  exact ⟨hbefore.1.trans hafter.1, hbefore.2.trans hafter.2⟩

theorem countersKept_save {table : CredentialTable} {pk signCount : ℕ} (now : Time)
    (hup : ∀ row ∈ table.rows, row.pk = pk → row.signCount ≤ signCount) :
    CountersKept table (table.save pk signCount now) := by
  rw [CountersKept, CredentialTable.save, List.forall₂_map_right_iff, List.forall₂_same]
  intro row hrow
  refine ⟨(CredentialTable.pk_saveRow pk signCount now row).symm, ?_⟩
  rw [CredentialTable.saveRow]
  split
  · next hpk => exact hup row hrow hpk
  · exact le_refl _

/-! ## One step -/

theorem Attempt.Accounted.quiet {attempt : Attempt Assertion} (hattempt : attempt.Accounted state)
    (hcompletions : state'.completions = state.completions)
    (hcredentials : state'.db.credentials = state.db.credentials)
    (hnext : state.db.nextChallenge ≤ state'.db.nextChallenge) : attempt.Accounted state' where
  challenge challenge hchallenge := by
    obtain ⟨hbound, hused⟩ := hattempt.challenge challenge hchallenge
    rw [hcompletions]
    exact ⟨hbound.trans_le hnext, hused⟩
  stored := by
    rw [hcredentials]
    exact hattempt.stored

theorem accounted_setAttempt (haccounted : Accounted state) (client : Client)
    {attempt : Option (Attempt Assertion)}
    (hattempt : ∀ new, attempt = some new → new.Accounted state) :
    Accounted (state.setAttempt client attempt) where
  issued := haccounted.issued
  consumed := haccounted.consumed
  counted := haccounted.counted
  attempts other found hfound := by
    rw [State.setAttempt] at hfound
    have hkept : found.Accounted state := by
      by_cases hclient : other = client
      · rw [hclient] at hfound
        simp only [Function.update_self] at hfound
        exact hattempt found hfound
      · simp only [Function.update_of_ne hclient] at hfound
        exact haccounted.attempts other found hfound
    exact hkept.quiet rfl rfl le_rfl

theorem accounted_begin (haccounted : Accounted state) {username : String} {challenge : Bytes}
    {answer : Database.AuthenticationOptions × Database}
    (hbegin : state.db.authenticateBegin state.now username challenge = some answer) :
    Accounted { state with db := answer.2 } := by
  rw [Database.authenticateBegin] at hbegin
  obtain ⟨-, hbegin⟩ := Option.ite_none_left_eq_some.mp hbegin
  obtain rfl := Option.some.inj hbegin
  refine ⟨fun row hrow => ?_, fun completion hcompletion => ?_, haccounted.counted,
    fun client attempt hattempt => ?_⟩
  · obtain hrow | hnew := List.mem_append.mp hrow
    · have hold := haccounted.issued row (List.mem_filter.mp hrow).1
      exact ⟨Nat.lt_succ_of_lt hold.1, hold.2⟩
    · obtain rfl := List.mem_singleton.mp hnew
      exact ⟨Nat.lt_succ_self _, fun completion hcompletion =>
        (haccounted.consumed completion hcompletion).ne⟩
  · exact Nat.lt_succ_of_lt (haccounted.consumed completion hcompletion)
  · exact (haccounted.attempts client attempt hattempt).quiet rfl rfl (Nat.le_succ _)

theorem presented_exceeds {attempt : Attempt Assertion}
    {challenge : WebAuthnAuthenticationChallenge} {signCount : ℕ} (haccounted : attempt.Accounted state)
    (hcheck : package.checkAssertion attempt.request attempt.stored challenge = .ok signCount)
    (halone : ∀ completion ∈ attempt.since, completion.challenge ≠ challenge.pk ∧
      (completion.credential = attempt.stored.pk →
        isReplay completion.signCount signCount = false)) :
    ∀ row ∈ state.db.credentials.rows, row.pk = attempt.stored.pk →
      isReplay row.signCount signCount = false := by
  obtain ⟨stored, hstored, hpk, hcount⟩ := haccounted.stored
  intro row hrow hrowPk
  obtain rfl := CredentialTable.eq_of_pk_eq hrow hstored (hrowPk.trans hpk.symm)
  cases hcount with
  | inl hsame => exact hsame ▸ package.not_replay_of_checkAssertion hcheck
  | inr hsince =>
    obtain ⟨completion, hcompletion, hcredential, hcount⟩ := hsince
    exact hcount ▸ (halone completion hcompletion).2 hcredential

theorem le_of_not_replay {storedCount presentedCount : ℕ}
    (hreplay : isReplay storedCount presentedCount = false) : storedCount ≤ presentedCount := by
  have := isReplay_eq_false_iff.mp hreplay
  omega

theorem signCount_saveRow {pk signCount : ℕ} {now : Time} {row : WebAuthnCredential}
    (hpk : row.pk = pk) :
    (CredentialTable.saveRow pk signCount now row).signCount = signCount := by
  rw [CredentialTable.saveRow, if_pos hpk]

theorem saveRow_of_ne {pk signCount : ℕ} {now : Time} {row : WebAuthnCredential}
    (hpk : row.pk ≠ pk) : CredentialTable.saveRow pk signCount now row = row :=
  if_neg hpk

theorem Attempt.Accounted.storeCompletion {attempt stored : Attempt Assertion} {client : Client}
    {challenge : WebAuthnAuthenticationChallenge} {signCount : ℕ}
    (hattempt : attempt.Accounted state) :
    Attempt.Accounted
      { attempt with
        since := attempt.since ++ [⟨stored.stored.pk, challenge.pk, signCount⟩] }
      (state.storeCompletion client stored.stored challenge signCount) where
  challenge read hread := by
    obtain ⟨hbound, hused⟩ := hattempt.challenge read hread
    refine ⟨hbound, fun completion hcompletion hsame => ?_⟩
    obtain hold | hnew := List.mem_append.mp hcompletion
    · exact List.mem_append_left _ (hused completion hold hsame)
    · exact List.mem_append_right _ hnew
  stored := by
    obtain ⟨row, hrow, hpk, hcount⟩ := hattempt.stored
    refine ⟨_, List.mem_map.mpr ⟨row, hrow, rfl⟩, ?_, ?_⟩
    · rw [CredentialTable.pk_saveRow, hpk]
    · by_cases hsame : row.pk = stored.stored.pk
      · rw [signCount_saveRow hsame]
        exact .inr ⟨_, List.mem_append_right _ (List.mem_singleton_self _),
          hsame.symm.trans hpk, rfl⟩
      · rw [saveRow_of_ne hsame]
        refine hcount.imp_right fun hsince => ?_
        obtain ⟨completion, hcompletion, hcredential⟩ := hsince
        exact ⟨completion, List.mem_append_left _ hcompletion, hcredential⟩

theorem accounted_storeCompletion (haccounted : Accounted state) {client : Client}
    {attempt : Attempt Assertion} {challenge : WebAuthnAuthenticationChallenge} {signCount : ℕ}
    (hattempt : state.attempts client = some attempt)
    (hchallenge : attempt.challenge = some challenge)
    (hexceeds : ∀ row ∈ state.db.credentials.rows, row.pk = attempt.stored.pk →
      isReplay row.signCount signCount = false) :
    Accounted (state.storeCompletion client attempt.stored challenge signCount) where
  issued row hrow := by
    obtain ⟨hrow, hother⟩ := List.mem_filter.mp hrow
    obtain ⟨hbound, hunused⟩ := haccounted.issued row hrow
    refine ⟨hbound, fun completion hcompletion => ?_⟩
    obtain hold | hnew := List.mem_append.mp hcompletion
    · exact hunused completion hold
    · obtain rfl := List.mem_singleton.mp hnew
      exact (of_decide_eq_true hother).symm
  consumed completion hcompletion := by
    obtain hold | hnew := List.mem_append.mp hcompletion
    · exact haccounted.consumed completion hold
    · obtain rfl := List.mem_singleton.mp hnew
      exact ((haccounted.attempts client attempt hattempt).challenge challenge hchallenge).1
  counted completion hcompletion row hrow hpk := by
    obtain ⟨before, hbefore, rfl⟩ := List.mem_map.mp hrow
    rw [CredentialTable.pk_saveRow] at hpk
    by_cases hsame : before.pk = attempt.stored.pk
    · rw [signCount_saveRow hsame]
      obtain hold | hnew := List.mem_append.mp hcompletion
      · exact (haccounted.counted completion hold before hbefore hpk).trans
          (le_of_not_replay (hexceeds before hbefore hsame))
      · obtain rfl := List.mem_singleton.mp hnew
        exact le_refl _
    · rw [saveRow_of_ne hsame]
      obtain hold | hnew := List.mem_append.mp hcompletion
      · exact haccounted.counted completion hold before hbefore hpk
      · obtain rfl := List.mem_singleton.mp hnew
        exact absurd hpk hsame
  attempts other found hfound := by
    rw [State.storeCompletion] at hfound
    by_cases hclient : other = client
    · rw [hclient] at hfound
      simp only [Function.update_self, reduceCtorEq] at hfound
    · simp only [Function.update_of_ne hclient] at hfound
      obtain ⟨before, hbefore, rfl⟩ := Option.map_eq_some_iff.mp hfound
      exact (haccounted.attempts other before hbefore).storeCompletion

/-- The completions, each challenge of which was used once and each counter of
which is new. -/
structure Protected (state : State Assertion) : Prop where
  accounted : Accounted state
  challengeOnce : (state.completions.map Completion.challenge).Nodup
  countersDiffer : ∀ credential, (usedCounters state credential).Nodup

theorem challengeOnce_storeCompletion (hprotected : Protected state) {client : Client}
    {attempt : Attempt Assertion} {challenge : WebAuthnAuthenticationChallenge} {signCount : ℕ}
    (hunused : ∀ completion ∈ state.completions, completion.challenge ≠ challenge.pk) :
    ((state.storeCompletion client attempt.stored challenge signCount).completions.map
      Completion.challenge).Nodup := by
  simp only [State.storeCompletion, List.map_append, List.map_cons, List.map_nil]
  refine List.nodup_append'.mpr
    ⟨hprotected.challengeOnce, List.nodup_singleton _, List.disjoint_singleton.mpr ?_⟩
  intro hmem
  obtain ⟨completion, hcompletion, hsame⟩ := List.mem_map.mp hmem
  exact hunused completion hcompletion hsame

theorem countersDiffer_storeCompletion (hprotected : Protected state) {client : Client}
    {attempt : Attempt Assertion} {challenge : WebAuthnAuthenticationChallenge} {signCount : ℕ}
    (hattempt : state.attempts client = some attempt)
    (hexceeds : ∀ row ∈ state.db.credentials.rows, row.pk = attempt.stored.pk →
      isReplay row.signCount signCount = false) (credential : ℕ) :
    (usedCounters (state.storeCompletion client attempt.stored challenge signCount)
      credential).Nodup := by
  have hold := hprotected.countersDiffer credential
  simp only [usedCounters, State.storeCompletion, List.filter_append, List.map_append] at hold ⊢
  by_cases hnew : attempt.stored.pk = credential ∧ signCount ≠ 0
  · obtain ⟨rfl, hcount⟩ := hnew
    simp only [List.filter_cons, decide_true, hcount, ne_eq, not_false_eq_true, Bool.and_self,
      if_true, List.filter_nil, List.map_cons, List.map_nil]
    refine List.nodup_append'.mpr
      ⟨hold, List.nodup_singleton _, List.disjoint_singleton.mpr fun hmem => ?_⟩
    obtain ⟨completion, hcompletion, hsame⟩ := List.mem_map.mp hmem
    obtain ⟨hcompletion, hcredential⟩ := List.mem_filter.mp hcompletion
    obtain ⟨row, hrow, hpk, -⟩ :=
      (hprotected.accounted.attempts client attempt hattempt).stored
    have hle := hprotected.accounted.counted completion hcompletion row hrow
      (hpk.trans (of_decide_eq_true (Bool.and_eq_true_iff.mp hcredential).1).symm)
    have hlt := isReplay_eq_false_iff.mp (hexceeds row hrow hpk)
    omega
  · have hskip : (decide (attempt.stored.pk = credential) && decide (signCount ≠ 0)) = false := by
      rw [← Bool.decide_and]
      exact decide_eq_false hnew
    simp only [List.filter_cons, hskip, Bool.false_eq_true, if_false, List.filter_nil,
      List.map_nil, List.append_nil]
    exact hold

theorem protected_complete (hprotected : Protected state) {client : Client}
    {attempt : Attempt Assertion} {challenge : WebAuthnAuthenticationChallenge} {signCount : ℕ}
    (hattempt : state.attempts client = some attempt)
    (hchallenge : attempt.challenge = some challenge)
    (hcheck : package.checkAssertion attempt.request attempt.stored challenge = .ok signCount)
    (halone : ∀ completion ∈ attempt.since, completion.challenge ≠ challenge.pk ∧
      (completion.credential = attempt.stored.pk →
        isReplay completion.signCount signCount = false)) :
    Protected (state.storeCompletion client attempt.stored challenge signCount) ∧
      CountersKept state.db.credentials
        (state.db.credentials.save attempt.stored.pk signCount state.now) := by
  have haccounted := hprotected.accounted.attempts client attempt hattempt
  have hexceeds := presented_exceeds haccounted hcheck halone
  have hunused : ∀ completion ∈ state.completions, completion.challenge ≠ challenge.pk := by
    intro completion hcompletion hsame
    have hsince := (haccounted.challenge challenge hchallenge).2 completion hcompletion hsame
    exact (halone completion hsince).1 hsame
  refine ⟨⟨accounted_storeCompletion hprotected.accounted hattempt hchallenge hexceeds,
    challengeOnce_storeCompletion hprotected hunused,
    countersDiffer_storeCompletion hprotected hattempt hexceeds⟩, ?_⟩
  exact countersKept_save state.now fun row hrow hpk =>
    le_of_not_replay (hexceeds row hrow hpk)

theorem protected_step (hprotected : Protected state) (halone : CompletesAlone package state event)
    (hstep : step package state event = some state') :
    Protected state' ∧ CountersKept state.db.credentials state'.db.credentials := by
  cases event with
  | clock time =>
    obtain ⟨-, hstep⟩ := Option.ite_none_right_eq_some.mp hstep
    obtain rfl := Option.some.inj hstep
    obtain ⟨haccounted, hchallenges, hcounters⟩ := hprotected
    refine ⟨⟨⟨haccounted.issued, haccounted.consumed, haccounted.counted,
      fun client attempt hattempt => ?_⟩, hchallenges, hcounters⟩, countersKept_refl _⟩
    exact (haccounted.attempts client attempt hattempt).quiet rfl rfl le_rfl
  | begin username challenge =>
    obtain ⟨answer, hbegin, rfl⟩ := Option.map_eq_some_iff.mp hstep
    refine ⟨⟨accounted_begin hprotected.accounted hbegin, hprotected.challengeOnce,
      hprotected.countersDiffer⟩, ?_⟩
    rw [Database.authenticateBegin] at hbegin
    obtain ⟨-, hbegin⟩ := Option.ite_none_left_eq_some.mp hbegin
    obtain rfl := Option.some.inj hbegin
    exact countersKept_refl _
  | findCredential client request =>
    simp only [step] at hstep
    split at hstep
    · cases hstep
    · next stored hfound =>
      obtain rfl := Option.some.inj hstep
      refine ⟨⟨accounted_setAttempt hprotected.accounted client ?_, hprotected.challengeOnce,
        hprotected.countersDiffer⟩, countersKept_refl _⟩
      rintro attempt hattempt
      obtain rfl := Option.some.inj hattempt
      refine ⟨nofun, stored, ?_, rfl, .inl rfl⟩
      exact package.mem_rows_of_findCredential hfound
  | findChallenge client first =>
    obtain ⟨attempt, hattempt, hstep⟩ := Option.bind_eq_some_iff.mp hstep
    obtain ⟨hfirst, hstep⟩ := Option.ite_none_right_eq_some.mp hstep
    obtain rfl := Option.some.inj hstep
    refine ⟨⟨accounted_setAttempt hprotected.accounted client ?_, hprotected.challengeOnce,
      hprotected.countersDiffer⟩, countersKept_refl _⟩
    rintro new hnew
    obtain rfl := Option.some.inj hnew
    refine ⟨fun challenge hchallenge => ?_,
      (hprotected.accounted.attempts client attempt hattempt).stored⟩
    obtain rfl := Option.some.inj hchallenge
    obtain ⟨hbound, hunused⟩ :=
      hprotected.accounted.issued first (List.mem_filter.mp hfirst.1).1
    exact ⟨hbound, fun completion hcompletion hsame =>
      absurd hsame (hunused completion hcompletion)⟩
  | complete client =>
    obtain ⟨attempt, hattempt, hstep⟩ := Option.bind_eq_some_iff.mp hstep
    obtain ⟨challenge, hchallenge, hstep⟩ := Option.bind_eq_some_iff.mp hstep
    split at hstep
    · obtain rfl := Option.some.inj hstep
      exact ⟨⟨accounted_setAttempt hprotected.accounted client nofun,
        hprotected.challengeOnce, hprotected.countersDiffer⟩, countersKept_refl _⟩
    · next signCount hcheck =>
      obtain rfl := Option.some.inj hstep
      exact protected_complete hprotected hattempt hchallenge hcheck
        (halone attempt challenge signCount hattempt hchallenge hcheck)

/-! ## Runs -/

theorem protected_initial (users : List User) (credentials : CredentialTable) (now : Time) :
    Protected (State.initial users credentials now : State Assertion) where
  accounted := {
    issued := fun _ hrow => absurd hrow List.not_mem_nil
    consumed := fun _ hcompletion => absurd hcompletion List.not_mem_nil
    counted := fun _ hcompletion => absurd hcompletion List.not_mem_nil
    attempts := nofun }
  challengeOnce := List.nodup_nil
  countersDiffer := fun _ => List.nodup_nil

/-- In every run in which each completion comes alone, a challenge lets at most one
completion succeed, the counters that are used for a credential and are not zero
differ, and no stored counter goes down. -/
theorem replay_protected {users : List User} {credentials : CredentialTable} {now : Time}
    (hbefore : Run (step package) (CompletesAlone package) (.initial users credentials now) middle)
    (hafter : Run (step package) (CompletesAlone package) middle state) :
    ReplayProtected middle state := by
  have hmiddle : Protected middle :=
    hbefore.invariant Protected (protected_initial users credentials now)
      fun _ _ _ hprotected halone hstep => (protected_step hprotected halone hstep).1
  have hstate : Protected state ∧ CountersKept middle.db.credentials state.db.credentials :=
    hafter.invariant
      (fun state => Protected state ∧ CountersKept middle.db.credentials state.db.credentials)
      ⟨hmiddle, countersKept_refl _⟩ fun _ _ _ hstate halone hstep => by
        obtain ⟨hprotected, hkept⟩ := protected_step hstate.1 halone hstep
        exact ⟨hprotected, hstate.2.trans hkept⟩
  exact ⟨hstate.1.challengeOnce, hstate.1.countersDiffer, hstate.2⟩

/-! ## Two completions with one challenge -/

def firstChallenge : WebAuthnAuthenticationChallenge := ⟨0, some 1, [3], 0, 300000000⟩

theorem replay_protected_login :
    ∃ state, Run (step signedAssertions) (CompletesAlone signedAssertions) keyStart state ∧
      state.completions = [⟨1, 0, 5⟩] ∧ ReplayProtected keyStart state := by
  let begun : State SignedAssertion :=
    { keyStart with db := { keyStart.db with challenges := [firstChallenge], nextChallenge := 1 } }
  let read := begun.setAttempt 0 (some ⟨keyAnswer 5, ⟨1, 1, [7], [9], 4, none⟩, none, []⟩)
  let matched := read.setAttempt 0
    (some ⟨keyAnswer 5, ⟨1, 1, [7], [9], 4, none⟩, some firstChallenge, []⟩)
  have hread : Run (step signedAssertions) (CompletesAlone signedAssertions) keyStart read :=
    .next (.findCredential 0 (keyAnswer 5))
      (.next (.begin "alice" [3]) .start trivial rfl) trivial rfl
  have hmatched : Run (step signedAssertions) (CompletesAlone signedAssertions) keyStart matched :=
    .next (.findChallenge 0 firstChallenge) hread trivial rfl
  have halone : CompletesAlone signedAssertions matched (.complete 0) := by
    intro attempt challenge signCount hattempt _ _ completion hcompletion
    obtain rfl : _ = attempt := Option.some.inj hattempt
    exact absurd hcompletion List.not_mem_nil
  have hrun := hmatched.next (.complete 0) halone rfl
  exact ⟨_, hrun, rfl, replay_protected .start hrun⟩

/-- Two requests read the same credential and the same challenge; the second one to
store its counter takes it down again. -/
theorem challenge_used_twice :
    ¬ ∀ (users : List User) (credentials : CredentialTable) (now : Time)
      (middle state : State SignedAssertion),
      Run (step signedAssertions) (fun _ _ => True) (.initial users credentials now) middle →
        Run (step signedAssertions) (fun _ _ => True) middle state →
          ReplayProtected middle state := by
  intro hclaim
  have hevents : (([.begin "alice" [3], .findCredential 0 (keyAnswer 6),
      .findCredential 1 (keyAnswer 5), .findChallenge 0 firstChallenge,
      .findChallenge 1 firstChallenge, .complete 0, .complete 1] :
        List (Event SignedAssertion)).foldlM (step signedAssertions) keyStart).any (fun state =>
          state.completions.map Completion.challenge = [0, 0]) = true := by decide
  obtain ⟨state, hrun, htwice⟩ := exists_run_of_any _ hevents
  have honce := (hclaim _ _ _ keyStart state .start hrun).challengeOnce
  rw [of_decide_eq_true htwice] at honce
  exact absurd honce (by decide)

end Forail.WebAuthn
