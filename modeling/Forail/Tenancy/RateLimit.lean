import Forail.Core.Allowance
import Forail.Core.Runs
import Mathlib.Algebra.Order.Floor.Ring
import Mathlib.Algebra.Order.Round
import Mathlib.Data.Rat.Floor

/-!
# The rate limit of a tenant

The requests of a tenant share a token bucket in the store, which is refilled by the
timestamps that the web nodes report.  A refill sets `last_refill` to the timestamp of
its request even when that lies in the past, so the time up to the present is credited
a second time.
-/

namespace Forail.RateLimit

open Forail.Allowance Forail.Runs

def computeTokenBucketParams (rateLimit : Option ℤ) (burstMultiplier : ℤ) : ℤ × ℤ :=
  match rateLimit with
  | none => (0, 0)
  | some rate => if rate ≤ 0 then (0, 0) else (rate * burstMultiplier, rate)

/-- The stored bucket of a tenant, and when the store drops it. -/
structure Bucket where
  tokens : ℚ
  lastRefill : ℚ
  expiresAt : ℚ
  deriving DecidableEq

structure Reply where
  allowed : Bool
  tokensRemaining : ℤ

/-- `HMGET`, which finds nothing once the key has expired. -/
def hmget (clock : ℚ) : Option Bucket → Option Bucket
  | some bucket => if clock ≤ bucket.expiresAt then some bucket else none
  | none => none

def refill (maxTokens refillRate now : ℚ) (bucket : Option Bucket) : ℚ :=
  let tokens := (bucket.map Bucket.tokens).getD maxTokens
  let lastRefill := (bucket.map Bucket.lastRefill).getD now
  let elapsed := max 0 (now - lastRefill)
  min maxTokens (tokens + elapsed * refillRate)

def tokenBucketLua (maxTokens refillRate now requested clock : ℚ) (stored : Option Bucket) :
    Reply × Bucket :=
  let tokens := refill maxTokens refillRate now (hmget clock stored)
  let remaining := if requested ≤ tokens then tokens - requested else tokens
  ({ allowed := decide (requested ≤ tokens)
     tokensRemaining := ⌊remaining⌋ },
   { tokens := remaining
     lastRefill := now
     expiresAt := clock + (⌈maxTokens / refillRate⌉ + 10) })

/-! ## The middleware -/

structure Settings where
  tenancyEnabled : Bool
  tenancyRateLimitingEnabled : Bool
  tenancyDefaultApiRateLimit : ℤ
  tenancyRateLimitFailClosed : Bool

structure Request where
  isAuthenticated : Bool
  isSuperuser : Bool
  tenantApiRateLimit : Option (Option ℕ)

inductive Response where
  | served
  | throttled (retryAfter : ℤ)
  | unavailable
  deriving DecidableEq

def bucketParams (settings : Settings) (request : Request) : Option (ℤ × ℤ) :=
  if ¬ settings.tenancyEnabled ∨ ¬ settings.tenancyRateLimitingEnabled then none
  else if ¬ request.isAuthenticated ∨ request.isSuperuser then none
  else
    match request.tenantApiRateLimit with
    | none => none
    | some override =>
        let rateLimit : ℤ := if override.getD 0 ≠ 0 then override.getD 0
          else settings.tenancyDefaultApiRateLimit
        if rateLimit = 0 then none
        else
          let params := computeTokenBucketParams rateLimit 2
          if params.1 ≤ 0 then none else some params

def call (settings : Settings) (request : Request) (evalsha : ℤ × ℤ → Option Reply) : Response :=
  match bucketParams settings request with
  | none => .served
  | some params =>
      match evalsha params with
      | none => if settings.tenancyRateLimitFailClosed then .unavailable else .served
      | some reply =>
          if reply.allowed then .served
          else .throttled (max 1 (round (1 / params.2 : ℚ)))

theorem computeTokenBucketParams_of_pos {rate : ℤ} (hrate : 1 ≤ rate) :
    computeTokenBucketParams rate 2 = (rate * 2, rate) := if_neg (by omega)

theorem computeTokenBucketParams_pos {rateLimit : Option ℤ}
    (hsize : ¬ (computeTokenBucketParams rateLimit 2).1 ≤ 0) :
    1 ≤ (computeTokenBucketParams rateLimit 2).2 ∧
      (computeTokenBucketParams rateLimit 2).1 = (computeTokenBucketParams rateLimit 2).2 * 2 := by
  cases rateLimit with
  | none => exact absurd le_rfl hsize
  | some rate =>
    by_cases hpos : rate ≤ 0
    · rw [computeTokenBucketParams, if_pos hpos] at hsize
      exact absurd le_rfl hsize
    · rw [computeTokenBucketParams_of_pos (by omega)]
      exact ⟨by omega, rfl⟩

theorem bucketParams_pos {settings : Settings} {request : Request} {params : ℤ × ℤ}
    (hparams : bucketParams settings request = some params) :
    1 ≤ params.2 ∧ params.1 = params.2 * 2 := by
  simp only [bucketParams, Option.ite_none_left_eq_some] at hparams
  obtain ⟨-, -, hparams⟩ := hparams
  split at hparams
  · exact absurd hparams.symm (Option.some_ne_none params)
  · simp only [Option.ite_none_left_eq_some, Option.some.injEq] at hparams
    obtain ⟨-, hsize, rfl⟩ := hparams
    exact computeTokenBucketParams_pos hsize

/-! ## Requests to one bucket -/

inductive Event where
  | request (now : ℚ)
  | tick (duration : ℚ)

/-- The bucket in the store.  Of the requests so far, `largest` is the largest
timestamp, and `passed` has the largest timestamp at the arrival of each allowed one. -/
structure State where
  clock : ℚ
  bucket : Option Bucket
  largest : Option ℚ
  passed : List ℚ
  deriving DecidableEq

namespace State

def initial (clock : ℚ) : State := ⟨clock, none, none, []⟩

def arrival (state : State) (now : ℚ) : ℚ :=
  (state.largest.map fun largest => max largest now).getD now

end State

variable (rate : ℤ)

def maxTokens : ℚ := (computeTokenBucketParams rate 2).1

def refillRate : ℚ := (computeTokenBucketParams rate 2).2

def evalsha (state : State) (now : ℚ) : Reply × Bucket :=
  tokenBucketLua (maxTokens rate) (refillRate rate) now 1 state.clock state.bucket

def step (state : State) : Event → Option State
  | .request now =>
      some
        { state with
          bucket := some (evalsha rate state now).2
          largest := some (state.arrival now)
          passed := if (evalsha rate state now).1.allowed then state.arrival now :: state.passed
            else state.passed }
  | .tick duration => if 0 ≤ duration then some { state with clock := state.clock + duration }
      else none

def StoredInRange (state : State) : Prop :=
  ∀ bucket, state.bucket = some bucket → 0 ≤ bucket.tokens ∧ bucket.tokens ≤ maxTokens rate

/-- In any interval no more requests were allowed than the bucket holds and the
interval refills. -/
def WindowsBounded (state : State) : Prop :=
  Bounded (maxTokens rate) (refillRate rate) state.passed

/-- No time is credited twice: the timestamp is no later than the last refill, or the
last refill was at the largest timestamp, or the bucket would be full by now anyway.
An expired bucket must have been full. -/
def CreditedOnce (clock now largest : ℚ) (bucket : Bucket) : Prop :=
  (clock ≤ bucket.expiresAt ∧ (now ≤ bucket.lastRefill ∨ bucket.lastRefill = largest)) ∨
    maxTokens rate - bucket.tokens ≤ refillRate rate * (max largest now - largest)

instance (clock now largest : ℚ) (bucket : Bucket) :
    Decidable (CreditedOnce rate clock now largest bucket) := by
  unfold CreditedOnce
  infer_instance

def Careful (state : State) : Event → Prop
  | .request now => ∀ bucket ∈ state.bucket, ∀ largest ∈ state.largest,
      CreditedOnce rate state.clock now largest bucket
  | .tick _ => True

instance (state : State) (event : Event) : Decidable (Careful rate state event) := by
  cases event <;> unfold Careful <;> infer_instance

variable {rate} {state : State}

theorem maxTokens_eq (hrate : 1 ≤ rate) : maxTokens rate = rate * 2 := by
  rw [maxTokens, computeTokenBucketParams_of_pos hrate, Int.cast_mul, Int.cast_ofNat]

theorem refillRate_eq (hrate : 1 ≤ rate) : refillRate rate = rate := by
  rw [refillRate, computeTokenBucketParams_of_pos hrate]

theorem refillRate_nonneg (hrate : 1 ≤ rate) : 0 ≤ refillRate rate := by
  rw [refillRate_eq hrate]
  exact_mod_cast Int.le_of_lt hrate

theorem maxTokens_nonneg (hrate : 1 ≤ rate) : 0 ≤ maxTokens rate := by
  rw [maxTokens_eq hrate]
  exact_mod_cast (by omega : 0 ≤ rate * 2)

theorem refill_le (now : ℚ) (bucket : Option Bucket) :
    refill (maxTokens rate) (refillRate rate) now bucket ≤ maxTokens rate := min_le_left _ _

theorem refill_nonneg (hrate : 1 ≤ rate) (hstored : StoredInRange rate state) (now : ℚ) :
    0 ≤ refill (maxTokens rate) (refillRate rate) now (hmget state.clock state.bucket) := by
  have hcredit : ∀ elapsed : ℚ, 0 ≤ max 0 elapsed * refillRate rate := fun elapsed =>
    mul_nonneg (le_max_left 0 elapsed) (refillRate_nonneg hrate)
  refine le_min (maxTokens_nonneg hrate) (add_nonneg ?_ (hcredit _))
  cases hbucket : hmget state.clock state.bucket with
  | none => exact maxTokens_nonneg hrate
  | some bucket =>
    refine (hstored bucket ?_).1
    rw [← hbucket]
    cases hstate : state.bucket with
    | none => rfl
    | some stored =>
      rw [hstate, hmget] at hbucket
      exact (if_pos (Option.ite_none_right_eq_some.mp hbucket).1).symm

theorem tokens_evalsha (state : State) (now : ℚ) :
    (evalsha rate state now).2.tokens =
      refill (maxTokens rate) (refillRate rate) now (hmget state.clock state.bucket) -
        if (evalsha rate state now).1.allowed then 1 else 0 := by
  simp only [evalsha, tokenBucketLua, decide_eq_true_eq]
  split
  · rfl
  · exact (sub_zero _).symm

theorem allowed_evalsha_iff (state : State) (now : ℚ) :
    (evalsha rate state now).1.allowed = true ↔
      1 ≤ refill (maxTokens rate) (refillRate rate) now (hmget state.clock state.bucket) :=
  decide_eq_true_iff

theorem StoredInRange.step {event : Event} {state' : State} (hrate : 1 ≤ rate)
    (hstored : StoredInRange rate state) (hstep : step rate state event = some state') :
    StoredInRange rate state' := by
  cases event with
  | tick duration =>
    obtain ⟨-, rfl⟩ := by simpa only [RateLimit.step, Option.ite_none_right_eq_some,
      Option.some.injEq] using hstep
    exact hstored
  | request now =>
    obtain rfl := Option.some.inj hstep
    intro bucket hbucket
    obtain rfl := Option.some.inj hbucket
    have hnonneg := refill_nonneg hrate hstored now
    have hle : refill (maxTokens rate) (refillRate rate) now (hmget state.clock state.bucket) ≤
        maxTokens rate := refill_le now _
    rw [tokens_evalsha]
    split
    · next hallowed =>
      have hpaid := (allowed_evalsha_iff state now).mp hallowed
      exact ⟨sub_nonneg.mpr hpaid, (sub_le_self _ zero_le_one).trans hle⟩
    · rw [sub_zero]
      exact ⟨hnonneg, hle⟩

theorem refill_gain_le (hrate : 1 ≤ rate) {clock now largest : ℚ} {bucket : Bucket}
    (hcareful : CreditedOnce rate clock now largest bucket) :
    refill (maxTokens rate) (refillRate rate) now (hmget clock (some bucket)) - bucket.tokens ≤
      refillRate rate * (max largest now - largest) := by
  have hnonneg := refillRate_nonneg hrate
  have hgrown : 0 ≤ max largest now - largest := sub_nonneg.mpr (le_max_left largest now)
  cases hcareful with
  | inr hfull =>
    calc refill (maxTokens rate) (refillRate rate) now (hmget clock (some bucket)) - bucket.tokens
        ≤ maxTokens rate - bucket.tokens := sub_le_sub_right (refill_le now _) _
      _ ≤ refillRate rate * (max largest now - largest) := hfull
  | inl hlive =>
    obtain ⟨hlive, hlast⟩ := hlive
    have helapsed : max 0 (now - bucket.lastRefill) ≤ max largest now - largest := by
      refine max_le hgrown ?_
      cases hlast with
      | inl hpast => exact (sub_nonpos.mpr hpast).trans hgrown
      | inr hlargest =>
        rw [hlargest]
        exact sub_le_sub_right (le_max_right largest now) largest
    rw [hmget, if_pos hlive]
    calc refill (maxTokens rate) (refillRate rate) now (some bucket) - bucket.tokens
        ≤ bucket.tokens + max 0 (now - bucket.lastRefill) * refillRate rate - bucket.tokens :=
          sub_le_sub_right (min_le_right _ _) _
      _ = refillRate rate * max 0 (now - bucket.lastRefill) := by
          rw [add_sub_cancel_left, mul_comm]
      _ ≤ refillRate rate * (max largest now - largest) :=
          mul_le_mul_of_nonneg_left helapsed hnonneg

def Covered (rate : ℤ) (state : State) : Prop :=
  match state.bucket, state.largest with
  | some bucket, some largest =>
      Balanced (maxTokens rate) (refillRate rate) state.passed largest bucket.tokens
  | none, none => state.passed = []
  | _, _ => False

theorem covered_initial (clock : ℚ) : Covered rate (State.initial clock) := by
  simp only [Covered, State.initial]

theorem Covered.windowsBounded (hrate : 1 ≤ rate) (hcovered : Covered rate state) :
    WindowsBounded rate state := by
  rw [Covered] at hcovered
  split at hcovered
  · exact hcovered.bounded
  · rw [WindowsBounded, hcovered]
    exact bounded_nil (maxTokens_nonneg hrate) (refillRate_nonneg hrate)
  · exact hcovered.elim

theorem Covered.of_refilled (hrate : 1 ≤ rate) {now : ℚ}
    (hrefilled : Balanced (maxTokens rate) (refillRate rate) state.passed (state.arrival now)
      (refill (maxTokens rate) (refillRate rate) now (hmget state.clock state.bucket)))
    {state' : State} (hstep : step rate state (.request now) = some state') :
    Covered rate state' := by
  obtain rfl := Option.some.inj hstep
  show Balanced _ _ _ _ _
  rw [tokens_evalsha]
  split
  · next hallowed =>
    exact hrefilled.spend (refillRate_nonneg hrate) ((allowed_evalsha_iff state now).mp hallowed)
  · rw [sub_zero]
    exact hrefilled

theorem Covered.step {event : Event} {state' : State} (hrate : 1 ≤ rate)
    (hcovered : Covered rate state) (hcareful : Careful rate state event)
    (hstep : step rate state event = some state') : Covered rate state' := by
  cases event with
  | tick duration =>
    obtain ⟨-, rfl⟩ := by simpa only [RateLimit.step, Option.ite_none_right_eq_some,
      Option.some.injEq] using hstep
    exact hcovered
  | request now =>
    refine Covered.of_refilled hrate ?_ hstep
    have hfull : refill (maxTokens rate) (refillRate rate) now (hmget state.clock state.bucket) ≤
        maxTokens rate := refill_le now _
    rw [Covered] at hcovered
    split at hcovered
    · next bucket largest hbucket hlargest =>
      have hgain := refill_gain_le hrate (hcareful bucket hbucket largest hlargest)
      rw [State.arrival, hlargest]
      rw [hbucket] at hfull ⊢
      exact hcovered.credit (refillRate_nonneg hrate) (le_max_left largest now) hfull hgain
    · rw [hcovered]
      exact balanced_nil (maxTokens_nonneg hrate) (refillRate_nonneg hrate) _ hfull
    · exact hcovered.elim

/-- The stored tokens always lie in the bucket, and as long as no time is credited
twice, the requests allowed in an interval are bounded by the bucket and the refill. -/
theorem rate_holds (hrate : 1 ≤ rate) (clock : ℚ) :
    (∀ state, Run (step rate) (fun _ _ => True) (State.initial clock) state →
      StoredInRange rate state) ∧
    (∀ state, Run (step rate) (Careful rate) (State.initial clock) state →
      StoredInRange rate state ∧ WindowsBounded rate state) := by
  have hstored : ∀ state, Run (step rate) (fun _ _ => True) (State.initial clock) state →
      StoredInRange rate state := by
    intro state hrun
    refine hrun.invariant (StoredInRange rate) ?_ ?_
    · exact fun bucket hbucket => absurd hbucket.symm (Option.some_ne_none bucket)
    · exact fun _ _ _ hstored _ hstep => hstored.step hrate hstep
  refine ⟨hstored, fun state hrun => ⟨hstored state (hrun.mono fun _ _ _ => trivial), ?_⟩⟩
  have hcovered : Covered rate state :=
    hrun.invariant (Covered rate) (covered_initial clock)
      fun _ _ _ hcovered hcareful hstep => hcovered.step hrate hcareful hstep
  exact hcovered.windowsBounded hrate

theorem rate_holds_expired :
    ∃ state, Run (step 1) (Careful 1) (State.initial 0) state ∧ state.passed = [25, 10, 10] ∧
      StoredInRange 1 state ∧ WindowsBounded 1 state := by
  have hevents : (([.request 10, .request 10, .tick 15, .request 25] : List Event).foldlM
      (fun state event => if Careful 1 state event then step 1 state event else none)
      (State.initial 0)) = some ⟨15, some ⟨1, 25, 27⟩, some 25, [25, 10, 10]⟩ := by
    decide +kernel
  have hrun := run_of_checked _ hevents
  exact ⟨_, hrun, rfl, (rate_holds (by decide) 0).2 _ hrun⟩

theorem rate_exceeded :
    ¬ ∀ rate : ℤ, 1 ≤ rate → ∀ clock state,
      Run (step rate) (fun _ _ => True) (State.initial clock) state →
        StoredInRange rate state ∧ WindowsBounded rate state := by
  intro hholds
  have hevents : (([.request 10, .request 10, .request 0, .request 10, .request 10] :
      List Event).foldlM (step 1) (State.initial 0)) =
        some ⟨0, some ⟨0, 10, 12⟩, some 10, [10, 10, 10, 10]⟩ := by
    decide +kernel
  have hbounded := (hholds 1 (by decide) 0 _ (run_of_foldlM _ hevents)).2 10 10 le_rfl
  exact absurd hbounded (by decide +kernel)

end Forail.RateLimit
