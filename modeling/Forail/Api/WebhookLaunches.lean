import Forail.Api.Webhooks
import Forail.Core.Runs

/-!
# Launches by webhooks

Only signed requests get past the checks of a receiver.  The search for a job of the event
comes before the job is created, and two requests can both find none.
-/

namespace Forail.Webhooks

open Forail.Runs Forail.Texts

variable {hashes : Hashes} {template : Template} {state after : State} {request : Request}
  {guid : Option Text} {event : Event} {delivery : Delivery} {phase : Phase} {id : ℕ}
  {job : LaunchedJob} {jobs : List LaunchedJob} {kind : JobKind} {service : Service} {key : Text}

/-! ## The property -/

/-- A request has the signature of its body, or the token of its template. -/
def Signed (hashes : Hashes) (key : Text) (request : Request) : Prop :=
  match request.receiver with
  | .github => request.headers "HTTP_X_HUB_SIGNATURE" =
      some ("sha1".toList ++ '=' :: hashes.hmac .sha1 key request.body)
  | .gitlab => request.headers "HTTP_X_GITLAB_TOKEN" = some key
  | .bitbucketDc => ∃ algorithm : HashAlgorithm, request.headers "HTTP_X_HUB_SIGNATURE" =
      some (algorithm.name ++ '=' :: hashes.hmac algorithm key request.body)

/-- Every job was created for a signed request to the receiver of the service, and has the
identifier of its event. -/
def Authentic (hashes : Hashes) (template : Template) (state : State) : Prop :=
  ∀ job ∈ state.jobs, template.webhookKey ≠ [] ∧
    template.webhookService = some job.webhookService ∧
    job.request.receiver = job.webhookService ∧
    getEventGuid hashes job.request = some job.webhookGuid ∧
    Signed hashes template.webhookKey job.request

def Unique (state : State) : Prop :=
  (state.jobs.map fun job => (job.webhookService, job.webhookGuid)).Nodup

instance : DecidablePred Unique := fun _ => inferInstanceAs (Decidable (List.Nodup _))

/-- What may happen next: no job is committed for a request that has been overtaken. -/
def Careful (state : State) : Event → Prop
  | .commits id _ => ∀ delivery ∈ state.deliveries[id]?, delivery.overtaken = false
  | _ => True

instance : DecidablePred (Careful state)
  | .commits id _ =>
      inferInstanceAs (Decidable (∀ delivery ∈ state.deliveries[id]?, delivery.overtaken = false))
  | .receives _ | .searches _ | .fails _ => .isTrue trivial

/-! ## Signatures -/

theorem error_ne_ok {Value : Type} {response : Response} {value : Value} :
    Except.error response ≠ .ok value := by
  intro hsame
  cases hsame

theorem header_of_getSignature {name digest : Text}
    (hsignature : getSignature request = .ok (name, digest)) :
    request.headers "HTTP_X_HUB_SIGNATURE" = some (name ++ '=' :: digest) ∧
      (request.receiver = .github → name = "sha1".toList) := by
  rw [getSignature.eq_def] at hsignature
  split at hsignature
  · exact absurd hsignature error_ne_ok
  · exact absurd hsignature error_ne_ok
  · next header _ hheader =>
    split at hsignature
    · next algorithm signature hsplit =>
      obtain ⟨hname, hpair⟩ : ¬ (request.receiver = .github ∧ algorithm ≠ "sha1".toList) ∧
          (algorithm, signature) = (name, digest) := by
        split at hsignature
        · exact absurd hsignature error_ne_ok
        · next hname => exact ⟨hname, Except.ok.inj hsignature⟩
      obtain ⟨rfl, rfl⟩ := Prod.mk.inj hpair
      have hjoin := intercalate_split '=' header
      rw [hsplit, List.intercalate_cons_cons, List.intercalate_singleton] at hjoin
      refine ⟨hheader.trans (congrArg some ?_), fun hgithub => ?_⟩
      · rw [← hjoin, List.append_assoc]
        rfl
      · by_contra hother
        exact hname ⟨hgithub, hother⟩
    · exact absurd hsignature error_ne_ok

theorem name_of_hashAlgorithm {name : Text} {algorithm : HashAlgorithm}
    (halgorithm : hashAlgorithm name = some algorithm) : name = algorithm.name := by
  rw [hashAlgorithm] at halgorithm
  split at halgorithm
  · next hname =>
    obtain rfl := Option.some.inj halgorithm
    exact hname
  · obtain ⟨hname, hsome⟩ := Option.ite_none_right_eq_some.mp halgorithm
    obtain rfl := Option.some.inj hsome
    exact hname

theorem signed_of_checkDigest (hreceiver : request.receiver ≠ .gitlab)
    (hmust : mustCheckSignature request = true)
    (hcheck : checkDigest hashes request key = .ok ()) : Signed hashes key request := by
  rw [checkDigest.eq_def, if_pos hmust] at hcheck
  split at hcheck
  · exact absurd hcheck error_ne_ok
  · next name digest hsignature =>
    obtain ⟨hheader, hgithub⟩ := header_of_getSignature hsignature
    split at hcheck
    · exact absurd hcheck error_ne_ok
    · next algorithm halgorithm =>
      split at hcheck
      · next hdigest =>
        obtain rfl := name_of_hashAlgorithm halgorithm
        subst hdigest
        rw [Signed]
        cases hservice : request.receiver with
        | github =>
          have hsha1 : algorithm = .sha1 := by
            cases algorithm with
            | sha1 => rfl
            | sha256 => exact absurd (hgithub hservice) (by decide)
          subst hsha1
          exact hheader
        | gitlab => exact absurd hservice hreceiver
        | bitbucketDc => exact ⟨algorithm, hheader⟩
      · exact absurd hcheck error_ne_ok

theorem signed_of_checkToken (hreceiver : request.receiver = .gitlab) (hkey : key ≠ [])
    (hcheck : checkToken request key = .ok ()) : Signed hashes key request := by
  rw [checkToken] at hcheck
  rw [Signed, hreceiver]
  split at hcheck
  · next htoken =>
    cases hheader : request.headers "HTTP_X_GITLAB_TOKEN" with
    | none =>
      rw [hheader] at htoken
      exact absurd htoken hkey
    | some token =>
      rw [hheader] at htoken
      exact congrArg some htoken.symm
  · exact absurd hcheck error_ne_ok

theorem mustCheckSignature_of_not_ignored (hacted : isIgnoredRequest request = false) :
    mustCheckSignature request = true := by
  rw [isIgnoredRequest.eq_def] at hacted
  rw [mustCheckSignature.eq_def]
  cases hservice : request.receiver with
  | github => rfl
  | gitlab => rfl
  | bitbucketDc =>
    rw [hservice] at hacted
    apply decide_eq_true
    intro hping
    rw [hping] at hacted
    exact absurd hacted (by decide)

theorem signed_of_checkRequest (hchecked : checkRequest hashes request template = .ok guid) :
    template.webhookKey ≠ [] ∧ template.webhookService = some request.receiver ∧
      guid = getEventGuid hashes request ∧ Signed hashes template.webhookKey request := by
  rw [checkRequest.eq_def] at hchecked
  split at hchecked
  · split at hchecked
    · next hobject =>
      obtain ⟨hservice, hkey⟩ := hobject
      split at hchecked
      · exact absurd hchecked error_ne_ok
      · next hcheck =>
        split at hchecked
        · exact absurd hchecked error_ne_ok
        · next hacted =>
          split at hchecked
          · refine ⟨hkey, hservice, (Except.ok.inj hchecked).symm, ?_⟩
            rw [checkSignature.eq_def, if_neg hkey] at hcheck
            split at hcheck
            · next hgitlab => exact signed_of_checkToken hgitlab hkey hcheck
            · next hother =>
              exact signed_of_checkDigest hother
                (mustCheckSignature_of_not_ignored (eq_false_of_ne_true hacted)) hcheck
          · exact absurd hchecked error_ne_ok
    · exact absurd hchecked error_ne_ok
  · exact absurd hchecked error_ne_ok

/-! ## Steps -/

theorem mem_setPhase (hdelivery : delivery ∈ (state.setPhase id phase).deliveries) :
    delivery ∈ state.deliveries ∨ ∃ old, state.deliveries[id]? = some old ∧
      delivery = { old with phase := phase } := by
  obtain ⟨index, hindex⟩ := List.mem_iff_getElem?.mp hdelivery
  rw [State.setPhase, List.getElem?_modify] at hindex
  obtain ⟨old, hold, hsame⟩ := Option.map_eq_some_iff.mp hindex
  split at hsame
  · next hid => exact .inr ⟨old, hid ▸ hold, hsame.symm⟩
  · exact .inl (hsame ▸ List.mem_of_getElem? hold)

inductive Steps (hashes : Hashes) (template : Template) (state : State) :
    Event → State → Prop where
  | receives (request : Request) : Steps hashes template state (.receives request)
      { state with deliveries := state.deliveries ++ [deliver hashes template request] }
  | answered {event : Event} {id : ℕ} {response : Response}
      (hevent : ∀ other kind, event = .commits other kind →
        ∀ delivery ∈ state.deliveries[other]?, storable delivery.webhookGuid = none) :
      Steps hashes template state event (state.setPhase id (.answered response))
  | foundNoWorkflowJob {id : ℕ} {delivery : Delivery} (hid : state.deliveries[id]? = some delivery)
      (hphase : delivery.phase = .searchingWorkflowJobs)
      (hnone : ¬ state.Exists .workflowJob delivery.request.receiver delivery.webhookGuid) :
      Steps hashes template state (.searches id) (state.setPhase id .searchingJobs)
  | foundNoJob {id : ℕ} {delivery : Delivery} (hid : state.deliveries[id]? = some delivery)
      (hphase : delivery.phase = .searchingJobs)
      (hnone : ¬ state.Exists .job delivery.request.receiver delivery.webhookGuid) :
      Steps hashes template state (.searches id) (state.setPhase id .creating)
  | commits {id : ℕ} {delivery : Delivery} {guid : Text}
      (hid : state.deliveries[id]? = some delivery) (hphase : delivery.phase = .creating)
      (hguid : storable delivery.webhookGuid = some guid) (kind : JobKind) :
      Steps hashes template state (.commits id kind)
        (state.commit id ⟨kind, delivery.request.receiver, guid, delivery.request⟩)

theorem steps_of_step (hstep : step hashes template state event = some after) :
    Steps hashes template state event after := by
  rw [step.eq_def] at hstep
  split at hstep
  · exact Option.some.inj hstep ▸ .receives _
  · split at hstep
    · exact absurd hstep.symm (Option.some_ne_none _)
    · next delivery hid =>
      split at hstep
      · next hphase =>
        split at hstep
        · exact Option.some.inj hstep ▸ .answered fun _ _ hevent => Event.noConfusion hevent
        · next hnone => exact Option.some.inj hstep ▸ .foundNoWorkflowJob hid hphase hnone
      · next hphase =>
        split at hstep
        · exact Option.some.inj hstep ▸ .answered fun _ _ hevent => Event.noConfusion hevent
        · next hnone => exact Option.some.inj hstep ▸ .foundNoJob hid hphase hnone
      · exact absurd hstep.symm (Option.some_ne_none _)
  · next id kind =>
    split at hstep
    · exact absurd hstep.symm (Option.some_ne_none _)
    · next delivery hid =>
      obtain ⟨hphase, hafter⟩ := Option.ite_none_right_eq_some.mp hstep
      split at hafter
      · next hunstorable =>
        refine Option.some.inj hafter ▸ .answered fun other kind hevent delivery' hother => ?_
        obtain ⟨rfl, -⟩ := Event.commits.inj hevent
        obtain rfl := Option.some.inj (hid.symm.trans hother)
        exact hunstorable
      · next hguid => exact Option.some.inj hafter ▸ .commits hid hphase hguid kind
  · split at hstep
    · exact absurd hstep.symm (Option.some_ne_none _)
    · obtain ⟨-, hafter⟩ := Option.ite_none_right_eq_some.mp hstep
      exact Option.some.inj hafter ▸ .answered fun _ _ hevent => Event.noConfusion hevent

theorem webhookGuid_of_storable {text : Text} (hguid : storable guid = some text) :
    guid = some text := (Option.filter_eq_some_iff.mp hguid).1

/-! ## Authentic jobs -/

structure Admitted (hashes : Hashes) (template : Template) (state : State) : Prop where
  authentic : Authentic hashes template state
  admitted : ∀ delivery ∈ state.deliveries, (∀ response, delivery.phase ≠ .answered response) →
    checkRequest hashes delivery.request template = .ok delivery.webhookGuid

theorem Admitted.setPhase (hadmitted : Admitted hashes template state)
    (hgoesOn : (∀ response, phase ≠ .answered response) → ∀ delivery ∈ state.deliveries[id]?,
      ∀ response, delivery.phase ≠ .answered response) :
    Admitted hashes template (state.setPhase id phase) where
  authentic := hadmitted.authentic
  admitted := by
    intro delivery hdelivery hphase
    rcases mem_setPhase hdelivery with hold | ⟨old, hold, rfl⟩
    · exact hadmitted.admitted delivery hold hphase
    · exact hadmitted.admitted old (List.mem_of_getElem? hold) (hgoesOn hphase old hold)

theorem overtake_fields (service : Service) (guid : Text) (delivery : Delivery) :
    (delivery.overtake service guid).request = delivery.request ∧
      (delivery.overtake service guid).webhookGuid = delivery.webhookGuid ∧
      (delivery.overtake service guid).phase = delivery.phase := by
  rw [Delivery.overtake]
  split <;> exact ⟨rfl, rfl, rfl⟩

theorem Admitted.step (hadmitted : Admitted hashes template state)
    (hstep : step hashes template state event = some after) :
    Admitted hashes template after := by
  cases steps_of_step hstep with
  | receives request =>
    refine ⟨hadmitted.authentic, fun delivery hdelivery hphase => ?_⟩
    rcases List.mem_append.mp hdelivery with hold | hnew
    · exact hadmitted.admitted delivery hold hphase
    · obtain rfl := List.mem_singleton.mp hnew
      rw [deliver] at hphase ⊢
      split at hphase
      · exact absurd rfl (hphase _)
      · next hchecked => exact hchecked
  | answered => exact hadmitted.setPhase fun hphase => absurd rfl (hphase _)
  | foundNoWorkflowJob hid hsearching =>
    refine hadmitted.setPhase fun _ delivery hdelivery response hanswered => ?_
    obtain rfl := Option.some.inj (hid.symm.trans hdelivery)
    exact Phase.noConfusion (hsearching.symm.trans hanswered)
  | foundNoJob hid hsearching =>
    refine hadmitted.setPhase fun _ delivery hdelivery response hanswered => ?_
    obtain rfl := Option.some.inj (hid.symm.trans hdelivery)
    exact Phase.noConfusion (hsearching.symm.trans hanswered)
  | @commits id delivery guid hid hcreating hguid kind =>
    have hchecked := hadmitted.admitted delivery (List.mem_of_getElem? hid)
      fun response hanswered => Phase.noConfusion (hcreating.symm.trans hanswered)
    have hanswered : Admitted hashes template (state.setPhase id (.answered .queued)) :=
      hadmitted.setPhase fun hphase => absurd rfl (hphase _)
    constructor
    · intro job hjob
      rcases List.mem_cons.mp hjob with rfl | hold
      · obtain ⟨hkey, hservice, hsame, hsigned⟩ := signed_of_checkRequest hchecked
        exact ⟨hkey, hservice, rfl, hsame.symm.trans (webhookGuid_of_storable hguid), hsigned⟩
      · exact hadmitted.authentic job hold
    · intro delivery' hdelivery' hphase
      obtain ⟨old, hold, rfl⟩ := List.mem_map.mp hdelivery'
      obtain ⟨hrequest, hwebhookGuid, hsame⟩ :=
        overtake_fields delivery.request.receiver guid old
      rw [hsame] at hphase
      rw [hrequest, hwebhookGuid]
      exact hanswered.admitted old hold hphase

theorem admitted_of_run {allowed : State → Event → Prop}
    (hrun : Run (step hashes template) allowed State.start state) :
    Admitted hashes template state := by
  apply hrun.invariant (Admitted hashes template)
  · exact ⟨fun _ hjob => absurd hjob List.not_mem_nil,
      fun _ hdelivery => absurd hdelivery List.not_mem_nil⟩
  · exact fun _ _ _ hadmitted _ hstep => hadmitted.step hstep

/-! ## Unique jobs -/

theorem exists_commit_iff :
    (state.commit id job).Exists kind service guid ↔
      (job.kind = kind ∧ job.webhookService = service ∧ some job.webhookGuid = guid) ∨
        state.Exists kind service guid := by
  simp [State.Exists, State.commit]

structure Searched (state : State) : Prop where
  unique : Unique state
  stored : ∀ job ∈ state.jobs, storable (some job.webhookGuid) = some job.webhookGuid
  searching : ∀ delivery ∈ state.deliveries, delivery.overtaken = false →
    (delivery.phase = .searchingJobs →
      ¬ state.Exists .workflowJob delivery.request.receiver delivery.webhookGuid) ∧
    (delivery.phase = .creating →
      ∀ kind, ¬ state.Exists kind delivery.request.receiver delivery.webhookGuid)
  overtaken : ∀ delivery ∈ state.deliveries, delivery.overtaken = true →
    ∃ kind, state.Exists kind delivery.request.receiver delivery.webhookGuid

theorem Searched.setPhase (hsearched : Searched state)
    (hright : ∀ delivery ∈ state.deliveries[id]?, delivery.overtaken = false →
      (phase = .searchingJobs →
        ¬ state.Exists .workflowJob delivery.request.receiver delivery.webhookGuid) ∧
      (phase = .creating →
        ∀ kind, ¬ state.Exists kind delivery.request.receiver delivery.webhookGuid)) :
    Searched (state.setPhase id phase) where
  unique := hsearched.unique
  stored := hsearched.stored
  searching := by
    intro delivery hdelivery hovertaken
    rcases mem_setPhase hdelivery with hold | ⟨old, hold, rfl⟩
    · exact hsearched.searching delivery hold hovertaken
    · exact hright old hold hovertaken
  overtaken := by
    intro delivery hdelivery hovertaken
    rcases mem_setPhase hdelivery with hold | ⟨old, hold, rfl⟩
    · exact hsearched.overtaken delivery hold hovertaken
    · exact hsearched.overtaken old (List.mem_of_getElem? hold) hovertaken

theorem Searched.answered (hsearched : Searched state) (id : ℕ) :
    Searched (state.setPhase id (.answered .queued)) :=
  hsearched.setPhase fun _ _ _ =>
    ⟨fun hphase => Phase.noConfusion hphase, fun hphase => Phase.noConfusion hphase⟩

theorem unique_commit_iff (hunique : Unique state) :
    Unique (state.commit id job) ↔
      ∀ kind, ¬ state.Exists kind job.webhookService (some job.webhookGuid) := by
  have hcons : Unique (state.commit id job) ↔ (job.webhookService, job.webhookGuid) ∉
      state.jobs.map (fun job => (job.webhookService, job.webhookGuid)) ∧ Unique state :=
    List.nodup_cons
  rw [hcons, and_iff_left hunique, List.mem_map]
  constructor
  · rintro hnone kind ⟨other, hother, -, hservice, hguid⟩
    exact hnone ⟨other, hother, Prod.ext hservice (Option.some.inj hguid)⟩
  · rintro hnone ⟨other, hother, hsame⟩
    obtain ⟨hservice, hguid⟩ := Prod.mk.inj hsame
    exact hnone other.kind ⟨other, hother, rfl, hservice, congrArg some hguid⟩

theorem Searched.commit (hsearched : Searched state)
    (hstored : storable (some job.webhookGuid) = some job.webhookGuid)
    (hnone : ∀ kind, ¬ state.Exists kind job.webhookService (some job.webhookGuid)) :
    Searched (state.commit id job) where
  unique := (unique_commit_iff hsearched.unique).mpr hnone
  stored := List.forall_mem_cons.mpr ⟨hstored, hsearched.stored⟩
  searching := by
    intro delivery hdelivery hovertaken
    obtain ⟨old, hold, rfl⟩ := List.mem_map.mp hdelivery
    rw [Delivery.overtake] at hovertaken ⊢
    split at hovertaken
    · exact Bool.noConfusion hovertaken
    · next hother =>
      rw [if_neg hother]
      obtain ⟨hjobs, hcreating⟩ := (hsearched.answered id).searching old hold hovertaken
      constructor
      · intro hphase hexists
        rcases exists_commit_iff.mp hexists with ⟨-, hservice, hguid⟩ | hexists
        · exact hother ⟨hservice.symm, hguid.symm, .inl hphase⟩
        · exact hjobs hphase hexists
      · intro hphase kind hexists
        rcases exists_commit_iff.mp hexists with ⟨-, hservice, hguid⟩ | hexists
        · exact hother ⟨hservice.symm, hguid.symm, .inr hphase⟩
        · exact hcreating hphase kind hexists
  overtaken := by
    intro delivery hdelivery hovertaken
    obtain ⟨old, hold, rfl⟩ := List.mem_map.mp hdelivery
    rw [Delivery.overtake] at hovertaken ⊢
    split
    · next hsame =>
      exact ⟨job.kind, exists_commit_iff.mpr (.inl ⟨rfl, hsame.1.symm, hsame.2.1.symm⟩)⟩
    · next hother =>
      rw [if_neg hother] at hovertaken
      obtain ⟨kind, hexists⟩ := (hsearched.answered id).overtaken old hold hovertaken
      exact ⟨kind, exists_commit_iff.mpr (.inr hexists)⟩

theorem Searched.step (hsearched : Searched state) (hcareful : Careful state event)
    (hstep : step hashes template state event = some after) : Searched after := by
  cases steps_of_step hstep with
  | receives request =>
    have hnew : (deliver hashes template request).overtaken = false ∧
        ¬ (deliver hashes template request).Searching := by
      rw [deliver]
      split <;> exact ⟨rfl, by simp [Delivery.Searching]⟩
    refine ⟨hsearched.unique, hsearched.stored, fun delivery hdelivery hovertaken => ?_,
      fun delivery hdelivery hovertaken => ?_⟩
    · rcases List.mem_append.mp hdelivery with hold | hlast
      · exact hsearched.searching delivery hold hovertaken
      · obtain rfl := List.mem_singleton.mp hlast
        exact ⟨fun hphase => absurd (.inl hphase) hnew.2, fun hphase => absurd (.inr hphase) hnew.2⟩
    · rcases List.mem_append.mp hdelivery with hold | hlast
      · exact hsearched.overtaken delivery hold hovertaken
      · obtain rfl := List.mem_singleton.mp hlast
        exact absurd (hnew.1.symm.trans hovertaken) Bool.false_ne_true
  | answered => exact hsearched.setPhase fun _ _ _ =>
      ⟨fun hphase => Phase.noConfusion hphase, fun hphase => Phase.noConfusion hphase⟩
  | foundNoWorkflowJob hid hphase hnone =>
    refine hsearched.setPhase fun delivery hdelivery _ =>
      ⟨fun _ => ?_, fun hphase => Phase.noConfusion hphase⟩
    obtain rfl := Option.some.inj (hid.symm.trans hdelivery)
    exact hnone
  | foundNoJob hid hphase hnone =>
    refine hsearched.setPhase fun delivery hdelivery hovertaken =>
      ⟨fun hphase => Phase.noConfusion hphase, fun _ kind => ?_⟩
    obtain rfl := Option.some.inj (hid.symm.trans hdelivery)
    cases kind with
    | job => exact hnone
    | workflowJob =>
      exact (hsearched.searching _ (List.mem_of_getElem? hid) hovertaken).1 hphase
  | commits hid hphase hguid kind =>
    have hsame := webhookGuid_of_storable hguid
    apply hsearched.commit
    · exact hsame ▸ hguid
    · intro kind'
      dsimp only
      rw [← hsame]
      exact (hsearched.searching _ (List.mem_of_getElem? hid) (hcareful _ hid)).2 hphase kind'

theorem Searched.not_unique (hsearched : Searched state) (hcareless : ¬ Careful state event)
    (hstep : Webhooks.step hashes template state event = some after) : ¬ Unique after := by
  intro hunique
  cases event with
  | commits id kind =>
    apply hcareless
    intro delivery hdelivery
    by_contra hovertaken
    obtain ⟨kind', hexists⟩ := hsearched.overtaken delivery (List.mem_of_getElem? hdelivery)
      (eq_true_of_ne_false hovertaken)
    cases steps_of_step hstep with
    | answered hevent =>
      obtain ⟨job, hjob, -, -, hguid⟩ := hexists
      have hunstorable := hevent id kind rfl delivery hdelivery
      rw [← hguid, hsearched.stored job hjob] at hunstorable
      exact absurd hunstorable (Option.some_ne_none _)
    | commits hid hphase hguid =>
      obtain rfl := Option.some.inj (hid.symm.trans hdelivery)
      rw [webhookGuid_of_storable hguid] at hexists
      exact (unique_commit_iff hsearched.unique).mp hunique kind' hexists
  | _ => exact hcareless trivial

/-- Jobs are authentic, and unique when none is committed for a request that has been overtaken.
Every other commit makes a second job of an event. -/
theorem authentic_unique_of_careful
    (hrun : Run (step hashes template) Careful State.start state) :
    Authentic hashes template state ∧ Unique state ∧
      ∀ event after, step hashes template state event = some after →
        (Unique after ↔ Careful state event) := by
  have hsearched : Searched state := by
    apply hrun.invariant Searched
    · exact ⟨List.nodup_nil, fun _ hjob => absurd hjob List.not_mem_nil,
        fun _ hdelivery => absurd hdelivery List.not_mem_nil,
        fun _ hdelivery => absurd hdelivery List.not_mem_nil⟩
    · exact fun _ _ _ hsearched hcareful hstep => hsearched.step hcareful hstep
  refine ⟨(admitted_of_run hrun).authentic, hsearched.unique, fun event after hstep => ?_⟩
  constructor
  · intro hunique
    by_contra hcareless
    exact hsearched.not_unique hcareless hstep hunique
  · exact fun hcareful => (hsearched.step hcareful hstep).unique

/-! ## A delivery of GitHub -/

def pushHashes : Hashes where
  hmac := fun _ _ _ => "5d61605c3feea9799210ddcb71307d4ba264225f".toList
  sha1 := fun _ => "bf21a9e8fbc5a3846fb05b4fa0859e0917b2202f".toList

def pushTemplate : Template := ⟨some .github, "secret".toList⟩

def pushRequest : Request where
  receiver := .github
  headers := fun header =>
    if header = "HTTP_X_GITHUB_EVENT" then some "push".toList
    else if header = "HTTP_X_GITHUB_DELIVERY" then some "72d3162e".toList
    else if header = "HTTP_X_HUB_SIGNATURE" then
      some "sha1=5d61605c3feea9799210ddcb71307d4ba264225f".toList
    else none
  body := [0x7B, 0x7D]
  parsed := true
  described := true

def redelivery : List Event :=
  [.receives pushRequest, .searches 0, .searches 0, .commits 0 .job, .receives pushRequest,
    .searches 1, .searches 1]

def twoDeliveries : List Event :=
  [.receives pushRequest, .receives pushRequest, .searches 0, .searches 0, .searches 1,
    .searches 1, .commits 0 .job, .commits 1 .job]

theorem unique_redelivery : ∃ state, Run (step pushHashes pushTemplate) Careful State.start state ∧
    state.jobs.length = 1 ∧ Authentic pushHashes pushTemplate state ∧ Unique state := by
  have hevents : (redelivery.foldlM (fun (state : State) event =>
      if Careful state event then step pushHashes pushTemplate state event else none)
      State.start).any (fun state => state.jobs.length == 1) = true := by
    decide +kernel
  obtain ⟨state, hstate, hjobs⟩ := Option.any_eq_true .. |>.mp hevents
  have hrun := run_of_checked _ hstate
  obtain ⟨hauthentic, hunique, -⟩ := authentic_unique_of_careful hrun
  exact ⟨state, hrun, eq_of_beq hjobs, hauthentic, hunique⟩

theorem not_unique_twoDeliveries : ¬ ∀ (hashes : Hashes) (template : Template) (state : State),
    Run (step hashes template) (fun _ _ => True) State.start state →
      Authentic hashes template state ∧ Unique state := by
  intro hall
  have hevents : (twoDeliveries.foldlM (step pushHashes pushTemplate) State.start).any
      (fun state => ! decide (Unique state)) = true := by
    decide +kernel
  obtain ⟨state, hrun, htwo⟩ := exists_run_of_any _ hevents
  have hunique := (hall pushHashes pushTemplate state hrun).2
  rw [decide_eq_true hunique] at htwo
  exact Bool.noConfusion htwo

end Forail.Webhooks
