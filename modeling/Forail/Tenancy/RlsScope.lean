import Forail.Core.Runs
import Forail.Tenancy.StrictIsolation

/-!
# The scope of a connection

One connection serves a sequence of requests, and the scope that one of them leaves is
the one with which the next begins.  A view runs in the scope of its tenant as long as
the scope is cleared after each request, and is restored after the lookup of the strict
gate.
-/

namespace Forail.Isolation

open Forail.Runs

variable {Model : Type*}

structure Incoming (Model : Type*) where
  settings : Settings
  statements : Statements
  store : Store Model
  request : Request Model

structure Exchange (Model : Type*) where
  settings : Settings
  request : Request Model
  served : Served

structure Connection (Model : Type*) where
  scope : Scope
  exchanges : List (Exchange Model)

namespace Connection

def initial : Connection Model := ⟨none, []⟩

def step [DecidableEq Model] (schema : Schema Model) (connection : Connection Model)
    (incoming : Incoming Model) : Option (Connection Model) :=
  let served := call schema incoming.store incoming.settings incoming.statements
    incoming.request connection.scope
  some ⟨served.scope, connection.exchanges ++ [⟨incoming.settings, incoming.request, served⟩]⟩

end Connection

def tenantScope (user : Option User) : Scope := (user.bind User.tenant).map Organization.pk

/-- A view that runs under row-level security runs in the scope of the requester;
otherwise the response is an error. -/
structure Exchange.Scoped (exchange : Exchange Model) : Prop where
  scope : exchange.settings.tenancyEnabled = true →
    exchange.settings.tenancyRlsEnabled = true →
      ∀ scope, exchange.served.viewScope = some scope →
        scope = tenantScope exchange.request.requester
  answer : exchange.request.view.isSome = true → exchange.served.viewScope = none →
    exchange.served.response.isError = true

def Connection.Scoped (connection : Connection Model) : Prop :=
  ∀ exchange ∈ connection.exchanges, exchange.Scoped

def View.looksUp [DecidableEq Model] (schema : Schema Model) (view : View Model) : Bool :=
  match view.kwargs.organization with
  | some (some _) => false
  | _ => view.kwargs.pk.isSome && (view.viewClass.bind ViewClass.model).any schema.isCovered

/-- The session belongs to the tenant of the requester, the scope is restored unless the
strict gate denies the request, and it is cleared at the end. -/
structure ScopeSurvives [DecidableEq Model] (schema : Schema Model)
    (incoming : Incoming Model) : Prop where
  session : incoming.settings.tenancyEnabled = true →
    incoming.settings.tenancyRlsEnabled = true → incoming.request.view.isSome = true →
      tenantScope incoming.request.user = tenantScope incoming.request.requester
  restored : ∀ org view, installedTenant incoming.settings incoming.request.user = some org →
    incoming.request.view = some view → shouldExemptIsolation incoming.request.path = false →
      view.looksUp schema = true → incoming.statements.unscopeFails = false →
        incoming.statements.restoreFails = true →
          (org.tenantIsolationStrict && incoming.settings.tenancyStrictIsolationEnabled) = true
  cleared : ∀ org, installedTenant incoming.settings incoming.request.user = some org →
    incoming.statements.tenantLookupFails = false → incoming.statements.setFails = false →
      incoming.statements.clearFails = false

variable [DecidableEq Model] {schema : Schema Model} {store : Store Model}
  {settings : Settings} {statements : Statements} {user : Option User} {org : Organization}
  {view : View Model} {path : String} {scope : Scope} {opened : Opened}
  {connection connection' : Connection Model} {incoming : Incoming Model}

/-! ## One request -/

theorem resolveTargetOrgId_not_looked_up (hlooks : view.looksUp schema = false) :
    (resolveTargetOrgId schema store statements (some org) view scope).2 = scope := by
  obtain ⟨viewClass, organization, pk⟩ := view
  rw [resolveTargetOrgId.eq_def]
  rw [View.looksUp.eq_def] at hlooks
  dsimp only at hlooks ⊢
  split
  · rfl
  · split
    · next hmodel =>
      split
      · next hcovered => simp [hmodel, hcovered] at hlooks
      · rfl
    · rfl

theorem resolveTargetOrgId_looked_up (store : Store Model) (statements : Statements)
    (org : Organization) (scope : Scope) (hlooks : view.looksUp schema = true) :
    ∃ lookup, resolveTargetOrgId schema store statements (some org) view scope =
      (.ofLookup (rlsUnscoped statements (some org.pk) scope lookup).1,
        (rlsUnscoped statements (some org.pk) scope lookup).2) := by
  obtain ⟨viewClass, organization, pk⟩ := view
  rw [resolveTargetOrgId.eq_def]
  rw [View.looksUp.eq_def] at hlooks
  dsimp only at hlooks ⊢
  split at hlooks
  · exact absurd hlooks Bool.false_ne_true
  · obtain ⟨hpk, hmodel⟩ := Bool.and_eq_true_iff.mp hlooks
    obtain ⟨pk, rfl⟩ := Option.isSome_iff_exists.mp hpk
    obtain ⟨model, hmodel, hcovered⟩ := Option.any_eq_true .. |>.mp hmodel
    refine ⟨lookupOrgId schema store statements model pk, ?_⟩
    simp only [hmodel, hcovered, if_true]
    rfl

theorem processView_exempt {tenantOrg : Option Organization}
    (hpath : shouldExemptIsolation path = true) :
    processView schema store settings statements user path tenantOrg view scope =
      (.proceed, scope) := by
  rw [processView.eq_def]
  cases user <;> simp [hpath]

theorem processView_scope (hinstalled : installedTenant settings user = some org)
    (hrestored : shouldExemptIsolation path = false → view.looksUp schema = true →
      statements.unscopeFails = false → statements.restoreFails = true →
        (org.tenantIsolationStrict && settings.tenancyStrictIsolationEnabled) = true)
    (hproceeds : (processView schema store settings statements user path (some org) view
      (some org.pk)).1.denial = none) :
    (processView schema store settings statements user path (some org) view
      (some org.pk)).2 = some org.pk := by
  obtain ⟨hon, htenant⟩ := Option.ite_none_right_eq_some.mp hinstalled
  have htenancy := (Bool.and_eq_true_iff.mp hon).1
  cases hpath : shouldExemptIsolation path with
  | true => rw [processView_exempt hpath]
  | false =>
    rw [processView_tenant view htenancy hpath htenant] at hproceeds ⊢
    cases hlooks : view.looksUp schema with
    | false => exact resolveTargetOrgId_not_looked_up hlooks
    | true =>
      obtain ⟨lookup, hresolved⟩ :=
        resolveTargetOrgId_looked_up store statements org (some org.pk) hlooks
      rw [hresolved] at hproceeds ⊢
      cases hrestore : statements.restoreFails with
      | false => rw [rlsUnscoped_restored hrestore]
      | true =>
        rw [rlsUnscoped_not_restored hrestore] at hproceeds ⊢
        cases hunscope : statements.unscopeFails with
        | true => rfl
        | false =>
          have henforced := hrestored hpath hlooks hunscope hrestore
          have hdenied : (judge settings statements path org .unresolved).denial.isSome = true :=
            judge_denied_iff.mpr ⟨henforced, .inl rfl⟩
          exact absurd hproceeds (Option.isSome_iff_ne_none.mp hdenied)

theorem statements_of_openScope (hopened : openScope settings statements user scope = some opened)
    (horg : opened.tenantOrg = some org) :
    statements.tenantLookupFails = false ∧ statements.setFails = false := by
  rw [openScope] at hopened
  split at hopened
  · obtain ⟨-, hopened⟩ := Option.ite_none_left_eq_some.mp hopened
    obtain rfl := Option.some.inj hopened
    exact absurd horg.symm (Option.some_ne_none org)
  · obtain rfl := Option.some.inj hopened
    exact absurd horg.symm (Option.some_ne_none org)
  · next found hresolved =>
    constructor
    · apply Bool.eq_false_iff.mpr
      intro hfails
      simp only [resolveTenantOrg, hfails, if_true] at hresolved
      repeat' split at hresolved
      all_goals simp at hresolved
    · apply Bool.eq_false_iff.mpr
      intro hfails
      simp [setTenantId, hfails] at hopened

theorem closeScope_clean {left : Scope}
    (hcleared : ∀ org, installedTenant settings user = some org →
      statements.tenantLookupFails = false → statements.setFails = false →
        statements.clearFails = false)
    (hopened : openScope settings statements user scope = some opened)
    (hleft : opened.tenantOrg = none → left = none) :
    closeScope statements opened.tenantOrg left = none := by
  cases horg : opened.tenantOrg with
  | none => exact hleft horg
  | some org =>
    obtain ⟨hlookup, hset⟩ := statements_of_openScope hopened horg
    have hclear := hcleared org ((openScope_eq hopened).1.symm.trans horg) hlookup hset
    rw [closeScope, clearTenantId, hclear, if_neg Bool.false_ne_true]

theorem opened_scope_clean (hopened : openScope settings statements user none = some opened)
    (horg : opened.tenantOrg = none) : opened.scope = none := by
  rw [(openScope_eq hopened).2, horg]
  rfl

def served (schema : Schema Model) (incoming : Incoming Model) : Served :=
  call schema incoming.store incoming.settings incoming.statements incoming.request none

theorem served_clean (hsurvives : ScopeSurvives schema incoming) :
    (served schema incoming).scope = none := by
  rw [served, call.eq_def]
  cases hopened : openScope incoming.settings incoming.statements incoming.request.user none with
  | none => rfl
  | some opened =>
    dsimp only
    split
    · exact closeScope_clean hsurvives.cleared hopened (opened_scope_clean hopened)
    · next view hview =>
      split
      all_goals
        apply closeScope_clean hsurvives.cleared hopened
        intro horg
        rw [horg, processView_no_tenant]
        exact opened_scope_clean hopened horg

theorem served_answer (hview : incoming.request.view.isSome = true)
    (hnone : (served schema incoming).viewScope = none) :
    (served schema incoming).response.isError = true := by
  obtain ⟨view, hview⟩ := Option.isSome_iff_exists.mp hview
  rw [served, call.eq_def, hview] at hnone ⊢
  split
  · rfl
  · next opened hopened =>
    rw [hopened] at hnone
    dsimp only at hnone ⊢
    split
    · rfl
    · next hproceeds =>
      rw [hproceeds] at hnone
      exact absurd hnone (Option.some_ne_none _)

theorem served_scope (hsurvives : ScopeSurvives schema incoming)
    (htenancy : incoming.settings.tenancyEnabled = true)
    (hrls : incoming.settings.tenancyRlsEnabled = true)
    (hran : (served schema incoming).viewScope = some scope) :
    scope = tenantScope incoming.request.requester := by
  have hinstalled : installedTenant incoming.settings incoming.request.user =
      incoming.request.user.bind User.tenant := by
    rw [installedTenant, htenancy, hrls]
    rfl
  rw [served, call.eq_def] at hran
  cases hopened : openScope incoming.settings incoming.statements incoming.request.user none with
  | none => simp [hopened] at hran
  | some opened =>
    cases hview : incoming.request.view with
    | none => simp [hopened, hview] at hran
    | some view =>
      rw [hopened, hview] at hran
      dsimp only at hran
      split at hran
      · exact absurd hran.symm (Option.some_ne_none _)
      · next hproceeds =>
        obtain rfl := Option.some.inj hran
        rw [← hsurvives.session htenancy hrls (Option.isSome_of_eq_some hview), tenantScope,
          ← hinstalled]
        obtain ⟨horg, hscope⟩ := openScope_eq hopened
        rw [hscope, horg] at hproceeds ⊢
        cases htenant : installedTenant incoming.settings incoming.request.user with
        | none => rw [processView_no_tenant, Option.elim_none, Option.map_none]
        | some org =>
          rw [htenant] at hproceeds
          exact processView_scope htenant (hsurvives.restored org view htenant hview) hproceeds

/-! ## Runs -/

theorem scoped_step (hscoped : connection.Scoped) (hclean : connection.scope = none)
    (hsurvives : ScopeSurvives schema incoming)
    (hstep : connection.step schema incoming = some connection') :
    connection'.Scoped ∧ connection'.scope = none := by
  obtain rfl := Option.some.inj hstep
  rw [hclean]
  refine ⟨fun exchange hmem => ?_, served_clean hsurvives⟩
  obtain hold | hnew := List.mem_append.mp hmem
  · exact hscoped exchange hold
  · rw [List.mem_singleton.mp hnew]
    exact ⟨fun htenancy hrls _ hran => served_scope hsurvives htenancy hrls hran, served_answer⟩

/-- On a connection whose scope survives every request, each view runs in the scope of
its tenant. -/
theorem rls_scope_kept
    (hrun : Run (Connection.step schema) (fun _ => ScopeSurvives schema) .initial connection) :
    connection.Scoped := by
  have hkept : connection.Scoped ∧ connection.scope = none := by
    apply hrun.invariant fun connection => connection.Scoped ∧ connection.scope = none
    · exact ⟨fun _ hmem => absurd hmem List.not_mem_nil, rfl⟩
    · intro connection incoming connection' hkept hsurvives hstep
      exact scoped_step hkept.1 hkept.2 hsurvives hstep
  exact hkept.1

/-! ## A superuser after a tenant user -/

theorem scopeSurvives_fine {newEvent : Pk} (hfine : incoming.statements = .fine newEvent)
    (hsession : tenantScope incoming.request.user = tenantScope incoming.request.requester) :
    ScopeSurvives schema incoming where
  session _ _ _ := hsession
  restored _ _ _ _ _ _ _ hrestore := by
    rw [hfine] at hrestore
    exact absurd hrestore Bool.false_ne_true
  cleared _ _ _ _ := by
    rw [hfine]
    rfl

def superuserRequest : Request Table where
  user := some ⟨true, true, []⟩
  tokenUser := none
  basicUser := none
  path := "/api/v2/workflow_jobs/7/"
  view := some (.ofKey .workflowJob none 7)

def tokenRequest : Request Table :=
  { superuserRequest with
    user := none
    tokenUser := some ⟨true, false, [strictTenant]⟩ }

def arrives (statements : Statements) (request : Request Table) : Incoming Table where
  settings := ⟨true, true, false⟩
  statements := statements
  store := templateOfOther
  request := request

theorem rls_scope_kept_superuser :
    ∃ connection, Run (Connection.step tables) (fun _ => ScopeSurvives tables) .initial
        connection ∧
      connection.exchanges.map (fun exchange => exchange.served.viewScope) =
        [some (some 1), some none] ∧
      connection.Scoped := by
  have hrun : Run (Connection.step tables) (fun _ => ScopeSurvives tables) .initial _ :=
    .next (arrives (.fine 5) superuserRequest)
      (.next (arrives (.fine 5) templateJobsList) .start (scopeSurvives_fine rfl rfl) rfl)
      (scopeSurvives_fine rfl rfl) rfl
  exact ⟨_, hrun, by decide, rls_scope_kept hrun⟩

def Exchange.leaks (exchange : Exchange Model) : Bool :=
  exchange.settings.tenancyEnabled && exchange.settings.tenancyRlsEnabled &&
    exchange.served.viewScope.any (· != tenantScope exchange.request.requester)

omit [DecidableEq Model] in
theorem not_scoped_of_leaks (hleaks : connection.exchanges.any Exchange.leaks = true) :
    ¬connection.Scoped := by
  intro hscoped
  obtain ⟨exchange, hmem, hleak⟩ := List.any_eq_true.mp hleaks
  obtain ⟨hon, hleak⟩ := Bool.and_eq_true_iff.mp hleak
  obtain ⟨htenancy, hrls⟩ := Bool.and_eq_true_iff.mp hon
  obtain ⟨scope, hran, hne⟩ := Option.any_eq_true .. |>.mp hleak
  exact bne_iff_ne.mp hne ((hscoped exchange hmem).scope htenancy hrls scope hran)

def Leak (requests : List (Incoming Table)) : Prop :=
  ∃ connection, requests.foldlM (Connection.step tables) .initial = some connection ∧
    Run (Connection.step tables) (fun _ _ => True) .initial connection ∧ ¬connection.Scoped

theorem leak_of_any {requests : List (Incoming Table)}
    (hleaks : (requests.foldlM (Connection.step tables) .initial).any
      (fun connection => connection.exchanges.any Exchange.leaks) = true) : Leak requests := by
  obtain ⟨connection, hserved, hleaks⟩ := Option.any_eq_true .. |>.mp hleaks
  exact ⟨connection, hserved, run_of_foldlM requests hserved, not_scoped_of_leaks hleaks⟩

/-- A superuser inherits the scope of a tenant when it is not cleared.  A tenant user
sees all rows when the scope is not restored, and whenever the request has a token in
place of a session. -/
theorem scope_inherited :
    Leak [arrives { Statements.fine 5 with clearFails := true } templateJobsList,
        arrives (.fine 5) superuserRequest] ∧
      Leak [arrives { Statements.fine 5 with restoreFails := true } templateJobsList] ∧
      Leak [arrives (.fine 5) tokenRequest] := by
  refine ⟨leak_of_any ?_, leak_of_any ?_, leak_of_any ?_⟩
  all_goals decide

end Forail.Isolation
