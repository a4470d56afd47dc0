import Forail.Tenancy.Isolation

/-!
# Strict isolation

The strict gate looks for the organization of the object that the key in the URL names
in the model of the view.  The key of a sub-list view names an object of the parent
model, so there the gate decides on an object that happens to have the same key.  It
decides nothing on a request for which the first gate has installed no scope.
-/

namespace Forail.Isolation

variable {Model : Type*}

/-- A detail view, or with a parent model a sub-list view, and the key in its URL. -/
def View.ofKey (model : Model) (parentModel : Option Model) (pk : Pk) : View Model where
  viewClass := some ⟨some model, parentModel⟩
  kwargs := ⟨none, some pk⟩

/-- A request of a user whose tenant is isolated strictly, to a path on which the gate
is active. -/
structure StrictTenantRequest (settings : Settings) (request : Request Model)
    (tenant : Organization) : Prop where
  tenancy : settings.tenancyEnabled = true
  strict : settings.tenancyStrictIsolationEnabled = true
  requester : request.requester.bind User.tenant = some tenant
  tenantStrict : tenant.tenantIsolationStrict = true
  path : shouldExemptIsolation request.path = false

section Decision

variable [DecidableEq Model] (schema : Schema Model) (store : Store Model)

/-- An object of an organization-scoped model belongs to another organization, as far
as the scope shows it. -/
def Foreign (scope : Scope) (tenant : Organization) (model : Model) (pk : Pk) : Prop :=
  schema.isCovered model = true ∧
    ∃ orgId, schema.orgOf store scope model pk = some orgId ∧ orgId ≠ tenant.pk

def lookupError (statements : Statements) (model : Model) : Bool :=
  schema.isCovered model &&
    (schema.lacksColumn model || statements.lookupFails || statements.restoreFails)

/-- The gate looks up an object in the model of the view, and fails. -/
def LookupFailed (settings : Settings) (statements : Statements) (request : Request Model)
    (model : Model) : Prop :=
  (installedTenant settings request.user).isSome = true ∧
    lookupError schema statements model = true

/-- The request is blocked exactly when the object that the key names belongs to another
organization, or when a lookup has failed. -/
def DecidesOnNamed (settings : Settings) (statements : Statements) (request : Request Model)
    (tenant : Organization) (model : Model) (parentModel : Option Model) (pk : Pk)
    (opened : Opened) : Prop :=
  (processView schema store settings statements request.user request.path opened.tenantOrg
      (.ofKey model parentModel pk) opened.scope).1.denial.isSome = true ↔
    Foreign schema store none tenant (parentModel.getD model) pk ∨
      LookupFailed schema settings statements request model

/-- What the gate sees agrees with the object that the key names.  Without an installed
scope it sees nothing; otherwise it compares the object of the view's own model with the
tenant of the session. -/
def SeesNamed (settings : Settings) (statements : Statements) (request : Request Model)
    (tenant : Organization) (model : Model) (parentModel : Option Model) (pk : Pk) : Prop :=
  match installedTenant settings request.user with
  | none => ¬Foreign schema store none tenant (parentModel.getD model) pk
  | some org =>
      if lookupError schema statements model then org.tenantIsolationStrict = true
      else
        (org.tenantIsolationStrict = true ∧
            Foreign schema store (clearTenantId statements.unscopeFails (some org.pk)) org
              model pk) ↔
          Foreign schema store none tenant (parentModel.getD model) pk

end Decision

variable [DecidableEq Model] {schema : Schema Model} {store : Store Model}
  {settings : Settings} {statements : Statements} {request : Request Model}
  {tenant org : Organization} {model : Model} {parentModel : Option Model} {pk : Pk}
  {scope : Scope} {opened : Opened}

/-! ## The target -/

theorem resolveTargetOrgId_ofKey (hcovered : schema.isCovered model = true) :
    (resolveTargetOrgId schema store statements (some org) (.ofKey model parentModel pk)
        scope).1 =
      .ofLookup (rlsUnscoped statements (some org.pk) scope
        (lookupOrgId schema store statements model pk)).1 := by
  rw [resolveTargetOrgId.eq_def]
  dsimp only [View.ofKey, Option.bind_some]
  rw [if_pos hcovered]
  rfl

theorem resolveTargetOrgId_not_covered (hcovered : schema.isCovered model = false) :
    (resolveTargetOrgId schema store statements (some org) (.ofKey model parentModel pk)
      scope).1 = .notCovered := by
  rw [resolveTargetOrgId.eq_def]
  dsimp only [View.ofKey, Option.bind_some]
  rw [if_neg (Bool.eq_false_iff.mp hcovered)]

theorem resolveTargetOrgId_error (herror : lookupError schema statements model = true) :
    (resolveTargetOrgId schema store statements (some org) (.ofKey model parentModel pk)
      scope).1 = .unresolved := by
  obtain ⟨hcovered, herror⟩ := Bool.and_eq_true_iff.mp herror
  rw [resolveTargetOrgId_ofKey hcovered]
  cases hrestore : statements.restoreFails with
  | true => rw [rlsUnscoped_not_restored hrestore, Target.ofLookup]
  | false =>
    rw [hrestore, Bool.or_false] at herror
    rw [rlsUnscoped_restored hrestore, lookupOrgId]
    cases hcolumn : schema.lacksColumn model with
    | true => rw [if_pos rfl, Target.ofLookup]
    | false =>
      rw [hcolumn, Bool.false_or] at herror
      rw [if_neg Bool.false_ne_true, if_pos herror, Target.ofLookup]

theorem target_foreign_iff (hfine : lookupError schema statements model = false) :
    ((resolveTargetOrgId schema store statements (some org) (.ofKey model parentModel pk)
          scope).1 = .unresolved ∨
        ∃ id, (resolveTargetOrgId schema store statements (some org)
          (.ofKey model parentModel pk) scope).1 = .organization id ∧ id ≠ org.pk) ↔
      Foreign schema store (clearTenantId statements.unscopeFails scope) org model pk := by
  cases hcovered : schema.isCovered model with
  | false =>
    rw [resolveTargetOrgId_not_covered hcovered, Foreign, hcovered]
    simp
  | true =>
    rw [lookupError, hcovered, Bool.true_and, Bool.or_eq_false_iff, Bool.or_eq_false_iff] at hfine
    obtain ⟨⟨hcolumn, hlookup⟩, hrestore⟩ := hfine
    rw [resolveTargetOrgId_ofKey hcovered, rlsUnscoped_restored hrestore, lookupOrgId, hcolumn,
      hlookup, if_neg Bool.false_ne_true, if_neg Bool.false_ne_true, Foreign, hcovered]
    cases schema.orgOf store (clearTenantId statements.unscopeFails scope) model pk with
    | none => simp [Target.ofLookup]
    | some orgId =>
      have hcast : ((orgId : ℕ) : ℤ) ≠ (org.pk : ℕ) ↔ orgId ≠ org.pk :=
        not_congr (Int.natCast_inj.trans PNat.coe_injective.eq_iff)
      simpa [Target.ofLookup] using hcast

theorem processView_denied_iff (htenancy : settings.tenancyEnabled = true)
    (hstrict : settings.tenancyStrictIsolationEnabled = true)
    (hpath : shouldExemptIsolation request.path = false)
    (htenant : request.user.bind User.tenant = some org) :
    (processView schema store settings statements request.user request.path (some org)
        (.ofKey model parentModel pk) scope).1.denial.isSome = true ↔
      org.tenantIsolationStrict = true ∧
        (lookupError schema statements model = true ∨
          lookupError schema statements model = false ∧
            Foreign schema store (clearTenantId statements.unscopeFails scope) org model pk) := by
  rw [processView_tenant _ htenancy hpath htenant, judge_denied_iff, hstrict, Bool.and_true]
  apply and_congr_right
  intro _
  cases herror : lookupError schema statements model with
  | true => simp [resolveTargetOrgId_error herror]
  | false => simp [target_foreign_iff herror]

/-- The strict gate decides on the object that the key names exactly when what it sees
agrees with it. -/
theorem decides_on_named_iff (hrequest : StrictTenantRequest settings request tenant)
    (hopened : openScope settings statements request.user scope = some opened) :
    DecidesOnNamed schema store settings statements request tenant model parentModel pk opened ↔
      SeesNamed schema store settings statements request tenant model parentModel pk := by
  obtain ⟨htenantOrg, hscope⟩ := openScope_eq hopened
  rw [DecidesOnNamed, SeesNamed, LookupFailed, hscope, htenantOrg]
  cases hinstalled : installedTenant settings request.user with
  | none =>
    rw [processView_no_tenant]
    simp [Verdict.proceed]
  | some org =>
    obtain ⟨-, htenant⟩ := Option.ite_none_right_eq_some.mp hinstalled
    dsimp only [Option.elim_some]
    rw [processView_denied_iff hrequest.tenancy hrequest.strict hrequest.path htenant]
    cases herror : lookupError schema statements model with
    | true => simp
    | false => simp

/-! ## Detail views -/

/-- With row-level security on, and the scope gone for the lookup, the gate sees the
object that the key of a detail view names. -/
theorem seesNamed_detail (hrequest : StrictTenantRequest settings request tenant)
    (hrls : settings.tenancyRlsEnabled = true)
    (hsession : request.user.bind User.tenant = request.requester.bind User.tenant)
    (hunscoped : statements.unscopeFails = false) :
    SeesNamed schema store settings statements request tenant model none pk := by
  have hinstalled : installedTenant settings request.user = some tenant := by
    rw [installedTenant, hrequest.tenancy, hrls, hsession, hrequest.requester]
    rfl
  have hscope : clearTenantId statements.unscopeFails (some tenant.pk) = none := by
    rw [hunscoped]
    rfl
  rw [SeesNamed, hinstalled]
  dsimp only
  rw [hscope]
  split
  · exact hrequest.tenantStrict
  · exact and_iff_right hrequest.tenantStrict

/-! ## A template of another organization -/

inductive Table where
  | host
  | inventory
  | workflowJobTemplate
  | workflowJob
  deriving DecidableEq, Repr

def tables : Schema Table where
  host := .host
  inventory := .inventory
  hasOrganizationId := fun table => table != .host
  hasOrganization := fun table => table != .host
  policy
    | .host => .indirect false
    | .inventory => .direct false
    | .workflowJobTemplate | .workflowJob => .direct true

def templateOfOther : Store Table
  | .workflowJobTemplate, 7 => some ⟨some 2, none⟩
  | .workflowJob, 7 => some ⟨some 1, none⟩
  | _, _ => none

def strictTenant : Organization := ⟨1, true⟩

def strictSettings (rlsEnabled : Bool) : Settings := ⟨true, rlsEnabled, true⟩

def tenantRequest (path : String) (view : View Table) : Request Table where
  user := some ⟨true, false, [strictTenant]⟩
  tokenUser := none
  basicUser := none
  path := path
  view := some view

def templateDetail : Request Table :=
  tenantRequest "/api/v2/workflow_job_templates/7/" (.ofKey .workflowJobTemplate none 7)

def templateJobsList : Request Table :=
  tenantRequest "/api/v2/workflow_job_templates/7/workflow_jobs/"
    (.ofKey .workflowJob (some .workflowJobTemplate) 7)

theorem strictTenantRequest_detail (rlsEnabled : Bool) :
    StrictTenantRequest (strictSettings rlsEnabled) templateDetail strictTenant :=
  ⟨rfl, rfl, rfl, rfl, by decide⟩

theorem foreign_template :
    Foreign tables templateOfOther none strictTenant .workflowJobTemplate 7 :=
  ⟨rfl, 2, rfl, by decide⟩

theorem decides_on_named_template :
    openScope (strictSettings true) (.fine 5) templateDetail.user none =
        some ⟨some strictTenant, some 1⟩ ∧
      DecidesOnNamed tables templateOfOther (strictSettings true) (.fine 5) templateDetail
        strictTenant .workflowJobTemplate none 7 ⟨some strictTenant, some 1⟩ := by
  have hopened : openScope (strictSettings true) (.fine 5) templateDetail.user none =
      some ⟨some strictTenant, some 1⟩ := rfl
  have hrequest := strictTenantRequest_detail true
  exact ⟨hopened, (decides_on_named_iff hrequest hopened).mpr
    (seesNamed_detail hrequest rfl rfl rfl)⟩

/-- The list of its jobs is shown, since the job with its key is the tenant's own; and
without row-level security the template itself is shown. -/
theorem template_shown :
    (StrictTenantRequest (strictSettings true) templateJobsList strictTenant ∧
      openScope (strictSettings true) (.fine 5) templateJobsList.user none =
        some ⟨some strictTenant, some 1⟩ ∧
      ¬DecidesOnNamed tables templateOfOther (strictSettings true) (.fine 5) templateJobsList
        strictTenant .workflowJob (some .workflowJobTemplate) 7
        ⟨some strictTenant, some 1⟩) ∧
    (StrictTenantRequest (strictSettings false) templateDetail strictTenant ∧
      openScope (strictSettings false) (.fine 5) templateDetail.user none =
        some ⟨none, none⟩ ∧
      ¬DecidesOnNamed tables templateOfOther (strictSettings false) (.fine 5) templateDetail
        strictTenant .workflowJobTemplate none 7 ⟨none, none⟩) := by
  refine ⟨⟨⟨rfl, rfl, rfl, rfl, by decide⟩, rfl, ?_⟩, strictTenantRequest_detail false, rfl, ?_⟩
  · intro hdecides
    exact absurd (hdecides.mpr (.inl foreign_template)) (by decide)
  · intro hdecides
    exact absurd (hdecides.mpr (.inl foreign_template)) (by decide)

end Forail.Isolation
