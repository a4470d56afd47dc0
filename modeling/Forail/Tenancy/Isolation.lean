import Mathlib.Data.Option.Basic
import Mathlib.Data.PNat.Notation
import Mathlib.Data.PNat.Defs

/-!
# Tenant isolation

The middleware has two gates.  The first keeps the organization of the tenant in a
session variable of the database connection, by which row-level security shows and
hides rows.  The second looks at the view that is about to run and denies access to
objects of other organizations.
-/

namespace Forail.Isolation

abbrev OrgId := ℕ+

abbrev Pk := ℕ

/-- `forail.current_tenant_id`; without a value all rows are visible. -/
abbrev Scope := Option OrgId

structure Settings where
  tenancyEnabled : Bool
  tenancyRlsEnabled : Bool
  tenancyStrictIsolationEnabled : Bool
  deriving DecidableEq, Repr

structure Organization where
  pk : OrgId
  tenantIsolationStrict : Bool
  deriving DecidableEq

/-- A user, with the organizations that are tenant roots in the order of the query. -/
structure User where
  isAuthenticated : Bool
  isSuperuser : Bool
  tenantRoots : List Organization
  deriving DecidableEq

def User.tenant (user : User) : Option Organization :=
  if user.isAuthenticated && !user.isSuperuser then user.tenantRoots.head? else none

/-! ## Rows and their policies -/

structure Row where
  organizationId : Option OrgId
  inventoryId : Option Pk
  deriving DecidableEq

/-- The policy of a table.  Where rows without an organization are shared, every
tenant sees them. -/
inductive RlsPolicy where
  | uncovered
  | direct (nullOrgIsGlobal : Bool)
  | indirect (parentNullOrgIsGlobal : Bool)
  deriving DecidableEq, Repr

structure Schema (Model : Type*) where
  host : Model
  inventory : Model
  hasOrganizationId : Model → Bool
  hasOrganization : Model → Bool
  policy : Model → RlsPolicy

abbrev Store (Model : Type*) := Model → Pk → Option Row

variable {Model : Type*}

namespace Schema

variable (schema : Schema Model) (store : Store Model)

def showsOrg (nullOrgIsGlobal : Bool) (tenant : OrgId) (organizationId : Option OrgId) : Bool :=
  organizationId = some tenant || (nullOrgIsGlobal && organizationId.isNone)

def visible (scope : Scope) (model : Model) (row : Row) : Bool :=
  match scope with
  | none => true
  | some tenant =>
      match schema.policy model with
      | .uncovered => true
      | .direct nullOrgIsGlobal => showsOrg nullOrgIsGlobal tenant row.organizationId
      | .indirect parentNullOrgIsGlobal =>
          match row.inventoryId with
          | none => true
          | some inventoryId =>
              (store schema.inventory inventoryId).any fun inventory =>
                showsOrg parentNullOrgIsGlobal tenant inventory.organizationId

def find (scope : Scope) (model : Model) (pk : Pk) : Option Row :=
  (store model pk).filter (schema.visible store scope model)

def isDirect (model : Model) : Bool := schema.hasOrganizationId model || schema.hasOrganization model

def isHost [DecidableEq Model] (model : Model) : Bool := model = schema.host

def isCovered [DecidableEq Model] (model : Model) : Bool :=
  schema.isDirect model || schema.isHost model

def orgOf (scope : Scope) (model : Model) (pk : Pk) : Option OrgId :=
  if schema.isDirect model then (schema.find store scope model pk).bind Row.organizationId
  else do
    let host ← schema.find store scope schema.host pk
    let inventoryId ← host.inventoryId
    let inventory ← schema.find store scope schema.inventory inventoryId
    inventory.organizationId

/-- The column of a model that only has an `organization` is missing, as with a
many-to-many field. -/
def lacksColumn (model : Model) : Bool := schema.isDirect model && !schema.hasOrganizationId model

end Schema

/-! ## Statements that fail -/

inductive DbError where
  | statementFailed
  | fieldError
  deriving DecidableEq, Repr

/-- Which statements of a request fail, and the event that is created when one is to
be. -/
structure Statements where
  tenantLookupFails : Bool
  setFails : Bool
  unscopeFails : Bool
  lookupFails : Bool
  restoreFails : Bool
  clearFails : Bool
  newEvent : Option Pk
  deriving DecidableEq, Repr

def Statements.fine (newEvent : Pk) : Statements where
  tenantLookupFails := false
  setFails := false
  unscopeFails := false
  lookupFails := false
  restoreFails := false
  clearFails := false
  newEvent := some newEvent

def setTenantId (fails : Bool) (orgId : OrgId) : Except DbError Scope :=
  if fails then .error .statementFailed else .ok (some orgId)

def clearTenantId (fails : Bool) (scope : Scope) : Scope := if fails then scope else none

/-- `_rls_unscoped` around a lookup.  An error of the restoring statement replaces the
result of the lookup. -/
def rlsUnscoped {Result : Type*} (statements : Statements) (restoreOrgId : Option OrgId)
    (scope : Scope) (lookup : Scope → Except DbError Result) : Except DbError Result × Scope :=
  let unscoped := clearTenantId statements.unscopeFails scope
  match restoreOrgId with
  | none => (lookup unscoped, unscoped)
  | some orgId =>
      match setTenantId statements.restoreFails orgId with
      | .error error => (.error error, unscoped)
      | .ok restored => (lookup unscoped, restored)

/-! ## The strict gate -/

def isolationExemptPathPrefixes : List String :=
  ["/api/v2/config/", "/api/v2/ping/", "/api/v2/me/", "/api/v2/auth/", "/api/v2/tokens/",
    "/api/v2/branding/", "/api/v2/tenants/", "/api/v2/tenant_quota_events/",
    "/api/v2/tenant_isolation_events/", "/api/login/", "/sso/"]

def shouldExemptIsolation (path : String) : Bool :=
  path.toList.isEmpty ||
    isolationExemptPathPrefixes.any fun exempt => exempt.toList.isPrefixOf path.toList

def makeIsolationDecision (userOrgStrict globalStrictEnabled isCrossTenant : Bool) : Bool × Bool :=
  if !isCrossTenant then (false, false)
  else (userOrgStrict && globalStrictEnabled, true)

structure ViewClass (Model : Type*) where
  model : Option Model
  parentModel : Option Model

/-- The arguments that a view takes from its URL; of `organization` the value of
`int()`, where `none` stands for its error. -/
structure Kwargs where
  organization : Option (Option ℤ)
  pk : Option Pk

structure View (Model : Type*) where
  viewClass : Option (ViewClass Model)
  kwargs : Kwargs

inductive Target where
  | notCovered
  | unresolved
  | organization (id : ℤ)
  deriving DecidableEq, Repr

def Target.ofLookup : Except DbError (Option OrgId) → Target
  | .error _ => .unresolved
  | .ok none => .notCovered
  | .ok (some orgId) => .organization orgId

section Gate

variable [DecidableEq Model] (schema : Schema Model) (store : Store Model)
  (settings : Settings) (statements : Statements)

def lookupOrgId (model : Model) (pk : Pk) (scope : Scope) : Except DbError (Option OrgId) :=
  if schema.lacksColumn model then .error .fieldError
  else if statements.lookupFails then .error .statementFailed
  else .ok (schema.orgOf store scope model pk)

def resolveTargetOrgId (tenantOrg : Option Organization) (view : View Model) (scope : Scope) :
    Target × Scope :=
  match view.kwargs.organization with
  | some (some id) => (.organization id, scope)
  | _ =>
      match view.kwargs.pk, view.viewClass.bind ViewClass.model with
      | some pk, some model =>
          if schema.isCovered model then
            let found := rlsUnscoped statements (tenantOrg.map Organization.pk) scope
              (lookupOrgId schema store statements model pk)
            (.ofLookup found.1, found.2)
          else (.notCovered, scope)
      | _, _ => (.notCovered, scope)

structure TenantIsolationEvent where
  userOrganization : OrgId
  accessedOrganization : Option ℤ
  requestPath : String
  blocked : Bool
  deriving DecidableEq

/-- The response of a denied request names the event, unless creating it has failed. -/
structure Denial where
  isolationEventId : Option Pk
  deriving DecidableEq, Repr

/-- What `process_view` answers; `none` lets the view run. -/
structure Verdict where
  denial : Option Denial
  event : Option TenantIsolationEvent
  deriving DecidableEq

def Verdict.proceed : Verdict := ⟨none, none⟩

def emitIsolationEvent (path : String) (userOrg : Organization) (targetOrgId : Option ℤ)
    (blocked : Bool) : Option TenantIsolationEvent :=
  statements.newEvent.map fun _ =>
    { userOrganization := userOrg.pk
      accessedOrganization := targetOrgId
      requestPath := String.ofList (path.toList.take 1024)
      blocked := blocked }

def judge (path : String) (tenantOrg : Organization) (target : Target) : Verdict :=
  match target with
  | .unresolved =>
      if tenantOrg.tenantIsolationStrict && settings.tenancyStrictIsolationEnabled then
        ⟨some ⟨statements.newEvent⟩, emitIsolationEvent statements path tenantOrg none true⟩
      else .proceed
  | .notCovered => .proceed
  | .organization id =>
      let decision := makeIsolationDecision tenantOrg.tenantIsolationStrict
        settings.tenancyStrictIsolationEnabled (id != tenantOrg.pk)
      ⟨if decision.1 then some ⟨statements.newEvent⟩ else none,
        if decision.2 then
          emitIsolationEvent statements path tenantOrg (some id) decision.1
        else none⟩

/-- A request.  The middleware reads the user of the session; the view authenticates
tokens before the session, and the password of the request after it. -/
structure Request (Model : Type*) where
  user : Option User
  tokenUser : Option User
  basicUser : Option User
  path : String
  view : Option (View Model)

def Request.requester (request : Request Model) : Option User :=
  (request.tokenUser.or (request.user.filter User.isAuthenticated)).or request.basicUser

def processView (user : Option User) (path : String) (tenantOrg : Option Organization)
    (view : View Model) (scope : Scope) : Verdict × Scope :=
  if !settings.tenancyEnabled then (.proceed, scope)
  else
    match user with
    | none => (.proceed, scope)
    | some user =>
        if !user.isAuthenticated || user.isSuperuser || shouldExemptIsolation path then
          (.proceed, scope)
        else
          match tenantOrg with
          | none => (.proceed, scope)
          | some org =>
              let resolved := resolveTargetOrgId schema store statements tenantOrg view scope
              (judge settings statements path org resolved.1, resolved.2)

/-! ## The gate of row-level security -/

def resolveTenantOrg (user : Option User) : Except DbError (Option Organization) :=
  if !settings.tenancyEnabled || !settings.tenancyRlsEnabled then .ok none
  else
    match user with
    | none => .ok none
    | some user =>
        if !user.isAuthenticated || user.isSuperuser then .ok none
        else if statements.tenantLookupFails then .error .statementFailed
        else .ok user.tenantRoots.head?

/-- What `__call__` hands on: the organization that it keeps on the request, and the
scope of the connection. -/
structure Opened where
  tenantOrg : Option Organization
  scope : Scope
  deriving DecidableEq

/-- The part of `__call__` before the view; `none` is the response with status 500. -/
def openScope (user : Option User) (scope : Scope) : Option Opened :=
  match resolveTenantOrg settings statements user with
  | .error _ =>
      if settings.tenancyEnabled && settings.tenancyRlsEnabled then none else some ⟨none, scope⟩
  | .ok none => some ⟨none, scope⟩
  | .ok (some org) =>
      match setTenantId statements.setFails org.pk with
      | .error _ => none
      | .ok installed => some ⟨some org, installed⟩

def closeScope (tenantOrg : Option Organization) (scope : Scope) : Scope :=
  match tenantOrg with
  | none => scope
  | some _ => clearTenantId statements.clearFails scope

inductive Response where
  | notEstablished
  | denied (denial : Denial)
  | view
  | other
  deriving DecidableEq, Repr

def Response.isError : Response → Bool
  | .notEstablished | .denied _ => true
  | .view | .other => false

/-- How a request was served: the scope in which its view ran, when it ran, and the
scope that is left on the connection. -/
structure Served where
  response : Response
  event : Option TenantIsolationEvent
  viewScope : Option Scope
  scope : Scope

def call (request : Request Model) (scope : Scope) : Served :=
  match openScope settings statements request.user scope with
  | none => ⟨.notEstablished, none, none, scope⟩
  | some opened =>
      match request.view with
      | none => ⟨.other, none, none, closeScope statements opened.tenantOrg opened.scope⟩
      | some view =>
          let checked := processView schema store settings statements request.user request.path
            opened.tenantOrg view opened.scope
          let closed := closeScope statements opened.tenantOrg checked.2
          match checked.1.denial with
          | some denial => ⟨.denied denial, checked.1.event, none, closed⟩
          | none => ⟨.view, checked.1.event, some checked.2, closed⟩

end Gate

/-! ## What the gates do -/

def installedTenant (settings : Settings) (user : Option User) : Option Organization :=
  if settings.tenancyEnabled && settings.tenancyRlsEnabled then user.bind User.tenant else none

section Gates

variable {schema : Schema Model} {store : Store Model} {settings : Settings}
  {statements : Statements} {scope : Scope} {user : Option User} {org : Organization}
  {orgId : OrgId} {opened : Opened} {path : String}

theorem rlsUnscoped_not_restored {Result : Type*} {lookup : Scope → Except DbError Result}
    (hfails : statements.restoreFails = true) :
    rlsUnscoped statements (some orgId) scope lookup =
      (.error .statementFailed, clearTenantId statements.unscopeFails scope) := by
  rw [rlsUnscoped, setTenantId, if_pos hfails]

theorem rlsUnscoped_restored {Result : Type*} {lookup : Scope → Except DbError Result}
    (hrestored : statements.restoreFails = false) :
    rlsUnscoped statements (some orgId) scope lookup =
      (lookup (clearTenantId statements.unscopeFails scope), some orgId) := by
  rw [rlsUnscoped, setTenantId, if_neg (Bool.eq_false_iff.mp hrestored)]

theorem User.tenant_of_passed {user : User}
    (hpassed : (!user.isAuthenticated || user.isSuperuser) = true) : user.tenant = none := by
  apply if_neg
  rw [Bool.not_eq_true, Bool.and_eq_false_iff]
  simpa using hpassed

theorem User.tenant_of_checked {user : User}
    (hchecked : (!user.isAuthenticated || user.isSuperuser) = false) :
    user.tenant = user.tenantRoots.head? := by
  apply if_pos
  simpa using hchecked

theorem User.checked_of_tenant {user : User} (htenant : user.tenant = some org) :
    (!user.isAuthenticated || user.isSuperuser) = false := by
  apply Bool.eq_false_iff.mpr
  intro hpassed
  exact absurd (htenant.symm.trans (User.tenant_of_passed hpassed)) (Option.some_ne_none org)

/-- The lookup of the tenant finds the organization of the user, or it fails while both
features are on. -/
theorem resolveTenantOrg_cases (settings : Settings) (statements : Statements)
    (user : Option User) :
    resolveTenantOrg settings statements user = .ok (installedTenant settings user) ∨
      (settings.tenancyEnabled && settings.tenancyRlsEnabled) = true ∧
        resolveTenantOrg settings statements user = .error .statementFailed := by
  rw [resolveTenantOrg.eq_def, installedTenant, ← Bool.not_and]
  cases henabled : settings.tenancyEnabled && settings.tenancyRlsEnabled with
  | false => exact .inl rfl
  | true =>
    cases user with
    | none => exact .inl rfl
    | some user =>
      rw [Bool.not_true, if_neg Bool.false_ne_true, if_pos rfl, Option.bind_some]
      dsimp only
      cases hpassed : !user.isAuthenticated || user.isSuperuser with
      | true =>
        rw [if_pos rfl, User.tenant_of_passed hpassed]
        exact .inl rfl
      | false =>
        rw [if_neg Bool.false_ne_true, User.tenant_of_checked hpassed]
        cases statements.tenantLookupFails with
        | true => exact .inr ⟨rfl, rfl⟩
        | false => exact .inl rfl

theorem openScope_eq (hopened : openScope settings statements user scope = some opened) :
    opened.tenantOrg = installedTenant settings user ∧
      opened.scope = opened.tenantOrg.elim scope fun org => some org.pk := by
  rw [openScope] at hopened
  obtain hresolved | ⟨henabled, hresolved⟩ := resolveTenantOrg_cases settings statements user
  · rw [hresolved] at hopened
    cases htenant : installedTenant settings user with
    | none =>
      rw [htenant] at hopened
      obtain rfl := Option.some.inj hopened
      exact ⟨rfl, rfl⟩
    | some org =>
      simp only [htenant, setTenantId] at hopened
      cases hfails : statements.setFails with
      | true => simp [hfails] at hopened
      | false =>
        rw [hfails] at hopened
        obtain rfl := Option.some.inj hopened
        exact ⟨rfl, rfl⟩
  · simp [hresolved, henabled] at hopened

theorem processView_no_tenant [DecidableEq Model] (view : View Model) :
    processView schema store settings statements user path none view scope =
      (.proceed, scope) := by
  rw [processView.eq_def]
  cases user <;> simp

theorem processView_tenant [DecidableEq Model] (view : View Model)
    (htenancy : settings.tenancyEnabled = true) (hpath : shouldExemptIsolation path = false)
    (htenant : user.bind User.tenant = some org) :
    processView schema store settings statements user path (some org) view scope =
      (judge settings statements path org
        (resolveTargetOrgId schema store statements (some org) view scope).1,
        (resolveTargetOrgId schema store statements (some org) view scope).2) := by
  obtain ⟨user, rfl, htenant⟩ := Option.bind_eq_some_iff.mp htenant
  rw [processView.eq_def, htenancy, Bool.not_true, if_neg Bool.false_ne_true]
  dsimp only
  rw [User.checked_of_tenant htenant, hpath, Bool.or_self, if_neg Bool.false_ne_true]

theorem judge_denied_iff {target : Target} :
    (judge settings statements path org target).denial.isSome = true ↔
      (org.tenantIsolationStrict && settings.tenancyStrictIsolationEnabled) = true ∧
        (target = .unresolved ∨ ∃ id, target = .organization id ∧ id ≠ org.pk) := by
  cases target with
  | notCovered => simp [judge, Verdict.proceed]
  | unresolved =>
    rw [judge]
    split
    · next henforced => simp [henforced]
    · next hlenient => simp [hlenient, Verdict.proceed]
  | organization id =>
    rw [judge, makeIsolationDecision]
    by_cases hforeign : id = org.pk
    · simp [hforeign]
    · have hcross : (id != (org.pk : ℤ)) = true := bne_iff_ne.mpr hforeign
      simp [hcross, hforeign, Option.isSome_iff_ne_none]

end Gates

end Forail.Isolation
