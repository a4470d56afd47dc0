import Forail.Migration.Importers

/-!
# The command `import_from_awx`

The importers in the order of their dependencies, in one transaction: a dry run and a run in
which anything is raised leave the database as it was.
-/

namespace Forail.Migration

open Forail.Json Forail.Tables

variable (env : Environment) (options : Options) (client : Client)

def Importer.importAll (importer : Importer) (ctx : Context) : Except String Context := do
  let records ← client.getList importer.resource
  records.foldlM (importer.importObject env options client) ctx

/-! ## Credential types -/

def managedTypes (table : Table LocalObject) (name : Value) : List ℕ :=
  match name with
  | .null => []
  | name =>
      (List.range table.nextPk).filter fun pk => (table.get? pk).any fun row =>
        (row.fields "managed").truthy && (row.fields "name").isText (env.texts.text name)

/-- `first()` of rows that are ordered by kind. -/
def firstByKind (table : Table LocalObject) : List ℕ → Option ℕ
  | [] => none
  | pk :: pks =>
      let kindOf (pk : ℕ) := ((table.get? pk).bind fun row => textOf (row.fields "kind")).getD ""
      match firstByKind table pks with
      | some other => if kindOf other < kindOf pk then some other else some pk
      | none => some pk

def importCredentialType (ctx : Context) (record : Value) : Except String Context := do
  if (← record.tryGet "managed").truthy then
    let table := ctx.db.tables .credentialType
    match firstByKind table (managedTypes env table (← record.item "name")) with
    | none => return ctx
    | some pk =>
        let _ ← load env .credentialType ((table.get? pk).getD blank)
        return { ctx with maps := ← ctx.maps.set .credentialType (← record.item "id") pk }
  else customTypes.importObject env options client ctx record

def importCredentialTypes (ctx : Context) : Except String Context := do
  let records ← client.getList .credentialTypes
  records.foldlM (importCredentialType env options client) ctx

/-! ## Importers with a second pass -/

def attachEach (resource : Resource) (kind : Kind) (sub : String) (target : Kind)
    (link : ℕ → ℕ → Link) (ctx : Context) : Except String Context :=
  (ctx.maps kind).foldlM
    (fun ctx entry => attachAll client resource entry.1 sub target (link entry.2) ctx) ctx

def importGroups (ctx : Context) : Except String Context := do
  let ctx ← groups.importAll env options client ctx
  attachEach client .groups .group "children" .group
    (fun group child => ⟨"children", ⟨.group, group⟩, ⟨.group, child⟩⟩) ctx

def edgeFields : List String := ["success_nodes", "failure_nodes", "always_nodes"]

def edgeLink (edge : String) (node child : ℕ) : Link :=
  ⟨edge, ⟨.workflowNode, node⟩, ⟨.workflowNode, child⟩⟩

def importWorkflowNodes (ctx : Context) : Except String Context := do
  let ctx ← workflowNodes.importAll env options client ctx
  (ctx.maps .workflowNode).foldlM (fun ctx entry => edgeFields.foldlM (fun ctx edge =>
    attachAll client .workflowNodes entry.1 edge .workflowNode (edgeLink edge entry.2) ctx) ctx) ctx

def hookTargets : List (Resource × Kind) :=
  [(.jobTemplates, .jobTemplate), (.workflowJobTemplates, .workflowJobTemplate),
    (.projects, .project), (.inventorySources, .inventorySource)]

def hookFields : List String :=
  ["notification_templates_started", "notification_templates_success",
    "notification_templates_error"]

def importNotificationTemplates (ctx : Context) : Except String Context := do
  let ctx ← notificationTemplates.importAll env options client ctx
  hookTargets.foldlM (fun ctx target =>
    (ctx.maps target.2).foldlM (fun ctx entry => hookFields.foldlM (fun ctx hook =>
      attachAll client target.1 entry.1 hook .notificationTemplate (fun template =>
        ⟨hook, ⟨target.2, entry.2⟩, ⟨.notificationTemplate, template⟩⟩) ctx) ctx) ctx) ctx

/-! ## Roles -/

def roleResource (resourceType : Value) : Except String (Option Kind) :=
  if resourceType.hashable then
    .ok ((textOf resourceType).bind fun name =>
      [("organization", Kind.organization), ("team", .team), ("inventory", .inventory),
        ("credential", .credential), ("project", .project), ("job_template", .jobTemplate),
        ("workflow_job_template", .workflowJobTemplate), ("inventory_source", .inventorySource),
        ("notification_template", .notificationTemplate),
        ("credential_type", .credentialType)].lookup name)
  else .error "TypeError"

def systemRole (roleField : Value) : Option String :=
  if roleField.isText "system_administrator" then some "is_superuser"
  else if roleField.isText "system_auditor" then some "is_system_auditor"
  else none

/-- A member of a singleton role, which only an opt-in grants. -/
def grantSystemRole (roleField : Value) (ctx : Context) (member : Value) :
    Except String Context := do
  match ← ctx.maps.get .user (← member.item "id") with
  | none => return ctx
  | some pk =>
      match systemRole roleField with
      | none => return ctx
      | some field =>
          if options.grantSuperusers then
            let user := (ctx.db.get? ⟨.user, pk⟩).getD blank
            return { ctx with db := ← ctx.db.save env .user pk (user.set field (.bool true)) }
          else return ctx

def grantRole (object : Ref) (role : String) (holder : Kind) (ctx : Context) (member : Value) :
    Except String Context := do
  match ← ctx.maps.get holder (← member.item "id") with
  | none => return ctx
  | some pk =>
      let grant : Grant := ⟨object, role, ⟨holder, pk⟩⟩
      if env.accepts grant ∧ grant ∉ ctx.db.grants then
        return { ctx with db := { ctx.db with grants := ctx.db.grants ++ [grant] } }
      else return ctx

def forMembers (id : Value) (sub : String)
    (body : Context → Value → Except String Context) (ctx : Context) : Except String Context := do
  let members ← client.getSubList ctx.subRequests .roles id sub
  members.foldlM body { ctx with subRequests := ctx.subRequests + 1 }

def importRole (ctx : Context) (record : Value) : Except String Context := do
  let roleField ← record.tryGet "role_field"
  let summary := (← record.tryGet "summary_fields").or (.dict [])
  let resourceType ← summary.tryGet "resource_type"
  let resourceId ← summary.tryGet "resource_id"
  match resourceType with
  | .null => forMembers client (← record.item "id") "users" (grantSystemRole env options roleField) ctx
  | resourceType =>
      match ← roleResource resourceType with
      | none => return ctx
      | some kind =>
          match ← ctx.maps.mapped kind resourceId with
          | none => return ctx
          | some object =>
              if !roleField.truthy then return ctx
              match roleField with
              | .str role =>
                  if !env.hasAttribute object role then return ctx
                  let id ← record.item "id"
                  let ctx ← forMembers client id "users" (grantRole env object role .user) ctx
                  forMembers client id "teams" (grantRole env object role .team) ctx
              | _ => throw "TypeError"

def importRoles (ctx : Context) : Except String Context := do
  let records ← client.getList .roles
  records.foldlM (importRole env options client) ctx

/-! ## The run -/

def resourceOrder : List Resource :=
  [.organizations, .users, .teams, .credentialTypes, .credentials, .projects, .inventories,
    .groups, .hosts, .inventorySources, .jobTemplates, .workflowJobTemplates, .workflowNodes,
    .notificationTemplates, .schedules, .roles]

def importResource (resource : Resource) : Context → Except String Context :=
  match resource with
  | .organizations => organizations.importAll env options client
  | .users => users.importAll env options client
  | .teams => teams.importAll env options client
  | .credentialTypes => importCredentialTypes env options client
  | .credentials => credentials.importAll env options client
  | .projects => projects.importAll env options client
  | .inventories => inventories.importAll env options client
  | .groups => importGroups env options client
  | .hosts => hosts.importAll env options client
  | .inventorySources => inventorySources.importAll env options client
  | .jobTemplates => jobTemplates.importAll env options client
  | .workflowJobTemplates => workflowJobTemplates.importAll env options client
  | .workflowNodes => importWorkflowNodes env options client
  | .notificationTemplates => importNotificationTemplates env options client
  | .schedules => schedules.importAll env options client
  | .roles => importRoles env options client

def importResources (resources : List Resource) (ctx : Context) : Except String Context :=
  (resources.filter options.only).foldlM
    (fun ctx resource => importResource env options client resource ctx) ctx

def start (db : Database) : Context := ⟨db, fun _ => [], 0⟩

def runImport (db : Database) : Except String Context :=
  importResources env options client resourceOrder (start db)

def entry (resource : Resource) (db : Database) : Except String Context :=
  importResources env options client (resourceOrder.takeWhile fun other => other ≠ resource)
    (start db)

def handle (db : Database) : Database :=
  match runImport env options client db with
  | .ok ctx => if options.dryRun then db else ctx.db
  | .error _ => db

def exampleEnvironment : Environment where
  texts := ⟨fun _ => "", fun _ => ""⟩
  encrypt _ _ text := "$encrypted$UTF8$AESCBC$" ++ text
  registry namespace' := if namespace' = "ssh" then some (.dict [], .dict []) else none
  hasAttribute _ _ := false
  accepts _ := false
  now := .int 1

def defaultOptions : Options where
  grantSuperusers := false
  trustInjectors := false
  dryRun := false
  only _ := true

end Forail.Migration
