import Forail.Migration.LocalObjects

/-!
# The importers of the AWX migration

Each importer of `import_from_awx` reads the list of a resource, gets or creates a local object
for each of its entries, sets what the entry exports, saves, and enters the object in the map
of its kind.  The counters and warnings of the report are left out.
-/

namespace Forail.Migration

open Forail.Json Forail.Tables

/-- The lists of the source, in the order of `RESOURCE_ORDER`. -/
inductive Resource where
  | organizations
  | users
  | teams
  | credentialTypes
  | credentials
  | projects
  | inventories
  | groups
  | hosts
  | inventorySources
  | jobTemplates
  | workflowJobTemplates
  | workflowNodes
  | notificationTemplates
  | schedules
  | roles
deriving DecidableEq

def Resource.kind : Resource → Kind
  | .organizations => .organization
  | .users | .roles => .user
  | .teams => .team
  | .credentialTypes => .credentialType
  | .credentials => .credential
  | .projects => .project
  | .inventories => .inventory
  | .groups => .group
  | .hosts => .host
  | .inventorySources => .inventorySource
  | .jobTemplates => .jobTemplate
  | .workflowJobTemplates => .workflowJobTemplate
  | .workflowNodes => .workflowNode
  | .notificationTemplates => .notificationTemplate
  | .schedules => .schedule

/-- What the source answers: a list is asked for once in a run, a related list by the number of
related lists that were asked for before.  An answer that fails ends the run. -/
structure Client where
  getList : Resource → Except String (List Value)
  getSubList : ℕ → Resource → Value → String → Except String (List Value)

structure Options where
  grantSuperusers : Bool
  trustInjectors : Bool
  dryRun : Bool
  only : Resource → Bool

/-! ## The maps from AWX ids to local objects -/

abbrev Maps := Kind → List (Value × ℕ)

namespace Maps

def get (maps : Maps) (kind : Kind) (id : Value) : Except String (Option ℕ) :=
  if id.hashable then
    .ok (((maps kind).find? fun entry => entry.1.equal id).map fun entry => entry.2)
  else .error "TypeError"

def set (maps : Maps) (kind : Kind) (id : Value) (pk : ℕ) : Except String Maps :=
  if id.hashable then
    .ok (Function.update maps kind
      (if (maps kind).any fun entry => entry.1.equal id then
        (maps kind).map fun entry => if entry.1.equal id then (entry.1, pk) else entry
      else maps kind ++ [(id, pk)]))
  else .error "TypeError"

def mapped (kind : Kind) (maps : Maps) (id : Value) : Except String (Option Ref) := do
  return (← maps.get kind id).map fun pk => ⟨kind, pk⟩

def unifiedJt (maps : Maps) (id : Value) : Except String (Option Ref) :=
  match id with
  | .null => .ok none
  | id => do
      let jobTemplate ← maps.mapped .jobTemplate id
      let workflow ← maps.mapped .workflowJobTemplate id
      let project ← maps.mapped .project id
      let inventorySource ← maps.mapped .inventorySource id
      return jobTemplate.or (workflow.or (project.or inventorySource))

end Maps

/-- The state of a run: the database in the transaction, the maps of `ImportContext` and the
number of related lists that were asked for. -/
structure Context where
  db : Database
  maps : Maps
  subRequests : ℕ

/-! ## What an importer does with an entry -/

structure Assignment where
  field : String
  value : Texts → Options → Bool → Value → Except String (Option Value)

/-- A reference that is set, or set only when the object that it names was imported. -/
structure ReferenceField where
  field : String
  source : String
  resolve : Maps → Value → Except String (Option Ref)
  onlyFound : Bool

/-- A reference that an object is looked up by; without a required one the entry is skipped. -/
structure Parent where
  source : String
  resolve : Maps → Value → Except String (Option Ref)
  required : Bool

structure Attachment where
  sub : String
  target : Kind
  link : ℕ → ℕ → Link

structure Importer where
  resource : Resource
  kind : Kind
  name : Texts → Value → Except String Value
  parents : List Parent
  skips : Value → Bool
  assignments : List Assignment
  references : List ReferenceField
  attachment : Option Attachment

def charField (texts : Texts) : Value → Except String String
  | .null => .error "IntegrityError"
  | value => .ok (texts.text value)

def resolveParents (maps : Maps) (record : Value) :
    List Parent → Except String (Option (List (Option Ref)))
  | [] => .ok (some [])
  | parent :: parents => do
      let ref ← parent.resolve maps (← record.tryGet parent.source)
      if parent.required ∧ ref = none then return none
      return (← resolveParents maps record parents).map fun refs => ref :: refs

/-- The natural key of the object for an entry, or nothing for an entry that is skipped. -/
def Importer.wanted (importer : Importer) (texts : Texts) (maps : Maps) (record : Value) :
    Except String (Option NaturalKey) := do
  match ← resolveParents maps record importer.parents with
  | none => return none
  | some parents =>
      if importer.skips record then return none
      let name ← charField texts (← importer.name texts record)
      return some ⟨some name, parents⟩

def assign (texts : Texts) (options : Options) (created : Bool) (record : Value)
    (object : LocalObject) (assignment : Assignment) : Except String LocalObject := do
  match ← assignment.value texts options created record with
  | some value => return object.set assignment.field value
  | none => return object

def refer (maps : Maps) (record : Value) (object : LocalObject) (reference : ReferenceField) :
    Except String LocalObject := do
  let ref ← reference.resolve maps (← record.tryGet reference.source)
  if reference.onlyFound ∧ ref = none then return object
  return object.setReference reference.field ref

def Importer.assigned (importer : Importer) (texts : Texts) (options : Options) (maps : Maps)
    (created : Bool) (record : Value) (object : LocalObject) : Except String LocalObject := do
  let object ← importer.assignments.foldlM (assign texts options created record) object
  importer.references.foldlM (refer maps record) object

def attachAll (client : Client) (resource : Resource) (id : Value) (sub : String) (target : Kind)
    (link : ℕ → Link) (ctx : Context) : Except String Context := do
  let children ← client.getSubList ctx.subRequests resource id sub
  children.foldlM (fun ctx child => do
    match ← ctx.maps.get target (← child.item "id") with
    | some pk => return { ctx with db := ctx.db.addLink (link pk) }
    | none => return ctx) { ctx with subRequests := ctx.subRequests + 1 }

def Importer.importObject (importer : Importer) (env : Environment) (options : Options)
    (client : Client) (ctx : Context) (record : Value) : Except String Context := do
  match ← importer.wanted env.texts ctx.maps record with
  | none => return ctx
  | some wanted =>
      let (db, pk, created) ← ctx.db.getOrCreate importer.kind wanted
      let object ← load env importer.kind ((db.get? ⟨importer.kind, pk⟩).getD blank)
      let object ← importer.assigned env.texts options ctx.maps created record object
      let db ← db.save env importer.kind pk object
      let id ← record.item "id"
      let maps ← ctx.maps.set importer.kind id pk
      let ctx := { ctx with db, maps }
      match importer.attachment with
      | none => return ctx
      | some attachment =>
          attachAll client importer.resource id attachment.sub attachment.target
            (attachment.link pk) ctx

/-! ## Assignments -/

def varsToText (texts : Texts) : Value → Value
  | .dict entries => .str (texts.dumps (.dict entries))
  | .list items => .str (texts.dumps (.list items))
  | value => value.or (.str "")

def orEmpty (field : String) : Assignment where
  field := field
  value _ _ _ record := do return some ((← record.tryGet field).or (.str ""))

/-- `if record.get(field) is not None: obj.field = record[field]` -/
def exported (field : String) : Assignment where
  field := field
  value _ _ _ record := do
    match ← record.tryGet field with
    | .null => return none
    | value => return some value

def ifTrue (field : String) : Assignment where
  field := field
  value _ _ _ record := do
    let value ← record.tryGet field
    return if value.truthy then some value else none

def varsText (field : String) : Assignment where
  field := field
  value texts _ _ record := do return some (varsToText texts (← record.tryGet field))

def flag (field : String) (default : Bool) : Assignment where
  field := field
  value _ _ _ record := do
    return some (.bool (← record.tryGetOr field (.bool default)).truthy)

def orEmptyDict (field : String) : Assignment where
  field := field
  value _ _ _ record := do return some ((← record.tryGet field).or (.dict []))

def atCreation (field : String) (value : Value → Except String Value) : Assignment where
  field := field
  value _ _ created record := do
    if created then return some (← value record) else return none

/-! ## Parents and references -/

def parent (source : String) (kind : Kind) (required : Bool) : Parent :=
  ⟨source, Maps.mapped kind, required⟩

def reference (field : String) (kind : Kind) : ReferenceField :=
  ⟨field, field, Maps.mapped kind, false⟩

def foundReference (field : String) (kind : Kind) : ReferenceField :=
  ⟨field, field, Maps.mapped kind, true⟩

def itemName (key : String) (_ : Texts) (record : Value) : Except String Value := record.item key

/-! ## The importers -/

def organizations : Importer where
  resource := .organizations
  kind := .organization
  name := itemName "name"
  parents := []
  skips _ := false
  assignments := [orEmpty "description", exported "max_hosts"]
  references := []
  attachment := none

def superuser : Assignment where
  field := "is_superuser"
  value _ options _ record := do
    return if (← record.tryGet "is_superuser").truthy ∧ options.grantSuperusers then
      some (.bool true) else none

def users : Importer where
  resource := .users
  kind := .user
  name := itemName "username"
  parents := []
  skips _ := false
  assignments := [orEmpty "first_name", orEmpty "last_name", orEmpty "email", superuser]
  references := []
  attachment := none

def teams : Importer where
  resource := .teams
  kind := .team
  name := itemName "name"
  parents := [parent "organization" .organization true]
  skips _ := false
  assignments := [orEmpty "description"]
  references := []
  attachment := none

def typeKind : Assignment where
  field := "kind"
  value _ _ _ record := do
    match record with
    | .dict entries => return entries.lookup "kind"
    | _ => throw "AttributeError"

/-- Only an opt-in takes the injectors of the source.  Without it a new type has none and the
others keep theirs. -/
def injectors : Assignment where
  field := "injectors"
  value _ options created record := do
    let source := (← record.tryGet "injectors").or (.dict [])
    if options.trustInjectors then return some source
    else if created then return some (.dict [])
    else return none

def customTypes : Importer where
  resource := .credentialTypes
  kind := .credentialType
  name := itemName "name"
  parents := []
  skips _ := false
  assignments := [atCreation "kind" fun record => record.tryGetOr "kind" (.str "cloud"),
    orEmpty "description", typeKind, orEmptyDict "inputs", injectors]
  references := []
  attachment := none

/-- `_strip_secrets`, without the number of secrets. -/
def stripSecrets (inputs : Value) : Except String (List (String × Value)) :=
  if inputs.truthy then
    match inputs with
    | .dict entries => .ok (entries.filter fun entry => !entry.2.isText placeholder)
    | _ => .error "AttributeError"
  else .ok []

def cleanInputs : Assignment where
  field := "inputs"
  value _ _ _ record := do
    return some (.dict (← stripSecrets (← record.tryGetOr "inputs" (.dict []))))

def credentials : Importer where
  resource := .credentials
  kind := .credential
  name := itemName "name"
  parents := [parent "credential_type" .credentialType true,
    parent "organization" .organization false]
  skips _ := false
  assignments := [orEmpty "description", cleanInputs]
  references := []
  attachment := none

def scmFields : List String :=
  ["scm_type", "scm_url", "scm_branch", "scm_refspec", "scm_clean", "scm_delete_on_update",
    "scm_track_submodules", "scm_update_on_launch", "scm_update_cache_timeout",
    "allow_override", "timeout", "local_path"]

def projects : Importer where
  resource := .projects
  kind := .project
  name := itemName "name"
  parents := [parent "organization" .organization false]
  skips _ := false
  assignments := orEmpty "description" :: scmFields.map exported
  references := [foundReference "credential" .credential]
  attachment := none

def hostFilter : Assignment where
  field := "host_filter"
  value _ _ _ record := do return some ((← record.tryGet "host_filter").or .null)

def inventories : Importer where
  resource := .inventories
  kind := .inventory
  name := itemName "name"
  parents := [parent "organization" .organization true]
  skips _ := false
  assignments := [orEmpty "description", varsText "variables", orEmpty "kind", hostFilter]
  references := []
  attachment := none

def groups : Importer where
  resource := .groups
  kind := .group
  name := itemName "name"
  parents := [parent "inventory" .inventory true]
  skips _ := false
  assignments := [orEmpty "description", varsText "variables"]
  references := []
  attachment := none

def hosts : Importer where
  resource := .hosts
  kind := .host
  name := itemName "name"
  parents := [parent "inventory" .inventory true]
  skips _ := false
  assignments :=
    [orEmpty "description", flag "enabled" true, orEmpty "instance_id", varsText "variables"]
  references := []
  attachment := some ⟨"groups", .group, fun host group => ⟨"hosts", ⟨.group, group⟩, ⟨.host, host⟩⟩⟩

def sourceFields : List String :=
  ["source", "source_path", "source_vars", "scm_branch", "enabled_var", "enabled_value",
    "host_filter", "overwrite", "overwrite_vars", "timeout", "verbosity", "limit"]

def inventorySources : Importer where
  resource := .inventorySources
  kind := .inventorySource
  name := itemName "name"
  parents := [parent "inventory" .inventory true]
  skips _ := false
  assignments :=
    atCreation "source" (fun record => do return (← record.tryGet "source").or (.str "scm")) ::
      orEmpty "description" ::
      (sourceFields.map exported ++ [flag "update_on_launch" false, exported "update_cache_timeout"])
  references := [foundReference "source_project" .project]
  attachment := some ⟨"credentials", .credential, fun source credential =>
    ⟨"credentials", ⟨.inventorySource, source⟩, ⟨.credential, credential⟩⟩⟩

def templateFields : List String :=
  ["playbook", "scm_branch", "forks", "limit", "verbosity", "job_tags", "skip_tags",
    "start_at_task", "become_enabled", "allow_simultaneous", "timeout", "use_fact_cache",
    "survey_enabled", "diff_mode", "job_type", "host_config_key", "job_slice_count",
    "force_handlers"]

def askFields : List String :=
  ["ask_inventory_on_launch", "ask_limit_on_launch", "ask_scm_branch_on_launch",
    "ask_tags_on_launch", "ask_skip_tags_on_launch", "ask_variables_on_launch",
    "ask_diff_mode_on_launch", "ask_job_type_on_launch", "ask_verbosity_on_launch",
    "ask_credential_on_launch", "ask_execution_environment_on_launch"]

def jobTemplates : Importer where
  resource := .jobTemplates
  kind := .jobTemplate
  name := itemName "name"
  parents := []
  skips _ := false
  assignments := orEmpty "description" ::
    ((templateFields ++ askFields).map exported ++ [varsText "extra_vars", ifTrue "survey_spec"])
  references := [reference "inventory" .inventory, reference "project" .project]
  attachment := some ⟨"credentials", .credential, fun template credential =>
    ⟨"credentials", ⟨.jobTemplate, template⟩, ⟨.credential, credential⟩⟩⟩

def workflowFields : List String :=
  ["allow_simultaneous", "survey_enabled", "ask_variables_on_launch", "limit", "scm_branch",
    "job_tags", "skip_tags", "webhook_service"]

def workflowJobTemplates : Importer where
  resource := .workflowJobTemplates
  kind := .workflowJobTemplate
  name := itemName "name"
  parents := [parent "organization" .organization false]
  skips _ := false
  assignments := orEmpty "description" :: varsText "extra_vars" ::
    (workflowFields.map exported ++ [ifTrue "survey_spec"])
  references := [foundReference "inventory" .inventory]
  attachment := none

def nodeIdentifier (texts : Texts) (record : Value) : Except String Value := do
  let identifier ← record.tryGet "identifier"
  if identifier.truthy then return identifier
  return .str (texts.text (← record.item "id"))

def workflowNodes : Importer where
  resource := .workflowNodes
  kind := .workflowNode
  name := nodeIdentifier
  parents := [parent "workflow_job_template" .workflowJobTemplate true]
  skips _ := false
  assignments := [flag "all_parents_must_converge" false, orEmptyDict "extra_data"]
  references := [⟨"unified_job_template", "unified_job_template", Maps.unifiedJt, false⟩,
    foundReference "inventory" .inventory]
  attachment := none

def notificationType : Assignment where
  field := "notification_type"
  value _ _ _ record := do
    return some ((← record.tryGet "notification_type").or (.str "webhook"))

def blankSecrets (configuration : Value) : Except String (List (String × Value)) :=
  if configuration.truthy then
    match configuration with
    | .dict entries => .ok (entries.map fun entry =>
        if entry.2.isText placeholder then (entry.1, .str "") else entry)
    | _ => .error "ValueError"
  else .ok []

def cleanConfiguration : Assignment where
  field := "notification_configuration"
  value _ _ _ record := do
    return some (.dict (← blankSecrets
      (← record.tryGetOr "notification_configuration" (.dict []))))

def notificationTemplates : Importer where
  resource := .notificationTemplates
  kind := .notificationTemplate
  name := itemName "name"
  parents := [parent "organization" .organization true]
  skips _ := false
  assignments := [orEmpty "description", notificationType, cleanConfiguration, ifTrue "messages"]
  references := []
  attachment := none

def rrule : Assignment where
  field := "rrule"
  value _ _ _ record := do return some (← record.item "rrule")

def schedules : Importer where
  resource := .schedules
  kind := .schedule
  name := itemName "name"
  parents := [⟨"unified_job_template", Maps.unifiedJt, true⟩]
  skips record := !(record.get "rrule").truthy
  assignments := [orEmpty "description", rrule, flag "enabled" true, orEmptyDict "extra_data"]
  references := []
  attachment := none

end Forail.Migration
