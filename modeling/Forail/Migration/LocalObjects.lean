import Forail.Core.Json
import Forail.Core.Tables
import Mathlib.Logic.Function.Basic

/-!
# Local objects of a migration

The objects that an import from AWX creates and updates, as the attributes that it looks at
and sets, and what the database does with them: rows are got by their natural keys, links are
added to many-to-many relations, and saving encrypts the secrets of credentials and of
notification templates.  What saving derives from other attributes (next runs, local paths,
statuses), passwords and the activity stream are left out.
-/

namespace Forail.Migration

open Forail.Json Forail.Tables

inductive Kind where
  | organization
  | user
  | team
  | credentialType
  | credential
  | project
  | inventory
  | group
  | host
  | inventorySource
  | jobTemplate
  | workflowJobTemplate
  | workflowNode
  | notificationTemplate
  | schedule
deriving DecidableEq

structure Ref where
  kind : Kind
  pk : ℕ
deriving DecidableEq

structure LocalObject where
  fields : String → Value
  references : String → Option Ref

namespace LocalObject

def set (field : String) (value : Value) (object : LocalObject) : LocalObject :=
  { object with fields := Function.update object.fields field value }

def setReference (field : String) (ref : Option Ref) (object : LocalObject) : LocalObject :=
  { object with references := Function.update object.references field ref }

end LocalObject

structure Link where
  relation : String
  source : Ref
  target : Ref
deriving DecidableEq

/-- A role of an object given to a user or a team. -/
structure Grant where
  object : Ref
  role : String
  holder : Ref
deriving DecidableEq

structure Database where
  tables : Kind → Table LocalObject
  links : List Link
  grants : List Grant

/-- What the models rest on: the texts of values, the encryption of a field of the object with
a number, the inputs and injectors of the managed credential types by their namespaces, the
attributes that an object has, the grants that RBAC accepts and the time. -/
structure Environment where
  texts : Texts
  encrypt : ℕ → String → String → String
  registry : String → Option (Value × Value)
  hasAttribute : Ref → String → Bool
  accepts : Grant → Bool
  now : Value

/-! ## Natural keys -/

structure NaturalKey where
  name : Option String
  parents : List (Option Ref)
deriving DecidableEq

def Kind.nameField : Kind → String
  | user => "username"
  | workflowNode => "identifier"
  | _ => "name"

def Kind.parentFields : Kind → List String
  | team | project | inventory | workflowJobTemplate | notificationTemplate => ["organization"]
  | credential => ["credential_type", "organization"]
  | group | host | inventorySource => ["inventory"]
  | workflowNode => ["workflow_job_template"]
  | schedule => ["unified_job_template"]
  | organization | user | credentialType | jobTemplate => []

def textOf : Value → Option String
  | .str text => some text
  | _ => none

def naturalKey (kind : Kind) (object : LocalObject) : NaturalKey where
  name := textOf (object.fields kind.nameField)
  parents := kind.parentFields.map object.references

/-- A new object: nobody's privileges, no inputs, injectors or configuration, and no
references.  The import reads the defaults of no other field. -/
def blank : LocalObject where
  fields field :=
    if field ∈ ["is_superuser", "is_system_auditor", "managed"] then .bool false
    else if field ∈ ["inputs", "injectors", "notification_configuration"] then .dict []
    else .null
  references _ := none

def newObject (kind : Kind) (wanted : NaturalKey) : LocalObject :=
  (kind.parentFields.zip wanted.parents).foldl
    (fun object parent => object.setReference parent.1 parent.2)
    (blank.set kind.nameField ((wanted.name.map Value.str).getD .null))

/-! ## Credential types -/

def loadCredentialType (env : Environment) (object : LocalObject) : Except String LocalObject :=
  if (object.fields "managed").truthy ∧ (object.fields "namespace").truthy then
    match (textOf (object.fields "namespace")).bind env.registry with
    | some (inputs, injectors) => .ok ((object.set "inputs" inputs).set "injectors" injectors)
    | none => .error "KeyError"
  else .ok object

def load (env : Environment) (kind : Kind) (object : LocalObject) : Except String LocalObject :=
  if kind = .credentialType then loadCredentialType env object else .ok object

/-- The ids of the fields of a type for which a flag is set: `CredentialType.secret_fields` and
`CredentialType.askable_fields`. -/
def flaggedFields (flag : String) (inputs : Value) : Except String (List Value) := do
  let fields ← (← inputs.tryGetOr "fields" (.list [])).iter
  fields.foldlM (fun ids field => do
    match ← field.tryGetOr flag (.bool false) with
    | .bool true => return ids ++ [← field.item "id"]
    | _ => return ids) []

/-! ## Saving -/

def placeholder : String := "$encrypted$"

def encryptField (env : Environment) (pk : ℕ) (field : String) (ask : Bool) (value : Value) :
    Option String :=
  match value with
  | .null => none
  | value =>
      let text := env.texts.text value
      if text = "" ∨ placeholder.isPrefixOf text ∨ (ask ∧ text = "ASK") then some text
      else some (env.encrypt pk field text)

/-- `Credential.save`: a secret input that is the placeholder is the stored one, the others are
encrypted, and empty ones are deleted. -/
def saveInputs (env : Environment) (pk : ℕ) (secret askable : List Value)
    (before inputs : List (String × Value)) : List (String × Value) :=
  inputs.filterMap fun (field, value) =>
    if secret.any (·.isText field) then
      let value := if value.isText placeholder then (before.lookup field).getD value else value
      match encryptField env pk field (askable.any (·.isText field)) value with
      | none | some "" => none
      | some text => some (field, .str text)
    else some (field, value)

def entriesOf : Value → Except String (List (String × Value))
  | .dict entries => .ok entries
  | _ => .error "AttributeError"

def saveCredential (env : Environment) (db : Database) (pk : ℕ) (before object : LocalObject) :
    Except String LocalObject := do
  match (object.references "credential_type").bind fun ref => (db.tables ref.kind).get? ref.pk with
  | none => .error "IntegrityError"
  | some row =>
      let type ← load env .credentialType row
      let secret ← flaggedFields "secret" (type.fields "inputs")
      let askable ← flaggedFields "ask_at_runtime" (type.fields "inputs")
      let inputs ← entriesOf (object.fields "inputs")
      let stored ← entriesOf (before.fields "inputs")
      return object.set "inputs" (.dict (saveInputs env pk secret askable stored inputs))

def passwordFields (notificationType : String) : Option (List String) :=
  [("awssns", ["aws_secret_access_key", "aws_session_token"]), ("email", ["password"]),
    ("slack", ["token"]), ("twilio", ["account_token"]), ("pagerduty", ["token"]),
    ("grafana", ["grafana_key"]), ("webhook", ["password"]), ("mattermost", []),
    ("rocketchat", []), ("irc", ["password"])].lookup notificationType

def encryptPassword (env : Environment) (pk : ℕ) (configuration : List (String × Value))
    (field : String) : Except String (List (String × Value)) :=
  match configuration.lookup field with
  | none => .error "KeyError"
  | some (.str text) =>
      if placeholder.isPrefixOf text then .ok configuration
      else
        let encrypted := encryptField env pk "notification_configuration" false (.str text)
        .ok (configuration.map fun entry =>
          if entry.1 = field then (field, (encrypted.map Value.str).getD .null) else entry)
  | some _ => .error "AttributeError"

/-- `NotificationTemplate.save`, without the merging of messages. -/
def saveNotificationTemplate (env : Environment) (pk : ℕ) (object : LocalObject) :
    Except String LocalObject := do
  match (textOf (object.fields "notification_type")).bind passwordFields with
  | none => .error "KeyError"
  | some passwords =>
      let configuration ← entriesOf (object.fields "notification_configuration")
      let configuration ← passwords.foldlM (encryptPassword env pk) configuration
      return object.set "notification_configuration" (.dict configuration)

/-- What `obj.save()` stores.  Users have no time of their last change. -/
def stored (env : Environment) (db : Database) (kind : Kind) (pk : ℕ)
    (before object : LocalObject) : Except String LocalObject := do
  match kind with
  | .user => return object
  | .credential => return (← saveCredential env db pk before object).set "modified" env.now
  | .notificationTemplate =>
      return (← saveNotificationTemplate env pk object).set "modified" env.now
  | _ => return object.set "modified" env.now

namespace Database

def get? (db : Database) (ref : Ref) : Option LocalObject := (db.tables ref.kind).get? ref.pk

def setTable (kind : Kind) (table : Table LocalObject) (db : Database) : Database :=
  { db with tables := Function.update db.tables kind table }

@[simp]
theorem tables_setTable (kind : Kind) (table : Table LocalObject) (db : Database) :
    (db.setTable kind table).tables kind = table := by
  change Function.update db.tables kind table kind = table
  rw [Function.update_self]

theorem tables_setTable_ne {kind other : Kind} (table : Table LocalObject) (db : Database)
    (hne : other ≠ kind) : (db.setTable kind table).tables other = db.tables other := by
  change Function.update db.tables kind table other = db.tables other
  rw [Function.update_of_ne hne]

@[simp]
theorem get?_setTable (kind : Kind) (table : Table LocalObject) (db : Database) (pk : ℕ) :
    (db.setTable kind table).get? ⟨kind, pk⟩ = table.get? pk :=
  congrArg (fun table : Table LocalObject => table.get? pk) (tables_setTable kind table db)

def save (env : Environment) (kind : Kind) (pk : ℕ) (object : LocalObject) (db : Database) :
    Except String Database := do
  let before := (db.get? ⟨kind, pk⟩).getD blank
  return db.setTable kind ((db.tables kind).update pk (← stored env db kind pk before object))

def addLink (link : Link) (db : Database) : Database :=
  if link ∈ db.links then db else { db with links := db.links ++ [link] }

def getOrCreate (kind : Kind) (wanted : NaturalKey) (db : Database) :
    Except String (Database × ℕ × Bool) :=
  match (db.tables kind).getOrCreate (naturalKey kind) wanted (newObject kind wanted) with
  | some (table, pk, created) => .ok (db.setTable kind table, pk, created)
  | none => .error "MultipleObjectsReturned"

end Database

end Forail.Migration
