import Forail.Core.Dictionaries
import Forail.Core.Texts
import Mathlib.Data.Finset.Filter

/-!
# Inventories in memory and in the database

An import reads an inventory into memory, and its hosts and groups become rows of the
database.  A row is created and updated on different ways, which take what they need from
the variables in a different order.
-/

namespace Forail.InventoryImport

open Forail.Json Forail.Texts

structure VarPath where
  first : String
  rest : List String

/-- The options of an import and the kind of its inventory.  `instance_id_var` is given as
several paths, without any when it is not set. -/
structure Options where
  overwrite : Bool
  overwriteVars : Bool
  instanceIdVar : List VarPath
  enabledVar : Option VarPath
  enabledValue : Option Value
  constructed : Bool

/-- What an import uses of its surroundings: the texts of values, `str(value).lower()`,
the search of the database for a text in the stored variables, and the order of names in
the database. -/
structure Surroundings where
  texts : Texts
  lowered : Value → String
  mentions : Vars → String → Bool
  collation : String → String → Bool

/-! ## Rows -/

structure Host where
  pk : ℕ
  name : String
  description : String
  instanceId : String
  enabled : Bool
  vars : Vars

structure Group where
  pk : ℕ
  name : String
  description : String
  vars : Vars

/-- The rows of an inventory, the child groups and the members of its groups, and the
hosts and groups of the inventory source. -/
structure Inventory where
  hosts : List Host
  groups : List Group
  children : Finset (ℕ × ℕ)
  members : Finset (ℕ × ℕ)
  sourceHosts : Finset ℕ
  sourceGroups : Finset ℕ
  nextHost : ℕ
  nextGroup : ℕ

structure Inventory.Keyed (db : Inventory) : Prop where
  hostKeys : (db.hosts.map Host.pk).Nodup
  hostNames : (db.hosts.map Host.name).Nodup
  groupKeys : (db.groups.map Group.pk).Nodup
  groupNames : (db.groups.map Group.name).Nodup
  freshHosts : ∀ host ∈ db.hosts, host.pk < db.nextHost
  freshGroups : ∀ group ∈ db.groups, group.pk < db.nextGroup

/-- What the database keeps: the rows can be told apart, and relations are between rows. -/
structure Inventory.WellFormed (db : Inventory) : Prop extends db.Keyed where
  children : ∀ edge ∈ db.children,
    edge.1 ∈ db.groups.map Group.pk ∧ edge.2 ∈ db.groups.map Group.pk
  members : ∀ entry ∈ db.members,
    entry.1 ∈ db.groups.map Group.pk ∧ entry.2 ∈ db.hosts.map Host.pk
  sourceHosts : ∀ pk ∈ db.sourceHosts, pk ∈ db.hosts.map Host.pk
  sourceGroups : ∀ pk ∈ db.sourceGroups, pk ∈ db.groups.map Group.pk

/-! ## The inventory in memory -/

structure MemHost where
  name : String
  vars : Vars

structure MemGroup where
  name : String
  children : List String
  hosts : List String
  vars : Vars

/-- The hosts and groups that were read, each once, with children and members among
them. -/
structure MemInventory where
  hosts : List MemHost
  groups : List MemGroup
  hostNames : (hosts.map MemHost.name).Nodup
  groupNames : (groups.map MemGroup.name).Nodup
  childrenRead : ∀ group ∈ groups, ∀ child ∈ group.children, child ∈ groups.map MemGroup.name
  hostsRead : ∀ group ∈ groups, ∀ host ∈ group.hosts, host ∈ hosts.map MemHost.name

namespace MemInventory

variable (mem : MemInventory)

def host (name : String) : Option MemHost := mem.hosts.find? fun host => host.name = name

def group (name : String) : Option MemGroup := mem.groups.find? fun group => group.name = name

end MemInventory

/-! ## Variables -/

/-- The value at a path of dictionaries, or `default` where it leads nowhere. -/
def follow (default : Value) : List String → Value → Value
  | [], value => value
  | key :: keys, .dict entries => follow default keys ((entries.lookup key).getD default)
  | _ :: _, _ => default

def instanceIdValue (vars : Vars) (value : Value) : List VarPath → Value
  | [] => value
  | path :: paths =>
      let value := follow (.str "") (path.first :: path.rest) vars.value
      if value.truthy then value else instanceIdValue vars value paths

def getInstanceId (env : Surroundings) (options : Options) (vars : Vars) : String :=
  env.texts.text (instanceIdValue vars (.str "") options.instanceIdVar)

def followSome : List String → Value → Option Value
  | [], value => some value
  | key :: keys, .dict entries => (entries.lookup key).bind (followSome keys)
  | _ :: _, _ => none

def getEnabled (env : Surroundings) (options : Options) (vars : Vars) : Option Bool :=
  match options.enabledVar with
  | none => none
  | some path =>
      (followSome (path.first :: path.rest) vars.value).map fun enabled =>
        match options.enabledValue with
        | some value => decide (env.lowered value = env.lowered enabled)
        | none => enabled.truthy

def remoteVars : List String :=
  ["remote_host_enabled", "remote_host_id", "remote_tower_enabled", "remote_tower_id"]

def withoutRemoteVars (options : Options) (vars : Vars) : Vars :=
  if options.constructed then remoteVars.foldl (fun vars key => vars.erase key) vars
  else vars

def mergedVars (options : Options) (stored imported : Vars) : Vars :=
  let merged := if options.overwriteVars then imported else imported ∪ stored
  if merged.value.equal stored.value then stored else merged

def descriptionVar : String := "_awx_description"

def describe (env : Surroundings) (vars : Vars) : Option String :=
  match vars.lookup descriptionVar with
  | none => some "imported"
  | some .null => none
  | some value => some (env.texts.text value)

/-! ## Hosts -/

def updateHost (env : Surroundings) (options : Options) (host : Host) (mem : MemHost) : Host :=
  let vars := withoutRemoteVars options mem.vars
  { host with
    name := mem.name
    instanceId := getInstanceId env options mem.vars
    enabled := (getEnabled env options vars).getD host.enabled
    vars := mergedVars options host.vars vars }

/-- Whether a text begins with two characters `first`, `mark`, a text without `stop` and then
`stop`, `last`. -/
def jinjaAt (first mark stop last : Char) (text : Text) : Bool :=
  match text with
  | char :: other :: rest =>
      char = first && other = mark &&
        !(rest.takeWhile (· ≠ stop)).isEmpty &&
        [stop, last].isPrefixOf (rest.dropWhile (· ≠ stop))
  | _ => false

def hasJinja (name : String) : Bool :=
  let opening := Char.ofNat 0x7B
  let closing := Char.ofNat 0x7D
  let percent := Char.ofNat 0x25
  name.toList.tails.any fun text =>
    jinjaAt opening opening closing closing text || jinjaAt opening percent percent closing text

def createdHost (env : Surroundings) (options : Options) (pk : ℕ) (mem : MemHost)
    (description : String) : Host :=
  let imported := mem.vars.erase descriptionVar
  { pk := pk
    name := mem.name
    description := description
    instanceId := getInstanceId env options imported
    enabled := (getEnabled env options imported).getD true
    vars := withoutRemoteVars options imported }

def recreatedHost (env : Surroundings) (options : Options) (host : Host) (mem : MemHost)
    (description : String) : Host :=
  let created := createdHost env options host.pk mem description
  { created with
    instanceId := if options.instanceIdVar = [] then host.instanceId else created.instanceId
    enabled := (getEnabled env options (mem.vars.erase descriptionVar)).getD host.enabled }

section

variable (env : Surroundings) (options : Options) (host : Host) (mem : MemHost)
  (description : String)

@[simp]
theorem pk_updateHost : (updateHost env options host mem).pk = host.pk := rfl

@[simp]
theorem name_updateHost : (updateHost env options host mem).name = mem.name := rfl

@[simp]
theorem pk_recreatedHost : (recreatedHost env options host mem description).pk = host.pk := rfl

@[simp]
theorem pk_createdHost (pk : ℕ) : (createdHost env options pk mem description).pk = pk := rfl

end

/-! ## Groups -/

def updateGroup (options : Options) (group : Group) (mem : MemGroup) : Group :=
  { group with vars := mergedVars options group.vars mem.vars }

def createdGroup (pk : ℕ) (mem : MemGroup) (description : String) : Group where
  pk := pk
  name := mem.name
  description := description
  vars := mem.vars.erase descriptionVar

end Forail.InventoryImport
