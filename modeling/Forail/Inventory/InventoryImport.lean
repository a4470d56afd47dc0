import Forail.Core.Batches
import Forail.Core.UniqueRows
import Forail.Core.VertexRemoval
import Forail.Inventory.ImportModels
import Mathlib.Data.List.Sort

/-!
# The import of an inventory

`load_into_database` finds the rows of the imported hosts by their instance ids and their
names, deletes what the source had before when it overwrites, and then creates and updates
groups, hosts, child groups and memberships, one after the other.
-/

namespace Forail.InventoryImport

open Forail.Json Forail.Batches Forail.VertexRemoval

section

variable (env : Surroundings)

def hostsInOrder (hosts : List Host) : List Host :=
  hosts.insertionSort fun left right => env.collation left.name right.name = true

def groupsInOrder (groups : List Group) : List Group :=
  groups.insertionSort fun left right => env.collation left.name right.name = true

end

def sortedNames (names : List String) : List String := names.insertionSort (· ≤ ·)

def sortedKeys (keys : List ℕ) : List ℕ := keys.insertionSort (· ≤ ·)

/-! ## The rows of the imported hosts -/

section

variable (env : Surroundings) (options : Options) (mem : MemInventory) (db : Inventory)

def searchVariable (found : List Host × AList fun _ : String => ℕ) (path : VarPath) :
    List Host × AList fun _ : String => ℕ :=
  let hosts := found.1.filter fun host =>
    host.instanceId = "" && env.mentions host.vars path.first
  (hosts, (hostsInOrder env hosts).foldl
    (fun map host =>
      let instanceId := getInstanceId env options host.vars
      if instanceId = "" then map else map.insert instanceId host.pk) found.2)

def dbInstanceIdMap : AList fun _ : String => ℕ :=
  (options.instanceIdVar.reverse.foldl (searchVariable env options)
    (db.hosts.filter fun host => host.pk ∈ db.sourceHosts, ∅)).2

/-- The imported hosts by the rows whose variables have their instance ids, and by the
other instance ids. -/
def instanceIdMaps : (AList fun _ : ℕ => String) × AList fun _ : String => String :=
  mem.hosts.foldl
    (fun maps host =>
      let instanceId := getInstanceId env options host.vars
      match (dbInstanceIdMap env options db).lookup instanceId with
      | some pk => (maps.1.insert pk host.name, maps.2)
      | none =>
          if instanceId = "" then maps else (maps.1, maps.2.insert instanceId host.name))
    (∅, ∅)

/-- The rows with the imported hosts they are found for: by an instance id in their
variables, by their instance id, and by name. -/
def candidates : List (ℕ × String) :=
  let maps := instanceIdMaps env options mem db
  let byPk := select (hostsInOrder env) Host.pk (sortedKeys maps.1.keys) db.hosts
  let byInstanceId :=
    select (hostsInOrder env) Host.instanceId (sortedNames maps.2.keys) db.hosts
  let byName :=
    select (hostsInOrder env) Host.name (sortedNames (mem.hosts.map MemHost.name)) db.hosts
  byPk.map (fun host => (host.pk, (maps.1.lookup host.pk).getD "")) ++
    byInstanceId.map (fun host => (host.pk, (maps.2.lookup host.instanceId).getD "")) ++
    byName.map fun host => (host.pk, host.name)

/-- A row that is found for an imported host takes the place of an earlier one, but no row
is taken twice. -/
def takeCandidate (found : (AList fun _ : String => ℕ) × List ℕ) (candidate : ℕ × String) :
    (AList fun _ : String => ℕ) × List ℕ :=
  if candidate.1 ∈ found.2 then found
  else (found.1.insert candidate.2 candidate.1, candidate.1 :: found.2)

def pkMemHostMap : List (ℕ × String) :=
  ((candidates env options mem db).foldl takeCandidate (∅, [])).1.entries.map fun entry =>
    (entry.2, entry.1)

end

/-! ## Deletions -/

section

variable (mem : MemInventory) (db : Inventory)

def deleteHosts (found : List (ℕ × String)) : Inventory :=
  let kept : ℕ → Bool := fun pk => pk ∉ db.sourceHosts || pk ∈ found.map Prod.fst
  { db with
    hosts := db.hosts.filter fun host => kept host.pk
    members := db.members.filter fun entry => kept entry.2
    sourceHosts := db.sourceHosts.filter fun pk => kept pk }

/-- The groups of the source that were not imported, in the order of their deletion. -/
def groupsToDelete (env : Surroundings) : List ℕ :=
  let doomed := db.groups.filter fun group =>
    group.pk ∈ db.sourceGroups && group.name ∉ mem.groups.map MemGroup.name
  (select (groupsInOrder env) Group.pk (sortedKeys (doomed.map Group.pk)) db.groups).map Group.pk

def Inventory.graph : MemberGraph ℕ ℕ where
  vertices := (db.groups.map Group.pk).toFinset
  edges := db.children
  members := db.members

def deleteGroups (env : Surroundings) : Inventory :=
  let doomed := groupsToDelete mem db env
  let graph := doomed.foldl MemberGraph.remove db.graph
  { db with
    groups := db.groups.filter fun group => group.pk ∉ doomed
    children := graph.edges
    members := graph.members
    sourceGroups := db.sourceGroups.filter fun pk => pk ∉ doomed }

def sourceGroup (pk : ℕ) : Option MemGroup :=
  (db.groups.find? fun group => group.pk = pk && group.pk ∈ db.sourceGroups).bind fun group =>
    mem.group group.name

def groupName (pk : ℕ) : Option String := (db.groups.find? fun group => group.pk = pk).map Group.name

def childToDelete (edge : ℕ × ℕ) : Bool :=
  (sourceGroup mem db edge.1).any fun group =>
    (groupName db edge.2).any fun child =>
      child ∈ mem.groups.map MemGroup.name && child ∉ group.children

def memInstanceIds (env : Surroundings) (options : Options) (group : MemGroup) : List String :=
  (group.hosts.filterMap mem.host).filterMap fun host =>
    let instanceId := getInstanceId env options host.vars
    if instanceId = "" then none else some instanceId

def memHostNames (env : Surroundings) (options : Options) (group : MemGroup) : List String :=
  (group.hosts.filterMap mem.host).filterMap fun host =>
    if getInstanceId env options host.vars = "" then some host.name else none

/-- A host of the source that is no member in memory, by its name, its instance id or the
instance id in its variables. -/
def memberToDelete (env : Surroundings) (options : Options)
    (ids : AList fun _ : String => ℕ) (entry : ℕ × ℕ) : Bool :=
  (sourceGroup mem db entry.1).any fun group =>
    entry.2 ∈ db.sourceHosts &&
      (db.hosts.find? fun host => host.pk = entry.2).all fun host =>
        host.name ∉ memHostNames mem env options group &&
          host.instanceId ∉ memInstanceIds mem env options group &&
          !(memInstanceIds mem env options group).any fun id => ids.lookup id = some host.pk

def deleteGroupChildrenAndHosts (env : Surroundings) (options : Options)
    (ids : AList fun _ : String => ℕ) : Inventory :=
  { db with
    children := db.children.filter fun edge => !childToDelete mem db edge
    members := db.members.filter fun entry => !memberToDelete mem db env options ids entry }

end

/-! ## Groups and hosts -/

section

variable (env : Surroundings) (options : Options) (mem : MemInventory) (db : Inventory)

def createGroup (db : Inventory) (group : MemGroup) : Option Inventory :=
  (describe env group.vars).map fun description =>
    { db with
      groups := db.groups ++ [createdGroup db.nextGroup group description]
      sourceGroups := insert db.nextGroup db.sourceGroups
      nextGroup := db.nextGroup + 1 }

def groupsToCreate : List MemGroup :=
  (sortedNames (mem.groups.map MemGroup.name)).filterMap fun name =>
    if name ∈ db.groups.map Group.name then none else mem.group name

def updateGroups : Inventory :=
  { db with
    groups := db.groups.map fun group =>
      ((mem.group group.name).map (updateGroup options group)).getD group
    sourceGroups := db.sourceGroups ∪
      ((db.groups.filter fun group => group.name ∈ mem.groups.map MemGroup.name).map
        Group.pk).toFinset }

def createUpdateGroups : Option Inventory :=
  (groupsToCreate mem db).foldlM (createGroup env) (updateGroups options mem db)

/-- The new rows of the hosts that were found, in the order in which they are saved.  A
save changes its own row only, so that the rows of a later batch are fetched as they were. -/
def hostUpdates (found : List (ℕ × String)) : List Host :=
  (select (hostsInOrder env) Host.pk (sortedKeys (found.map Prod.fst)) db.hosts).filterMap
    fun host =>
      ((found.lookup host.pk).bind mem.host).map (updateHost env options host)

def createHost (db : Inventory) (host : MemHost) : Option Inventory :=
  if hasJinja host.name then none
  else
    (describe env (host.vars)).map fun description =>
      match db.hosts.find? fun other => other.name = host.name with
      | some other =>
          { db with
            hosts := UniqueRows.replace Host.pk db.hosts
              (recreatedHost env options other host description)
            sourceHosts := insert other.pk db.sourceHosts }
      | none =>
          { db with
            hosts := db.hosts ++ [createdHost env options db.nextHost host description]
            sourceHosts := insert db.nextHost db.sourceHosts
            nextHost := db.nextHost + 1 }

def hostsToCreate (found : List (ℕ × String)) : List MemHost :=
  (sortedNames (mem.hosts.map MemHost.name)).filterMap fun name =>
    if name ∈ (hostUpdates env options mem db found).map Host.name then none else mem.host name

def createUpdateHosts (found : List (ℕ × String)) : Option Inventory :=
  let updates := hostUpdates env options mem db found
  ((updates.foldlM (UniqueRows.save Host.pk Host.name) db.hosts).map fun hosts =>
    { db with
      hosts := hosts
      sourceHosts := db.sourceHosts ∪ (updates.map Host.pk).toFinset }).bind
    fun db' => (hostsToCreate env options mem db found).foldlM (createHost env options) db'

/-! ## Relations -/

/-- The child groups of one group.  A child that has the group as a child of its own is
taken for a child of the group. -/
def addChildren (db : Inventory) (group : Group) : Inventory :=
  match mem.group group.name with
  | none => db
  | some memGroup =>
      let children := db.groups.filter fun child =>
        child.name ∈ memGroup.children && (child.pk, group.pk) ∉ db.children
      { db with
        children := db.children ∪
          (children.map fun child => (group.pk, child.pk)).toFinset }

def createUpdateGroupChildren : Inventory :=
  let names := (mem.groups.filter fun group => !group.children.isEmpty).map MemGroup.name
  (select (groupsInOrder env) Group.name (sortedNames names) db.groups).foldl (addChildren mem) db

/-- The hosts with a name or an instance id of the group in memory. -/
def hostsOf (group : MemGroup) : List Host :=
  db.hosts.filter fun host =>
    host.name ∈ memHostNames mem env options group ||
      host.instanceId ∈ memInstanceIds mem env options group

def createUpdateGroupHosts : Inventory :=
  let added := db.groups.flatMap fun group =>
    ((mem.group group.name).toList.flatMap (hostsOf env options mem db)).map fun host =>
      (group.pk, host.pk)
  { db with members := db.members ∪ added.toFinset }

def Inventory.dangling : Bool :=
  decide (∃ edge ∈ db.children, edge.2 ∉ db.groups.map Group.pk)

def deletions (found : List (ℕ × String)) : Inventory :=
  if options.overwrite then
    deleteGroupChildrenAndHosts mem (deleteGroups mem (deleteHosts db found) env) env options
      (dbInstanceIdMap env options db)
  else db

/-- `load_into_database`, or `none` when the database refuses a row. -/
def loadIntoDatabase : Option Inventory :=
  let found := pkMemHostMap env options mem db
  (createUpdateGroups env options mem (deletions env options mem db found)).bind fun db =>
    (createUpdateHosts env options mem db found).bind fun db =>
      let db := createUpdateGroupHosts env options mem (createUpdateGroupChildren env mem db)
      if db.dangling then none else some db

end

end Forail.InventoryImport
