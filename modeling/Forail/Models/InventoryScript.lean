import Forail.Core.Dictionaries
import Forail.Core.Grouping
import Forail.Models.SlicedHosts

/-!
# The inventory script

The groups, their children and their hosts come from separate queries and are joined
in memory.  Groups with nothing to show are left out of the data, but stay children of
the group `all`.
-/

namespace Forail.InventoryScript

open Forail.FactCache Forail.Grouping Forail.Json Forail.SlicedHosts

abbrev HostRow := Host String

abbrev GroupRow := FactCache.Group String

structure Tables extends Database String where
  groupParents : List (GroupId × GroupId)
  inventoryVariables : InventoryId → Vars
  groupVariables : GroupId → Vars
  hostVariables : HostId → Vars
  group_id_unique : (groups.map Group.id).Nodup
  group_name_unique : (groups.map fun group => (group.inventoryId, group.name)).Nodup

structure StoredInventory (tables : Tables) extends Inventory String where
  smart_without_groups : ∀ hostFilter, kind = .smart hostFilter →
    ∀ group ∈ tables.groups, group.inventoryId ≠ id

structure Options where
  hostvars : Bool
  towervars : Bool
  showAll : Bool
  sliceNumber : ℕ
  sliceCount : ℕ

structure Info where
  hosts : Option (List String)
  children : Option (List String)
  vars : Option Vars
  hostvars : Option (Dict String Vars)

def Info.none : Info := ⟨.none, .none, .none, .none⟩

def Info.isEmpty (info : Info) : Bool :=
  info.hosts.isNone && info.children.isNone && info.vars.isNone && info.hostvars.isNone

def nonEmpty (vars : Vars) : Option Vars := if vars.entries.isEmpty then none else some vars

section Script

variable (tables : Tables) (inventory : Inventory String) (options : Options)

def queriedHosts : List (HostRow) :=
  match inventory.kind with
  | .smart (some hostFilter) =>
      distinctName (orderByName (tables.hosts.filter fun host =>
        hostFilter host && (options.showAll || host.enabled)))
  | _ =>
      orderByName (tables.hosts.filter fun host =>
        decide (host.inventoryId = inventory.id) && (options.showAll || host.enabled))

def slicedHosts : List (HostRow) :=
  getSlicedHosts (queriedHosts tables inventory options) options.sliceNumber options.sliceCount

def allHostnames : List String := (slicedHosts tables inventory options).map Host.name

def ownGroups : List (GroupRow) :=
  tables.groups.filter fun group => group.inventoryId = inventory.id

def groupParentsRows : List (GroupId × String) :=
  tables.groupParents.flatMap fun row =>
    ((ownGroups tables inventory).filter fun group => group.id = row.1).flatMap fun child =>
      ((ownGroups tables inventory).filter fun group => group.id = row.2).map fun parent =>
        (parent.id, child.name)

def groupHostsRows : List (GroupId × String) :=
  inventory.groupHostsMap tables.toDatabase (allHostnames tables inventory options)

def groupInfo (group : GroupRow) : Info where
  hosts := (collect (groupHostsRows tables inventory options)).lookup group.id
  children := (collect (groupParentsRows tables inventory)).lookup group.id
  vars := nonEmpty (tables.groupVariables group.id)
  hostvars := none

def groupEntry (group : GroupRow) : Option Info :=
  let info := groupInfo tables inventory options group
  if info.isEmpty then none else some info

def allGroup : Info :=
  match inventory.kind with
  | .smart _ =>
      { hosts := some (allHostnames tables inventory options)
        children := none
        vars := nonEmpty (tables.inventoryVariables inventory.id)
        hostvars := none }
  | _ =>
      let groupedHosts := (groupHostsRows tables inventory options).map Prod.snd
      let groups := ownGroups tables inventory
      { hosts := some ((allHostnames tables inventory options).filter fun name =>
          name ∉ groupedHosts)
        children := if groups.isEmpty then none else some (groups.map Group.name)
        vars := nonEmpty (tables.inventoryVariables inventory.id)
        hostvars := none }

def groupsData : Dict String Info :=
  let data : Dict String Info := AList.singleton "all" (allGroup tables inventory options)
  match inventory.kind with
  | .smart _ => data
  | _ => assignAll Group.name (groupEntry tables inventory options) (ownGroups tables inventory) data

def towerDict (host : HostRow) : Vars :=
  ["host", "tower"].foldl (fun vars pre =>
    (vars.insert ("remote_" ++ pre ++ "_enabled")
      (.str (if host.enabled then "true" else "false"))).insert
        ("remote_" ++ pre ++ "_id") (.int host.id)) ∅

def hostVars (host : HostRow) : Vars :=
  if options.towervars then towerDict host ∪ tables.hostVariables host.id
  else tables.hostVariables host.id

def allHostVars : Dict String Vars :=
  assignAll Host.name (fun host => some (hostVars tables options host))
    (slicedHosts tables inventory options) ∅

def getScriptData : Dict String Info :=
  let data := groupsData tables inventory options
  if options.hostvars then
    data.insert "_meta"
      { (data.lookup "_meta").getD Info.none with
        hostvars := some (allHostVars tables inventory options) }
  else data

end Script

def hostsOf (data : Dict String Info) (key : String) : List String :=
  ((data.lookup key).bind Info.hosts).getD []

def childrenOf (data : Dict String Info) (key : String) : List String :=
  ((data.lookup key).bind Info.children).getD []

def metaHostvars (data : Dict String Info) : Option (Dict String Vars) :=
  (data.lookup "_meta").bind Info.hostvars

/-- The script shows the hosts of the slice and its groups, and nothing else. -/
structure Complete (tables : Tables) (inventory : Inventory String) (options : Options) : Prop where
  enabled : ∀ host ∈ slicedHosts tables inventory options,
    host ∈ tables.hosts ∧ (options.showAll = true ∨ host.enabled = true)
  shown : ∀ host ∈ slicedHosts tables inventory options,
    host.name ∈ hostsOf (getScriptData tables inventory options) "all" ∨
      ∃ group ∈ ownGroups tables inventory,
        host.name ∈ hostsOf (getScriptData tables inventory options) group.name
  ungrouped : ∀ host ∈ slicedHosts tables inventory options,
    host.name ∈ hostsOf (getScriptData tables inventory options) "all" ↔
      ∀ group ∈ ownGroups tables inventory, (group.id, host.id) ∉ tables.groupHosts
  only_slice : ∀ key, ∀ name ∈ hostsOf (getScriptData tables inventory options) key,
    name ∈ allHostnames tables inventory options
  children : ∀ name, name ∈ childrenOf (getScriptData tables inventory options) "all" ↔
    ∃ group ∈ ownGroups tables inventory, group.name = name
  hostvars : options.hostvars = true →
    ∃ hostvars, metaHostvars (getScriptData tables inventory options) = some hostvars ∧
      (∀ name, name ∈ hostvars ↔ name ∈ allHostnames tables inventory options) ∧
      ∀ host ∈ slicedHosts tables inventory options,
        hostvars.lookup host.name = some (hostVars tables options host)
  no_hostvars : options.hostvars = false →
    metaHostvars (getScriptData tables inventory options) = none

/-! ## The queries -/

variable {tables : Tables} {inventory : Inventory String} {options : Options}

theorem mem_ownGroups {group : GroupRow} :
    group ∈ ownGroups tables inventory ↔
      group ∈ tables.groups ∧ group.inventoryId = inventory.id := by
  rw [ownGroups, List.mem_filter, decide_eq_true_eq]

theorem mem_queriedHosts {host : HostRow}
    (hkind : ∀ hostFilter, inventory.kind ≠ .smart (some hostFilter)) :
    host ∈ queriedHosts tables inventory options ↔
      host ∈ tables.hosts ∧ host.inventoryId = inventory.id ∧
        (options.showAll = true ∨ host.enabled = true) := by
  rw [queriedHosts]
  split
  · next hostFilter hsmart => exact absurd hsmart (hkind hostFilter)
  · rw [orderByName, List.mem_insertionSort, List.mem_filter, Bool.and_eq_true, decide_eq_true_eq,
      Bool.or_eq_true]

theorem enabled_queriedHosts {host : HostRow}
    (hhost : host ∈ queriedHosts tables inventory options) :
    host ∈ tables.hosts ∧ (options.showAll = true ∨ host.enabled = true) := by
  rw [queriedHosts] at hhost
  split at hhost
  · have hmem := (List.destutter_sublist _ _).mem hhost
    rw [orderByName, List.mem_insertionSort, List.mem_filter, Bool.and_eq_true,
      Bool.or_eq_true] at hmem
    exact ⟨hmem.1, hmem.2.2⟩
  · rw [orderByName, List.mem_insertionSort, List.mem_filter, Bool.and_eq_true,
      Bool.or_eq_true] at hhost
    exact ⟨hhost.1, hhost.2.2⟩

/-- The hosts of a query have different names, also when they are rows of several
inventories. -/
theorem pairwise_queriedHosts :
    (queriedHosts tables inventory options).Pairwise fun host other => host.name < other.name := by
  rw [queriedHosts]
  split
  · have hsorted : ∀ rows : List HostRow, (distinctName (orderByName rows)).Pairwise
        fun host other => host.name ≤ other.name := fun rows =>
      (List.pairwise_insertionSort _ rows).sublist (List.destutter_sublist _ _)
    have hchain : ∀ rows : List HostRow, (distinctName (orderByName rows)).IsChain
        fun host other => host.name ≠ other.name := fun rows => List.isChain_destutter _ _
    have htrans : IsTrans HostRow fun host other => host.name < other.name :=
      ⟨fun _ _ _ => lt_trans⟩
    refine List.isChain_iff_pairwise.mp
      (List.isChain_iff_forall_rel_of_append_cons_cons.mpr fun host other before after hsplit => ?_)
    have hle := List.isChain_iff_forall_rel_of_append_cons_cons.mp (hsorted _).isChain hsplit
    have hne := List.isChain_iff_forall_rel_of_append_cons_cons.mp (hchain _) hsplit
    exact lt_of_le_of_ne hle hne
  · refine pairwise_orderByName
      ((pairwise_name_rows tables.toDatabase inventory.id).sublist ?_)
    exact List.monotone_filter_right _ fun host hhost => (Bool.and_eq_true_iff.mp hhost).1

theorem mem_queriedHosts_of_sliced {host : HostRow}
    (hhost : host ∈ slicedHosts tables inventory options) :
    host ∈ queriedHosts tables inventory options :=
  (getSlicedHosts_sublist _ _ _).mem hhost

theorem mem_allHostnames {name : String} :
    name ∈ allHostnames tables inventory options ↔
      ∃ host ∈ slicedHosts tables inventory options, host.name = name := List.mem_map

theorem mem_groupHostsRows {group : GroupRow} (hgroup : group ∈ ownGroups tables inventory)
    {name : String} :
    (group.id, name) ∈ groupHostsRows tables inventory options ↔
      name ∈ allHostnames tables inventory options ∧
        ∃ host ∈ tables.hosts, host.inventoryId = inventory.id ∧ host.name = name ∧
          (group.id, host.id) ∈ tables.groupHosts := by
  obtain ⟨hmem, hinventory⟩ := mem_ownGroups.mp hgroup
  constructor
  · intro hrow
    obtain ⟨row, hrow, hrest⟩ := List.mem_flatMap.mp hrow
    obtain ⟨_, -, hrest⟩ := List.mem_flatMap.mp hrest
    obtain ⟨host, hhost, hentry⟩ := List.mem_map.mp hrest
    obtain ⟨hhost, hof⟩ := List.mem_filter.mp hhost
    obtain ⟨hid, hinventory, hname⟩ := of_decide_eq_true hof
    obtain ⟨hgroupId, rfl⟩ := Prod.mk.inj hentry
    refine ⟨hname, host, hhost, hinventory, rfl, ?_⟩
    rwa [← hgroupId, hid]
  · intro hname
    obtain ⟨hname, host, hhost, hof, rfl, hrow⟩ := hname
    refine List.mem_flatMap.mpr ⟨(group.id, host.id), hrow, List.mem_flatMap.mpr ⟨group, ?_, ?_⟩⟩
    · exact List.mem_filter.mpr ⟨hmem, decide_eq_true ⟨rfl, hinventory⟩⟩
    · exact List.mem_map.mpr
        ⟨host, List.mem_filter.mpr ⟨hhost, decide_eq_true ⟨rfl, hof, hname⟩⟩, rfl⟩

/-- A name of the slice is in no group of rows unless it was collected for a group of the
inventory. -/
theorem exists_group_of_row {name : String}
    (hname : name ∈ (groupHostsRows tables inventory options).map Prod.snd) :
    ∃ group ∈ ownGroups tables inventory,
      (group.id, name) ∈ groupHostsRows tables inventory options := by
  obtain ⟨row, hrow, rfl⟩ := List.mem_map.mp hname
  obtain ⟨-, group, hgroup, hid, hinventory⟩ := mem_groupHostsMap hrow
  refine ⟨group, mem_ownGroups.mpr ⟨hgroup, hinventory⟩, ?_⟩
  rwa [hid]

theorem host_eq_of_name {host other : HostRow} (hhost : host ∈ tables.hosts)
    (hother : other ∈ tables.hosts) (hinventory : host.inventoryId = other.inventoryId)
    (hname : host.name = other.name) : host = other :=
  List.inj_on_of_nodup_map tables.name_unique hhost hother (Prod.ext hinventory hname)

theorem names_ownGroups_nodup : ((ownGroups tables inventory).map FactCache.Group.name).Nodup := by
  have hunique : tables.groups.Pairwise fun group other =>
      (group.inventoryId, group.name) ≠ (other.inventoryId, other.name) :=
    List.pairwise_map.mp tables.group_name_unique
  refine List.pairwise_map.mpr ((hunique.filter _).imp_of_mem ?_)
  intro group other hgroup hother hne hname
  refine hne (Prod.ext ?_ hname)
  exact (mem_ownGroups.mp hgroup).2.trans (mem_ownGroups.mp hother).2.symm

/-! ## The data -/

def PlainNames (tables : Tables) (inventory : Inventory String) : Prop :=
  ∀ group ∈ ownGroups tables inventory, group.name ≠ "all" ∧ group.name ≠ "_meta"

def GroupsStored (tables : Tables) (inventory : Inventory String) : Prop :=
  ∀ hostFilter, inventory.kind = .smart hostFilter → ownGroups tables inventory = []

theorem StoredInventory.groupsStored (inventory : StoredInventory tables) :
    GroupsStored tables inventory.toInventory := by
  intro hostFilter hkind
  refine List.eq_nil_iff_forall_not_mem.mpr fun group hgroup => ?_
  obtain ⟨hgroup, hinventory⟩ := mem_ownGroups.mp hgroup
  exact inventory.smart_without_groups hostFilter hkind group hgroup hinventory

theorem groupsData_eq_assignAll (hstored : GroupsStored tables inventory) :
    groupsData tables inventory options =
      assignAll FactCache.Group.name (groupEntry tables inventory options)
        (ownGroups tables inventory) (AList.singleton "all" (allGroup tables inventory options)) := by
  rw [groupsData]
  split
  · next hostFilter hkind =>
    rw [hstored hostFilter hkind]
    rfl
  · rfl

theorem lookup_groupsData_of_group (hstored : GroupsStored tables inventory)
    (hnames : PlainNames tables inventory) {group : GroupRow}
    (hgroup : group ∈ ownGroups tables inventory) :
    (groupsData tables inventory options).lookup group.name =
      groupEntry tables inventory options group := by
  rw [groupsData_eq_assignAll hstored, lookup_assignAll_of_mem names_ownGroups_nodup hgroup,
    lookup_singleton, if_neg (hnames group hgroup).1, Option.or_none]

theorem lookup_groupsData_of_other (hstored : GroupsStored tables inventory) {key : String}
    (hkey : ∀ group ∈ ownGroups tables inventory, group.name ≠ key) :
    (groupsData tables inventory options).lookup key =
      if key = "all" then some (allGroup tables inventory options) else none := by
  have hmem : key ∉ (ownGroups tables inventory).map FactCache.Group.name := by
    intro hmem
    obtain ⟨group, hgroup, hname⟩ := List.mem_map.mp hmem
    exact hkey group hgroup hname
  rw [groupsData_eq_assignAll hstored, lookup_assignAll_of_notMem hmem, lookup_singleton]

theorem lookup_getScriptData {key : String} (hkey : key ≠ "_meta") :
    (getScriptData tables inventory options).lookup key =
      (groupsData tables inventory options).lookup key := by
  rw [getScriptData]
  split
  · exact AList.lookup_insert_ne hkey
  · rfl

section

variable (hstored : GroupsStored tables inventory)
include hstored

theorem lookup_getScriptData_meta (hnames : PlainNames tables inventory) :
    (getScriptData tables inventory options).lookup "_meta" =
      if options.hostvars then
        some { Info.none with hostvars := some (allHostVars tables inventory options) }
      else none := by
  have hnone : (groupsData tables inventory options).lookup "_meta" = none :=
    lookup_groupsData_of_other hstored fun group hgroup => (hnames group hgroup).2
  rw [getScriptData]
  split
  · rw [AList.lookup_insert, hnone, Option.getD_none]
  · exact hnone

theorem mem_hostsOf_group (hnames : PlainNames tables inventory) {group : GroupRow}
    (hgroup : group ∈ ownGroups tables inventory) {name : String} :
    name ∈ hostsOf (getScriptData tables inventory options) group.name ↔
      (group.id, name) ∈ groupHostsRows tables inventory options := by
  rw [hostsOf, lookup_getScriptData (hnames group hgroup).2,
    lookup_groupsData_of_group hstored hnames hgroup, ← mem_lookup_collect, groupEntry]
  split
  · next hempty =>
    have hhosts : (groupInfo tables inventory options group).hosts = none := by
      simp only [Info.isEmpty, Bool.and_eq_true, Option.isNone_iff_eq_none] at hempty
      exact hempty.1.1.1
    rw [Option.bind_none, ← hhosts]
    rfl
  · rfl

theorem mem_hosts_allGroup {name : String} :
    name ∈ (allGroup tables inventory options).hosts.getD [] ↔
      name ∈ allHostnames tables inventory options ∧
        name ∉ (groupHostsRows tables inventory options).map Prod.snd := by
  rw [allGroup]
  split
  · next hostFilter hkind =>
    refine (and_iff_left fun hgrouped => ?_).symm
    obtain ⟨group, hgroup, -⟩ := exists_group_of_row hgrouped
    rw [hstored hostFilter hkind] at hgroup
    exact List.not_mem_nil hgroup
  · rw [Option.getD_some, List.mem_filter, decide_eq_true_eq]

theorem mem_children_allGroup {name : String} :
    name ∈ (allGroup tables inventory options).children.getD [] ↔
      ∃ group ∈ ownGroups tables inventory, group.name = name := by
  rw [allGroup]
  split
  · next hostFilter hkind => simp [hstored hostFilter hkind]
  · by_cases hnone : (ownGroups tables inventory).isEmpty
    · simp [List.isEmpty_iff.mp hnone]
    · simp only [if_neg hnone, Option.getD_some, List.mem_map]

theorem lookup_getScriptData_all (hnames : PlainNames tables inventory) :
    (getScriptData tables inventory options).lookup "all" =
      some (allGroup tables inventory options) := by
  rw [lookup_getScriptData (by decide),
    lookup_groupsData_of_other hstored fun group hgroup => (hnames group hgroup).1, if_pos rfl]

theorem mem_hostsOf_all (hnames : PlainNames tables inventory) {name : String} :
    name ∈ hostsOf (getScriptData tables inventory options) "all" ↔
      name ∈ allHostnames tables inventory options ∧
        name ∉ (groupHostsRows tables inventory options).map Prod.snd := by
  rw [hostsOf, lookup_getScriptData_all hstored hnames, Option.bind_some,
    mem_hosts_allGroup hstored]

end

theorem mem_allHostVars {name : String} :
    name ∈ allHostVars tables inventory options ↔ name ∈ allHostnames tables inventory options := by
  rw [allHostVars, mem_assignAll_some]
  exact or_iff_left (AList.notMem_empty name)

theorem lookup_allHostVars {host : HostRow} (hhost : host ∈ slicedHosts tables inventory options) :
    (allHostVars tables inventory options).lookup host.name =
      some (hostVars tables options host) := by
  have hnames : ((slicedHosts tables inventory options).map Host.name).Nodup :=
    List.pairwise_map.mpr ((pairwise_queriedHosts.sublist (getSlicedHosts_sublist _ _ _)).imp ne_of_lt)
  rw [allHostVars, lookup_assignAll_of_mem hnames hhost, Option.some_or]

theorem mem_groupHostsRows_iff_member (hstored : GroupsStored tables inventory)
    {host : HostRow} (hhost : host ∈ slicedHosts tables inventory options) {group : GroupRow}
    (hgroup : group ∈ ownGroups tables inventory) :
    (group.id, host.name) ∈ groupHostsRows tables inventory options ↔
      (group.id, host.id) ∈ tables.groupHosts := by
  have hkind : ∀ hostFilter, inventory.kind ≠ .smart (some hostFilter) := by
    intro hostFilter hkind
    rw [hstored _ hkind] at hgroup
    exact List.not_mem_nil hgroup
  obtain ⟨hmem, hinventory, -⟩ := (mem_queriedHosts hkind).mp (mem_queriedHosts_of_sliced hhost)
  rw [mem_groupHostsRows hgroup, and_iff_right (mem_allHostnames.mpr ⟨host, hhost, rfl⟩)]
  constructor
  · intro hother
    obtain ⟨other, hother, hinventory', hname, hrow⟩ := hother
    rwa [host_eq_of_name hmem hother (hinventory.trans hinventory'.symm) hname.symm]
  · exact fun hrow => ⟨host, hmem, hinventory, rfl, hrow⟩

/-- The script is complete for every inventory whose groups have plain names. -/
theorem script_complete (tables : Tables) (inventory : StoredInventory tables) (options : Options)
    (hnames : PlainNames tables inventory.toInventory) :
    Complete tables inventory.toInventory options := by
  have hstored := inventory.groupsStored
  constructor
  · exact fun host hhost => enabled_queriedHosts (mem_queriedHosts_of_sliced hhost)
  · intro host hhost
    rw [mem_hostsOf_all hstored hnames, and_iff_right (mem_allHostnames.mpr ⟨host, hhost, rfl⟩)]
    by_cases hgrouped : host.name ∈
        (groupHostsRows tables inventory.toInventory options).map Prod.snd
    · obtain ⟨group, hgroup, hrow⟩ := exists_group_of_row hgrouped
      exact .inr ⟨group, hgroup, (mem_hostsOf_group hstored hnames hgroup).mpr hrow⟩
    · exact .inl hgrouped
  · intro host hhost
    rw [mem_hostsOf_all hstored hnames, and_iff_right (mem_allHostnames.mpr ⟨host, hhost, rfl⟩)]
    constructor
    · intro hungrouped group hgroup hrow
      refine hungrouped (List.mem_map.mpr ⟨(group.id, host.name), ?_, rfl⟩)
      exact (mem_groupHostsRows_iff_member hstored hhost hgroup).mpr hrow
    · intro hnone hgrouped
      obtain ⟨group, hgroup, hrow⟩ := exists_group_of_row hgrouped
      exact hnone group hgroup ((mem_groupHostsRows_iff_member hstored hhost hgroup).mp hrow)
  · intro key name hname
    by_cases hgroups : ∃ group ∈ ownGroups tables inventory.toInventory, group.name = key
    · obtain ⟨group, hgroup, rfl⟩ := hgroups
      exact ((mem_groupHostsRows hgroup).mp ((mem_hostsOf_group hstored hnames hgroup).mp hname)).1
    · have hother : ∀ group ∈ ownGroups tables inventory.toInventory, group.name ≠ key :=
        fun group hgroup hkey => hgroups ⟨group, hgroup, hkey⟩
      by_cases hmeta : key = "_meta"
      · rw [hmeta, hostsOf, lookup_getScriptData_meta hstored hnames] at hname
        split at hname
        · exact absurd hname List.not_mem_nil
        · exact absurd hname List.not_mem_nil
      · by_cases hall : key = "all"
        · rw [hall] at hname
          exact ((mem_hostsOf_all hstored hnames).mp hname).1
        · rw [hostsOf, lookup_getScriptData hmeta, lookup_groupsData_of_other hstored hother,
            if_neg hall] at hname
          exact absurd hname List.not_mem_nil
  · intro name
    rw [childrenOf, lookup_getScriptData_all hstored hnames, Option.bind_some,
      mem_children_allGroup hstored]
  · intro hhostvars
    refine ⟨allHostVars tables inventory.toInventory options, ?_, fun name => mem_allHostVars,
      fun host hhost => lookup_allHostVars hhost⟩
    rw [metaHostvars, lookup_getScriptData_meta hstored hnames, if_pos hhostvars]
    rfl
  · intro hhostvars
    rw [metaHostvars, lookup_getScriptData_meta hstored hnames,
      if_neg (Bool.eq_false_iff.mp hhostvars)]
    rfl

def sampleTables : Tables where
  hosts := [⟨1, "web", true, 1, none⟩, ⟨2, "db", true, 1, none⟩, ⟨3, "old", false, 1, none⟩]
  groups := [⟨10, "webs", 1⟩, ⟨11, "spare", 1⟩]
  groupHosts := [(10, 1), (10, 3)]
  id_unique := by decide
  name_unique := by decide
  groupParents := [(11, 10)]
  inventoryVariables _ := ∅
  groupVariables _ := ∅
  hostVariables _ := ∅
  group_id_unique := by decide
  group_name_unique := by decide

def sampleInventory : StoredInventory sampleTables where
  id := 1
  kind := .regular
  smart_without_groups _ hkind := absurd hkind nofun

theorem script_complete_sample :
    Complete sampleTables sampleInventory.toInventory ⟨true, true, false, 1, 2⟩ := by
  refine script_complete sampleTables sampleInventory _ fun group hgroup => ?_
  have hname : group.name ∈ ["webs", "spare"] :=
    @List.mem_map_of_mem _ _ _ _ FactCache.Group.name (mem_ownGroups.mp hgroup).1
  exact (by decide : ∀ name ∈ ["webs", "spare"], name ≠ "all" ∧ name ≠ "_meta") _ hname

/-! ## The script that the fact cache is compared with -/

theorem queriedHosts_eq_enabledHosts (hshow : options.showAll = false) :
    queriedHosts tables inventory options = inventory.enabledHosts tables.toDatabase := by
  obtain ⟨id, kind⟩ := inventory
  cases kind with
  | smart hostFilter =>
    cases hostFilter <;> simp only [queriedHosts, Inventory.enabledHosts, hshow, Bool.false_or]
  | regular | constructed =>
    simp only [queriedHosts, Inventory.enabledHosts, hshow, Bool.false_or]

end Forail.InventoryScript
