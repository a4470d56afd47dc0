import Mathlib.Data.List.Destutter
import Mathlib.Data.List.Sort
import Mathlib.Data.String.Basic
import Forail.Core.Stride

/-!
# Sliced inventories and the fact cache

A sliced job runs on every n-th host of its inventory.  The inventory that the
playbook is given and the list of hosts whose facts are cached are two queries,
and each is sliced on its own.
-/

namespace Forail.FactCache

open Forail.Stride

abbrev HostId := ℕ

abbrev InventoryId := ℕ

abbrev GroupId := ℕ

/-- `instanceId` is `none` for the empty string; the update of a constructed
inventory stores there the id of the host it was built from. -/
structure Host (Name : Type*) where
  id : HostId
  name : Name
  enabled : Bool
  inventoryId : InventoryId
  instanceId : Option HostId
  deriving DecidableEq

structure Group (Name : Type*) where
  id : GroupId
  name : Name
  inventoryId : InventoryId
  deriving DecidableEq

/-- The rows of three tables, in the order in which a query without an order
returns them. -/
structure Database (Name : Type*) where
  hosts : List (Host Name)
  groups : List (Group Name)
  groupHosts : List (GroupId × HostId)
  id_unique : (hosts.map Host.id).Nodup
  name_unique : (hosts.map fun host => (host.inventoryId, host.name)).Nodup

inductive Kind (Name : Type*) where
  | regular
  | constructed
  /-- The query that `host_filter` and the organization stand for. -/
  | smart (hostFilter : Option (Host Name → Bool))

structure Inventory (Name : Type*) where
  id : InventoryId
  kind : Kind Name

variable {Name : Type*} [LinearOrder Name]

/-! ## Queries -/

def orderByName (rows : List (Host Name)) : List (Host Name) :=
  rows.insertionSort fun host other => host.name ≤ other.name

def orderByNamePk (rows : List (Host Name)) : List (Host Name) :=
  rows.insertionSort fun host other =>
    host.name < other.name ∨ (host.name = other.name ∧ host.id ≤ other.id)

/-- `DISTINCT ON` of ordered rows keeps the first row of each name. -/
def distinctName (rows : List (Host Name)) : List (Host Name) :=
  rows.destutter fun host other => host.name ≠ other.name

namespace Inventory

variable (inventory : Inventory Name) (db : Database Name)

def hosts : List (Host Name) :=
  match inventory.kind with
  | .smart (some hostFilter) => distinctName (orderByNamePk (db.hosts.filter hostFilter))
  | _ => orderByName (db.hosts.filter fun host => host.inventoryId = inventory.id)

def enabledHosts : List (Host Name) :=
  match inventory.kind with
  | .smart (some hostFilter) =>
      distinctName (orderByName (db.hosts.filter fun host => hostFilter host && host.enabled))
  | _ =>
      orderByName (db.hosts.filter fun host =>
        decide (host.inventoryId = inventory.id) && host.enabled)

def getSlicedHosts (hosts : List (Host Name)) (sliceNumber sliceCount : ℕ) : List (Host Name) :=
  if 1 < sliceCount ∧ 0 < sliceNumber then stride sliceCount (sliceNumber - 1) hosts else hosts

/-- The rows of the through table that link a group and a host of the inventory,
with the name of the host, as far as it is in the current slice. -/
def groupHostsMap (allHostnames : List Name) : List (GroupId × Name) :=
  db.groupHosts.flatMap fun row =>
    (db.groups.filter fun group =>
      decide (group.id = row.1 ∧ group.inventoryId = inventory.id)).flatMap fun _ =>
      (db.hosts.filter fun host =>
        decide (host.id = row.2 ∧ host.inventoryId = inventory.id ∧
          host.name ∈ allHostnames)).map fun host => (row.1, host.name)

structure ScriptData (Name : Type*) where
  allHosts : List Name
  groups : List (Name × List Name)
  hostvars : List (Host Name)

def getScriptData (sliceNumber sliceCount : ℕ) : ScriptData Name :=
  let hosts := getSlicedHosts (inventory.enabledHosts db) sliceNumber sliceCount
  let allHostnames := hosts.map Host.name
  match inventory.kind with
  | .smart _ => { allHosts := allHostnames, groups := [], hostvars := hosts }
  | _ =>
      let groupHosts := inventory.groupHostsMap db allHostnames
      { allHosts := allHostnames.filter fun name => name ∉ groupHosts.map Prod.snd
        groups := (db.groups.filter fun group => group.inventoryId = inventory.id).map fun group =>
          (group.name, (groupHosts.filter fun entry => entry.1 = group.id).map Prod.snd)
        hostvars := hosts }

end Inventory

structure Job (Name : Type*) where
  inventory : Option (Inventory Name)
  jobSliceNumber : ℕ
  jobSliceCount : ℕ

def Inventory.factHosts (inventory : Inventory Name) (db : Database Name) : List (Host Name) :=
  match inventory.kind with
  | .constructed =>
      orderByName (db.hosts.filter fun host =>
        host.id ∈ (inventory.hosts db).filterMap Host.instanceId)
  | _ => inventory.hosts db

def Job.getHostsForFactCache (job : Job Name) (db : Database Name) : List (Host Name) :=
  match job.inventory with
  | none => []
  | some inventory =>
      Inventory.getSlicedHosts (inventory.factHosts db) job.jobSliceNumber job.jobSliceCount

/-! ## What the script names -/

variable {db : Database Name} {inventory : Inventory Name} {sliceNumber sliceCount : ℕ}

theorem mem_groupHostsMap {allHostnames : List Name} {entry : GroupId × Name}
    (hentry : entry ∈ inventory.groupHostsMap db allHostnames) :
    entry.2 ∈ allHostnames ∧
      ∃ group ∈ db.groups, group.id = entry.1 ∧ group.inventoryId = inventory.id := by
  obtain ⟨row, -, hentry⟩ := List.mem_flatMap.mp hentry
  obtain ⟨group, hgroup, hentry⟩ := List.mem_flatMap.mp hentry
  obtain ⟨host, hhost, rfl⟩ := List.mem_map.mp hentry
  obtain ⟨-, -, -, hname⟩ := (List.mem_filter.mp hhost).imp_right of_decide_eq_true
  obtain ⟨hmem, hid⟩ := (List.mem_filter.mp hgroup).imp_right of_decide_eq_true
  exact ⟨hname, group, hmem, hid⟩

/-! ## Real hosts -/

def Inventory.realHost (inventory : Inventory Name) (db : Database Name) (host : Host Name) :
    Option (Host Name) :=
  match inventory.kind with
  | .constructed => host.instanceId.bind fun id => db.hosts.find? fun other => other.id = id
  | _ => some host

def FactsFollowSlice (db : Database Name) (inventory : Inventory Name)
    (sliceNumber sliceCount : ℕ) : Prop :=
  ∀ host, host ∈ Job.getHostsForFactCache ⟨some inventory, sliceNumber, sliceCount⟩ db ↔
    host ∈ (inventory.getScriptData db sliceNumber sliceCount).hostvars.filterMap
      (inventory.realHost db)

/-- No host of the slice is shifted: in the lists before slicing, as many hosts
come before it in one list only as come before it in the other one only, up to a
multiple of the slice count. -/
def Unshifted (db : Database Name) (inventory : Inventory Name)
    (sliceNumber sliceCount : ℕ) : Prop :=
  let facts := (inventory.factHosts db).map some
  let script := (inventory.enabledHosts db).map (inventory.realHost db)
  ∀ host, TakenUnshifted sliceCount (sliceNumber - 1) facts script (some host) ∧
    TakenUnshifted sliceCount (sliceNumber - 1) script facts (some host)

def Inventory.OwnHosts (inventory : Inventory Name) : Prop :=
  match inventory.kind with
  | .regular => True
  | .constructed => False
  | .smart hostFilter => hostFilter.isNone

/-- The hosts up to a host of the slice, in the order of the names, are
enabled. -/
def EnabledUpTo (db : Database Name) (inventory : Inventory Name)
    (sliceNumber sliceCount : ℕ) : Prop :=
  let rows := db.hosts.filter fun host => host.inventoryId = inventory.id
  ∀ host ∈ rows,
    rows.countP (fun other => decide (other.name < host.name)) % sliceCount = sliceNumber - 1 →
      ∀ other ∈ rows, other.name ≤ host.name → other.enabled = true

omit [LinearOrder Name] in
theorem getSlicedHosts_eq_stride (hfirst : 1 ≤ sliceNumber) (hlast : sliceNumber ≤ sliceCount)
    (hosts : List (Host Name)) :
    Inventory.getSlicedHosts hosts sliceNumber sliceCount =
      stride sliceCount (sliceNumber - 1) hosts := by
  rw [Inventory.getSlicedHosts]
  split
  · rfl
  · have hcount : sliceCount = 1 := by omega
    have hnumber : sliceNumber = 1 := by omega
    rw [hcount, hnumber, Nat.sub_self, stride_one]

theorem hostvars_getScriptData :
    (inventory.getScriptData db sliceNumber sliceCount).hostvars =
      Inventory.getSlicedHosts (inventory.enabledHosts db) sliceNumber sliceCount := by
  rw [Inventory.getScriptData]
  split <;> rfl

theorem factsFollowSlice_iff_stride (hfirst : 1 ≤ sliceNumber)
    (hlast : sliceNumber ≤ sliceCount) :
    FactsFollowSlice db inventory sliceNumber sliceCount ↔
      ∀ host, some host ∈ stride sliceCount (sliceNumber - 1)
          ((inventory.factHosts db).map some) ↔
        some host ∈ stride sliceCount (sliceNumber - 1)
          ((inventory.enabledHosts db).map (inventory.realHost db)) := by
  refine forall_congr' fun host => ?_
  simp only [Job.getHostsForFactCache, hostvars_getScriptData,
    getSlicedHosts_eq_stride hfirst hlast, ← map_stride, List.mem_filterMap, List.mem_map,
    Option.some.injEq, exists_eq_right]

theorem factsFollowSlice_iff_unshifted (hfirst : 1 ≤ sliceNumber)
    (hlast : sliceNumber ≤ sliceCount) :
    FactsFollowSlice db inventory sliceNumber sliceCount ↔
      Unshifted db inventory sliceNumber sliceCount := by
  have hoffset : sliceNumber - 1 < sliceCount := by omega
  rw [factsFollowSlice_iff_stride hfirst hlast]
  refine forall_congr' fun host => ?_
  rw [takenUnshifted_iff hoffset, takenUnshifted_iff hoffset]
  exact iff_def

/-! ## Inventories with hosts of their own -/

instance : Std.Total fun host other : Host Name => host.name ≤ other.name where
  total host other := le_total host.name other.name

instance : IsTrans (Host Name) fun host other => host.name ≤ other.name where
  trans _ _ _ := le_trans

theorem pairwise_orderByName {rows : List (Host Name)}
    (hdistinct : rows.Pairwise fun host other => host.name ≠ other.name) :
    (orderByName rows).Pairwise fun host other => host.name < other.name := by
  have hsorted : (orderByName rows).Pairwise fun host other => host.name ≤ other.name :=
    List.pairwise_insertionSort _ rows
  have hnames : (orderByName rows).Pairwise fun host other => host.name ≠ other.name :=
    (List.perm_insertionSort _ rows).symm.pairwise hdistinct fun hne => hne.symm
  exact (hsorted.and hnames).imp fun hboth => lt_of_le_of_ne hboth.1 hboth.2

theorem orderByName_filter {rows : List (Host Name)} (kept : Host Name → Bool)
    (hdistinct : rows.Pairwise fun host other => host.name ≠ other.name) :
    orderByName (rows.filter kept) = (orderByName rows).filter kept := by
  have hperm : (orderByName (rows.filter kept)).Perm ((orderByName rows).filter kept) :=
    (List.perm_insertionSort _ _).trans ((List.perm_insertionSort _ rows).symm.filter kept)
  exact List.Perm.eq_of_pairwise (fun _ _ _ _ hlt hgt => absurd hlt (not_lt_of_gt hgt))
    (pairwise_orderByName (hdistinct.filter kept)) ((pairwise_orderByName hdistinct).filter kept)
    hperm

omit [LinearOrder Name] in
theorem pairwise_name_rows (db : Database Name) (inventory : InventoryId) :
    (db.hosts.filter fun host => host.inventoryId = inventory).Pairwise
      fun host other => host.name ≠ other.name := by
  have hunique : db.hosts.Pairwise fun host other =>
      (host.inventoryId, host.name) ≠ (other.inventoryId, other.name) :=
    List.pairwise_map.mp db.name_unique
  refine (hunique.filter _).imp_of_mem fun hhost hother hne hname => hne ?_
  rw [of_decide_eq_true (List.mem_filter.mp hhost).2,
    of_decide_eq_true (List.mem_filter.mp hother).2, hname]

theorem enabledUpTo_iff :
    EnabledUpTo db inventory sliceNumber sliceCount ↔
      ∀ index, index % sliceCount = sliceNumber - 1 →
        index < (orderByName
          (db.hosts.filter fun host => host.inventoryId = inventory.id)).length →
        ∀ earlier other, earlier ≤ index →
          (orderByName (db.hosts.filter fun host =>
            host.inventoryId = inventory.id))[earlier]? = some other → other.enabled = true := by
  have hsorted := pairwise_orderByName (pairwise_name_rows db inventory.id)
  rw [EnabledUpTo]
  generalize (db.hosts.filter fun host => decide (host.inventoryId = inventory.id)) = rows
    at hsorted ⊢
  have hperm : (orderByName rows).Perm rows := List.perm_insertionSort _ rows
  have hcount : ∀ (index : ℕ) (host : Host Name), (orderByName rows)[index]? = some host →
      rows.countP (fun other => decide (other.name < host.name)) = index := by
    intro index host hhost
    rw [← hperm.countP_eq]
    exact countP_lt_eq hsorted hhost
  constructor
  · intro henabled index hindex hlt earlier other hearlier hother
    have hhost : (orderByName rows)[index]? = some (orderByName rows)[index] :=
      List.getElem?_eq_getElem hlt
    refine henabled (orderByName rows)[index] (hperm.mem_iff.mp (List.getElem_mem hlt))
      (by rw [hcount index _ hhost, hindex]) other
      (hperm.mem_iff.mp (List.mem_of_getElem? hother)) ?_
    obtain ⟨hbound, rfl⟩ := List.getElem?_eq_some_iff.mp hother
    rcases Nat.eq_or_lt_of_le hearlier with rfl | hbefore
    · exact le_rfl
    · exact (List.pairwise_iff_getElem.mp hsorted earlier index hbound hlt hbefore).le
  · intro henabled host hhost hturn other hother hname
    obtain ⟨index, hindex⟩ := List.mem_iff_getElem?.mp (hperm.mem_iff.mpr hhost)
    obtain ⟨earlier, hearlier⟩ := List.mem_iff_getElem?.mp (hperm.mem_iff.mpr hother)
    obtain ⟨hlt, rfl⟩ := List.getElem?_eq_some_iff.mp hindex
    rw [hcount index _ hindex] at hturn
    refine henabled index hturn hlt earlier other ?_ hearlier
    by_contra hafter
    obtain ⟨hbound, rfl⟩ := List.getElem?_eq_some_iff.mp hearlier
    have hgt := List.pairwise_iff_getElem.mp hsorted index earlier hlt hbound (by omega)
    exact absurd hname (not_le_of_gt hgt)

theorem factsFollowSlice_iff_enabledUpTo (hfirst : 1 ≤ sliceNumber)
    (hlast : sliceNumber ≤ sliceCount) (hown : inventory.OwnHosts) :
    FactsFollowSlice db inventory sliceNumber sliceCount ↔
      EnabledUpTo db inventory sliceNumber sliceCount := by
  have hoffset : sliceNumber - 1 < sliceCount := by omega
  have hdistinct := pairwise_name_rows db inventory.id
  have henabled : orderByName (db.hosts.filter fun host =>
        decide (host.inventoryId = inventory.id) && host.enabled) =
      (orderByName (db.hosts.filter fun host => host.inventoryId = inventory.id)).filter
        Host.enabled := by
    rw [← orderByName_filter _ hdistinct, List.filter_filter]
    simp only [Bool.and_comm]
  have hlists : inventory.factHosts db =
        orderByName (db.hosts.filter fun host => host.inventoryId = inventory.id) ∧
      inventory.enabledHosts db = (inventory.factHosts db).filter Host.enabled ∧
      inventory.realHost db = some := by
    obtain ⟨id, kind⟩ := inventory
    cases kind with
    | regular => exact ⟨rfl, henabled, rfl⟩
    | constructed => exact hown.elim
    | smart hostFilter =>
      cases hostFilter with
      | none => exact ⟨rfl, henabled, rfl⟩
      | some hostFilter => contradiction
  obtain ⟨hfacts, hscript, hreal⟩ := hlists
  have hnodup : (inventory.factHosts db).Nodup := by
    rw [hfacts]
    exact (pairwise_orderByName hdistinct).imp fun hlt heq => (heq ▸ hlt).false
  rw [factsFollowSlice_iff_stride hfirst hlast, hreal, hscript, enabledUpTo_iff, ← hfacts,
    ← mem_stride_filter_iff hnodup hoffset]
  simp only [← map_stride, List.mem_map, Option.some.injEq, exists_eq_right]

def threeHosts (firstEnabled : Bool) : Database String where
  hosts := [⟨1, "db1", firstEnabled, 1, none⟩, ⟨2, "db2", true, 1, none⟩,
    ⟨3, "db3", true, 1, none⟩]
  groups := []
  groupHosts := []
  id_unique := by decide +revert
  name_unique := by decide +revert

end Forail.FactCache
