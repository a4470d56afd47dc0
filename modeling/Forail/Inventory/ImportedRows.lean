import Forail.Inventory.ImportDeletions
import Forail.Inventory.ImportGroups
import Forail.Inventory.ImportHosts
import Forail.Inventory.ImportRelations

/-!
# The inventory after an import

The deletions, the import of groups and of hosts and the new relations follow each other.
Which rows and relations there are after all of them can be told from the inventory before.
-/

namespace Forail.InventoryImport

open Forail.Batches Forail.VertexRemoval

/-! ## Rows by name -/

def Inventory.IsGroup (db : Inventory) (name : String) (pk : ℕ) : Prop :=
  ∃ row ∈ db.groups, row.name = name ∧ row.pk = pk

def Inventory.IsHost (db : Inventory) (name : String) (pk : ℕ) : Prop :=
  ∃ row ∈ db.hosts, row.name = name ∧ row.pk = pk

variable {env : Surroundings} {options : Options} {mem : MemInventory}
  {db db' before grouped hosted after : Inventory} {found : List (ℕ × String)}
  {pk pk' parent child group host : ℕ} {name : String}

theorem Inventory.Keyed.group_unique (hkeyed : db.Keyed) (hgroup : db.IsGroup name pk)
    (hgroup' : db.IsGroup name pk') : pk = pk' := by
  obtain ⟨row, hrow, hname, rfl⟩ := hgroup
  obtain ⟨row', hrow', hname', rfl⟩ := hgroup'
  rw [List.inj_on_of_nodup_map hkeyed.groupNames hrow hrow' (hname.trans hname'.symm)]

theorem Inventory.Keyed.host_unique (hkeyed : db.Keyed) (hhost : db.IsHost name pk)
    (hhost' : db.IsHost name pk') : pk = pk' := by
  obtain ⟨row, hrow, hname, rfl⟩ := hhost
  obtain ⟨row', hrow', hname', rfl⟩ := hhost'
  rw [List.inj_on_of_nodup_map hkeyed.hostNames hrow hrow' (hname.trans hname'.symm)]

theorem Inventory.Keyed.group_name_unique {name' : String} (hkeyed : db.Keyed)
    (hgroup : db.IsGroup name pk) (hgroup' : db.IsGroup name' pk) : name = name' := by
  obtain ⟨row, hrow, rfl, hpk⟩ := hgroup
  obtain ⟨row', hrow', rfl, hpk'⟩ := hgroup'
  rw [List.inj_on_of_nodup_map hkeyed.groupKeys hrow hrow' (hpk.trans hpk'.symm)]

/-! ## The steps of an import -/

/-- A row that is not deleted and has the name after the updates. -/
def Becomes (options : Options) (db : Inventory) (found : List (ℕ × String)) (name : String)
    (pk : ℕ) : Prop :=
  ∃ row ∈ db.hosts, row.pk = pk ∧ Remains options db found pk ∧
    (found.lookup pk).getD row.name = name

structure Loaded (env : Surroundings) (options : Options) (mem : MemInventory)
    (before grouped hosted after : Inventory) : Prop where
  groups : GroupsImported env options mem
    (deletions env options mem before (pkMemHostMap env options mem before)) grouped
  hosts : HostsImported env options mem (pkMemHostMap env options mem before) grouped hosted
  after : after =
    createUpdateGroupHosts env options mem (createUpdateGroupChildren env mem hosted)

theorem Matching.of_deletions (hmatching : Matching mem db found) :
    Matching mem (deletions env options mem db found) found where
  keys := hmatching.keys
  names := hmatching.names
  imported := hmatching.imported
  rows := by
    intro entry hentry
    obtain ⟨row, hrow, hpk⟩ := List.mem_map.mp (hmatching.rows entry hentry)
    refine List.mem_map.mpr ⟨row, ?_, hpk⟩
    rw [hosts_deletions]
    refine List.mem_filter.mpr ⟨hrow, decide_eq_true fun _ => .inr ?_⟩
    exact hpk ▸ List.mem_map_of_mem hentry

theorem GroupsImported.hosts_eq (hgroups : GroupsImported env options mem db db') :
    db'.hosts = db.hosts := by
  rw [hgroups.frame]

theorem Matching.of_groups (hmatching : Matching mem db found)
    (hgroups : GroupsImported env options mem (deletions env options mem db found)
      grouped) : Matching mem grouped found where
  keys := hmatching.keys
  names := hmatching.names
  imported := hmatching.imported
  rows := by
    rw [hgroups.hosts_eq]
    exact hmatching.of_deletions.rows

theorem loaded_of_load (hkeyed : before.Keyed)
    (hload : loadIntoDatabase env options mem before = some after) :
    ∃ grouped hosted, Loaded env options mem before grouped hosted after ∧
      after.dangling = false := by
  obtain ⟨grouped, hgrouped, hload⟩ := Option.bind_eq_some_iff.mp hload
  obtain ⟨hosted, hhosted, hload⟩ := Option.bind_eq_some_iff.mp hload
  obtain ⟨hwhole, hafter⟩ := Option.ite_none_left_eq_some.mp hload
  obtain rfl := Option.some.inj hafter
  have hgroups := groupsImported_of_createUpdateGroups (keyed_deletions hkeyed) hgrouped
  have hhosts := hostsImported_of_createUpdateHosts hgroups.keyed
    (matching_pkMemHostMap.of_groups hgroups) hhosted
  exact ⟨grouped, hosted, ⟨hgroups, hhosts, rfl⟩, Bool.eq_false_of_not_eq_true hwhole⟩

/-! ## Rows after an import -/

section

variable (hloaded : Loaded env options mem before grouped hosted after)
include hloaded

theorem Loaded.groups_eq : after.groups = grouped.groups := by
  rw [hloaded.after]
  change (createUpdateGroupChildren env mem hosted).groups = grouped.groups
  rw [childrenImported.frame, hloaded.hosts.frame]

theorem Loaded.hosts_eq : after.hosts = hosted.hosts := by
  rw [hloaded.after]
  change (createUpdateGroupChildren env mem hosted).hosts = hosted.hosts
  rw [childrenImported.frame]

theorem Loaded.keyed : after.Keyed := by
  have hkeyed : (createUpdateGroupChildren env mem hosted).Keyed := by
    rw [childrenImported.frame]
    exact { hloaded.hosts.keyed with }
  rw [hloaded.after]
  exact { hkeyed with }

theorem Loaded.isGroup_hosted : hosted.IsGroup name pk ↔ after.IsGroup name pk := by
  have hgroups : hosted.groups = after.groups := by
    rw [hloaded.groups_eq, hloaded.hosts.frame]
  rw [Inventory.IsGroup, hgroups, Inventory.IsGroup]

theorem Loaded.sourceGroups_eq : after.sourceGroups = grouped.sourceGroups := by
  rw [hloaded.after]
  change (createUpdateGroupChildren env mem hosted).sourceGroups = grouped.sourceGroups
  rw [childrenImported.frame, hloaded.hosts.frame]

theorem Loaded.sourceHosts_eq : after.sourceHosts = hosted.sourceHosts := by
  rw [hloaded.after]
  change (createUpdateGroupChildren env mem hosted).sourceHosts = hosted.sourceHosts
  rw [childrenImported.frame]

theorem Loaded.children_hosted :
    hosted.children = (deletions env options mem before
      (pkMemHostMap env options mem before)).children := by
  rw [hloaded.hosts.frame, hloaded.groups.frame]

theorem Loaded.children_eq :
    after.children = (createUpdateGroupChildren env mem hosted).children := by
  rw [hloaded.after]
  rfl

theorem Loaded.isGroup_of_before
    (hgroup : before.IsGroup name pk) (hpk : pk ∉ doomed env options mem before) :
    after.IsGroup name pk := by
  obtain ⟨row, hrow, rfl, rfl⟩ := hgroup
  have hkept : row ∈ (deletions env options mem before
      (pkMemHostMap env options mem before)).groups := by
    rw [groups_deletions]
    exact List.mem_filter.mpr ⟨hrow, decide_eq_true hpk⟩
  obtain ⟨row', hrow', hsame, hname⟩ := hloaded.groups.kept row hkept
  exact ⟨row', hloaded.groups_eq ▸ hrow', hname, hsame⟩

theorem Loaded.isGroup_cases (hgroup : after.IsGroup name pk) :
    (before.IsGroup name pk ∧ pk ∉ doomed env options mem before) ∨
      before.nextGroup ≤ pk := by
  obtain ⟨row, hrow, rfl, rfl⟩ := hgroup
  rw [hloaded.groups_eq] at hrow
  have hold : ∀ source ∈ (deletions env options mem before
      (pkMemHostMap env options mem before)).groups,
        before.IsGroup source.name source.pk ∧ source.pk ∉ doomed env options mem before := by
    intro source hsource
    rw [groups_deletions] at hsource
    obtain ⟨hmem, hkept⟩ := List.mem_filter.mp hsource
    exact ⟨⟨source, hmem, rfl, rfl⟩, of_decide_eq_true hkept⟩
  cases hloaded.groups.origin row hrow with
  | @updated source _ hsource _ => exact .inl (hold source hsource)
  | kept hsource _ => exact .inl (hold _ hsource)
  | created hpk _ _ _ =>
    rw [nextGroup_deletions] at hpk
    exact .inr hpk

theorem Loaded.mem_hosts_grouped {row : Host} : row ∈ grouped.hosts ↔ row ∈ before.hosts ∧
      Remains options before (pkMemHostMap env options mem before) row.pk := by
  rw [hloaded.groups.hosts_eq, hosts_deletions, List.mem_filter, decide_eq_true_iff]

theorem Loaded.nextHost_grouped : grouped.nextHost = before.nextHost := by
  rw [hloaded.groups.frame]
  exact nextHost_deletions

end

theorem Loaded.isHost_of_becomes (hkeyed : before.Keyed)
    (hloaded : Loaded env options mem before grouped hosted after)
    (hhost : Becomes options before (pkMemHostMap env options mem before) name pk) :
    after.IsHost name pk := by
  obtain ⟨row, hrow, rfl, hremains, hname⟩ := hhost
  obtain ⟨row', hrow', hpk⟩ := hloaded.hosts.kept row
    (hloaded.mem_hosts_grouped.mpr ⟨hrow, hremains⟩)
  refine ⟨row', hloaded.hosts_eq ▸ hrow', ?_, hpk⟩
  rcases (hloaded.hosts.origin row' hrow').becomes with ⟨source, hsource, hsame, hbecomes⟩ | hnew
  · have hmem := (hloaded.mem_hosts_grouped.mp hsource).1
    obtain rfl := List.inj_on_of_nodup_map hkeyed.hostKeys hmem hrow (hsame.trans hpk)
    rw [← hbecomes, hpk]
    exact hname
  · rw [hloaded.nextHost_grouped, hpk] at hnew
    exact absurd hnew (Nat.not_le_of_lt (hkeyed.freshHosts row hrow))

theorem Loaded.isHost_cases (hloaded : Loaded env options mem before grouped hosted after)
    (hhost : after.IsHost name pk) :
    Becomes options before (pkMemHostMap env options mem before) name pk ∨
      before.nextHost ≤ pk := by
  obtain ⟨row, hrow, rfl, rfl⟩ := hhost
  rw [hloaded.hosts_eq] at hrow
  rcases (hloaded.hosts.origin row hrow).becomes with ⟨source, hsource, hsame, hbecomes⟩ | hnew
  · obtain ⟨hmem, hremains⟩ := hloaded.mem_hosts_grouped.mp hsource
    exact .inl ⟨source, hmem, hsame, hsame ▸ hremains, hbecomes⟩
  · exact .inr (hloaded.nextHost_grouped ▸ hnew)

/-! ## Relations after an import -/

section

variable (env : Surroundings) (options : Options) (mem : MemInventory) (db : Inventory)
  (found : List (ℕ × String))

def Linked (parent child : String) : Prop :=
  ∃ pk pk', db.IsGroup parent pk ∧ db.IsGroup child pk' ∧
    EdgeSurvives env options mem db (pk, pk')

def Retains (group host : String) : Prop :=
  ∃ pk pk', db.IsGroup group pk ∧ Becomes options db found host pk' ∧
    MemberSurvives env options mem db found (pk, pk')

/-- The instance id of an imported host.  A description is in the variables of a new host no
more when its id is read. -/
def importedId (host : MemHost) : String :=
  getInstanceId env options
    (if host.name ∈ found.map Prod.snd then host.vars else host.vars.erase descriptionVar)

/-- An imported host that is added to an imported group, by its name or its instance id. -/
def Reaches (group : MemGroup) (host : MemHost) : Prop :=
  host.name ∈ memHostNames mem env options group ∨
    importedId env options found host ∈ memInstanceIds mem env options group

end

theorem isGroup_of_mem (hmem : pk ∈ db.groups.map Group.pk) : ∃ name, db.IsGroup name pk := by
  obtain ⟨row, hrow, rfl⟩ := List.mem_map.mp hmem
  exact ⟨row.name, row, hrow, rfl, rfl⟩

theorem Loaded.isGroup_of_after (hkeyed : before.Keyed)
    (hloaded : Loaded env options mem before grouped hosted after)
    (hgroup : after.IsGroup name pk) (hold : pk ∈ before.groups.map Group.pk) :
    before.IsGroup name pk ∧ pk ∉ doomed env options mem before := by
  refine (hloaded.isGroup_cases hgroup).resolve_right fun hnew => ?_
  obtain ⟨row, hrow, rfl⟩ := List.mem_map.mp hold
  exact absurd hnew (Nat.not_le_of_lt (hkeyed.freshGroups row hrow))

theorem Loaded.mem_children_iff_linked (hwellFormed : before.WellFormed)
    (hloaded : Loaded env options mem before grouped hosted after) {name' : String}
    (hparent : after.IsGroup name parent) (hchild : after.IsGroup name' child) :
    (parent, child) ∈ (deletions env options mem before
        (pkMemHostMap env options mem before)).children ↔
      Linked env options mem before name name' := by
  have hkeyed := hwellFormed.toKeyed
  constructor
  · intro hedge
    obtain ⟨hin, hin'⟩ := ends_of_mem_children_deletions hwellFormed hedge
    obtain ⟨hgroup, -⟩ := hloaded.isGroup_of_after hkeyed hparent hin
    obtain ⟨hgroup', hkept⟩ := hloaded.isGroup_of_after hkeyed hchild hin'
    exact ⟨parent, child, hgroup, hgroup',
      (mem_children_deletions hkeyed.groupKeys hin' hkept).mp hedge⟩
  · rintro ⟨pk, pk', hgroup, hgroup', hsurvives⟩
    obtain rfl := hloaded.keyed.group_unique
      (hloaded.isGroup_of_before hgroup hsurvives.parent) hparent
    obtain rfl := hloaded.keyed.group_unique
      (hloaded.isGroup_of_before hgroup' hsurvives.child) hchild
    obtain ⟨row, hrow, -, hpk⟩ := hgroup'
    exact (mem_children_deletions hkeyed.groupKeys (hpk ▸ List.mem_map_of_mem hrow)
      hsurvives.child).mpr hsurvives

theorem Loaded.memberSurvives_iff_retains (hwellFormed : before.WellFormed)
    (hloaded : Loaded env options mem before grouped hosted after) {name' : String}
    (hgroup : after.IsGroup name group) (hhost : after.IsHost name' host) :
    MemberSurvives env options mem before (pkMemHostMap env options mem before) (group, host) ↔
      Retains env options mem before (pkMemHostMap env options mem before) name name' := by
  have hkeyed := hwellFormed.toKeyed
  constructor
  · intro hsurvives
    obtain ⟨hin, hin'⟩ := ends_of_memberSurvives hwellFormed hsurvives
    refine ⟨group, host, (hloaded.isGroup_of_after hkeyed hgroup hin).1, ?_, hsurvives⟩
    refine (hloaded.isHost_cases hhost).resolve_right fun hnew => ?_
    obtain ⟨row, hrow, rfl⟩ := List.mem_map.mp hin'
    exact absurd hnew (Nat.not_le_of_lt (hkeyed.freshHosts row hrow))
  · rintro ⟨pk, pk', hold, hbecomes, hsurvives⟩
    obtain rfl := hloaded.keyed.group_unique
      (hloaded.isGroup_of_before hold hsurvives.group) hgroup
    obtain rfl := hloaded.keyed.host_unique (hloaded.isHost_of_becomes hkeyed hbecomes) hhost
    exact hsurvives

theorem Loaded.mem_members (hkeyed : before.Keyed)
    (hloaded : Loaded env options mem before grouped hosted after) :
    (group, host) ∈ after.members ↔
      MemberSurvives env options mem before (pkMemHostMap env options mem before) (group, host) ∨
        ∃ row ∈ after.groups, row.pk = group ∧ ∃ row' ∈ after.hosts, row'.pk = host ∧
          ∃ memGroup, mem.group row.name = some memGroup ∧
            Added env options mem memGroup row' := by
  have hmembers : (createUpdateGroupChildren env mem hosted).members =
      (deletions env options mem before (pkMemHostMap env options mem before)).members := by
    rw [childrenImported.frame, hloaded.hosts.frame, hloaded.groups.frame]
  have hgroups : after.groups = (createUpdateGroupChildren env mem hosted).groups := by
    rw [hloaded.after]
    rfl
  have hhosts : after.hosts = (createUpdateGroupChildren env mem hosted).hosts := by
    rw [hloaded.after]
    rfl
  rw [hgroups, hhosts, ← mem_members_deletions hkeyed.groupKeys, ← hmembers, hloaded.after,
    mem_members_createUpdateGroupHosts]

theorem Loaded.ends_of_mem_members (hwellFormed : before.WellFormed)
    (hloaded : Loaded env options mem before grouped hosted after)
    (hmember : (group, host) ∈ after.members) :
    group ∈ after.groups.map Group.pk ∧ host ∈ after.hosts.map Host.pk := by
  have hkeyed := hwellFormed.toKeyed
  rcases (hloaded.mem_members hkeyed).mp hmember with
    hsurvives | ⟨row, hrow, rfl, row', hrow', rfl, -⟩
  · obtain ⟨hin, hin'⟩ := ends_of_memberSurvives hwellFormed hsurvives
    obtain ⟨name, hgroup⟩ := isGroup_of_mem hin
    obtain ⟨row, hrow, -, hpk⟩ := hloaded.isGroup_of_before hgroup hsurvives.group
    obtain ⟨old, hold, hpk'⟩ := List.mem_map.mp hin'
    obtain ⟨row', hrow', -, hsame⟩ := hloaded.isHost_of_becomes hkeyed
      ⟨old, hold, hpk', hsurvives.host, rfl⟩
    exact ⟨hpk ▸ List.mem_map_of_mem hrow, hsame ▸ List.mem_map_of_mem hrow'⟩
  · exact ⟨List.mem_map_of_mem hrow, List.mem_map_of_mem hrow'⟩

theorem getInstanceId_of_nil (hnone : options.instanceIdVar = []) (vars : Json.Vars) :
    getInstanceId env options vars = "" := by
  rw [getInstanceId, hnone]
  rfl

theorem notMem_memInstanceIds_of_nil (hnone : options.instanceIdVar = []) (group : MemGroup)
    (id : String) : id ∉ memInstanceIds mem env options group := by
  rw [mem_memInstanceIds]
  rintro ⟨hne, name, -, host, -, rfl⟩
  exact hne (getInstanceId_of_nil hnone host.vars)

theorem HostOrigin.added_iff (hkeys : (found.map Prod.fst).Nodup) {row : Host}
    (horigin : HostOrigin env options mem db found row) {memHost : MemHost}
    (hhost : memHost ∈ mem.hosts) (hname : row.name = memHost.name) (memGroup : MemGroup) :
    Added env options mem memGroup row ↔ Reaches env options mem found memGroup memHost := by
  rw [Added, Reaches, hname]
  refine or_congr_right ?_
  cases horigin with
  | updated hrow hfound hother =>
    obtain rfl := List.inj_on_of_nodup_map mem.hostNames hother hhost hname
    rw [importedId, if_pos (List.mem_map_of_mem ((lookup_eq_some_iff hkeys).mp hfound))]
    rfl
  | kept _ _ hnot => exact absurd (hname ▸ List.mem_map_of_mem hhost) hnot
  | recreated hrow _ _ hother hnew _ =>
    obtain rfl := List.inj_on_of_nodup_map mem.hostNames hother hhost hname
    by_cases hnone : options.instanceIdVar = []
    · exact iff_of_false (notMem_memInstanceIds_of_nil hnone memGroup _)
        (notMem_memInstanceIds_of_nil hnone memGroup _)
    · rw [importedId, if_neg hnew, recreatedHost, if_neg hnone]
      rfl
  | created _ hother hnew _ _ =>
    obtain rfl := List.inj_on_of_nodup_map mem.hostNames hother hhost hname
    rw [importedId, if_neg hnew]
    rfl

theorem MemInventory.group_name_unique {memGroup memGroup' : MemGroup}
    (hgroup : memGroup ∈ mem.groups) (hgroup' : memGroup' ∈ mem.groups)
    (hname : memGroup.name = memGroup'.name) : memGroup = memGroup' :=
  List.inj_on_of_nodup_map mem.groupNames hgroup hgroup' hname

theorem Loaded.mem_members_iff (hwellFormed : before.WellFormed)
    (hloaded : Loaded env options mem before grouped hosted after) {memGroup : MemGroup}
    {memHost : MemHost} (hmemGroup : memGroup ∈ mem.groups) (hmemHost : memHost ∈ mem.hosts)
    (hgroup : after.IsGroup memGroup.name group) (hhost : after.IsHost memHost.name host) :
    (group, host) ∈ after.members ↔
      Retains env options mem before (pkMemHostMap env options mem before) memGroup.name
          memHost.name ∨
        Reaches env options mem (pkMemHostMap env options mem before) memGroup memHost := by
  rw [hloaded.mem_members hwellFormed.toKeyed,
    hloaded.memberSurvives_iff_retains hwellFormed hgroup hhost]
  refine or_congr_right ?_
  obtain ⟨row, hrow, hname, rfl⟩ := hgroup
  obtain ⟨row', hrow', hname', rfl⟩ := hhost
  have horigin := hloaded.hosts.origin row' (hloaded.hosts_eq ▸ hrow')
  rw [← horigin.added_iff matching_pkMemHostMap.keys hmemHost hname' memGroup]
  constructor
  · rintro ⟨other, hother, hpk, other', hother', hpk', group, hfound, hadded⟩
    obtain rfl := List.inj_on_of_nodup_map hloaded.keyed.groupKeys hother hrow hpk
    obtain rfl := List.inj_on_of_nodup_map hloaded.keyed.hostKeys hother' hrow' hpk'
    rw [hname, MemInventory.group_of_mem hmemGroup] at hfound
    exact Option.some.inj hfound ▸ hadded
  · intro hadded
    exact ⟨row, hrow, rfl, row', hrow', rfl, memGroup,
      hname ▸ MemInventory.group_of_mem hmemGroup, hadded⟩

theorem importedEdge_iff (hkeyed : db.Keyed) {memGroup : MemGroup}
    (hmemGroup : memGroup ∈ mem.groups) (hparent : db.IsGroup memGroup.name parent)
    (hchild : db.IsGroup name child) :
    ImportedEdge mem db parent child ↔ name ∈ memGroup.children := by
  obtain ⟨row, hrow, hname, rfl⟩ := hparent
  obtain ⟨row', hrow', rfl, rfl⟩ := hchild
  constructor
  · rintro ⟨other, hother, hpk, other', hother', hpk', group, hfound, hmem⟩
    obtain rfl := List.inj_on_of_nodup_map hkeyed.groupKeys hother hrow hpk
    obtain rfl := List.inj_on_of_nodup_map hkeyed.groupKeys hother' hrow' hpk'
    rw [hname, MemInventory.group_of_mem hmemGroup] at hfound
    exact Option.some.inj hfound ▸ hmem
  · intro hmem
    exact ⟨row, hrow, rfl, row', hrow', rfl, memGroup,
      hname ▸ MemInventory.group_of_mem hmemGroup, hmem⟩

theorem exists_of_importedEdge (hedge : ImportedEdge mem db parent child) :
    ∃ memGroup ∈ mem.groups, db.IsGroup memGroup.name parent ∧
      ∃ name ∈ memGroup.children, db.IsGroup name child := by
  obtain ⟨row, hrow, hpk, row', hrow', hpk', memGroup, hfound, hmem⟩ := hedge
  obtain ⟨hmemGroup, hname⟩ := MemInventory.mem_of_group hfound
  exact ⟨memGroup, hmemGroup, ⟨row, hrow, hname.symm, hpk⟩, row'.name, hmem, row', hrow', rfl,
    hpk'⟩

end Forail.InventoryImport
