import Forail.Inventory.ImportedRows

/-!
# When an import is exact

After an exact import the database has the imported groups, hosts, edges and memberships,
and after one that overwrites the source has no others.  Whether an import is exact can be
told from the inventories in memory and in the database.
-/

namespace Forail.InventoryImport

open Forail.Batches

section

variable (env : Surroundings) (options : Options) (mem : MemInventory)

/-! ## Exact imports -/

/-- Everything that was imported is in the database, and every group and host once. -/
structure Imported (after : Inventory) : Prop where
  groups : ∀ group ∈ mem.groups, ∃! row, row ∈ after.groups ∧ row.name = group.name
  hosts : ∀ host ∈ mem.hosts, ∃! row, row ∈ after.hosts ∧ row.name = host.name
  children : ∀ group ∈ mem.groups, ∀ child ∈ group.children, ∃ pk pk',
    after.IsGroup group.name pk ∧ after.IsGroup child pk' ∧ (pk, pk') ∈ after.children
  members : ∀ group ∈ mem.groups, ∀ host ∈ group.hosts, ∃ pk pk',
    after.IsGroup group.name pk ∧ after.IsHost host pk' ∧ (pk, pk') ∈ after.members

/-- The source has nothing else, and other hosts are neither deleted nor added to groups. -/
structure Overwritten (before after : Inventory) : Prop where
  groups : ∀ row ∈ after.groups,
    row.pk ∈ after.sourceGroups ↔ row.name ∈ mem.groups.map MemGroup.name
  hosts : ∀ row ∈ after.hosts,
    row.pk ∈ after.sourceHosts ↔ row.name ∈ mem.hosts.map MemHost.name
  children : ∀ group ∈ mem.groups, ∀ child ∈ mem.groups, ∀ pk pk',
    after.IsGroup group.name pk → after.IsGroup child.name pk' →
      ((pk, pk') ∈ after.children ↔ child.name ∈ group.children)
  members : ∀ group ∈ mem.groups, ∀ host ∈ mem.hosts, ∀ pk pk',
    after.IsGroup group.name pk → after.IsHost host.name pk' →
      ((pk, pk') ∈ after.members ↔ host.name ∈ group.hosts)
  others : ∀ row ∈ before.hosts, row.pk ∉ before.sourceHosts → row.pk ∉ after.sourceHosts →
    row.pk ∈ after.hosts.map Host.pk ∧
      ∀ group, (group, row.pk) ∈ after.members → (group, row.pk) ∈ before.members

def ImportExact (before : Inventory) : Prop :=
  ∃ after, loadIntoDatabase env options mem before = some after ∧ Imported mem after ∧
    (options.overwrite = true → Overwritten mem before after)

/-! ## The condition -/

variable (before : Inventory) (found : List (ℕ × String))

def Detached : Prop :=
  ∀ earlier group later, doomed env options mem before = earlier ++ group :: later →
    before.Leads earlier group group → ∀ parent, before.Leads earlier parent group →
      parent ∈ doomed env options mem before

structure Accepted : Prop where
  described : ∀ group ∈ mem.groups, group.name ∉ before.groups.map Group.name →
    describe env group.vars ≠ none
  created : Creatable env mem found
  renamed : ∀ earlier row later, foundRows env before found = earlier ++ row :: later →
    ∀ other ∈ before.hosts, Remains options before found other.pk → other.pk ≠ row.pk →
      other.pk ∉ earlier.map Host.pk → found.lookup row.pk ≠ some other.name
  detached : Detached env options mem before

/-- Every imported edge survives, or the edge the other way round neither survives nor was
imported. -/
def Unopposed : Prop :=
  ∀ group ∈ mem.groups, ∀ child ∈ group.children, child ≠ group.name →
    Linked env options mem before group.name child ∨
      ¬ Linked env options mem before child group.name ∧
        ∀ other ∈ mem.groups, other.name = child → group.name ∉ other.children

def Reached : Prop :=
  ∀ group ∈ mem.groups, ∀ host ∈ mem.hosts, host.name ∈ group.hosts →
    Retains env options mem before found group.name host.name ∨
      Reaches env options mem found group host

/-- No other relations of imported groups survive or are added, and no host of another
source is handed over or found by its instance id. -/
structure Replaceable : Prop where
  children : ∀ group ∈ mem.groups, ∀ child ∈ mem.groups,
    Linked env options mem before group.name child.name → child.name ∈ group.children
  members : ∀ group ∈ mem.groups, ∀ host ∈ mem.hosts,
    Retains env options mem before found group.name host.name ∨
      Reaches env options mem found group host → host.name ∈ group.hosts
  handed : ∀ row ∈ before.hosts, row.pk ∉ before.sourceHosts → row.pk ∉ found.map Prod.fst →
    row.name ∉ mem.hosts.map MemHost.name → ∀ group,
      MemberSurvives env options mem before found (group, row.pk) →
        (group, row.pk) ∈ before.members
  added : ∀ row ∈ before.hosts, row.pk ∉ before.sourceHosts → row.pk ∉ found.map Prod.fst →
    row.name ∉ mem.hosts.map MemHost.name → ∀ group ∈ mem.groups,
      row.instanceId ∈ memInstanceIds mem env options group →
        ∃ pk, before.IsGroup group.name pk ∧ (pk, row.pk) ∈ before.members

structure Importable : Prop where
  accepted : Accepted env options mem before (pkMemHostMap env options mem before)
  unopposed : Unopposed env options mem before
  reached : Reached env options mem before (pkMemHostMap env options mem before)
  replaceable : options.overwrite = true →
    Replaceable env options mem before (pkMemHostMap env options mem before)

end

variable {env : Surroundings} {options : Options} {mem : MemInventory}
  {before grouped hosted after : Inventory} {name : String}

/-! ## Accepted imports -/

theorem mem_names_deletions (hkeyed : before.Keyed) (hname : name ∈ mem.groups.map MemGroup.name)
    (found : List (ℕ × String)) :
    name ∈ (deletions env options mem before found).groups.map Group.name ↔
      name ∈ before.groups.map Group.name := by
  rw [groups_deletions]
  constructor
  · intro hmem
    obtain ⟨row, hrow, hsame⟩ := List.mem_map.mp hmem
    exact List.mem_map.mpr ⟨row, List.mem_of_mem_filter hrow, hsame⟩
  · intro hmem
    obtain ⟨row, hrow, rfl⟩ := List.mem_map.mp hmem
    have hkept : row.pk ∉ doomed env options mem before :=
      notMem_doomed_of_imported hkeyed.groupKeys hrow hname
    exact List.mem_map_of_mem (List.mem_filter.mpr ⟨hrow, decide_eq_true hkept⟩)

theorem renamable_iff {found : List (ℕ × String)}
    (hgroups : GroupsImported env options mem (deletions env options mem before found) grouped) :
    Renamable env grouped found ↔
      ∀ earlier row later, foundRows env before found = earlier ++ row :: later →
        ∀ other ∈ before.hosts, Remains options before found other.pk → other.pk ≠ row.pk →
          other.pk ∉ earlier.map Host.pk → found.lookup row.pk ≠ some other.name := by
  have hrows : foundRows env grouped found = foundRows env before found := by
    rw [foundRows, hgroups.hosts_eq, hosts_deletions]
    apply select_filter
    intro row _ hkey
    exact decide_eq_true fun _ => .inr (mem_sortedKeys.mp hkey)
  have hmem : ∀ row, row ∈ grouped.hosts ↔
      row ∈ before.hosts ∧ Remains options before found row.pk := by
    intro row
    rw [hgroups.hosts_eq, hosts_deletions, List.mem_filter, decide_eq_true_iff]
  rw [Renamable, hrows]
  constructor
  · intro hall earlier row later hsplit other hother hremains
    exact hall earlier row later hsplit other ((hmem other).mpr ⟨hother, hremains⟩)
  · intro hall earlier row later hsplit other hother
    obtain ⟨hin, hremains⟩ := (hmem other).mp hother
    exact hall earlier row later hsplit other hin hremains

theorem Loaded.mem_children_cases (hloaded : Loaded env options mem before grouped hosted after)
    {parent child : ℕ} (hedge : (parent, child) ∈ after.children) :
    (parent, child) ∈ (deletions env options mem before
        (pkMemHostMap env options mem before)).children ∨
      ImportedEdge mem hosted parent child := by
  rw [hloaded.children_eq] at hedge
  rw [← hloaded.children_hosted]
  exact childrenImported.new parent child hedge

theorem Loaded.mem_children_of_deletions
    (hloaded : Loaded env options mem before grouped hosted after) {parent child : ℕ}
    (hedge : (parent, child) ∈ (deletions env options mem before
        (pkMemHostMap env options mem before)).children) :
    (parent, child) ∈ after.children := by
  rw [hloaded.children_eq]
  apply childrenImported.old
  rw [hloaded.children_hosted]
  exact hedge

theorem Loaded.dangling_iff (hwellFormed : before.WellFormed)
    (hloaded : Loaded env options mem before grouped hosted after) :
    after.dangling = true ↔ ¬ Detached env options mem before := by
  have hkeyed := hwellFormed.toKeyed
  have hgone : ∀ child ∈ before.groups.map Group.pk,
      child ∉ after.groups.map Group.pk ↔ child ∈ doomed env options mem before := by
    intro child hin
    obtain ⟨name, hgroup⟩ := isGroup_of_mem hin
    constructor
    · intro hnot
      by_contra hkept
      obtain ⟨row, hrow, -, hpk⟩ := hloaded.isGroup_of_before hgroup hkept
      exact hnot (List.mem_map.mpr ⟨row, hrow, hpk⟩)
    · intro hdoomed hmem
      obtain ⟨name', hgroup'⟩ := isGroup_of_mem hmem
      exact (hloaded.isGroup_of_after hkeyed hgroup' hin).2 hdoomed
  rw [Inventory.dangling, decide_eq_true_iff, Detached]
  push Not
  constructor
  · rintro ⟨⟨parent, child⟩, hedge, hnot⟩
    rcases hloaded.mem_children_cases hedge with hold | himported
    · have hdoomed := (hgone child (ends_of_mem_children_deletions hwellFormed hold).2).mp hnot
      obtain ⟨earlier, later, hsplit⟩ := List.append_of_mem hdoomed
      obtain ⟨hparent, hloop, hleads⟩ :=
        (mem_children_of_doomed hkeyed.groupKeys hsplit).mp hold
      exact ⟨earlier, child, later, hsplit, hloop, parent, hleads, hparent⟩
    · obtain ⟨-, -, -, name, -, hgroup⟩ := exists_of_importedEdge himported
      obtain ⟨row, hrow, -, rfl⟩ := hloaded.isGroup_hosted.mp hgroup
      exact absurd (List.mem_map_of_mem hrow) hnot
  · rintro ⟨earlier, child, later, hsplit, hloop, parent, hleads, hparent⟩
    have hold : (parent, child) ∈ (deletions env options mem before
        (pkMemHostMap env options mem before)).children :=
      (mem_children_of_doomed hkeyed.groupKeys hsplit).mpr ⟨hparent, hloop, hleads⟩
    refine ⟨(parent, child), hloaded.mem_children_of_deletions hold, ?_⟩
    apply (hgone child (ends_of_mem_children_deletions hwellFormed hold).2).mpr
    rw [hsplit]
    exact List.mem_append_right _ List.mem_cons_self

theorem exists_load_iff (hwellFormed : before.WellFormed) :
    (∃ after, loadIntoDatabase env options mem before = some after) ↔
      Accepted env options mem before (pkMemHostMap env options mem before) := by
  have hkeyed := hwellFormed.toKeyed
  have hmatching : Matching mem before (pkMemHostMap env options mem before) :=
    matching_pkMemHostMap
  have hdescribed : (createUpdateGroups env options mem
      (deletions env options mem before (pkMemHostMap env options mem before))).isSome = true ↔
        ∀ group ∈ mem.groups, group.name ∉ before.groups.map Group.name →
          describe env group.vars ≠ none := by
    rw [isSome_createUpdateGroups]
    refine forall₂_congr fun group hgroup => ?_
    rw [mem_names_deletions hkeyed (List.mem_map_of_mem hgroup)]
  constructor
  · rintro ⟨after, hload⟩
    obtain ⟨grouped, hosted, hloaded, hwhole⟩ := loaded_of_load hkeyed hload
    obtain ⟨grouped', hgrouped, hload⟩ := Option.bind_eq_some_iff.mp hload
    obtain ⟨hosted', hhosted, -⟩ := Option.bind_eq_some_iff.mp hload
    have hgroups := groupsImported_of_createUpdateGroups (keyed_deletions hkeyed) hgrouped
    have hsome := (isSome_createUpdateHosts hgroups.keyed (hmatching.of_groups hgroups)).mp
      (Option.isSome_iff_exists.mpr ⟨hosted', hhosted⟩)
    refine ⟨hdescribed.mp (Option.isSome_iff_exists.mpr ⟨grouped', hgrouped⟩), hsome.2,
      (renamable_iff hgroups).mp hsome.1, ?_⟩
    by_contra hattached
    rw [(hloaded.dangling_iff hwellFormed).mpr hattached] at hwhole
    exact Bool.false_ne_true hwhole.symm
  · rintro ⟨hall, hcreatable, hrenamed, hdetached⟩
    obtain ⟨grouped, hgrouped⟩ := Option.isSome_iff_exists.mp (hdescribed.mpr hall)
    have hgroups := groupsImported_of_createUpdateGroups (keyed_deletions hkeyed) hgrouped
    have hmatching' := hmatching.of_groups hgroups
    obtain ⟨hosted, hhosted⟩ := Option.isSome_iff_exists.mp
      ((isSome_createUpdateHosts hgroups.keyed hmatching').mpr
        ⟨(renamable_iff hgroups).mpr hrenamed, hcreatable⟩)
    have hhosts := hostsImported_of_createUpdateHosts hgroups.keyed hmatching' hhosted
    have hloaded : Loaded env options mem before grouped hosted _ := ⟨hgroups, hhosts, rfl⟩
    have hwhole := (hloaded.dangling_iff hwellFormed).not.mpr (not_not_intro hdetached)
    refine ⟨createUpdateGroupHosts env options mem (createUpdateGroupChildren env mem hosted), ?_⟩
    rw [loadIntoDatabase, hgrouped, Option.bind_some, hhosted, Option.bind_some]
    exact if_neg hwhole

/-! ## Imported rows and relations -/

theorem Loaded.exists_group (hloaded : Loaded env options mem before grouped hosted after)
    {group : MemGroup} (hgroup : group ∈ mem.groups) : ∃ pk, after.IsGroup group.name pk := by
  obtain ⟨row, hrow, hname⟩ := List.mem_map.mp (hloaded.groups.all group hgroup)
  exact ⟨row.pk, row, hloaded.groups_eq ▸ hrow, hname, rfl⟩

theorem Loaded.exists_host (hloaded : Loaded env options mem before grouped hosted after)
    {host : MemHost} (hhost : host ∈ mem.hosts) : ∃ pk, after.IsHost host.name pk := by
  obtain ⟨row, hrow, hname⟩ := List.mem_map.mp (hloaded.hosts.all host hhost)
  exact ⟨row.pk, row, hloaded.hosts_eq ▸ hrow, hname, rfl⟩

theorem Loaded.children_iff (hwellFormed : before.WellFormed)
    (hloaded : Loaded env options mem before grouped hosted after) :
    (∀ group ∈ mem.groups, ∀ child ∈ group.children, ∃ pk pk',
      after.IsGroup group.name pk ∧ after.IsGroup child pk' ∧ (pk, pk') ∈ after.children) ↔
        Unopposed env options mem before := by
  have hisGroup : ∀ name pk, hosted.IsGroup name pk ↔ after.IsGroup name pk :=
    fun _ _ => hloaded.isGroup_hosted
  have hkeyed := hloaded.keyed
  have hall : (∀ group ∈ mem.groups, ∀ child ∈ group.children, ∃ pk pk',
      after.IsGroup group.name pk ∧ after.IsGroup child pk' ∧ (pk, pk') ∈ after.children) ↔
        ∀ parent child, ImportedEdge mem hosted parent child →
          (parent, child) ∈ (createUpdateGroupChildren env mem hosted).children := by
    rw [← hloaded.children_eq]
    constructor
    · intro hall parent child hedge
      obtain ⟨group, hgroup, hparent, name, hname, hchild⟩ := exists_of_importedEdge hedge
      obtain ⟨pk, pk', hpk, hpk', hmem⟩ := hall group hgroup name hname
      obtain rfl := hkeyed.group_unique hpk ((hisGroup _ _).mp hparent)
      obtain rfl := hkeyed.group_unique hpk' ((hisGroup _ _).mp hchild)
      exact hmem
    · intro hall group hgroup child hchild
      obtain ⟨pk, hpk⟩ := hloaded.exists_group hgroup
      obtain ⟨other, hother, rfl⟩ := List.mem_map.mp (mem.childrenRead group hgroup child hchild)
      obtain ⟨pk', hpk'⟩ := hloaded.exists_group hother
      exact ⟨pk, pk', hpk, hpk', hall pk pk' ((importedEdge_iff hloaded.hosts.keyed hgroup
        ((hisGroup _ _).mpr hpk) ((hisGroup _ _).mpr hpk')).mpr hchild)⟩
  rw [hall, childrenImported.all_iff, hloaded.children_hosted]
  constructor
  · intro hall group hgroup child hchild hne
    obtain ⟨pk, hpk⟩ := hloaded.exists_group hgroup
    obtain ⟨other, hother, rfl⟩ := List.mem_map.mp (mem.childrenRead group hgroup child hchild)
    obtain ⟨pk', hpk'⟩ := hloaded.exists_group hother
    have hedge := (importedEdge_iff hloaded.hosts.keyed hgroup ((hisGroup _ _).mpr hpk)
      ((hisGroup _ _).mpr hpk')).mpr hchild
    have hdifferent : pk ≠ pk' := by
      rintro rfl
      exact hne (hkeyed.group_name_unique hpk' hpk)
    have hback := importedEdge_iff hloaded.hosts.keyed hother ((hisGroup _ _).mpr hpk')
      ((hisGroup _ _).mpr hpk)
    refine (hall pk pk' hedge hdifferent).imp
      (hloaded.mem_children_iff_linked hwellFormed hpk hpk').mp ?_
    rintro ⟨hreverse, himported⟩
    refine ⟨(hloaded.mem_children_iff_linked hwellFormed hpk' hpk).not.mp hreverse, ?_⟩
    intro another hanother hname hmem
    obtain rfl := MemInventory.group_name_unique hanother hother hname
    exact himported (hback.mpr hmem)
  · intro hall parent child hedge hdifferent
    obtain ⟨group, hgroup, hparent, name, hname, hchild⟩ := exists_of_importedEdge hedge
    have hparent' := (hisGroup _ _).mp hparent
    have hchild' := (hisGroup _ _).mp hchild
    have hne : name ≠ group.name := by
      rintro rfl
      exact hdifferent (hkeyed.group_unique hparent' hchild')
    refine (hall group hgroup name hname hne).imp
      (hloaded.mem_children_iff_linked hwellFormed hparent' hchild').mpr ?_
    rintro ⟨hreverse, himported⟩
    refine ⟨(hloaded.mem_children_iff_linked hwellFormed hchild' hparent').not.mpr hreverse, ?_⟩
    intro hback
    obtain ⟨other, hother, hotherParent, name', hname', hotherChild⟩ :=
      exists_of_importedEdge hback
    have hsame := hloaded.hosts.keyed.group_name_unique hotherParent hchild
    have hsame' := hloaded.hosts.keyed.group_name_unique hotherChild hparent
    exact himported other hother hsame (hsame' ▸ hname')

theorem Loaded.members_iff (hwellFormed : before.WellFormed)
    (hloaded : Loaded env options mem before grouped hosted after) :
    (∀ group ∈ mem.groups, ∀ host ∈ group.hosts, ∃ pk pk',
      after.IsGroup group.name pk ∧ after.IsHost host pk' ∧ (pk, pk') ∈ after.members) ↔
        Reached env options mem before (pkMemHostMap env options mem before) := by
  constructor
  · intro hall group hgroup host hhost hmem
    obtain ⟨pk, pk', hpk, hpk', hmember⟩ := hall group hgroup host.name hmem
    exact (hloaded.mem_members_iff hwellFormed hgroup hhost hpk hpk').mp hmember
  · intro hall group hgroup name hname
    obtain ⟨pk, hpk⟩ := hloaded.exists_group hgroup
    obtain ⟨host, hhost, rfl⟩ := List.mem_map.mp (mem.hostsRead group hgroup name hname)
    obtain ⟨pk', hpk'⟩ := hloaded.exists_host hhost
    exact ⟨pk, pk', hpk, hpk', (hloaded.mem_members_iff hwellFormed hgroup hhost hpk hpk').mpr
      (hall group hgroup host hhost hname)⟩

theorem Loaded.imported_iff (hwellFormed : before.WellFormed)
    (hloaded : Loaded env options mem before grouped hosted after) :
    Imported mem after ↔ Unopposed env options mem before ∧
      Reached env options mem before (pkMemHostMap env options mem before) := by
  rw [← hloaded.children_iff hwellFormed, ← hloaded.members_iff hwellFormed]
  constructor
  · exact fun himported => ⟨himported.children, himported.members⟩
  · rintro ⟨hchildren, hmembers⟩
    refine ⟨?_, ?_, hchildren, hmembers⟩
    · intro group hgroup
      obtain ⟨pk, row, hrow, hname, -⟩ := hloaded.exists_group hgroup
      exact ⟨row, ⟨hrow, hname⟩, fun other hother =>
        List.inj_on_of_nodup_map hloaded.keyed.groupNames hother.1 hrow
          (hother.2.trans hname.symm)⟩
    · intro host hhost
      obtain ⟨pk, row, hrow, hname, -⟩ := hloaded.exists_host hhost
      exact ⟨row, ⟨hrow, hname⟩, fun other hother =>
        List.inj_on_of_nodup_map hloaded.keyed.hostNames hother.1 hrow
          (hother.2.trans hname.symm)⟩

/-! ## Rows of the source and of others -/

theorem Loaded.mem_sourceGroups_iff (hwellFormed : before.WellFormed)
    (hoverwrite : options.overwrite = true)
    (hloaded : Loaded env options mem before grouped hosted after) {row : Group}
    (hrow : row ∈ after.groups) :
    row.pk ∈ after.sourceGroups ↔ row.name ∈ mem.groups.map MemGroup.name := by
  have hkeyed := hwellFormed.toKeyed
  rw [hloaded.sourceGroups_eq, hloaded.groups.source row (hloaded.groups_eq ▸ hrow)]
  refine or_iff_right_of_imp fun hsource => ?_
  obtain ⟨hin, hkept⟩ := mem_sourceGroups_deletions.mp hsource
  obtain ⟨⟨old, hold, hname, hpk⟩, -⟩ := hloaded.isGroup_of_after hkeyed
    ⟨row, hrow, rfl, rfl⟩ (hwellFormed.sourceGroups _ hin)
  by_contra hnot
  exact hkept ((mem_doomed hkeyed.groupKeys).mpr
    ⟨hoverwrite, old, hold, hpk, hpk ▸ hin, hname ▸ hnot⟩)

theorem Loaded.mem_sourceHosts_iff (hwellFormed : before.WellFormed)
    (hoverwrite : options.overwrite = true)
    (hloaded : Loaded env options mem before grouped hosted after) {row : Host}
    (hrow : row ∈ after.hosts) :
    row.pk ∈ after.sourceHosts ↔ row.name ∈ mem.hosts.map MemHost.name := by
  have hkeyed := hwellFormed.toKeyed
  have hmatching : Matching mem before (pkMemHostMap env options mem before) :=
    matching_pkMemHostMap
  rw [hloaded.sourceHosts_eq, hloaded.hosts.source row (hloaded.hosts_eq ▸ hrow)]
  refine or_iff_right_of_imp fun hsource => ?_
  rw [hloaded.groups.frame] at hsource
  obtain ⟨hin, hremains⟩ := mem_sourceHosts_deletions.mp hsource
  have hfound := ((remains_iff hoverwrite).mp hremains).resolve_left (not_not_intro hin)
  rcases hloaded.isHost_cases ⟨row, hrow, rfl, rfl⟩ with ⟨old, hold, hpk, -, hbecomes⟩ | hnew
  · obtain ⟨host, hlookup, hhost⟩ := hmatching.exists_host hfound
    rw [hlookup] at hbecomes
    exact hbecomes ▸ List.mem_map_of_mem (MemInventory.mem_of_host hhost).1
  · obtain ⟨old, hold, hpk⟩ := List.mem_map.mp (hwellFormed.sourceHosts _ hin)
    exact absurd hnew (Nat.not_le_of_lt (hpk ▸ hkeyed.freshHosts old hold))

theorem Loaded.mem_hosts_of_other (hkeyed : before.Keyed)
    (hloaded : Loaded env options mem before grouped hosted after) {row : Host}
    (hrow : row ∈ before.hosts) (hsource : row.pk ∉ before.sourceHosts)
    (hfound : row.pk ∉ (pkMemHostMap env options mem before).map Prod.fst)
    (hname : row.name ∉ mem.hosts.map MemHost.name) : row ∈ after.hosts := by
  obtain ⟨row', hrow', hpk⟩ := hloaded.hosts.kept row
    (hloaded.mem_hosts_grouped.mpr ⟨hrow, fun _ => .inl hsource⟩)
  have hsame : ∀ other ∈ grouped.hosts, other.pk = row.pk → other = row := fun other hother =>
    List.inj_on_of_nodup_map hkeyed.hostKeys (hloaded.mem_hosts_grouped.mp hother).1 hrow
  rw [hloaded.hosts_eq]
  cases hloaded.hosts.origin row' hrow' with
  | @updated old host hold hlookup _ =>
    rw [pk_updateHost] at hpk
    rw [hpk] at hlookup
    exact absurd hfound (lookup_eq_none_iff.not.mp (hlookup ▸ Option.some_ne_none _))
  | kept hold _ _ => exact hsame row' hold hpk ▸ hrow'
  | @recreated old host _ hold _ holdName hhost _ _ =>
    obtain rfl := hsame old hold hpk
    exact absurd (holdName ▸ List.mem_map_of_mem hhost) hname
  | created hnew _ _ _ _ =>
    rw [pk_createdHost] at hpk
    rw [hpk, hloaded.nextHost_grouped] at hnew
    exact absurd hnew (Nat.not_le_of_lt (hkeyed.freshHosts row hrow))

theorem Loaded.notMem_sourceHosts_iff (hwellFormed : before.WellFormed)
    (hoverwrite : options.overwrite = true)
    (hloaded : Loaded env options mem before grouped hosted after) {row : Host}
    (hrow : row ∈ before.hosts) (hsource : row.pk ∉ before.sourceHosts) :
    row.pk ∉ after.sourceHosts ↔
      row.pk ∉ (pkMemHostMap env options mem before).map Prod.fst ∧
        row.name ∉ mem.hosts.map MemHost.name := by
  have hkeyed := hwellFormed.toKeyed
  have hmatching : Matching mem before (pkMemHostMap env options mem before) :=
    matching_pkMemHostMap
  obtain ⟨row', hrow', hname, hpk⟩ := hloaded.isHost_of_becomes hkeyed
    ⟨row, hrow, rfl, fun _ => .inl hsource, rfl⟩
  rw [← hpk, hloaded.mem_sourceHosts_iff hwellFormed hoverwrite hrow', hname, hpk, ← not_or,
    not_iff_not]
  by_cases hfound : row.pk ∈ (pkMemHostMap env options mem before).map Prod.fst
  · obtain ⟨host, hlookup, hhost⟩ := hmatching.exists_host hfound
    rw [hlookup, Option.getD_some]
    exact ⟨fun _ => .inl hfound,
      fun _ => List.mem_map_of_mem (MemInventory.mem_of_host hhost).1⟩
  · rw [lookup_eq_none_iff.mpr hfound, Option.getD_none]
    exact (or_iff_right hfound).symm

theorem Loaded.mem_members_of_other (hwellFormed : before.WellFormed)
    (hloaded : Loaded env options mem before grouped hosted after) {row : Host}
    (hrow : row ∈ before.hosts) (hsource : row.pk ∉ before.sourceHosts)
    (hfound : row.pk ∉ (pkMemHostMap env options mem before).map Prod.fst)
    (hname : row.name ∉ mem.hosts.map MemHost.name) {group : ℕ} :
    (group, row.pk) ∈ after.members ↔
      MemberSurvives env options mem before (pkMemHostMap env options mem before)
          (group, row.pk) ∨
        ∃ memGroup ∈ mem.groups, after.IsGroup memGroup.name group ∧
          row.instanceId ∈ memInstanceIds mem env options memGroup := by
  have hkeyed := hwellFormed.toKeyed
  have hafter := hloaded.mem_hosts_of_other hkeyed hrow hsource hfound hname
  rw [hloaded.mem_members hkeyed]
  refine or_congr_right ?_
  constructor
  · rintro ⟨other, hother, rfl, row', hrow', hpk, memGroup, hgroup, hadded⟩
    obtain rfl := List.inj_on_of_nodup_map hloaded.keyed.hostKeys hrow' hafter hpk
    obtain ⟨hmemGroup, hsame⟩ := MemInventory.mem_of_group hgroup
    refine ⟨memGroup, hmemGroup, ⟨other, hother, hsame.symm, rfl⟩, hadded.resolve_left ?_⟩
    intro hmem
    obtain ⟨-, host, hhost, -⟩ := mem_memHostNames.mp hmem
    obtain ⟨hmemHost, hsame'⟩ := MemInventory.mem_of_host hhost
    exact hname (hsame' ▸ List.mem_map_of_mem hmemHost)
  · rintro ⟨memGroup, hmemGroup, ⟨other, hother, hsame, rfl⟩, hid⟩
    exact ⟨other, hother, rfl, row, hafter, rfl, memGroup,
      hsame ▸ MemInventory.group_of_mem hmemGroup, .inr hid⟩

theorem Loaded.overwritten_of_replaceable (hwellFormed : before.WellFormed)
    (hoverwrite : options.overwrite = true)
    (hloaded : Loaded env options mem before grouped hosted after) (himported : Imported mem after)
    (hreplaceable : Replaceable env options mem before (pkMemHostMap env options mem before)) :
    Overwritten mem before after where
  groups := fun _ hrow => hloaded.mem_sourceGroups_iff hwellFormed hoverwrite hrow
  hosts := fun _ hrow => hloaded.mem_sourceHosts_iff hwellFormed hoverwrite hrow
  children := by
    intro group hgroup child hchild pk pk' hpk hpk'
    constructor
    · intro hedge
      rcases hloaded.mem_children_cases hedge with hold | hnew
      · exact hreplaceable.children group hgroup child hchild
          ((hloaded.mem_children_iff_linked hwellFormed hpk hpk').mp hold)
      · obtain ⟨other, hother, hparent, name, hname, hedgeChild⟩ := exists_of_importedEdge hnew
        rw [hloaded.isGroup_hosted] at hparent hedgeChild
        obtain rfl := MemInventory.group_name_unique hother hgroup
          (hloaded.keyed.group_name_unique hparent hpk)
        exact hloaded.keyed.group_name_unique hedgeChild hpk' ▸ hname
    · intro hmem
      obtain ⟨pk₁, pk₂, hpk₁, hpk₂, hedge⟩ := himported.children group hgroup child.name hmem
      obtain rfl := hloaded.keyed.group_unique hpk hpk₁
      obtain rfl := hloaded.keyed.group_unique hpk' hpk₂
      exact hedge
  members := by
    intro group hgroup host hhost pk pk' hpk hpk'
    constructor
    · intro hmember
      exact hreplaceable.members group hgroup host hhost
        ((hloaded.mem_members_iff hwellFormed hgroup hhost hpk hpk').mp hmember)
    · intro hmem
      obtain ⟨pk₁, pk₂, hpk₁, hpk₂, hmember⟩ := himported.members group hgroup host.name hmem
      obtain rfl := hloaded.keyed.group_unique hpk hpk₁
      obtain rfl := hloaded.keyed.host_unique hpk' hpk₂
      exact hmember
  others := by
    intro row hrow hsource hafter
    obtain ⟨hfound, hname⟩ :=
      (hloaded.notMem_sourceHosts_iff hwellFormed hoverwrite hrow hsource).mp hafter
    refine ⟨List.mem_map_of_mem
      (hloaded.mem_hosts_of_other hwellFormed.toKeyed hrow hsource hfound hname), ?_⟩
    intro group hmember
    rcases (hloaded.mem_members_of_other hwellFormed hrow hsource hfound hname).mp hmember with
      hsurvives | ⟨memGroup, hmemGroup, hgroup, hid⟩
    · exact hreplaceable.handed row hrow hsource hfound hname group hsurvives
    · obtain ⟨pk, hpk, hold⟩ :=
        hreplaceable.added row hrow hsource hfound hname memGroup hmemGroup hid
      obtain ⟨old, holdRow, hsame, rfl⟩ := hpk
      have hkept : old.pk ∉ doomed env options mem before :=
        notMem_doomed_of_imported hwellFormed.groupKeys holdRow
          (hsame ▸ List.mem_map_of_mem hmemGroup)
      obtain rfl := hloaded.keyed.group_unique
        (hloaded.isGroup_of_before ⟨old, holdRow, hsame, rfl⟩ hkept) hgroup
      exact hold

theorem Loaded.replaceable_of_overwritten (hwellFormed : before.WellFormed)
    (hoverwrite : options.overwrite = true)
    (hloaded : Loaded env options mem before grouped hosted after)
    (hoverwritten : Overwritten mem before after) :
    Replaceable env options mem before (pkMemHostMap env options mem before) where
  children := by
    intro group hgroup child hchild hlinked
    obtain ⟨pk, hpk⟩ := hloaded.exists_group hgroup
    obtain ⟨pk', hpk'⟩ := hloaded.exists_group hchild
    apply (hoverwritten.children group hgroup child hchild pk pk' hpk hpk').mp
    apply hloaded.mem_children_of_deletions
    exact (hloaded.mem_children_iff_linked hwellFormed hpk hpk').mpr hlinked
  members := by
    intro group hgroup host hhost hmember
    obtain ⟨pk, hpk⟩ := hloaded.exists_group hgroup
    obtain ⟨pk', hpk'⟩ := hloaded.exists_host hhost
    apply (hoverwritten.members group hgroup host hhost pk pk' hpk hpk').mp
    exact (hloaded.mem_members_iff hwellFormed hgroup hhost hpk hpk').mpr hmember
  handed := by
    intro row hrow hsource hfound hname group hsurvives
    have hafter := (hloaded.notMem_sourceHosts_iff hwellFormed hoverwrite hrow hsource).mpr
      ⟨hfound, hname⟩
    apply (hoverwritten.others row hrow hsource hafter).2
    exact (hloaded.mem_members_of_other hwellFormed hrow hsource hfound hname).mpr
      (.inl hsurvives)
  added := by
    intro row hrow hsource hfound hname group hgroup hid
    have hafter := (hloaded.notMem_sourceHosts_iff hwellFormed hoverwrite hrow hsource).mpr
      ⟨hfound, hname⟩
    obtain ⟨pk, hpk⟩ := hloaded.exists_group hgroup
    have hold := (hoverwritten.others row hrow hsource hafter).2 pk
      ((hloaded.mem_members_of_other hwellFormed hrow hsource hfound hname).mpr
        (.inr ⟨group, hgroup, hpk, hid⟩))
    exact ⟨pk, (hloaded.isGroup_of_after hwellFormed.toKeyed hpk
      (hwellFormed.members _ hold).1).1, hold⟩

/-- **Exact imports.**  An import is exact when nothing opposes the imported edges, every imported membership is
reached, and an overwrite leaves nothing else. -/
theorem import_exact_iff (hwellFormed : before.WellFormed) :
    ImportExact env options mem before ↔ Importable env options mem before := by
  constructor
  · rintro ⟨after, hload, himported, hoverwritten⟩
    obtain ⟨grouped, hosted, hloaded, -⟩ := loaded_of_load hwellFormed.toKeyed hload
    obtain ⟨hunopposed, hreached⟩ := (hloaded.imported_iff hwellFormed).mp himported
    refine ⟨(exists_load_iff hwellFormed).mp ⟨after, hload⟩, hunopposed, hreached, ?_⟩
    intro hoverwrite
    exact hloaded.replaceable_of_overwritten hwellFormed hoverwrite (hoverwritten hoverwrite)
  · rintro ⟨haccepted, hunopposed, hreached, hreplaceable⟩
    obtain ⟨after, hload⟩ := (exists_load_iff hwellFormed).mpr haccepted
    obtain ⟨grouped, hosted, hloaded, -⟩ := loaded_of_load hwellFormed.toKeyed hload
    have himported := (hloaded.imported_iff hwellFormed).mpr ⟨hunopposed, hreached⟩
    refine ⟨after, hload, himported, fun hoverwrite => ?_⟩
    exact hloaded.overwritten_of_replaceable hwellFormed hoverwrite himported
      (hreplaceable hoverwrite)

/-! ### A first import -/

def plainSurroundings : Surroundings where
  texts := ⟨fun _ => "", fun _ => ""⟩
  lowered := fun _ => ""
  mentions := fun _ _ => false
  collation := fun left right => left ≤ right

def mergeOptions : Options where
  overwrite := false
  overwriteVars := false
  instanceIdVar := []
  enabledVar := none
  enabledValue := none
  constructed := false

def emptyInventory : Inventory := ⟨[], [], ∅, ∅, ∅, ∅, 0, 0⟩

def siteInventory : MemInventory where
  hosts := [⟨"web1", ∅⟩]
  groups := [⟨"site", ["web"], [], ∅⟩, ⟨"web", [], ["web1"], ∅⟩]
  hostNames := by decide
  groupNames := by decide
  childrenRead := by decide
  hostsRead := by decide

theorem wellFormed_emptyInventory : emptyInventory.WellFormed where
  hostKeys := List.nodup_nil
  hostNames := List.nodup_nil
  groupKeys := List.nodup_nil
  groupNames := List.nodup_nil
  freshHosts := fun _ hmem => absurd hmem List.not_mem_nil
  freshGroups := fun _ hmem => absurd hmem List.not_mem_nil
  children := fun _ hmem => absurd hmem (Finset.notMem_empty _)
  members := fun _ hmem => absurd hmem (Finset.notMem_empty _)
  sourceHosts := fun _ hmem => absurd hmem (Finset.notMem_empty _)
  sourceGroups := fun _ hmem => absurd hmem (Finset.notMem_empty _)

theorem first_import_exact :
    ImportExact plainSurroundings mergeOptions siteInventory emptyInventory := by
  have hunlinked : ∀ parent child,
      ¬ Linked plainSurroundings mergeOptions siteInventory emptyInventory parent child := by
    rintro parent child ⟨pk, pk', ⟨row, hrow, -⟩, -⟩
    exact List.not_mem_nil hrow
  refine (import_exact_iff wellFormed_emptyInventory).mpr ⟨⟨?_, ?_, ?_, ?_⟩, ?_, ?_, ?_⟩
  · decide
  · rw [Creatable]
    decide
  · intro earlier row later hsplit other hother
    exact absurd hother List.not_mem_nil
  · intro earlier group later hsplit
    have hnone : doomed plainSurroundings mergeOptions siteInventory emptyInventory = [] := rfl
    rw [hnone] at hsplit
    exact absurd hsplit.symm (List.append_ne_nil_of_right_ne_nil earlier (List.cons_ne_nil _ _))
  · intro group hgroup child hchild _
    have hback : ∀ group ∈ siteInventory.groups, ∀ other ∈ siteInventory.groups,
        other.name ∈ group.children → group.name ∉ other.children := by decide
    exact .inr ⟨hunlinked child group.name,
      fun other hother hname => hback group hgroup other hother (hname ▸ hchild)⟩
  · intro group hgroup host hhost hmem
    refine .inr (.inl ?_)
    revert group host
    decide
  · intro hoverwrite
    exact absurd hoverwrite Bool.false_ne_true

/-! ### A reversed edge -/

def reversedInventory : Inventory where
  hosts := []
  groups := [⟨0, "site", "", ∅⟩, ⟨1, "web", "", ∅⟩]
  children := {(1, 0)}
  members := ∅
  sourceHosts := ∅
  sourceGroups := {0, 1}
  nextHost := 0
  nextGroup := 2

theorem wellFormed_reversedInventory : reversedInventory.WellFormed where
  hostKeys := List.nodup_nil
  hostNames := List.nodup_nil
  groupKeys := by decide
  groupNames := by decide
  freshHosts := fun _ hmem => absurd hmem List.not_mem_nil
  freshGroups := by decide
  children := by decide
  members := by decide
  sourceHosts := by decide
  sourceGroups := by decide

theorem reversed_edge_dropped :
    ¬ ∀ env options mem before, before.WellFormed → ImportExact env options mem before := by
  intro hclaim
  obtain ⟨after, hload, himported, -⟩ := hclaim plainSurroundings mergeOptions siteInventory
    reversedInventory wellFormed_reversedInventory
  obtain ⟨_, _, ⟨row, hrow, hname, rfl⟩, ⟨row', hrow', hname', rfl⟩, hedge⟩ :=
    himported.children ⟨"site", ["web"], [], ∅⟩ List.mem_cons_self "web" List.mem_cons_self
  have hmissing : (loadIntoDatabase plainSurroundings mergeOptions siteInventory
      reversedInventory).all (fun after => decide (∀ row ∈ after.groups, ∀ row' ∈ after.groups,
        row.name = "site" → row'.name = "web" → (row.pk, row'.pk) ∉ after.children)) = true := by
    decide
  rw [hload] at hmissing
  exact of_decide_eq_true hmissing row hrow row' hrow' hname hname' hedge

end Forail.InventoryImport
