import Forail.Inventory.ImportExact
import Forail.Inventory.SecondMatching
import Forail.Inventory.SecondUpdate

/-!
# When a second import changes nothing

A second import of the same inventory updates every imported row.  It changes the rows that
the first one created with a description in their variables, and with an overwrite it
removes the relations that the first one left.
-/

namespace Forail.InventoryImport

open Forail.Batches Forail.VertexRemoval

section

variable (env : Surroundings) (options : Options) (mem : MemInventory)

structure SameInventory (after again : Inventory) : Prop where
  hosts : List.Forall₂ SameHost after.hosts again.hosts
  groups : List.Forall₂ SameGroup after.groups again.groups
  children : again.children = after.children
  members : again.members = after.members

def Idempotent (before : Inventory) : Prop :=
  ∀ after, loadIntoDatabase env options mem before = some after →
    ∃ again, loadIntoDatabase env options mem after = some again ∧ SameInventory after again

/-- Nothing is created with a description in its variables, and an overwrite leaves no
relations that a second one removes. -/
structure Settled (before : Inventory) (found : List (ℕ × String)) : Prop where
  groups : ∀ group ∈ mem.groups, group.name ∉ before.groups.map Group.name →
    group.vars.lookup descriptionVar = none
  hosts : ∀ host ∈ mem.hosts, host.name ∉ found.map Prod.snd →
    host.vars.lookup descriptionVar = none
  children : options.overwrite = true → ∀ group ∈ mem.groups, ∀ child ∈ mem.groups,
    Linked env options mem before group.name child.name → child.name ∈ group.children
  members : options.overwrite = true → ∀ group ∈ mem.groups, ∀ host ∈ mem.hosts,
    Retains env options mem before found group.name host.name →
      Reaches env options mem found group host

end

variable {env : Surroundings} {options : Options} {mem : MemInventory}
  {before grouped hosted after : Inventory} {parent child group host pk : ℕ} {name : String}

/-! ## The second import -/

def secondDeletions (env : Surroundings) (options : Options) (mem : MemInventory)
    (after : Inventory) : Inventory :=
  deletions env options mem after (pkMemHostMap env options mem after)

def secondRows (env : Surroundings) (options : Options) (mem : MemInventory)
    (after : Inventory) : Inventory :=
  hostsUpdated env options mem (updateGroups options mem (secondDeletions env options mem after))
    (pkMemHostMap env options mem after)

def secondImport (env : Surroundings) (options : Options) (mem : MemInventory)
    (after : Inventory) : Inventory :=
  createUpdateGroupHosts env options mem
    (createUpdateGroupChildren env mem (secondRows env options mem after))

theorem groups_secondImport : (secondImport env options mem after).groups =
    (secondRows env options mem after).groups := by
  change (createUpdateGroupChildren env mem (secondRows env options mem after)).groups = _
  rw [childrenImported.frame]

theorem hosts_secondImport : (secondImport env options mem after).hosts =
    (secondRows env options mem after).hosts := by
  change (createUpdateGroupChildren env mem (secondRows env options mem after)).hosts = _
  rw [childrenImported.frame]

/-! ## Deleted relations -/

theorem groupName_eq_some_iff (hkeyed : after.Keyed) :
    groupName after pk = some name ↔ after.IsGroup name pk := by
  rw [groupName, Option.map_eq_some_iff]
  constructor
  · rintro ⟨row, hrow, rfl⟩
    exact ⟨row, List.mem_of_find?_eq_some hrow, rfl, by simpa using List.find?_some hrow⟩
  · rintro ⟨row, hrow, rfl, rfl⟩
    exact ⟨row, UniqueRows.find?_of_mem hkeyed.groupKeys hrow, rfl⟩

theorem sourceGroup_eq_some_iff (hkeyed : after.Keyed) {memGroup : MemGroup} :
    sourceGroup mem after pk = some memGroup ↔
      pk ∈ after.sourceGroups ∧ memGroup ∈ mem.groups ∧ after.IsGroup memGroup.name pk := by
  rw [sourceGroup, Option.bind_eq_some_iff]
  constructor
  · rintro ⟨row, hrow, hgroup⟩
    have htest := List.find?_some hrow
    obtain ⟨hkey, hsource⟩ := Bool.and_eq_true_iff.mp htest
    have hpk : row.pk = pk := of_decide_eq_true hkey
    obtain ⟨hmem, hname⟩ := MemInventory.mem_of_group hgroup
    exact ⟨hpk ▸ of_decide_eq_true hsource, hmem, row, List.mem_of_find?_eq_some hrow,
      hname.symm, hpk⟩
  · rintro ⟨hsource, hmem, row, hrow, hname, rfl⟩
    refine ⟨row, ?_, hname ▸ MemInventory.group_of_mem hmem⟩
    have htest : (fun group : Group => decide (group.pk = row.pk) &&
        decide (group.pk ∈ after.sourceGroups)) = fun group => decide (group.pk = row.pk) := by
      funext group
      by_cases hpk : group.pk = row.pk
      · rw [hpk, decide_eq_true hsource, Bool.and_true]
      · rw [decide_eq_false hpk, Bool.false_and]
    rw [htest]
    exact UniqueRows.find?_of_mem hkeyed.groupKeys hrow

theorem childToDelete_eq_true_iff (hkeyed : after.Keyed) :
    childToDelete mem after (parent, child) = true ↔ parent ∈ after.sourceGroups ∧
      ∃ group ∈ mem.groups, after.IsGroup group.name parent ∧
        ∃ other ∈ mem.groups, after.IsGroup other.name child ∧ other.name ∉ group.children := by
  rw [childToDelete, Option.any_eq_true]
  constructor
  · rintro ⟨group, hgroup, hany⟩
    obtain ⟨hsource, hmem, hparent⟩ := (sourceGroup_eq_some_iff hkeyed).mp hgroup
    obtain ⟨name, hname, htest⟩ := Option.any_eq_true .. |>.mp hany
    obtain ⟨himported, hnot⟩ := Bool.and_eq_true_iff.mp htest
    obtain ⟨other, hother, rfl⟩ := List.mem_map.mp (of_decide_eq_true himported)
    exact ⟨hsource, group, hmem, hparent, other, hother,
      (groupName_eq_some_iff hkeyed).mp hname, of_decide_eq_true hnot⟩
  · rintro ⟨hsource, group, hmem, hparent, other, hother, hchild, hnot⟩
    refine ⟨group, (sourceGroup_eq_some_iff hkeyed).mpr ⟨hsource, hmem, hparent⟩, ?_⟩
    refine Option.any_eq_true .. |>.mpr ⟨other.name, (groupName_eq_some_iff hkeyed).mpr hchild, ?_⟩
    rw [decide_eq_true (List.mem_map_of_mem hother), decide_eq_true hnot, Bool.and_self]

theorem memberToDelete_eq_true_iff (hkeyed : after.Keyed) {row : Host} (hrow : row ∈ after.hosts)
    (ids : AList fun _ : String => ℕ) :
    memberToDelete mem after env options ids (group, row.pk) = true ↔
      group ∈ after.sourceGroups ∧ row.pk ∈ after.sourceHosts ∧
        ∃ memGroup ∈ mem.groups, after.IsGroup memGroup.name group ∧
          ¬ Added env options mem memGroup row ∧
            ∀ id ∈ memInstanceIds mem env options memGroup, ids.lookup id ≠ some row.pk := by
  have hfind : after.hosts.find? (fun host => decide (host.pk = row.pk)) = some row :=
    UniqueRows.find?_of_mem hkeyed.hostKeys hrow
  rw [memberToDelete, Option.any_eq_true, hfind]
  simp only [Option.all_some, Bool.and_eq_true, decide_eq_true_iff, Bool.not_eq_true',
    List.any_eq_false, Added, not_or]
  constructor
  · rintro ⟨memGroup, hgroup, hhost, ⟨hname, hid⟩, hids⟩
    obtain ⟨hsource, hmem, hisGroup⟩ := (sourceGroup_eq_some_iff hkeyed).mp hgroup
    exact ⟨hsource, hhost, memGroup, hmem, hisGroup, ⟨hname, hid⟩, hids⟩
  · rintro ⟨hsource, hhost, memGroup, hmem, hisGroup, ⟨hname, hid⟩, hids⟩
    exact ⟨memGroup, (sourceGroup_eq_some_iff hkeyed).mpr ⟨hsource, hmem, hisGroup⟩, hhost,
      ⟨hname, hid⟩, hids⟩

section

variable (hwellFormed : before.WellFormed)
  (hloaded : Loaded env options mem before grouped hosted after)
  (hdistinct : DistinctIds env options mem)
  (hclear : Clear env options mem before (pkMemHostMap env options mem before))

include hwellFormed hloaded

/-! ## The second deletions -/

theorem Loaded.doomed_after :
    doomed env options mem after = [] := by
  apply List.eq_nil_iff_forall_not_mem.mpr
  intro pk hdoomed
  obtain ⟨hoverwrite, row, hrow, rfl, hsource, hname⟩ :=
    (mem_doomed hloaded.keyed.groupKeys).mp hdoomed
  exact hname ((hloaded.mem_sourceGroups_iff hwellFormed hoverwrite hrow).mp hsource)

include hdistinct hclear in
theorem Loaded.hosts_second :
    (secondDeletions env options mem after).hosts = after.hosts := by
  rw [secondDeletions, hosts_deletions]
  apply List.filter_eq_self.mpr
  intro row hrow
  refine decide_eq_true fun hoverwrite => ?_
  by_cases hname : row.name ∈ mem.hosts.map MemHost.name
  · right
    by_contra hnot
    have hlookup := hloaded.lookup_second hdistinct hclear hrow
    rw [lookup_eq_none_iff.mpr hnot, if_pos hname] at hlookup
    exact Option.some_ne_none _ hlookup.symm
  · exact .inl fun hsource =>
      hname ((hloaded.mem_sourceHosts_iff hwellFormed hoverwrite hrow).mp hsource)

theorem Loaded.groups_second :
    (secondDeletions env options mem after).groups = after.groups := by
  rw [secondDeletions, groups_deletions, hloaded.doomed_after hwellFormed]
  apply List.filter_eq_self.mpr
  intro row _
  exact decide_eq_true List.not_mem_nil

theorem Loaded.mem_children_second :
    (parent, child) ∈ (secondDeletions env options mem after).children ↔
      (parent, child) ∈ after.children ∧
        (options.overwrite = true → childToDelete mem after (parent, child) = false) :=
  mem_children_of_doomed_eq_nil (hloaded.doomed_after hwellFormed)

include hdistinct hclear in
theorem Loaded.mem_members_second :
    (group, host) ∈ (secondDeletions env options mem after).members ↔
      (group, host) ∈ after.members ∧ (options.overwrite = true →
        memberToDelete mem after env options (dbInstanceIdMap env options after)
          (group, host) = false) := by
  have hnone : ∀ pk, pk ∉ doomed env options mem after := by
    rw [hloaded.doomed_after hwellFormed]
    exact fun _ => List.not_mem_nil
  rw [secondDeletions, mem_members_deletions hloaded.keyed.groupKeys]
  constructor
  · exact fun hsurvives => ⟨(through_false_iff hnone).mp hsurvives.holds, hsurvives.kept⟩
  · rintro ⟨hmember, hkept⟩
    refine ⟨hnone group, ?_, .direct hmember, hkept⟩
    obtain ⟨row, hrow, rfl⟩ :=
      List.mem_map.mp (hloaded.ends_of_mem_members hwellFormed hmember).2
    rw [← hloaded.hosts_second hwellFormed hdistinct hclear, secondDeletions,
      hosts_deletions] at hrow
    exact of_decide_eq_true (List.mem_filter.mp hrow).2

/-! ## The second rows -/

include hdistinct hclear in
theorem Loaded.hosts_secondRows :
    (secondRows env options mem after).hosts = after.hosts.map
      (importedHost env options mem (pkMemHostMap env options mem after)) :=
  congrArg (List.map _) (hloaded.hosts_second hwellFormed hdistinct hclear)

theorem Loaded.groups_secondRows :
    (secondRows env options mem after).groups =
      after.groups.map (importedGroup options mem) :=
  congrArg (List.map _) (hloaded.groups_second hwellFormed)

theorem Loaded.createUpdateGroups_second :
    createUpdateGroups env options mem (secondDeletions env options mem after) =
      some (updateGroups options mem (secondDeletions env options mem after)) := by
  have hnone : groupsToCreate mem (secondDeletions env options mem after) = [] := by
    apply List.eq_nil_iff_forall_not_mem.mpr
    intro group hgroup
    obtain ⟨hmem, hnew⟩ := mem_groupsToCreate.mp hgroup
    obtain ⟨pk, row, hrow, hname, -⟩ := hloaded.exists_group hmem
    rw [hloaded.groups_second hwellFormed] at hnew
    exact hnew (List.mem_map.mpr ⟨row, hrow, hname⟩)
  rw [createUpdateGroups, hnone]
  rfl

include hdistinct hclear in
theorem Loaded.createUpdateHosts_second :
    createUpdateHosts env options mem
        (updateGroups options mem (secondDeletions env options mem after))
        (pkMemHostMap env options mem after) = some (secondRows env options mem after) := by
  have hhosts : (updateGroups options mem (secondDeletions env options mem after)).hosts =
      after.hosts := hloaded.hosts_second hwellFormed hdistinct hclear
  have hkeyed : (updateGroups options mem (secondDeletions env options mem after)).Keyed :=
    keyed_updateGroups (keyed_deletions hloaded.keyed)
  have hfirst : Matching mem after (pkMemHostMap env options mem after) := matching_pkMemHostMap
  have hmatching : Matching mem
      (updateGroups options mem (secondDeletions env options mem after))
      (pkMemHostMap env options mem after) := by
    refine ⟨hfirst.keys, hfirst.names, ?_, hfirst.imported⟩
    rw [hhosts]
    exact hfirst.rows
  have hlookup : ∀ {row : Host}, row ∈ after.hosts → row.name ∈ mem.hosts.map MemHost.name →
      (pkMemHostMap env options mem after).lookup row.pk = some row.name := by
    intro row hrow himported
    rw [hloaded.lookup_second hdistinct hclear hrow, if_pos himported]
  have hrenamable : Renamable env
      (updateGroups options mem (secondDeletions env options mem after))
      (pkMemHostMap env options mem after) := by
    intro earlier row later hsplit other hother hne _ hfound
    have hrow : row ∈ foundRows env
        (updateGroups options mem (secondDeletions env options mem after))
        (pkMemHostMap env options mem after) := by
      rw [hsplit]
      exact List.mem_append_right _ List.mem_cons_self
    have hafter : row ∈ after.hosts := hhosts ▸ (mem_foundRows.mp hrow).1
    rw [hloaded.lookup_second hdistinct hclear hafter] at hfound
    obtain ⟨-, hname⟩ := Option.ite_none_right_eq_some.mp hfound
    have heq := List.inj_on_of_nodup_map hloaded.keyed.hostNames (hhosts ▸ hother) hafter
      (Option.some.inj hname).symm
    exact hne (congrArg Host.pk heq)
  have hnone : hostsToCreate env options mem
      (updateGroups options mem (secondDeletions env options mem after))
      (pkMemHostMap env options mem after) = [] := by
    apply List.eq_nil_iff_forall_not_mem.mpr
    intro memHost hhost
    obtain ⟨hmem, hnew⟩ := (mem_hostsToCreate hmatching).mp hhost
    obtain ⟨pk, row, hrow, hname, -⟩ := hloaded.exists_host hmem
    have hfound := hlookup hrow (hname ▸ List.mem_map_of_mem hmem)
    rw [hname] at hfound
    exact hnew (List.mem_map_of_mem ((lookup_eq_some_iff hfirst.keys).mp hfound))
  rw [createUpdateHosts_eq hkeyed hmatching hrenamable, hnone]
  rfl

include hdistinct hclear in
theorem Loaded.load_second :
    loadIntoDatabase env options mem after =
      if (secondImport env options mem after).dangling then none
      else some (secondImport env options mem after) := by
  rw [loadIntoDatabase]
  dsimp only
  rw [← secondDeletions, hloaded.createUpdateGroups_second hwellFormed, Option.bind_some,
    hloaded.createUpdateHosts_second hwellFormed hdistinct hclear, Option.bind_some]
  rfl

/-! ## Same rows -/

include hdistinct hclear in
theorem Loaded.sameHosts_iff :
    List.Forall₂ SameHost after.hosts (secondImport env options mem after).hosts ↔
      ∀ host ∈ mem.hosts, host.name ∉ (pkMemHostMap env options mem before).map Prod.snd →
        host.vars.lookup descriptionVar = none := by
  have hupdated : ∀ {row : Host} {host : MemHost}, row ∈ after.hosts → host ∈ mem.hosts →
      row.name = host.name →
        importedHost env options mem (pkMemHostMap env options mem after) row =
          updateHost env options row host := by
    intro row host hrow hhost hname
    apply importedHost_of_found _ (MemInventory.host_of_mem hhost)
    rw [hloaded.lookup_second hdistinct hclear hrow, hname, if_pos (List.mem_map_of_mem hhost)]
  rw [hosts_secondImport, hloaded.hosts_secondRows hwellFormed hdistinct hclear,
    List.forall₂_map_right_iff, List.forall₂_same]
  constructor
  · intro hall host hhost hnew
    obtain ⟨pk, row, hrow, hname, -⟩ := hloaded.exists_host hhost
    have hsame := hall row hrow
    rw [hupdated hrow hhost hname] at hsame
    cases hloaded.rowAfter hclear hrow with
    | updated _ hfound _ =>
      rw [name_updateHost] at hname
      rw [hname] at hfound
      exact absurd (List.mem_map_of_mem (mem_of_lookup hfound)) hnew
    | created hother _ =>
      obtain rfl := List.inj_on_of_nodup_map mem.hostNames hother hhost hname
      by_contra hsome
      exact not_sameHost_createdHost hsome hsame
    | other hold hremains hfound =>
      exact absurd (hname ▸ List.mem_map_of_mem hhost)
        (hclear.others row hold hremains hfound).1
  · intro hall row hrow
    cases hloaded.rowAfter hclear hrow with
    | updated _ _ hhost =>
      rw [hupdated hrow hhost rfl]
      exact sameHost_updateHost _ _
    | created hhost hnew =>
      rw [hupdated hrow hhost rfl]
      exact sameHost_createdHost (hall _ hhost hnew)
    | other hold hremains hfound =>
      have hname := (hclear.others row hold hremains hfound).1
      rw [importedHost_of_not_found]
      · exact SameHost.refl row
      · rw [hloaded.lookup_second hdistinct hclear hrow, if_neg hname]

theorem Loaded.sameGroups_iff :
    List.Forall₂ SameGroup after.groups (secondImport env options mem after).groups ↔
      ∀ group ∈ mem.groups, group.name ∉ before.groups.map Group.name →
        group.vars.lookup descriptionVar = none := by
  have hupdated : ∀ {row : Group} {group : MemGroup}, group ∈ mem.groups →
      row.name = group.name → importedGroup options mem row = updateGroup options row group := by
    intro row group hgroup hname
    rw [importedGroup, hname, MemInventory.group_of_mem hgroup]
    rfl
  have horigin := fun {row : Group} (hrow : row ∈ after.groups) =>
    hloaded.groups.origin row (hloaded.groups_eq ▸ hrow)
  rw [groups_secondImport, hloaded.groups_secondRows hwellFormed, List.forall₂_map_right_iff,
    List.forall₂_same]
  constructor
  · intro hall group hgroup hnew
    have hgone : ∀ row ∈ (deletions env options mem before
        (pkMemHostMap env options mem before)).groups, row.name ≠ group.name := by
      intro row hrow hname
      rw [groups_deletions] at hrow
      exact hnew (List.mem_map.mpr ⟨row, List.mem_of_mem_filter hrow, hname⟩)
    obtain ⟨pk, row, hrow, hname, -⟩ := hloaded.exists_group hgroup
    have hsame := hall row hrow
    rw [hupdated hgroup hname] at hsame
    cases horigin hrow with
    | @updated old _ hold _ => exact absurd hname (hgone old hold)
    | kept hold _ => exact absurd hname (hgone row hold)
    | created _ hother _ _ =>
      obtain rfl := MemInventory.group_name_unique hother hgroup hname
      exact sameGroup_createdGroup_iff.mp hsame
  · intro hall row hrow
    cases horigin hrow with
    | @updated old group _ hgroup =>
      obtain ⟨hmem, hname⟩ := MemInventory.mem_of_group hgroup
      have hsame : (updateGroup options old group).name = group.name := hname.symm
      rw [hupdated hmem hsame]
      exact sameGroup_updateGroup _ _
    | kept _ hname =>
      have hnone : mem.group row.name = none := by
        cases hgroup : mem.group row.name with
        | none => rfl
        | some group =>
          obtain ⟨hmem, hsame⟩ := MemInventory.mem_of_group hgroup
          exact absurd (hsame ▸ List.mem_map_of_mem hmem) hname
      rw [importedGroup, hnone]
      exact SameGroup.refl row
    | created _ hgroup hnew _ =>
      rw [hupdated hgroup rfl]
      apply sameGroup_createdGroup_iff.mpr
      apply hall _ hgroup
      exact fun hold => hnew ((mem_names_deletions hwellFormed.toKeyed
        (List.mem_map_of_mem hgroup) _).mpr hold)

/-! ## Same relations -/

theorem Loaded.isGroup_secondRows :
    (secondRows env options mem after).IsGroup name pk ↔ after.IsGroup name pk := by
  rw [Inventory.IsGroup, hloaded.groups_secondRows hwellFormed]
  constructor
  · rintro ⟨row, hrow, hname, hpk⟩
    obtain ⟨source, hsource, rfl⟩ := List.mem_map.mp hrow
    rw [name_importedGroup] at hname
    rw [pk_importedGroup] at hpk
    exact ⟨source, hsource, hname, hpk⟩
  · rintro ⟨row, hrow, hname, hpk⟩
    exact ⟨_, List.mem_map_of_mem hrow, (name_importedGroup options mem row).trans hname,
      (pk_importedGroup options mem row).trans hpk⟩

omit hwellFormed in
theorem Loaded.reached {memGroup : MemGroup} (hgroup : memGroup ∈ mem.groups)
    (hparent : after.IsGroup memGroup.name parent) (hname : name ∈ memGroup.children)
    (hchild : after.IsGroup name child) :
    (parent, child) ∈ after.children ∨ (child, parent) ∈ after.children := by
  have hedge : ImportedEdge mem hosted parent child :=
    (importedEdge_iff hloaded.hosts.keyed hgroup (hloaded.isGroup_hosted.mpr hparent)
      (hloaded.isGroup_hosted.mpr hchild)).mpr hname
  rw [hloaded.after]
  exact childrenImported.reached parent child hedge

theorem Loaded.children_second_iff :
    (secondImport env options mem after).children = after.children ↔
      (options.overwrite = true → ∀ parent child, (parent, child) ∈ after.children →
        childToDelete mem after (parent, child) = false) := by
  have himported : ChildrenImported mem (secondRows env options mem after)
      (createUpdateGroupChildren env mem (secondRows env options mem after)) := childrenImported
  have hchildren : (secondImport env options mem after).children =
      (createUpdateGroupChildren env mem (secondRows env options mem after)).children := rfl
  have hsecond : ∀ parent child, (parent, child) ∈ (secondRows env options mem after).children ↔
      (parent, child) ∈ after.children ∧
        (options.overwrite = true → childToDelete mem after (parent, child) = false) :=
    fun _ _ => hloaded.mem_children_second hwellFormed
  rw [hchildren]
  constructor
  · intro hsame hoverwrite parent child hedge
    by_contra hkept
    have hdeleted := Bool.eq_true_of_not_eq_false hkept
    rw [childToDelete_eq_true_iff hloaded.keyed] at hdeleted
    obtain ⟨-, group, hgroup, hparent, other, hother, hchild, hnot⟩ := hdeleted
    rcases himported.new parent child (hsame ▸ hedge) with hold | hnew
    · exact absurd (((hsecond parent child).mp hold).2 hoverwrite) hkept
    · obtain ⟨group', hgroup', hparent', name, hname, hchild'⟩ := exists_of_importedEdge hnew
      rw [hloaded.isGroup_secondRows hwellFormed] at hparent' hchild'
      obtain rfl := MemInventory.group_name_unique hgroup' hgroup
        (hloaded.keyed.group_name_unique hparent' hparent)
      exact hnot (hloaded.keyed.group_name_unique hchild' hchild ▸ hname)
  · intro hkept
    have hold : ∀ parent child, (parent, child) ∈ after.children →
        (parent, child) ∈ (createUpdateGroupChildren env mem
          (secondRows env options mem after)).children := fun parent child hedge =>
      himported.old parent child ((hsecond parent child).mpr
        ⟨hedge, fun hoverwrite => hkept hoverwrite parent child hedge⟩)
    ext ⟨parent, child⟩
    refine ⟨fun hedge => ?_, hold parent child⟩
    by_contra hnot
    rcases himported.new parent child hedge with hsecondEdge | hnew
    · exact hnot ((hsecond parent child).mp hsecondEdge).1
    · obtain ⟨group, hgroup, hparent, name, hname, hchild⟩ := exists_of_importedEdge hnew
      rw [hloaded.isGroup_secondRows hwellFormed] at hparent hchild
      rcases hloaded.reached hgroup hparent hname hchild with hthere | hreverse
      · exact hnot hthere
      · have hne : parent ≠ child := by
          rintro rfl
          exact hnot hreverse
        apply himported.apart parent child hedge _ hne (hold child parent hreverse)
        exact fun hsecondEdge => hnot ((hsecond parent child).mp hsecondEdge).1

include hdistinct hclear in
omit hwellFormed in
theorem Loaded.instanceId_importedHost {row : Host}
    (hrow : row ∈ after.hosts) :
    (importedHost env options mem (pkMemHostMap env options mem after) row).name = row.name ∧
      (importedHost env options mem (pkMemHostMap env options mem after) row).instanceId =
        row.instanceId := by
  have hlookup := hloaded.lookup_second hdistinct hclear hrow
  by_cases himported : row.name ∈ mem.hosts.map MemHost.name
  · obtain ⟨host, hhost, hname⟩ := List.mem_map.mp himported
    rw [if_pos himported, ← hname] at hlookup
    rw [importedHost_of_found hlookup (MemInventory.host_of_mem hhost)]
    exact ⟨hname, ((hloaded.rowAfter hclear hrow).instanceId_eq hclear hhost hname.symm).symm⟩
  · rw [if_neg himported] at hlookup
    rw [importedHost_of_not_found hlookup]
    exact ⟨rfl, rfl⟩

include hdistinct hclear in
theorem Loaded.mem_members_secondImport :
    (group, host) ∈ (secondImport env options mem after).members ↔
      (group, host) ∈ (secondDeletions env options mem after).members ∨
        ∃ row ∈ after.groups, row.pk = group ∧ ∃ row' ∈ after.hosts, row'.pk = host ∧
          ∃ memGroup, mem.group row.name = some memGroup ∧
            Added env options mem memGroup row' := by
  have hframe : createUpdateGroupChildren env mem (secondRows env options mem after) =
      { secondRows env options mem after with
        children := (createUpdateGroupChildren env mem
          (secondRows env options mem after)).children } := childrenImported.frame
  rw [secondImport, mem_members_createUpdateGroupHosts, hframe]
  refine or_congr Iff.rfl ?_
  change (∃ row ∈ (secondRows env options mem after).groups, row.pk = group ∧
    ∃ row' ∈ (secondRows env options mem after).hosts, row'.pk = host ∧ ∃ memGroup,
      mem.group row.name = some memGroup ∧ Added env options mem memGroup row') ↔ _
  rw [hloaded.groups_secondRows hwellFormed, hloaded.hosts_secondRows hwellFormed hdistinct hclear]
  simp only [List.mem_map, exists_exists_and_eq_and, pk_importedGroup, name_importedGroup,
    pk_importedHost]
  refine exists_congr fun row => and_congr_right fun _ => and_congr_right fun _ =>
    exists_congr fun row' => and_congr_right fun hrow' => and_congr_right fun _ =>
      exists_congr fun memGroup => and_congr_right fun _ => ?_
  obtain ⟨hname, hid⟩ := hloaded.instanceId_importedHost hdistinct hclear hrow'
  rw [Added, Added, hname, hid]

include hdistinct hclear in
theorem Loaded.members_second_iff :
    (secondImport env options mem after).members = after.members ↔
      (options.overwrite = true → ∀ group host, (group, host) ∈ after.members →
        memberToDelete mem after env options (dbInstanceIdMap env options after)
          (group, host) = false) := by
  constructor
  · intro hsame hoverwrite group host hmember
    obtain ⟨-, hhost⟩ := hloaded.ends_of_mem_members hwellFormed hmember
    obtain ⟨row, hrow, rfl⟩ := List.mem_map.mp hhost
    rcases (hloaded.mem_members_secondImport hwellFormed hdistinct hclear).mp (hsame ▸ hmember)
      with hold | ⟨other, hother, rfl, row', hrow', hpk, memGroup, hgroup, hreaches⟩
    · exact ((hloaded.mem_members_second hwellFormed hdistinct hclear).mp hold).2 hoverwrite
    · obtain rfl := List.inj_on_of_nodup_map hloaded.keyed.hostKeys hrow' hrow hpk
      by_contra hdeleted
      rw [Bool.not_eq_false, memberToDelete_eq_true_iff hloaded.keyed hrow] at hdeleted
      obtain ⟨-, -, memGroup', hmem', hisGroup, hnot, -⟩ := hdeleted
      obtain ⟨hmem, hname⟩ := MemInventory.mem_of_group hgroup
      obtain rfl := MemInventory.group_name_unique hmem' hmem
        (hloaded.keyed.group_name_unique hisGroup ⟨other, hother, hname.symm, rfl⟩)
      exact hnot hreaches
  · intro hkept
    ext ⟨group, host⟩
    rw [hloaded.mem_members_secondImport hwellFormed hdistinct hclear,
      hloaded.mem_members_second hwellFormed hdistinct hclear]
    constructor
    · rintro (⟨hmember, -⟩ | hnew)
      · exact hmember
      · exact (hloaded.mem_members hwellFormed.toKeyed).mpr (.inr hnew)
    · exact fun hmember => .inl ⟨hmember, fun hoverwrite => hkept hoverwrite group host hmember⟩

/-! ## What the first import leaves -/

theorem Loaded.mem_sourceGroups_of_imported (hoverwrite : options.overwrite = true)
    {memGroup : MemGroup}
    (hgroup : memGroup ∈ mem.groups) (hpk : after.IsGroup memGroup.name pk) :
    pk ∈ after.sourceGroups := by
  obtain ⟨row, hrow, hname, rfl⟩ := hpk
  exact (hloaded.mem_sourceGroups_iff hwellFormed hoverwrite hrow).mpr
    (hname ▸ List.mem_map_of_mem hgroup)

theorem Loaded.children_settled_iff (hoverwrite : options.overwrite = true) :
    (∀ parent child, (parent, child) ∈ after.children →
        childToDelete mem after (parent, child) = false) ↔
      ∀ group ∈ mem.groups, ∀ child ∈ mem.groups,
        Linked env options mem before group.name child.name → child.name ∈ group.children := by
  have hkeyed := hloaded.keyed
  constructor
  · intro hall group hgroup child hchild hlinked
    obtain ⟨pk, hpk⟩ := hloaded.exists_group hgroup
    obtain ⟨pk', hpk'⟩ := hloaded.exists_group hchild
    have hedge := hall pk pk' (hloaded.mem_children_of_deletions
      ((hloaded.mem_children_iff_linked hwellFormed hpk hpk').mpr hlinked))
    by_contra hnot
    have hsource := hloaded.mem_sourceGroups_of_imported hwellFormed hoverwrite hgroup hpk
    have hdeleted := (childToDelete_eq_true_iff hkeyed).mpr
      ⟨hsource, group, hgroup, hpk, child, hchild, hpk', hnot⟩
    exact Bool.false_ne_true (hedge.symm.trans hdeleted)
  · intro hall parent child hedge
    by_contra hdeleted
    rw [Bool.not_eq_false, childToDelete_eq_true_iff hkeyed] at hdeleted
    obtain ⟨-, group, hgroup, hparent, other, hother, hchild, hnot⟩ := hdeleted
    rcases hloaded.mem_children_cases hedge with hold | hnew
    · exact hnot (hall group hgroup other hother
        ((hloaded.mem_children_iff_linked hwellFormed hparent hchild).mp hold))
    · exact hnot ((importedEdge_iff hloaded.hosts.keyed hgroup
        (hloaded.isGroup_hosted.mpr hparent) (hloaded.isGroup_hosted.mpr hchild)).mp hnew)

include hclear in
theorem Loaded.members_settled_iff (hoverwrite : options.overwrite = true) :
    (∀ group host, (group, host) ∈ after.members →
        memberToDelete mem after env options (dbInstanceIdMap env options after)
          (group, host) = false) ↔
      ∀ group ∈ mem.groups, ∀ host ∈ mem.hosts,
        Retains env options mem before (pkMemHostMap env options mem before) group.name
            host.name →
          Reaches env options mem (pkMemHostMap env options mem before) group host := by
  have hkeyed := hloaded.keyed
  have hreaches : ∀ {row : Host} {host : MemHost}, row ∈ after.hosts → host ∈ mem.hosts →
      row.name = host.name → ∀ memGroup, Added env options mem memGroup row ↔
        Reaches env options mem (pkMemHostMap env options mem before) memGroup host :=
    fun hrow hhost hname memGroup => (hloaded.hosts.origin _ (hloaded.hosts_eq ▸ hrow)).added_iff
      matching_pkMemHostMap.keys hhost hname memGroup
  constructor
  · intro hall group hgroup host hhost hretains
    obtain ⟨pk, hpk⟩ := hloaded.exists_group hgroup
    obtain ⟨pk', hpk'⟩ := hloaded.exists_host hhost
    have hmember := hall pk pk'
      ((hloaded.mem_members_iff hwellFormed hgroup hhost hpk hpk').mpr (.inl hretains))
    obtain ⟨row', hrow', hname', rfl⟩ := hpk'
    by_contra hnot
    have hsource := hloaded.mem_sourceGroups_of_imported hwellFormed hoverwrite hgroup hpk
    have hsource' : row'.pk ∈ after.sourceHosts :=
      (hloaded.mem_sourceHosts_iff hwellFormed hoverwrite hrow').mpr
        (hname' ▸ List.mem_map_of_mem hhost)
    have hdeleted := (memberToDelete_eq_true_iff hkeyed hrow'
      (dbInstanceIdMap env options after)).mpr ⟨hsource, hsource', group, hgroup, hpk,
        (hreaches hrow' hhost hname' group).not.mpr hnot, fun id hid hlookup =>
          hloaded.not_hasId_of_lookup hclear hlookup (mem_memInstanceIds_hasId hid)⟩
    exact Bool.false_ne_true (hmember.symm.trans hdeleted)
  · intro hall group host hmember
    obtain ⟨row, hrow, rfl⟩ :=
      List.mem_map.mp (hloaded.ends_of_mem_members hwellFormed hmember).2
    by_contra hdeleted
    rw [Bool.not_eq_false, memberToDelete_eq_true_iff hkeyed hrow] at hdeleted
    obtain ⟨-, hsource, memGroup, hmemGroup, hgroup, hnot, -⟩ := hdeleted
    have himported := (hloaded.mem_sourceHosts_iff hwellFormed hoverwrite hrow).mp hsource
    obtain ⟨memHost, hmemHost, hname⟩ := List.mem_map.mp himported
    rw [hreaches hrow hmemHost hname.symm] at hnot
    rcases (hloaded.mem_members_iff hwellFormed hmemGroup hmemHost hgroup
      ⟨row, hrow, hname.symm, rfl⟩).mp hmember with hretains | hadded
    · exact hnot (hall memGroup hmemGroup memHost hmemHost hretains)
    · exact hnot hadded

theorem Loaded.dangling_second
    (hchildren : (secondImport env options mem after).children = after.children)
    (hwhole : after.dangling = false) :
    (secondImport env options mem after).dangling = false := by
  have hkeys : (secondImport env options mem after).groups.map Group.pk =
      after.groups.map Group.pk := by
    rw [groups_secondImport, hloaded.groups_secondRows hwellFormed, List.map_map]
    exact List.map_congr_left fun row _ => pk_importedGroup options mem row
  rw [Inventory.dangling, hchildren, hkeys]
  exact hwhole

end

theorem not_hasId_mergeOptions (id : String) :
    ¬ HasId plainSurroundings mergeOptions mem id := by
  rintro ⟨hne, host, -, rfl⟩
  exact hne (getInstanceId_of_nil rfl host.vars)

theorem distinctIds_mergeOptions : DistinctIds plainSurroundings mergeOptions mem :=
  fun host _ _ _ hne _ => absurd (getInstanceId_of_nil rfl host.vars) hne

theorem clear_emptyInventory : Clear plainSurroundings mergeOptions mem emptyInventory
    (pkMemHostMap plainSurroundings mergeOptions mem emptyInventory) where
  others := fun _ hrow => absurd hrow List.not_mem_nil
  updated := fun _ hrow => absurd hrow List.not_mem_nil
  created := fun _ _ _ _ => not_hasId_mergeOptions _
  ids := fun _ _ _ => (getInstanceId_of_nil rfl _).trans (getInstanceId_of_nil rfl _).symm

def describedInventory : MemInventory where
  hosts := [⟨"web1", AList.singleton descriptionVar (.str "web server")⟩]
  groups := []
  hostNames := by decide
  groupNames := by decide
  childrenRead := by decide
  hostsRead := by decide

end Forail.InventoryImport
