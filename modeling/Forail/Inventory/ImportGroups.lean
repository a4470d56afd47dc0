import Forail.Core.Runs
import Forail.Inventory.HostMatching

/-!
# The groups of an import

Every imported group has one row after the import, which the group had before or which is
new.  Rows keep their keys and names.
-/

namespace Forail.InventoryImport

open Forail.Json

variable {env : Surroundings} {options : Options} {mem : MemInventory} {db db' : Inventory}
  {pk : ℕ} {name : String}

/-! ## New groups -/

structure GroupsCreated (env : Surroundings) (db : Inventory) (created : List MemGroup)
    (db' : Inventory) : Prop where
  frame : db' = { db with
    groups := db'.groups
    sourceGroups := db'.sourceGroups
    nextGroup := db'.nextGroup }
  keyed : db'.Keyed
  later : db.nextGroup ≤ db'.nextGroup
  kept : ∀ row ∈ db.groups, row ∈ db'.groups
  origin : ∀ row ∈ db'.groups, row ∈ db.groups ∨ ∃ group ∈ created, ∃ description,
    describe env group.vars = some description ∧ db.nextGroup ≤ row.pk ∧
      row = createdGroup row.pk group description
  all : ∀ group ∈ created, group.name ∈ db'.groups.map Group.name
  source : ∀ row ∈ db'.groups, row.pk ∈ db'.sourceGroups ↔
    row.pk ∈ db.sourceGroups ∨ row.name ∈ created.map MemGroup.name

theorem groupsCreated_nil (hkeyed : db.Keyed) : GroupsCreated env db [] db where
  frame := rfl
  keyed := hkeyed
  later := le_rfl
  kept := fun _ hrow => hrow
  origin := fun _ hrow => .inl hrow
  all := fun _ hgroup => absurd hgroup List.not_mem_nil
  source := fun _ _ => (or_iff_left List.not_mem_nil).symm

theorem Inventory.Keyed.addGroup (hkeyed : db.Keyed) {row : Group} (hpk : row.pk = db.nextGroup)
    (hname : row.name ∉ db.groups.map Group.name) (sourceGroups : Finset ℕ) :
    ({ db with
        groups := db.groups ++ [row]
        sourceGroups := sourceGroups
        nextGroup := db.nextGroup + 1 } : Inventory).Keyed := by
  have hkey : row.pk ∉ db.groups.map Group.pk := by
    intro hmem
    obtain ⟨other, hother, hsame⟩ := List.mem_map.mp hmem
    exact absurd (hkeyed.freshGroups other hother) (by omega)
  refine { hkeyed with groupKeys := ?_, groupNames := ?_, freshGroups := ?_ }
  · rw [List.map_append]
    exact hkeyed.groupKeys.append (List.nodup_singleton _)
      (List.disjoint_singleton.mpr hkey)
  · rw [List.map_append]
    exact hkeyed.groupNames.append (List.nodup_singleton _)
      (List.disjoint_singleton.mpr hname)
  · intro other hother
    change other.pk < db.nextGroup + 1
    rcases List.mem_append.mp hother with hold | hlast
    · exact Nat.lt_succ_of_lt (hkeyed.freshGroups other hold)
    · rw [List.mem_singleton.mp hlast, hpk]
      exact Nat.lt_succ_self _

theorem GroupsCreated.createGroup {created : List MemGroup} {middle : Inventory}
    (hcreated : GroupsCreated env db created middle) {group : MemGroup}
    (hold : group.name ∉ db.groups.map Group.name)
    (hnew : group.name ∉ created.map MemGroup.name)
    (hstep : createGroup env middle group = some db') :
    GroupsCreated env db (created ++ [group]) db' := by
  obtain ⟨description, hdescribe, rfl⟩ := Option.map_eq_some_iff.mp hstep
  have hname : group.name ∉ middle.groups.map Group.name := by
    intro hmem
    obtain ⟨row, hrow, hsame⟩ := List.mem_map.mp hmem
    rcases hcreated.origin row hrow with hrow | ⟨other, hother, description, -, -, heq⟩
    · exact hold (List.mem_map.mpr ⟨row, hrow, hsame⟩)
    · rw [heq] at hsame
      exact hnew (List.mem_map.mpr ⟨other, hother, hsame⟩)
  refine ⟨?_, ?_, ?_, ?_, ?_, ?_, ?_⟩
  · rw [hcreated.frame]
  · exact hcreated.keyed.addGroup rfl hname _
  · exact Nat.le_succ_of_le hcreated.later
  · exact fun row hrow => List.mem_append_left _ (hcreated.kept row hrow)
  · intro row hrow
    rcases List.mem_append.mp hrow with hrow | hlast
    · rcases hcreated.origin row hrow with hrow | ⟨other, hother, hrest⟩
      · exact .inl hrow
      · exact .inr ⟨other, List.mem_append_left _ hother, hrest⟩
    · obtain rfl := List.mem_singleton.mp hlast
      exact .inr ⟨group, List.mem_append_right _ List.mem_cons_self, description, hdescribe,
        hcreated.later, rfl⟩
  · intro other hother
    rw [List.map_append]
    rcases List.mem_append.mp hother with hother | hlast
    · exact List.mem_append_left _ (hcreated.all other hother)
    · obtain rfl := List.mem_singleton.mp hlast
      exact List.mem_append_right _ List.mem_cons_self
  · intro row hrow
    rw [List.map_append, List.mem_append, ← or_assoc]
    rcases List.mem_append.mp hrow with hrow | hlast
    · have hpk : row.pk ≠ middle.nextGroup := (hcreated.keyed.freshGroups row hrow).ne
      have hother : row.name ≠ group.name :=
        fun hsame => hname (List.mem_map.mpr ⟨row, hrow, hsame⟩)
      rw [← hcreated.source row hrow]
      exact (Finset.mem_insert.trans (or_iff_right hpk)).trans
        (or_iff_left fun hmem => hother (List.mem_singleton.mp hmem)).symm
    · obtain rfl := List.mem_singleton.mp hlast
      exact ⟨fun _ => .inr List.mem_cons_self, fun _ => Finset.mem_insert_self _ _⟩

theorem mem_groupsToCreate {group : MemGroup} : group ∈ groupsToCreate mem db ↔
    group ∈ mem.groups ∧ group.name ∉ db.groups.map Group.name := by
  rw [groupsToCreate, List.mem_filterMap]
  constructor
  · rintro ⟨name, -, hfound⟩
    obtain ⟨hnew, hgroup⟩ := Option.ite_none_left_eq_some.mp hfound
    obtain ⟨hmem, rfl⟩ := MemInventory.mem_of_group hgroup
    exact ⟨hmem, hnew⟩
  · rintro ⟨hmem, hnew⟩
    refine ⟨group.name, mem_sortedNames.mpr (List.mem_map_of_mem hmem), ?_⟩
    rw [if_neg hnew, MemInventory.group_of_mem hmem]

theorem nodup_groupsToCreate : ((groupsToCreate mem db).map MemGroup.name).Nodup := by
  apply nodup_map_filterMap
  · intro name group hfound
    exact (MemInventory.mem_of_group (Option.ite_none_left_eq_some.mp hfound).2).2
  · exact nodup_sortedNames.mpr mem.groupNames

theorem groupsCreated_of_foldlM (hkeyed : db.Keyed)
    (hrun : (groupsToCreate mem db).foldlM (createGroup env) db = some db') :
    GroupsCreated env db (groupsToCreate mem db) db' := by
  apply Runs.foldlM_invariant (GroupsCreated env db) (groupsCreated_nil hkeyed) _ hrun
  intro before group after hsplit middle middle' hcreated hstep
  have hgroup : group ∈ groupsToCreate mem db := by
    rw [hsplit]
    exact List.mem_append_right _ List.mem_cons_self
  have hnodup : ((groupsToCreate mem db).map MemGroup.name).Nodup := nodup_groupsToCreate
  rw [hsplit, List.map_append] at hnodup
  apply hcreated.createGroup (mem_groupsToCreate.mp hgroup).2 _ hstep
  exact fun hmem => (List.nodup_append.mp hnodup).2.2 _ hmem _ List.mem_cons_self rfl

/-! ## All groups -/

inductive GroupOrigin (env : Surroundings) (options : Options) (mem : MemInventory)
    (db : Inventory) : Group → Prop where
  | updated {row : Group} {group : MemGroup} (hrow : row ∈ db.groups)
      (hgroup : mem.group row.name = some group) :
      GroupOrigin env options mem db (updateGroup options row group)
  | kept {row : Group} (hrow : row ∈ db.groups)
      (hname : row.name ∉ mem.groups.map MemGroup.name) : GroupOrigin env options mem db row
  | created {pk : ℕ} {group : MemGroup} {description : String} (hpk : db.nextGroup ≤ pk)
      (hgroup : group ∈ mem.groups) (hnew : group.name ∉ db.groups.map Group.name)
      (hdescribe : describe env group.vars = some description) :
      GroupOrigin env options mem db (createdGroup pk group description)

structure GroupsImported (env : Surroundings) (options : Options) (mem : MemInventory)
    (db db' : Inventory) : Prop where
  frame : db' = { db with
    groups := db'.groups
    sourceGroups := db'.sourceGroups
    nextGroup := db'.nextGroup }
  keyed : db'.Keyed
  later : db.nextGroup ≤ db'.nextGroup
  origin : ∀ row ∈ db'.groups, GroupOrigin env options mem db row
  kept : ∀ row ∈ db.groups, ∃ row' ∈ db'.groups, row'.pk = row.pk ∧ row'.name = row.name
  all : ∀ group ∈ mem.groups, group.name ∈ db'.groups.map Group.name
  source : ∀ row ∈ db'.groups, row.pk ∈ db'.sourceGroups ↔
    row.pk ∈ db.sourceGroups ∨ row.name ∈ mem.groups.map MemGroup.name

section

variable (options : Options) (mem : MemInventory)

def importedGroup (row : Group) : Group :=
  ((mem.group row.name).map (updateGroup options row)).getD row

theorem pk_importedGroup (row : Group) : (importedGroup options mem row).pk = row.pk := by
  rw [importedGroup]
  cases mem.group row.name <;> rfl

theorem name_importedGroup (row : Group) : (importedGroup options mem row).name = row.name := by
  rw [importedGroup]
  cases mem.group row.name <;> rfl

end

theorem groups_updateGroups :
    (updateGroups options mem db).groups = db.groups.map (importedGroup options mem) := rfl

theorem map_pk_updateGroups :
    (updateGroups options mem db).groups.map Group.pk = db.groups.map Group.pk := by
  rw [groups_updateGroups, List.map_map]
  exact List.map_congr_left fun row _ => pk_importedGroup options mem row

theorem map_name_updateGroups :
    (updateGroups options mem db).groups.map Group.name = db.groups.map Group.name := by
  rw [groups_updateGroups, List.map_map]
  exact List.map_congr_left fun row _ => name_importedGroup options mem row

theorem keyed_updateGroups (hkeyed : db.Keyed) : (updateGroups options mem db).Keyed where
  hostKeys := hkeyed.hostKeys
  hostNames := hkeyed.hostNames
  groupKeys := by
    rw [map_pk_updateGroups]
    exact hkeyed.groupKeys
  groupNames := by
    rw [map_name_updateGroups]
    exact hkeyed.groupNames
  freshHosts := hkeyed.freshHosts
  freshGroups := by
    intro row hrow
    obtain ⟨source, hsource, rfl⟩ := List.mem_map.mp hrow
    rw [← importedGroup, pk_importedGroup]
    exact hkeyed.freshGroups source hsource

theorem groupsToCreate_updateGroups :
    groupsToCreate mem (updateGroups options mem db) = groupsToCreate mem db := by
  rw [groupsToCreate, map_name_updateGroups, groupsToCreate]

theorem mem_sourceGroups_updateGroups (hkeys : (db.groups.map Group.pk).Nodup) {row : Group}
    (hrow : row ∈ db.groups) : row.pk ∈ (updateGroups options mem db).sourceGroups ↔
      row.pk ∈ db.sourceGroups ∨ row.name ∈ mem.groups.map MemGroup.name := by
  refine Finset.mem_union.trans (or_congr_right ?_)
  rw [List.mem_toFinset, List.mem_map]
  constructor
  · rintro ⟨other, hother, hsame⟩
    obtain ⟨hmem, hname⟩ := List.mem_filter.mp hother
    obtain rfl := List.inj_on_of_nodup_map hkeys hmem hrow hsame
    exact of_decide_eq_true hname
  · exact fun hname => ⟨row, List.mem_filter.mpr ⟨hrow, decide_eq_true hname⟩, rfl⟩

theorem groupsImported_of_createUpdateGroups (hkeyed : db.Keyed)
    (hrun : createUpdateGroups env options mem db = some db') :
    GroupsImported env options mem db db' := by
  have hsame : groupsToCreate mem (updateGroups options mem db) = groupsToCreate mem db :=
    groupsToCreate_updateGroups
  rw [createUpdateGroups, ← hsame] at hrun
  have hcreated := groupsCreated_of_foldlM (keyed_updateGroups hkeyed) hrun
  have hrows : ∀ row ∈ (updateGroups options mem db).groups,
      ∃ source ∈ db.groups, importedGroup options mem source = row :=
    fun row hrow => List.mem_map.mp hrow
  refine ⟨?_, hcreated.keyed, hcreated.later, ?_, ?_, ?_, ?_⟩
  · rw [hcreated.frame]
    rfl
  · intro row hrow
    rcases hcreated.origin row hrow with hrow | ⟨group, hgroup, description, hdescribe, hpk, heq⟩
    · obtain ⟨source, hsource, rfl⟩ := hrows row hrow
      rw [importedGroup]
      cases hfound : mem.group source.name with
      | none =>
        apply GroupOrigin.kept hsource
        intro hname
        obtain ⟨group, hgroup⟩ := MemInventory.exists_group hname
        exact Option.some_ne_none group (hgroup.symm.trans hfound)
      | some group => exact .updated hsource hfound
    · obtain ⟨hmem, hnew⟩ := mem_groupsToCreate.mp hgroup
      rw [heq]
      exact .created hpk hmem (map_name_updateGroups ▸ hnew) hdescribe
  · intro row hrow
    exact ⟨_, hcreated.kept _ (List.mem_map_of_mem hrow), pk_importedGroup options mem row,
      name_importedGroup options mem row⟩
  · intro group hgroup
    by_cases hnew : group.name ∈ (updateGroups options mem db).groups.map Group.name
    · obtain ⟨row, hrow, hname⟩ := List.mem_map.mp hnew
      exact List.mem_map.mpr ⟨row, hcreated.kept row hrow, hname⟩
    · exact hcreated.all group (mem_groupsToCreate.mpr ⟨hgroup, hnew⟩)
  · intro row hrow
    rw [hcreated.source row hrow]
    rcases hcreated.origin row hrow with hold | ⟨group, hgroup, description, -, hpk, heq⟩
    · obtain ⟨source, hsource, rfl⟩ := hrows row hold
      rw [name_importedGroup, pk_importedGroup, mem_sourceGroups_updateGroups hkeyed.groupKeys
        hsource]
      refine or_iff_left_of_imp fun hmem => ?_
      obtain ⟨group, hgroup, hname⟩ := List.mem_map.mp hmem
      refine absurd ?_ (mem_groupsToCreate.mp hgroup).2
      rw [hname, map_name_updateGroups]
      exact List.mem_map_of_mem hsource
    · have hname : row.name = group.name := by rw [heq]; rfl
      have hmem := (mem_groupsToCreate.mp hgroup).1
      rw [hname]
      exact ⟨fun _ => .inr (List.mem_map_of_mem hmem), fun _ => .inr (List.mem_map_of_mem hgroup)⟩

theorem isSome_createUpdateGroups : (createUpdateGroups env options mem db).isSome = true ↔
    ∀ group ∈ mem.groups, group.name ∉ db.groups.map Group.name →
      describe env group.vars ≠ none := by
  have hstep : ∀ middle, ∀ group ∈ groupsToCreate mem db,
      (createGroup env middle group).isSome = true ↔ describe env group.vars ≠ none := by
    intro middle group _
    rw [createGroup, Option.isSome_map, Option.isSome_iff_ne_none]
  rw [createUpdateGroups, Runs.isSome_foldlM hstep]
  constructor
  · exact fun hall group hgroup hnew => hall group (mem_groupsToCreate.mpr ⟨hgroup, hnew⟩)
  · intro hall group hgroup
    obtain ⟨hmem, hnew⟩ := mem_groupsToCreate.mp hgroup
    exact hall group hmem hnew

end Forail.InventoryImport
