import Forail.Inventory.HostMatching

/-!
# The relations of an import

A child group is left out while the database has the edge the other way round, so that of
two imported groups that are children of each other only one becomes the child.  Hosts are
added to a group by their names and their instance ids.
-/

namespace Forail.InventoryImport

open Forail.Batches

variable {env : Surroundings} {options : Options} {mem : MemInventory} {db db' : Inventory}
  {parent child group host : ℕ}

/-! ## Child groups -/

def ImportedEdge (mem : MemInventory) (db : Inventory) (parent child : ℕ) : Prop :=
  ∃ row ∈ db.groups, row.pk = parent ∧ ∃ row' ∈ db.groups, row'.pk = child ∧
    ∃ group, mem.group row.name = some group ∧ row'.name ∈ group.children

theorem frame_addChildren (row : Group) :
    addChildren mem db row = { db with children := (addChildren mem db row).children } := by
  rw [addChildren]
  split <;> rfl

theorem mem_children_addChildren {row : Group} :
    (parent, child) ∈ (addChildren mem db row).children ↔
      (parent, child) ∈ db.children ∨ (row.pk = parent ∧ (child, parent) ∉ db.children ∧
        ∃ row' ∈ db.groups, row'.pk = child ∧
          ∃ group, mem.group row.name = some group ∧ row'.name ∈ group.children) := by
  rw [addChildren]
  split
  · next hnone =>
    symm
    apply or_iff_left
    rintro ⟨-, -, row', -, -, group, hgroup, -⟩
    exact Option.some_ne_none group (hgroup.symm.trans hnone)
  · next group hgroup =>
    refine Finset.mem_union.trans (or_congr_right ?_)
    simp only [List.mem_toFinset, List.mem_map, List.mem_filter, Prod.mk.injEq,
      Bool.and_eq_true, decide_eq_true_iff]
    constructor
    · rintro ⟨row', ⟨hrow', hname, hreverse⟩, rfl, rfl⟩
      exact ⟨rfl, hreverse, row', hrow', rfl, group, hgroup, hname⟩
    · rintro ⟨rfl, hreverse, row', hrow', rfl, other, hother, hname⟩
      obtain rfl := Option.some.inj (hgroup.symm.trans hother)
      exact ⟨row', ⟨hrow', hname, hreverse⟩, rfl, rfl⟩

structure ChildrenAdded (mem : MemInventory) (db : Inventory) (rows : List Group)
    (db' : Inventory) : Prop where
  frame : db' = { db with children := db'.children }
  old : ∀ parent child, (parent, child) ∈ db.children → (parent, child) ∈ db'.children
  new : ∀ parent child, (parent, child) ∈ db'.children →
    (parent, child) ∈ db.children ∨ ImportedEdge mem db parent child
  apart : ∀ parent child, (parent, child) ∈ db'.children → (parent, child) ∉ db.children →
    parent ≠ child → (child, parent) ∉ db'.children
  reached : ∀ row ∈ rows, ∀ row' ∈ db.groups, ∀ group, mem.group row.name = some group →
    row'.name ∈ group.children →
      (row.pk, row'.pk) ∈ db'.children ∨ (row'.pk, row.pk) ∈ db'.children

theorem childrenAdded_nil : ChildrenAdded mem db [] db where
  frame := rfl
  old := fun _ _ hedge => hedge
  new := fun _ _ hedge => .inl hedge
  apart := fun _ _ hedge hnot => absurd hedge hnot
  reached := fun _ hrow => absurd hrow List.not_mem_nil

theorem ChildrenAdded.addChildren {rows : List Group} {middle : Inventory}
    (hadded : ChildrenAdded mem db rows middle) {row : Group} (hrow : row ∈ db.groups) :
    ChildrenAdded mem db (rows ++ [row]) (addChildren mem middle row) := by
  have hgroups : middle.groups = db.groups := by rw [hadded.frame]
  refine ⟨?_, ?_, ?_, ?_, ?_⟩
  · rw [frame_addChildren, hadded.frame]
  · exact fun parent child hedge => mem_children_addChildren.mpr (.inl (hadded.old _ _ hedge))
  · intro parent child hedge
    rcases mem_children_addChildren.mp hedge with hold | ⟨rfl, -, row', hrow', rfl, hgroup⟩
    · exact hadded.new parent child hold
    · exact .inr ⟨row, hrow, rfl, row', hgroups ▸ hrow', rfl, hgroup⟩
  · intro parent child hedge hnot hne hreverse
    rcases mem_children_addChildren.mp hedge with hold | ⟨hparent, hfree, -⟩ <;>
      rcases mem_children_addChildren.mp hreverse with hold' | ⟨hchild, hfree', -⟩
    · exact hadded.apart parent child hold hnot hne hold'
    · exact hfree' hold
    · exact hfree hold'
    · exact hne (hparent.symm.trans hchild)
  · intro row' hrow' child hchild group hgroup hname
    rcases List.mem_append.mp hrow' with hearlier | hlast
    · rcases hadded.reached row' hearlier child hchild group hgroup hname with hedge | hedge
      · exact .inl (mem_children_addChildren.mpr (.inl hedge))
      · exact .inr (mem_children_addChildren.mpr (.inl hedge))
    · obtain rfl := List.mem_singleton.mp hlast
      by_cases hreverse : (child.pk, row'.pk) ∈ middle.children
      · exact .inr (mem_children_addChildren.mpr (.inl hreverse))
      · exact .inl (mem_children_addChildren.mpr
          (.inr ⟨rfl, hreverse, child, hgroups ▸ hchild, rfl, group, hgroup, hname⟩))

theorem childrenAdded_foldl {rows : List Group} (hrows : ∀ row ∈ rows, row ∈ db.groups) :
    ChildrenAdded mem db rows (rows.foldl (addChildren mem) db) := by
  induction rows using List.reverseRecOn with
  | nil => exact childrenAdded_nil
  | append_singleton rows row ih =>
    rw [List.foldl_append, List.foldl_cons, List.foldl_nil]
    apply (ih fun other hother => hrows other (List.mem_append_left _ hother)).addChildren
    exact hrows row (List.mem_append_right _ List.mem_cons_self)

structure ChildrenImported (mem : MemInventory) (db db' : Inventory) : Prop where
  frame : db' = { db with children := db'.children }
  old : ∀ parent child, (parent, child) ∈ db.children → (parent, child) ∈ db'.children
  new : ∀ parent child, (parent, child) ∈ db'.children →
    (parent, child) ∈ db.children ∨ ImportedEdge mem db parent child
  apart : ∀ parent child, (parent, child) ∈ db'.children → (parent, child) ∉ db.children →
    parent ≠ child → (child, parent) ∉ db'.children
  reached : ∀ parent child, ImportedEdge mem db parent child →
    (parent, child) ∈ db'.children ∨ (child, parent) ∈ db'.children

theorem childrenImported :
    ChildrenImported mem db (createUpdateGroupChildren env mem db) := by
  have hadded : ChildrenAdded mem db (select (groupsInOrder env) Group.name (sortedNames
      ((mem.groups.filter fun group => !group.children.isEmpty).map MemGroup.name)) db.groups)
      (createUpdateGroupChildren env mem db) :=
    childrenAdded_foldl fun row hrow => ((mem_select (perm_groupsInOrder env)).mp hrow).1
  refine ⟨hadded.frame, hadded.old, hadded.new, hadded.apart, ?_⟩
  rintro parent child ⟨row, hrow, rfl, row', hrow', rfl, group, hgroup, hname⟩
  apply hadded.reached row _ row' hrow' group hgroup hname
  obtain ⟨hmem, hsame⟩ := MemInventory.mem_of_group hgroup
  refine (mem_select (perm_groupsInOrder env)).mpr ⟨hrow, mem_sortedNames.mpr ?_⟩
  rw [← hsame]
  apply List.mem_map_of_mem
  refine List.mem_filter.mpr ⟨hmem, ?_⟩
  rw [Bool.not_eq_true', List.isEmpty_eq_false_iff]
  exact List.ne_nil_of_mem hname

/-- The imported edges are all there when each was there before, or the edge the other way
round was neither there nor imported. -/
theorem ChildrenImported.all_iff (himported : ChildrenImported mem db db') :
    (∀ parent child, ImportedEdge mem db parent child → (parent, child) ∈ db'.children) ↔
      ∀ parent child, ImportedEdge mem db parent child → parent ≠ child →
        (parent, child) ∈ db.children ∨
          (child, parent) ∉ db.children ∧ ¬ ImportedEdge mem db child parent := by
  constructor
  · intro hall parent child hedge hne
    by_cases hold : (parent, child) ∈ db.children
    · exact .inl hold
    · have hreverse := himported.apart parent child (hall parent child hedge) hold hne
      exact .inr ⟨fun hmem => hreverse (himported.old _ _ hmem),
        fun hback => hreverse (hall child parent hback)⟩
  · intro hall parent child hedge
    by_cases hne : parent = child
    · subst hne
      exact (himported.reached parent parent hedge).elim id id
    · rcases hall parent child hedge hne with hold | ⟨hreverse, hback⟩
      · exact himported.old parent child hold
      · refine (himported.reached parent child hedge).resolve_right fun hmem => ?_
        exact (himported.new child parent hmem).elim hreverse hback

/-! ## Memberships -/

/-- A host that is added to a group by its name or its instance id. -/
def Added (env : Surroundings) (options : Options) (mem : MemInventory) (group : MemGroup)
    (host : Host) : Prop :=
  host.name ∈ memHostNames mem env options group ∨
    host.instanceId ∈ memInstanceIds mem env options group

theorem mem_members_createUpdateGroupHosts :
    (group, host) ∈ (createUpdateGroupHosts env options mem db).members ↔
      (group, host) ∈ db.members ∨ ∃ row ∈ db.groups, row.pk = group ∧
        ∃ row' ∈ db.hosts, row'.pk = host ∧
          ∃ memGroup, mem.group row.name = some memGroup ∧
            Added env options mem memGroup row' := by
  refine Finset.mem_union.trans (or_congr_right ?_)
  rw [List.mem_toFinset, List.mem_flatMap]
  constructor
  · rintro ⟨row, hrow, hentry⟩
    obtain ⟨row', hrow', heq⟩ := List.mem_map.mp hentry
    obtain ⟨rfl, rfl⟩ := Prod.mk.inj heq
    obtain ⟨memGroup, hgroup, hhost⟩ := List.mem_flatMap.mp hrow'
    obtain ⟨hmem, hadded⟩ := List.mem_filter.mp hhost
    refine ⟨row, hrow, rfl, row', hmem, rfl, memGroup, Option.mem_toList.mp hgroup, ?_⟩
    simpa [Added] using hadded
  · rintro ⟨row, hrow, rfl, row', hrow', rfl, memGroup, hgroup, hadded⟩
    refine ⟨row, hrow, List.mem_map.mpr ⟨row', ?_, rfl⟩⟩
    refine List.mem_flatMap.mpr ⟨memGroup, Option.mem_toList.mpr hgroup, ?_⟩
    exact List.mem_filter.mpr ⟨hrow', by simpa [Added] using hadded⟩

theorem mem_memHostNames {group : MemGroup} {name : String} :
    name ∈ memHostNames mem env options group ↔ name ∈ group.hosts ∧
      ∃ host, mem.host name = some host ∧ getInstanceId env options host.vars = "" := by
  rw [memHostNames, List.mem_filterMap]
  constructor
  · rintro ⟨host, hhost, hname⟩
    obtain ⟨other, hother, hfound⟩ := List.mem_filterMap.mp hhost
    obtain ⟨hid, hsome⟩ := Option.ite_none_right_eq_some.mp hname
    obtain rfl := Option.some.inj hsome
    obtain ⟨-, hsame⟩ := MemInventory.mem_of_host hfound
    exact ⟨hsame ▸ hother, host, hsame ▸ hfound, hid⟩
  · rintro ⟨hname, host, hhost, hid⟩
    obtain ⟨-, hsame⟩ := MemInventory.mem_of_host hhost
    refine ⟨host, List.mem_filterMap.mpr ⟨name, hname, hhost⟩, ?_⟩
    rw [if_pos hid, hsame]

theorem mem_memInstanceIds {group : MemGroup} {id : String} :
    id ∈ memInstanceIds mem env options group ↔ id ≠ "" ∧ ∃ name ∈ group.hosts,
      ∃ host, mem.host name = some host ∧ getInstanceId env options host.vars = id := by
  rw [memInstanceIds, List.mem_filterMap]
  constructor
  · rintro ⟨host, hhost, hid⟩
    obtain ⟨other, hother, hfound⟩ := List.mem_filterMap.mp hhost
    obtain ⟨hne, hsome⟩ := Option.ite_none_left_eq_some.mp hid
    obtain rfl := Option.some.inj hsome
    exact ⟨hne, other, hother, host, hfound, rfl⟩
  · rintro ⟨hne, name, hname, host, hhost, rfl⟩
    refine ⟨host, List.mem_filterMap.mpr ⟨name, hname, hhost⟩, ?_⟩
    rw [if_neg hne]

end Forail.InventoryImport
