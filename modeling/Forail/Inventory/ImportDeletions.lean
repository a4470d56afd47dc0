import Forail.Inventory.HostMatching

/-!
# What an import deletes

An import that overwrites deletes hosts and groups of its source, and then child groups and
memberships.  Everything that survives can be told from the inventory before.
-/

namespace Forail.InventoryImport

open Forail.Batches Forail.VertexRemoval

section

variable (env : Surroundings) (options : Options) (mem : MemInventory) (db : Inventory)
  (found : List (ℕ × String))

def doomed : List ℕ := if options.overwrite then groupsToDelete mem db env else []

def Remains (pk : ℕ) : Prop :=
  options.overwrite = true → pk ∉ db.sourceHosts ∨ pk ∈ found.map Prod.fst

instance : DecidablePred (Remains options db found) :=
  fun _ => inferInstanceAs (Decidable (_ → _))

/-- A child of a group, directly or through groups that are deleted. -/
def Inventory.Leads (removed : List ℕ) : ℕ → ℕ → Prop :=
  Through (fun parent child => (parent, child) ∈ db.children) (· ∈ removed)
    fun parent child => (parent, child) ∈ db.children

/-- A member of a group, directly or through groups that are deleted. -/
def Inventory.Holds (removed : List ℕ) : ℕ → ℕ → Prop :=
  Through (fun parent child => (parent, child) ∈ db.children) (· ∈ removed)
    fun group host => (group, host) ∈ db.members

structure EdgeSurvives (edge : ℕ × ℕ) : Prop where
  parent : edge.1 ∉ doomed env options mem db
  child : edge.2 ∉ doomed env options mem db
  leads : db.Leads (doomed env options mem db) edge.1 edge.2
  kept : options.overwrite = true → childToDelete mem db edge = false

structure MemberSurvives (entry : ℕ × ℕ) : Prop where
  group : entry.1 ∉ doomed env options mem db
  host : Remains options db found entry.2
  holds : db.Holds (doomed env options mem db) entry.1 entry.2
  kept : options.overwrite = true →
    memberToDelete mem db env options (dbInstanceIdMap env options db) entry = false

end

variable {env : Surroundings} {options : Options} {mem : MemInventory} {db : Inventory}
  {found : List (ℕ × String)} {pk parent child group host : ℕ}

/-! ## Deleted rows -/

theorem mem_groupsToDelete (hkeys : (db.groups.map Group.pk).Nodup) :
    pk ∈ groupsToDelete mem db env ↔ ∃ group ∈ db.groups, group.pk = pk ∧
      group.pk ∈ db.sourceGroups ∧ group.name ∉ mem.groups.map MemGroup.name := by
  rw [groupsToDelete, List.mem_map]
  simp only [mem_select (perm_groupsInOrder env), mem_sortedKeys]
  constructor
  · rintro ⟨group, ⟨hgroup, hkey⟩, rfl⟩
    obtain ⟨other, hother, hsame⟩ := List.mem_map.mp hkey
    obtain ⟨hmem, hdoomed⟩ := List.mem_filter.mp hother
    obtain rfl := List.inj_on_of_nodup_map hkeys hmem hgroup hsame
    exact ⟨other, hmem, rfl, by simpa using hdoomed⟩
  · rintro ⟨group, hgroup, rfl, hdoomed⟩
    refine ⟨group, ⟨hgroup, List.mem_map_of_mem (List.mem_filter.mpr ⟨hgroup, ?_⟩)⟩, rfl⟩
    simpa using hdoomed

theorem nodup_groupsToDelete (hkeys : (db.groups.map Group.pk).Nodup) :
    (groupsToDelete mem db env).Nodup := by
  apply List.Nodup.map_on
  · intro group hgroup other hother hsame
    have hin := ((mem_select (perm_groupsInOrder env)).mp hgroup).1
    exact List.inj_on_of_nodup_map hkeys hin ((mem_select (perm_groupsInOrder env)).mp hother).1
      hsame
  · apply nodup_select (perm_groupsInOrder env) _ hkeys.of_map
    exact nodup_sortedKeys.mpr ((List.filter_sublist.map Group.pk).nodup hkeys)

theorem mem_doomed (hkeys : (db.groups.map Group.pk).Nodup) :
    pk ∈ doomed env options mem db ↔ options.overwrite = true ∧ ∃ group ∈ db.groups,
      group.pk = pk ∧ group.pk ∈ db.sourceGroups ∧
        group.name ∉ mem.groups.map MemGroup.name := by
  rw [doomed]
  split
  · next hoverwrite => rw [mem_groupsToDelete hkeys, and_iff_right hoverwrite]
  · next hoverwrite =>
    exact ⟨fun hmem => absurd hmem List.not_mem_nil, fun hmem => absurd hmem.1 hoverwrite⟩

theorem notMem_doomed_of_imported (hkeys : (db.groups.map Group.pk).Nodup) {row : Group}
    (hrow : row ∈ db.groups) (himported : row.name ∈ mem.groups.map MemGroup.name) :
    row.pk ∉ doomed env options mem db := by
  intro hdoomed
  obtain ⟨-, other, hother, hpk, -, hnot⟩ := (mem_doomed hkeys).mp hdoomed
  obtain rfl := List.inj_on_of_nodup_map hkeys hother hrow hpk
  exact hnot himported

theorem notMem_doomed_of_merge (hmerge : ¬ options.overwrite = true) (pk : ℕ) :
    pk ∉ doomed env options mem db := by
  rw [doomed, if_neg hmerge]
  exact List.not_mem_nil

theorem nodup_doomed (hkeys : (db.groups.map Group.pk).Nodup) :
    (doomed env options mem db).Nodup := by
  rw [doomed]
  split
  · exact nodup_groupsToDelete hkeys
  · exact List.nodup_nil

theorem mem_vertices_of_doomed (hkeys : (db.groups.map Group.pk).Nodup)
    (hdoomed : pk ∈ doomed env options mem db) : pk ∈ db.graph.vertices := by
  obtain ⟨-, group, hgroup, rfl, -⟩ := (mem_doomed hkeys).mp hdoomed
  exact List.mem_toFinset.mpr (List.mem_map_of_mem hgroup)

theorem remains_iff (hoverwrite : options.overwrite = true) :
    Remains options db found pk ↔ pk ∉ db.sourceHosts ∨ pk ∈ found.map Prod.fst :=
  forall_prop_of_true hoverwrite

theorem hosts_deletions : (deletions env options mem db found).hosts =
    db.hosts.filter fun host => Remains options db found host.pk := by
  rw [deletions]
  split
  · next hoverwrite =>
    apply List.filter_congr
    intro host _
    rw [Bool.eq_iff_iff, decide_eq_true_iff, remains_iff hoverwrite]
    simp
  · next hoverwrite =>
    symm
    apply List.filter_eq_self.mpr
    exact fun host _ => decide_eq_true fun hcontra => absurd hcontra hoverwrite

theorem groups_deletions : (deletions env options mem db found).groups =
    db.groups.filter fun group => group.pk ∉ doomed env options mem db := by
  rw [deletions, doomed]
  split
  · rfl
  · symm
    apply List.filter_eq_self.mpr
    simp

theorem mem_sourceHosts_deletions : pk ∈ (deletions env options mem db found).sourceHosts ↔
    pk ∈ db.sourceHosts ∧ Remains options db found pk := by
  rw [deletions]
  split
  · next hoverwrite =>
    refine Finset.mem_filter.trans (and_congr_right fun _ => ?_)
    rw [remains_iff hoverwrite]
    simp
  · next hoverwrite => exact (and_iff_left fun hcontra => absurd hcontra hoverwrite).symm

theorem mem_sourceGroups_deletions : pk ∈ (deletions env options mem db found).sourceGroups ↔
    pk ∈ db.sourceGroups ∧ pk ∉ doomed env options mem db := by
  rw [deletions, doomed]
  split
  · exact Finset.mem_filter
  · exact (and_iff_left List.not_mem_nil).symm

theorem nextHost_deletions : (deletions env options mem db found).nextHost = db.nextHost := by
  rw [deletions]
  split <;> rfl

theorem nextGroup_deletions : (deletions env options mem db found).nextGroup = db.nextGroup := by
  rw [deletions]
  split <;> rfl

theorem keyed_deletions (hkeyed : db.Keyed) : (deletions env options mem db found).Keyed where
  hostKeys := by
    rw [hosts_deletions]
    exact (List.filter_sublist.map Host.pk).nodup hkeyed.hostKeys
  hostNames := by
    rw [hosts_deletions]
    exact (List.filter_sublist.map Host.name).nodup hkeyed.hostNames
  groupKeys := by
    rw [groups_deletions]
    exact (List.filter_sublist.map Group.pk).nodup hkeyed.groupKeys
  groupNames := by
    rw [groups_deletions]
    exact (List.filter_sublist.map Group.name).nodup hkeyed.groupNames
  freshHosts := by
    rw [hosts_deletions, nextHost_deletions]
    exact fun host hhost => hkeyed.freshHosts host (List.mem_of_mem_filter hhost)
  freshGroups := by
    rw [groups_deletions, nextGroup_deletions]
    exact fun group hgroup => hkeyed.freshGroups group (List.mem_of_mem_filter hgroup)

/-! ## Child groups and memberships -/

theorem find?_filter_of_kept {Row : Type} {rows : List Row} (key : Row → ℕ) {kept : Row → Bool}
    {test : Row → Bool} (htest : ∀ row, test row = true → key row = pk)
    (hkept : ∀ row, key row = pk → kept row = true) :
    (rows.filter kept).find? test = rows.find? test := by
  rw [List.find?_filter]
  congr 1
  funext row
  by_cases hrow : test row = true
  · simp [hrow, hkept row (htest row hrow)]
  · simp [hrow]

variable (env mem db found) in
def rowsDeleted : Inventory := deleteGroups mem (deleteHosts db found) env

theorem sourceGroup_rowsDeleted (hpk : pk ∉ groupsToDelete mem db env) :
    sourceGroup mem (rowsDeleted env mem db found) pk = sourceGroup mem db pk := by
  have hsource : ∀ group : Group, (decide (group.pk = pk) &&
      decide (group.pk ∈ db.sourceGroups.filter fun pk => pk ∉ groupsToDelete mem db env)) =
        (decide (group.pk = pk) && decide (group.pk ∈ db.sourceGroups)) := by
    intro group
    by_cases hgroup : group.pk = pk
    · simp [hgroup, hpk]
    · simp [hgroup]
  rw [sourceGroup, sourceGroup]
  congr 1
  change (db.groups.filter fun group => group.pk ∉ groupsToDelete mem db env).find?
    (fun group => decide (group.pk = pk) &&
      decide (group.pk ∈ db.sourceGroups.filter fun pk => pk ∉ groupsToDelete mem db env)) = _
  simp only [hsource]
  apply find?_filter_of_kept Group.pk
  · intro row hrow
    exact of_decide_eq_true (Bool.and_eq_true_iff.mp hrow).1
  · rintro row rfl
    exact decide_eq_true hpk

theorem groupName_rowsDeleted (hpk : pk ∉ groupsToDelete mem db env) :
    groupName (rowsDeleted env mem db found) pk = groupName db pk := by
  rw [groupName, groupName]
  congr 1
  apply find?_filter_of_kept Group.pk
  · exact fun row hrow => of_decide_eq_true hrow
  · rintro row rfl
    exact decide_eq_true hpk

theorem childToDelete_rowsDeleted (hparent : parent ∉ groupsToDelete mem db env)
    (hchild : child ∉ groupsToDelete mem db env) :
    childToDelete mem (rowsDeleted env mem db found) (parent, child) =
      childToDelete mem db (parent, child) := by
  rw [childToDelete, childToDelete, sourceGroup_rowsDeleted hparent, groupName_rowsDeleted hchild]

theorem childToDelete_of_gone (hchild : child ∈ groupsToDelete mem db env) :
    childToDelete mem (rowsDeleted env mem db found) (parent, child) = false := by
  have hnone : groupName (rowsDeleted env mem db found) child = none := by
    rw [groupName, Option.map_eq_none_iff]
    apply List.find?_eq_none.mpr
    intro group hgroup hsame
    have hkept := of_decide_eq_true (List.mem_filter.mp hgroup).2
    exact hkept (of_decide_eq_true hsame ▸ hchild)
  rw [childToDelete, hnone]
  cases sourceGroup mem (rowsDeleted env mem db found) parent <;> rfl

theorem memberToDelete_rowsDeleted (ids : AList fun _ : String => ℕ)
    (hoverwrite : options.overwrite = true) (hgroup : group ∉ groupsToDelete mem db env)
    (hhost : Remains options db found host) :
    memberToDelete mem (rowsDeleted env mem db found) env options ids (group, host) =
      memberToDelete mem db env options ids (group, host) := by
  have hkept : (decide (host ∉ db.sourceHosts) || decide (host ∈ found.map Prod.fst)) = true := by
    rw [Bool.or_eq_true, decide_eq_true_iff, decide_eq_true_iff]
    exact (remains_iff hoverwrite).mp hhost
  have hsource : host ∈ (rowsDeleted env mem db found).sourceHosts ↔ host ∈ db.sourceHosts :=
    Finset.mem_filter.trans (and_iff_left hkept)
  have hrow : (rowsDeleted env mem db found).hosts.find? (fun row => decide (row.pk = host)) =
      db.hosts.find? fun row => decide (row.pk = host) := by
    apply find?_filter_of_kept Host.pk
    · exact fun row hrow => of_decide_eq_true hrow
    · rintro row rfl
      exact hkept
  rw [memberToDelete, memberToDelete, sourceGroup_rowsDeleted hgroup, hrow]
  simp only [hsource]

theorem mem_children_of_overwrite (hoverwrite : options.overwrite = true) :
    (parent, child) ∈ (deletions env options mem db found).children ↔
      (parent, child) ∈ ((groupsToDelete mem db env).foldl MemberGraph.remove
        (deleteHosts db found).graph).edges ∧
        childToDelete mem (rowsDeleted env mem db found) (parent, child) = false := by
  rw [deletions, if_pos hoverwrite]
  refine Finset.mem_filter.trans (and_congr Iff.rfl ?_)
  rw [Bool.not_eq_true']
  rfl

/-- The child groups that survive are those that were children of a group or of a deleted
group below it. -/
theorem mem_children_deletions (hkeys : (db.groups.map Group.pk).Nodup)
    (hin : child ∈ db.groups.map Group.pk) (hchild : child ∉ doomed env options mem db) :
    (parent, child) ∈ (deletions env options mem db found).children ↔
      EdgeSurvives env options mem db (parent, child) := by
  by_cases hoverwrite : options.overwrite = true
  · have hdoomed : doomed env options mem db = groupsToDelete mem db env := if_pos hoverwrite
    have hedges : (parent, child) ∈
        ((groupsToDelete mem db env).foldl MemberGraph.remove (deleteHosts db found).graph).edges ↔
          parent ∉ groupsToDelete mem db env ∧
            db.Leads (groupsToDelete mem db env) parent child := by
      apply mem_edges_foldl (nodup_groupsToDelete hkeys) _ (hdoomed ▸ hchild)
        (List.mem_toFinset.mpr hin)
      rw [← hdoomed]
      exact fun group hgroup => mem_vertices_of_doomed hkeys hgroup
    rw [mem_children_of_overwrite hoverwrite, hedges]
    constructor
    · rintro ⟨⟨hparent, hleads⟩, hkept⟩
      refine ⟨hdoomed ▸ hparent, hchild, hdoomed ▸ hleads, fun _ => ?_⟩
      rw [← childToDelete_rowsDeleted hparent (hdoomed ▸ hchild)]
      exact hkept
    · rintro ⟨hparent, -, hleads, hkept⟩
      refine ⟨⟨hdoomed ▸ hparent, hdoomed ▸ hleads⟩, ?_⟩
      rw [childToDelete_rowsDeleted (hdoomed ▸ hparent) (hdoomed ▸ hchild)]
      exact hkept hoverwrite
  · have hnone : ∀ vertex, vertex ∉ doomed env options mem db := notMem_doomed_of_merge hoverwrite
    rw [deletions, if_neg hoverwrite]
    constructor
    · exact fun hedge => ⟨hnone _, hnone _, .direct hedge, fun hcontra => absurd hcontra hoverwrite⟩
    · exact fun hsurvives => (through_false_iff hnone).mp hsurvives.leads

theorem mem_children_of_doomed (hkeys : (db.groups.map Group.pk).Nodup) {earlier later : List ℕ}
    (hsplit : doomed env options mem db = earlier ++ child :: later) :
    (parent, child) ∈ (deletions env options mem db found).children ↔
      parent ∉ doomed env options mem db ∧ db.Leads earlier child child ∧
        db.Leads earlier parent child := by
  have hchild : child ∈ doomed env options mem db := by
    rw [hsplit]
    exact List.mem_append_right _ List.mem_cons_self
  have hoverwrite := ((mem_doomed hkeys).mp hchild).1
  have hdoomed : doomed env options mem db = groupsToDelete mem db env := if_pos hoverwrite
  have hnodup : (earlier ++ child :: later).Nodup := by
    rw [← hsplit]
    exact nodup_doomed hkeys
  rw [mem_children_of_overwrite hoverwrite, childToDelete_of_gone (hdoomed ▸ hchild),
    and_iff_left rfl, ← hdoomed, hsplit, mem_edges_foldl_of_loop hnodup]
  · rfl
  · intro group hgroup
    exact mem_vertices_of_doomed hkeys (hsplit ▸ hgroup)

theorem mem_members_of_overwrite (hoverwrite : options.overwrite = true) :
    (group, host) ∈ (deletions env options mem db found).members ↔
      (group, host) ∈ ((groupsToDelete mem db env).foldl MemberGraph.remove
        (deleteHosts db found).graph).members ∧
        memberToDelete mem (rowsDeleted env mem db found) env options
          (dbInstanceIdMap env options db) (group, host) = false := by
  rw [deletions, if_pos hoverwrite]
  refine Finset.mem_filter.trans (and_congr Iff.rfl ?_)
  rw [Bool.not_eq_true']
  rfl

theorem mem_members_deleteHosts (hoverwrite : options.overwrite = true) :
    (group, host) ∈ (deleteHosts db found).members ↔
      (group, host) ∈ db.members ∧ Remains options db found host := by
  refine Finset.mem_filter.trans (and_congr_right fun _ => ?_)
  rw [remains_iff hoverwrite, Bool.or_eq_true, decide_eq_true_iff, decide_eq_true_iff]

theorem mem_members_deletions (hkeys : (db.groups.map Group.pk).Nodup) :
    (group, host) ∈ (deletions env options mem db found).members ↔
      MemberSurvives env options mem db found (group, host) := by
  by_cases hoverwrite : options.overwrite = true
  · have hdoomed : doomed env options mem db = groupsToDelete mem db env := if_pos hoverwrite
    have hvertices : ∀ group ∈ groupsToDelete mem db env,
        group ∈ (deleteHosts db found).graph.vertices := by
      rw [← hdoomed]
      exact fun group hgroup => mem_vertices_of_doomed hkeys hgroup
    have hholds : Through (fun parent child => (parent, child) ∈ (deleteHosts db found).graph.edges)
        (· ∈ groupsToDelete mem db env)
        (fun group host => (group, host) ∈ (deleteHosts db found).graph.members) group host ↔
          db.Holds (groupsToDelete mem db env) group host ∧ Remains options db found host := by
      refine Iff.trans (Eq.to_iff ?_) through_and_iff
      congr 1
      funext group host
      exact propext (mem_members_deleteHosts hoverwrite)
    rw [mem_members_of_overwrite hoverwrite,
      mem_members_foldl (nodup_groupsToDelete hkeys) hvertices, hholds]
    constructor
    · rintro ⟨⟨hgroup, hholds, hhost⟩, hkept⟩
      refine ⟨hdoomed ▸ hgroup, hhost, hdoomed ▸ hholds, fun _ => ?_⟩
      rw [← memberToDelete_rowsDeleted _ hoverwrite hgroup hhost]
      exact hkept
    · rintro ⟨hgroup, hhost, hholds, hkept⟩
      refine ⟨⟨hdoomed ▸ hgroup, hdoomed ▸ hholds, hhost⟩, ?_⟩
      rw [memberToDelete_rowsDeleted _ hoverwrite (hdoomed ▸ hgroup) hhost]
      exact hkept hoverwrite
  · have hnone : ∀ vertex, vertex ∉ doomed env options mem db := notMem_doomed_of_merge hoverwrite
    rw [deletions, if_neg hoverwrite]
    constructor
    · exact fun hmember => ⟨hnone _, fun hcontra => absurd hcontra hoverwrite, .direct hmember,
        fun hcontra => absurd hcontra hoverwrite⟩
    · exact fun hsurvives => (through_false_iff hnone).mp hsurvives.holds

theorem ends_of_mem_children_deletions (hwellFormed : db.WellFormed)
    (hedge : (parent, child) ∈ (deletions env options mem db found).children) :
    parent ∈ db.groups.map Group.pk ∧ child ∈ db.groups.map Group.pk := by
  by_cases hoverwrite : options.overwrite = true
  · obtain ⟨⟨target, htarget⟩, ⟨source, hsource⟩⟩ :=
      ends_of_mem_edges_foldl ((mem_children_of_overwrite hoverwrite).mp hedge).1
    exact ⟨(hwellFormed.children _ htarget).1, (hwellFormed.children _ hsource).2⟩
  · rw [deletions, if_neg hoverwrite] at hedge
    exact hwellFormed.children _ hedge

theorem ends_of_memberSurvives (hwellFormed : db.WellFormed)
    (hsurvives : MemberSurvives env options mem db found (group, host)) :
    group ∈ db.groups.map Group.pk ∧ host ∈ db.hosts.map Host.pk := by
  obtain ⟨hfirst, ⟨holder, hholder⟩⟩ := hsurvives.holds.ends
  refine ⟨?_, (hwellFormed.members _ hholder).2⟩
  rcases hfirst with hmember | ⟨next, hedge⟩
  · exact (hwellFormed.members _ hmember).1
  · exact (hwellFormed.children _ hedge).1

theorem mem_children_of_doomed_eq_nil (hnone : doomed env options mem db = []) :
    (parent, child) ∈ (deletions env options mem db found).children ↔
      (parent, child) ∈ db.children ∧
        (options.overwrite = true → childToDelete mem db (parent, child) = false) := by
  by_cases hoverwrite : options.overwrite = true
  · have hdoomed : groupsToDelete mem db env = [] := (if_pos hoverwrite).symm.trans hnone
    have hkept : ∀ pk, pk ∉ groupsToDelete mem db env := by
      rw [hdoomed]
      exact fun _ => List.not_mem_nil
    rw [mem_children_of_overwrite hoverwrite, childToDelete_rowsDeleted (hkept _) (hkept _),
      hdoomed, forall_prop_of_true hoverwrite]
    rfl
  · rw [deletions, if_neg hoverwrite]
    exact (and_iff_left fun hcontra => absurd hcontra hoverwrite).symm

end Forail.InventoryImport
