import Forail.Core.CascadingRelease
import Mathlib.Data.Finset.Prod
import Mathlib.Data.Finset.Union

/-!
# Recursive deletion of groups

A group is deleted with its child groups that have no other parents, and with the hosts that
are in no other groups.  Links are removed from dictionaries of the rows while they are
walked.  The deletion of the groups then runs the receivers that hand the members of a
deleted group to its parents.
-/

namespace Forail.GroupDeletion

open Forail.CascadingRelease

/-! ## The tables -/

/-- The groups and hosts of an inventory, the pairs of a parent and a child group, and the
pairs of a group and a host. -/
structure Tables where
  groups : Finset ℕ
  hosts : Finset ℕ
  children : Finset (ℕ × ℕ)
  members : Finset (ℕ × ℕ)
  deriving DecidableEq

structure Tables.Related (tables : Tables) : Prop where
  children : ∀ row ∈ tables.children, row.1 ∈ tables.groups ∧ row.2 ∈ tables.groups
  members : ∀ row ∈ tables.members, row.1 ∈ tables.groups ∧ row.2 ∈ tables.hosts

instance (tables : Tables) : Decidable tables.Related :=
  decidable_of_iff ((∀ row ∈ tables.children, row.1 ∈ tables.groups ∧ row.2 ∈ tables.groups) ∧
      ∀ row ∈ tables.members, row.1 ∈ tables.groups ∧ row.2 ∈ tables.hosts)
    ⟨fun h => ⟨h.1, h.2⟩, fun h => ⟨h.children, h.members⟩⟩

structure Inventory extends Tables where
  related : toTables.Related

/-- The rows of the two relations in the order in which the queries return them. -/
structure Rows (inventory : Inventory) where
  children : List (ℕ × ℕ)
  members : List (ℕ × ℕ)
  children_nodup : children.Nodup
  members_nodup : members.Nodup
  children_toFinset : children.toFinset = inventory.children
  members_toFinset : members.toFinset = inventory.members

/-! ## `mark_actual` -/

/-- `group_hosts`, with the hosts of the groups below them, and `marked_hosts`. -/
structure MarkedHosts where
  groupHosts : Links ℕ ℕ
  markedHosts : List ℕ

def leaveHost (group : ℕ) (marked : MarkedHosts) (host : ℕ) : Option MarkedHosts :=
  (marked.groupHosts.cut group host).map fun groupHosts =>
    if (groupHosts.above host).length < 1 then ⟨groupHosts, marked.markedHosts ++ [host]⟩
    else ⟨groupHosts, marked.markedHosts⟩

def leaveHosts (marked : MarkedHosts) (group : ℕ) : Option MarkedHosts :=
  (marked.groupHosts.below group).foldlM (leaveHost group) marked

def markActual (fuel group : ℕ) {inventory : Inventory} (rows : Rows inventory) :
    Except Stop (Walk ℕ MarkedHosts) :=
  let links := Links.ofRows rows.children
  let linkedChildren := (links.below group).map fun child => (group, child)
  match leaveHosts ⟨Links.ofRows rows.members, []⟩ group with
  | some marked => run leaveHosts fuel ⟨links, [group], marked⟩ linkedChildren
  | none => .error .missing

/-! ## Deletion -/

namespace Tables

variable (tables : Tables)

/-- `migrate_children_from_deleted_group_to_parent_groups`: the children or hosts that a
group had before the deletion, as `rows` has them, are added to the parents that are left.
They are not looked up, so they need not exist any more. -/
def handed (rows : Finset (ℕ × ℕ)) (left : Finset ℕ) (group : ℕ) : Finset (ℕ × ℕ) :=
  (left.filter fun parent => (parent, group) ∈ tables.children) ×ˢ
    (rows.filter fun row => row.1 = group).image Prod.snd

/-- `Group.objects.filter(id__in=marked).delete()`.  All groups and their rows are deleted
before the receivers of the first one run. -/
def deleteGroups (marked : List ℕ) : Tables :=
  let doomed := tables.groups.filter (· ∈ marked)
  let left := tables.groups.filter (· ∉ marked)
  { tables with
    groups := left
    children := (tables.children.filter fun row => row.1 ∉ marked ∧ row.2 ∉ marked) ∪
      doomed.biUnion (tables.handed tables.children left)
    members := (tables.members.filter fun row => row.1 ∉ marked) ∪
      doomed.biUnion (tables.handed tables.members left) }

def deleteHosts (marked : List ℕ) : Tables :=
  { tables with
    hosts := tables.hosts.filter (· ∉ marked)
    members := tables.members.filter fun row => row.2 ∉ marked }

end Tables

inductive Failure
  | stopped (stop : Stop)
  | integrityError
  deriving DecidableEq

/-- `Group.delete_recursive`.  A failure rolls the transaction back. -/
def deleteRecursive (fuel group : ℕ) {inventory : Inventory} (rows : Rows inventory) :
    Except Failure Inventory :=
  match markActual fuel group rows with
  | .ok walk =>
      let tables := (inventory.deleteGroups walk.released).deleteHosts walk.rest.markedHosts
      if related : tables.Related then .ok ⟨tables, related⟩ else .error .integrityError
  | .error stop => .error (.stopped stop)

/-! ## What should be deleted -/

def Lost (inventory : Inventory) (group host : ℕ) : Prop :=
  (∃ member, Released inventory.children group member ∧ (member, host) ∈ inventory.members) ∧
    ∀ member, (member, host) ∈ inventory.members → Released inventory.children group member

structure DeletesExactly (inventory : Inventory) (group : ℕ) (result : Inventory) : Prop where
  groups : ∀ other, other ∈ result.groups ↔
    other ∈ inventory.groups ∧ ¬ Released inventory.children group other
  hosts : ∀ host, host ∈ result.hosts ↔ host ∈ inventory.hosts ∧ ¬ Lost inventory group host

/-- In whatever order the rows are read, the walk ends and the right rows are deleted. -/
def DeletesInEveryOrder (inventory : Inventory) (group : ℕ) : Prop :=
  ∀ rows : Rows inventory, ∃ bound, ∀ fuel, bound ≤ fuel →
    ∃ result, deleteRecursive fuel group rows = .ok result ∧
      DeletesExactly inventory group result

def HandsOverDeleted (inventory : Inventory) (group : ℕ) : Prop :=
  (∃ parent, (parent, group) ∈ inventory.children ∧
      ¬ Released inventory.children group parent) ∧
    ∃ child, (group, child) ∈ inventory.children ∧ Released inventory.children group child

/-! ## Hosts -/

structure Left (members : Finset (ℕ × ℕ)) (groups : List ℕ) (marked : MarkedHosts) : Prop where
  represents : marked.groupHosts.Represents (members.filter fun row => row.1 ∉ groups)
  mem_marked : ∀ host, host ∈ marked.markedHosts ↔ (∃ group, (group, host) ∈ members) ∧
    ∀ group, (group, host) ∈ members → group ∈ groups

variable {inventory : Inventory} {group host : ℕ} {rows : Rows inventory}
  {members : Finset (ℕ × ℕ)} {groups : List ℕ} {marked : MarkedHosts}

theorem leaveHost_of_mem (hlinks : marked.groupHosts.Represents members)
    (hhost : (group, host) ∈ members) : ∃ marked', leaveHost group marked host = some marked' ∧
      marked'.groupHosts.Represents (members.erase (group, host)) ∧
      ∀ other, other ∈ marked'.markedHosts ↔ other ∈ marked.markedHosts ∨
        other = host ∧ ∀ member, (member, host) ∈ members → member = group := by
  obtain ⟨groupHosts, hcut, hrest⟩ := hlinks.cut hhost
  have hlast : (groupHosts.above host).length < 1 ↔
      ∀ member, (member, host) ∈ members → member = group := by
    rw [← Nat.not_le, Nat.one_le_iff_ne_zero, ← Nat.pos_iff_ne_zero, hrest.above_eq_nil_iff]
    refine forall_congr' fun member => ?_
    rw [Finset.mem_erase, not_and', not_not]
    exact imp_congr_right fun _ => Prod.mk_left_inj
  rw [leaveHost, hcut, Option.map_some]
  split
  · next hnone =>
    refine ⟨_, rfl, hrest, fun other => ?_⟩
    rw [List.mem_append, List.mem_singleton]
    exact or_congr_right (and_iff_left (hlast.mp hnone)).symm
  · next hsome =>
    exact ⟨_, rfl, hrest, fun other => (or_iff_left fun hother => hsome (hlast.mpr hother.2)).symm⟩

theorem foldlM_leaveHost {todo : List ℕ} (hnodup : todo.Nodup)
    (hlinks : marked.groupHosts.Represents members)
    (htodo : ∀ host ∈ todo, (group, host) ∈ members) :
    ∃ marked', todo.foldlM (leaveHost group) marked = some marked' ∧
      marked'.groupHosts.Represents
        (members.filter fun row => ¬ (row.1 = group ∧ row.2 ∈ todo)) ∧
      ∀ host, host ∈ marked'.markedHosts ↔ host ∈ marked.markedHosts ∨
        host ∈ todo ∧ ∀ member, (member, host) ∈ members → member = group := by
  induction todo generalizing members marked with
  | nil =>
    refine ⟨marked, rfl, ?_, fun host => (or_iff_left fun h => List.not_mem_nil h.1).symm⟩
    rwa [Finset.filter_true_of_mem]
    exact fun row _ hrow => List.not_mem_nil hrow.2
  | cons head todo ih =>
    obtain ⟨hfresh, hrest⟩ := List.nodup_cons.mp hnodup
    obtain ⟨hhead, htail⟩ := List.forall_mem_cons.mp htodo
    obtain ⟨middle, hmiddle, hlinks', hmarked⟩ := leaveHost_of_mem hlinks hhead
    have hkept : ∀ host ∈ todo, (group, host) ∈ members.erase (group, head) := by
      intro host hhost
      refine Finset.mem_erase.mpr ⟨fun hsame => hfresh ?_, htail host hhost⟩
      rwa [← (Prod.mk.inj hsame).2]
    obtain ⟨marked', hloop, hlinks'', hmarked'⟩ := ih hrest hlinks' hkept
    refine ⟨marked', ?_, ?_, fun host => ?_⟩
    · rw [List.foldlM_cons, hmiddle]
      exact hloop
    · convert hlinks'' using 1
      ext row
      have hne : row ≠ (group, head) ↔ ¬ (row.1 = group ∧ row.2 = head) := not_congr Prod.ext_iff
      rw [Finset.mem_filter, Finset.mem_filter, Finset.mem_erase, List.mem_cons, hne]
      tauto
    · rw [hmarked', hmarked, or_assoc, List.mem_cons]
      refine or_congr_right ?_
      by_cases hsame : host = head
      · subst hsame
        rw [eq_self, true_and, true_or, true_and]
        exact or_iff_left fun hhost => hfresh hhost.1
      · have herase : ∀ member, (member, host) ∈ members.erase (group, head) ↔
            (member, host) ∈ members := by
          intro member
          rw [Finset.mem_erase]
          exact and_iff_right fun heq => hsame (Prod.mk.inj heq).2
        rw [or_iff_right fun h => hsame h.1, or_iff_right hsame]
        exact and_congr_right fun _ => forall_congr' fun member => imp_congr_left (herase member)

theorem left_nil (hlinks : marked.groupHosts.Represents members)
    (hmarked : marked.markedHosts = []) : Left members [] marked where
  represents := by
    rwa [Finset.filter_true_of_mem]
    exact fun row _ => List.not_mem_nil
  mem_marked := by
    intro host
    rw [hmarked]
    refine iff_of_false List.not_mem_nil fun hhost => ?_
    obtain ⟨⟨group, hgroup⟩, hnone⟩ := hhost
    exact List.not_mem_nil (hnone group hgroup)

theorem Left.leaveHosts (hleft : Left members groups marked) (group : ℕ) :
    ∃ marked', leaveHosts marked group = some marked' ∧
      Left members (groups ++ [group]) marked' := by
  have hmem : ∀ member host, (member, host) ∈ members.filter (fun row => row.1 ∉ groups) ↔
      (member, host) ∈ members ∧ member ∉ groups := fun _ _ => Finset.mem_filter
  have hbelow := hleft.represents.mem_below group
  obtain ⟨marked', hloop, hlinks, hmarked⟩ := foldlM_leaveHost
    (hleft.represents.nodup_below group) hleft.represents fun host => (hbelow host).mp
  refine ⟨marked', hloop, ?_, fun host => ?_⟩
  · convert hlinks using 1
    ext ⟨member, host⟩
    rw [Finset.mem_filter, Finset.mem_filter, hbelow, hmem, Finset.mem_filter, List.mem_append,
      List.mem_singleton]
    by_cases hsame : member = group
    · subst hsame
      tauto
    · tauto
  · rw [hmarked, hleft.mem_marked, hbelow, hmem]
    constructor
    · intro hhost
      cases hhost with
      | inl hbefore =>
        exact ⟨hbefore.1, fun member hmember => List.mem_append_left _ (hbefore.2 member hmember)⟩
      | inr hlast =>
        obtain ⟨⟨hgroup, -⟩, hothers⟩ := hlast
        refine ⟨⟨group, hgroup⟩, fun member hmember => ?_⟩
        by_cases hbefore : member ∈ groups
        · exact List.mem_append_left _ hbefore
        · have hsame : member = group := hothers member ((hmem member host).mpr ⟨hmember, hbefore⟩)
          exact List.mem_append_right _ (List.mem_singleton.mpr hsame)
    · intro hhost
      obtain ⟨hsome, hall⟩ := hhost
      have hother : ∀ member, (member, host) ∈ members → member ∉ groups → member = group :=
        fun member hmember hnew =>
          List.mem_singleton.mp ((List.mem_append.mp (hall member hmember)).resolve_left hnew)
      by_cases hlast : (group, host) ∈ members ∧ group ∉ groups
      · refine .inr ⟨hlast, fun member hmember => ?_⟩
        obtain ⟨hmember, hnew⟩ := (hmem member host).mp hmember
        exact hother member hmember hnew
      · refine .inl ⟨hsome, fun member hmember => ?_⟩
        by_contra hnew
        have hsame : member = group := hother member hmember hnew
        exact hlast (hsame ▸ ⟨hmember, hnew⟩)

/-! ## The marked rows -/

theorem Rows.represents_children (rows : Rows inventory) :
    (Links.ofRows rows.children).Represents inventory.children :=
  rows.children_toFinset ▸ Links.represents_ofRows rows.children_nodup

theorem Rows.represents_members (rows : Rows inventory) :
    (Links.ofRows rows.members).Represents inventory.members :=
  rows.members_toFinset ▸ Links.represents_ofRows rows.members_nodup

/-- Where the group is not released again, the groups and hosts that should be deleted are
marked. -/
theorem markActual_of_not_reentrant (rows : Rows inventory)
    (hroot : ¬ Reentrant inventory.children group) {fuel : ℕ}
    (hfuel : inventory.children.card ≤ fuel) :
    ∃ walk, markActual fuel group rows = .ok walk ∧
      (∀ other, other ∈ walk.released ↔ Released inventory.children group other) ∧
      ∀ host, host ∈ walk.rest.markedHosts ↔ Lost inventory group host := by
  have hstart : Left inventory.members [] ⟨Links.ofRows rows.members, []⟩ :=
    left_nil rows.represents_members rfl
  obtain ⟨marked, hmarked, hleft⟩ := hstart.leaveHosts group
  have hprogress : Progress (Left inventory.members) inventory.children group inventory.children
      ⟨Links.ofRows rows.children, [group], marked⟩ _ :=
    Progress.start rows.represents_children hleft
  have hrelease : ∀ groups marked other, Left inventory.members groups marked →
      ∃ marked', leaveHosts marked other = some marked' ∧
        Left inventory.members (groups ++ [other]) marked' :=
    fun _ _ other hleft => hleft.leaveHosts other
  obtain ⟨walk, hrun, hreleased, hleft'⟩ := hprogress.run hrelease hroot hfuel
  refine ⟨walk, ?_, hreleased, fun host => ?_⟩
  · rw [markActual, hmarked]
    exact hrun
  · rw [hleft'.mem_marked]
    constructor
    · intro hhost
      obtain ⟨⟨member, hmember⟩, hall⟩ := hhost
      have hdoomed : ∀ other, (other, host) ∈ inventory.members →
          Released inventory.children group other :=
        fun other hother => (hreleased other).mp (hall other hother)
      exact ⟨⟨member, hdoomed member hmember, hmember⟩, hdoomed⟩
    · intro hlost
      obtain ⟨⟨member, -, hmember⟩, hall⟩ := hlost
      exact ⟨⟨member, hmember⟩, fun other hother => (hreleased other).mpr (hall other hother)⟩

theorem nonempty_rows (inventory : Inventory) : Nonempty (Rows inventory) :=
  ⟨⟨inventory.children.toList, inventory.members.toList, Finset.nodup_toList _,
    Finset.nodup_toList _, Finset.toList_toFinset _, Finset.toList_toFinset _⟩⟩

theorem exists_rows_cons {row : ℕ × ℕ} (hrow : row ∈ inventory.children) :
    ∃ rows : Rows inventory, ∃ others, rows.children = row :: others ∧
      ∀ other ∈ inventory.children, other ≠ row → other ∈ others := by
  refine ⟨⟨row :: (inventory.children.erase row).toList, inventory.members.toList, ?_, ?_, ?_, ?_⟩,
    _, rfl, ?_⟩
  · refine List.nodup_cons.mpr ⟨?_, Finset.nodup_toList _⟩
    rw [Finset.mem_toList]
    exact Finset.notMem_erase row _
  · exact Finset.nodup_toList _
  · rw [List.toFinset_cons, Finset.toList_toFinset, Finset.insert_erase hrow]
  · exact Finset.toList_toFinset _
  · intro other hother hne
    rw [Finset.mem_toList]
    exact Finset.mem_erase.mpr ⟨hne, hother⟩

theorem exists_rows_of_reentrant (hroot : Reentrant inventory.children group) :
    ∃ rows : Rows inventory, ∀ fuel walk, markActual fuel group rows ≠ .ok walk := by
  obtain ⟨⟨hself, honly⟩, child, hne, hchild⟩ := hroot
  obtain ⟨rows, others, hrows, hothers⟩ := exists_rows_cons hself
  refine ⟨rows, fun fuel walk hmark => ?_⟩
  rw [markActual] at hmark
  split at hmark
  · next marked _ =>
    have hbelow : (Links.ofRows rows.children).below group = group ::
        (others.filter fun row => row.1 = group).map Prod.snd := by
      rw [Links.below_ofRows, hrows, List.filter_cons, if_pos (decide_eq_true rfl), List.map_cons]
    rw [hbelow, List.map_cons] at hmark
    refine run_ne_ok_of_reentrant rows.represents_children honly hne
      (List.mem_map_of_mem (List.mem_map.mpr ?_)) walk hmark
    have hwaits := hothers _ hchild fun hsame => hne (Prod.mk.inj hsame).2
    exact ⟨(group, child), List.mem_filter.mpr ⟨hwaits, decide_eq_true rfl⟩, rfl⟩
  · cases hmark

/-! ## The deleted rows -/

theorem released_parent {children : Finset (ℕ × ℕ)} {doomed parent : ℕ}
    (hreleased : Released children group doomed) (hne : doomed ≠ group)
    (hparent : (parent, doomed) ∈ children) : Released children group parent := by
  cases hreleased with
  | root => exact absurd rfl hne
  | follow _ habove => exact habove parent hparent

theorem mem_handed {tables : Tables} {handedRows : Finset (ℕ × ℕ)} {left : Finset ℕ}
    {parent doomed lower : ℕ} : (parent, lower) ∈ tables.handed handedRows left doomed ↔
      (parent ∈ left ∧ (parent, doomed) ∈ tables.children) ∧ (doomed, lower) ∈ handedRows := by
  rw [Tables.handed, Finset.mem_product, Finset.mem_filter, Finset.mem_image]
  refine and_congr_right fun _ => ⟨fun hrow => ?_, fun hrow => ?_⟩
  · obtain ⟨row, hrow, hlower⟩ := hrow
    obtain ⟨hrow, hupper⟩ := Finset.mem_filter.mp hrow
    rwa [show row = (doomed, lower) from Prod.ext hupper hlower] at hrow
  · exact ⟨(doomed, lower), Finset.mem_filter.mpr ⟨hrow, rfl⟩, rfl⟩

variable {released markedHosts : List ℕ}

theorem related_members {row : ℕ × ℕ}
    (hrow : row ∈ ((inventory.deleteGroups released).deleteHosts markedHosts).members) :
    row.1 ∈ inventory.groups.filter (· ∉ released) ∧
      row.2 ∈ inventory.hosts.filter (· ∉ markedHosts) := by
  obtain ⟨hrow, hhost⟩ := Finset.mem_filter.mp hrow
  cases Finset.mem_union.mp hrow with
  | inl hold =>
    obtain ⟨hmember, hupper⟩ := Finset.mem_filter.mp hold
    obtain ⟨hupper', hlower'⟩ := inventory.related.members row hmember
    exact ⟨Finset.mem_filter.mpr ⟨hupper', hupper⟩, Finset.mem_filter.mpr ⟨hlower', hhost⟩⟩
  | inr hnew =>
    obtain ⟨doomed, -, hnew⟩ := Finset.mem_biUnion.mp hnew
    obtain ⟨⟨hleft, -⟩, hmember⟩ := mem_handed.mp hnew
    exact ⟨hleft, Finset.mem_filter.mpr ⟨(inventory.related.members _ hmember).2, hhost⟩⟩

section

variable (hreleased : ∀ other, other ∈ released ↔ Released inventory.children group other)
include hreleased

theorem eq_of_left_parent {doomed parent : ℕ}
    (hdoomed : doomed ∈ inventory.groups.filter (· ∈ released))
    (hleft : parent ∈ inventory.groups.filter (· ∉ released))
    (hparent : (parent, doomed) ∈ inventory.children) : doomed = group := by
  by_contra hne
  have hmarked := (hreleased doomed).mp (Finset.mem_filter.mp hdoomed).2
  have hparent' := released_parent hmarked hne hparent
  exact (Finset.mem_filter.mp hleft).2 ((hreleased parent).mpr hparent')

theorem related_iff : ((inventory.deleteGroups released).deleteHosts markedHosts).Related ↔
    ¬ HandsOverDeleted inventory group := by
  constructor
  · intro hrelated hhands
    obtain ⟨⟨parent, hparent, hleft⟩, child, hchild, hdoomed⟩ := hhands
    have hgroup := (inventory.related.children _ hchild).1
    have hparent' := (inventory.related.children _ hparent).1
    have hkept : parent ∈ inventory.groups.filter (· ∉ released) :=
      Finset.mem_filter.mpr ⟨hparent', fun hmem => hleft ((hreleased parent).mp hmem)⟩
    have hmarked : group ∈ inventory.groups.filter (· ∈ released) :=
      Finset.mem_filter.mpr ⟨hgroup, (hreleased group).mpr .root⟩
    have hrow : (parent, child) ∈ ((inventory.deleteGroups released).deleteHosts
        markedHosts).children :=
      Finset.mem_union_right _ (Finset.mem_biUnion.mpr
        ⟨group, hmarked, mem_handed.mpr ⟨⟨hkept, hparent⟩, hchild⟩⟩)
    have hfound := (hrelated.children _ hrow).2
    exact (Finset.mem_filter.mp hfound).2 ((hreleased child).mpr hdoomed)
  · intro hhands
    refine ⟨fun row hrow => ?_, fun row hrow => related_members hrow⟩
    cases Finset.mem_union.mp hrow with
    | inl hold =>
      obtain ⟨hchild, hupper, hlower⟩ := Finset.mem_filter.mp hold
      obtain ⟨hupper', hlower'⟩ := inventory.related.children row hchild
      exact ⟨Finset.mem_filter.mpr ⟨hupper', hupper⟩, Finset.mem_filter.mpr ⟨hlower', hlower⟩⟩
    | inr hnew =>
      obtain ⟨doomed, hdoomed, hnew⟩ := Finset.mem_biUnion.mp hnew
      obtain ⟨⟨hleft, hparent⟩, hchild⟩ := mem_handed.mp hnew
      obtain rfl : doomed = group := eq_of_left_parent hreleased hdoomed hleft hparent
      refine ⟨hleft, Finset.mem_filter.mpr ⟨(inventory.related.children _ hchild).2, ?_⟩⟩
      intro hmem
      refine hhands ⟨⟨row.1, hparent, fun hdoomed => ?_⟩, row.2, hchild, (hreleased _).mp hmem⟩
      exact (Finset.mem_filter.mp hleft).2 ((hreleased row.1).mpr hdoomed)

end

theorem deleteRecursive_ne_outOfFuel (rows : Rows inventory) {fuel : ℕ}
    (hfuel : inventory.children.card < fuel) :
    deleteRecursive fuel group rows ≠ .error (.stopped .outOfFuel) := by
  have hmark : markActual fuel group rows ≠ .error .outOfFuel := by
    rw [markActual]
    split
    · exact run_ne_outOfFuel rows.represents_children hfuel
    · exact nofun
  rw [deleteRecursive]
  split
  · dsimp only
    split
    · exact nofun
    · exact nofun
  · next stop hstop =>
    intro hsame
    rw [hstop] at hmark
    exact hmark (congrArg Except.error (Failure.stopped.inj (Except.error.inj hsame)))

/-- A recursive deletion deletes the right rows, whatever the order in which they are read,
exactly when the group is not its own only parent with other children, and when it is not
between a parent that is left and a child that is deleted. -/
theorem deletesInEveryOrder_iff (inventory : Inventory) (group : ℕ) :
    DeletesInEveryOrder inventory group ↔
      ¬ Reentrant inventory.children group ∧ ¬ HandsOverDeleted inventory group := by
  constructor
  · intro hdeletes
    have hroot : ¬ Reentrant inventory.children group := by
      intro hreentrant
      obtain ⟨rows, hfails⟩ := exists_rows_of_reentrant hreentrant
      obtain ⟨bound, hbound⟩ := hdeletes rows
      obtain ⟨result, hresult, -⟩ := hbound bound le_rfl
      rw [deleteRecursive] at hresult
      split at hresult
      · next walk hwalk => exact hfails bound walk hwalk
      · cases hresult
    refine ⟨hroot, ?_⟩
    obtain ⟨rows⟩ := nonempty_rows inventory
    obtain ⟨bound, hbound⟩ := hdeletes rows
    obtain ⟨result, hresult, -⟩ := hbound (max bound inventory.children.card) (le_max_left _ _)
    obtain ⟨walk, hwalk, hreleased, -⟩ :=
      markActual_of_not_reentrant rows hroot (le_max_right bound inventory.children.card)
    rw [deleteRecursive, hwalk] at hresult
    by_contra hhands
    have hrelated : ¬ ((inventory.deleteGroups walk.released).deleteHosts
        walk.rest.markedHosts).Related := fun hrelated =>
      (related_iff hreleased).mp hrelated hhands
    cases (dif_neg hrelated).symm.trans hresult
  · intro hconditions
    obtain ⟨hroot, hhands⟩ := hconditions
    intro rows
    refine ⟨inventory.children.card, fun fuel hfuel => ?_⟩
    obtain ⟨walk, hwalk, hreleased, hlost⟩ := markActual_of_not_reentrant rows hroot hfuel
    have hrelated : ((inventory.deleteGroups walk.released).deleteHosts
        walk.rest.markedHosts).Related := (related_iff hreleased).mpr hhands
    refine ⟨⟨_, hrelated⟩, ?_, ?_, ?_⟩
    · rw [deleteRecursive, hwalk]
      exact dif_pos hrelated
    · intro other
      exact Finset.mem_filter.trans (and_congr_right fun _ => not_congr (hreleased other))
    · intro host
      exact Finset.mem_filter.trans (and_congr_right fun _ => not_congr (hlost host))

def nestedGroups : Inventory where
  groups := {1, 2, 3}
  hosts := {7}
  children := {(1, 2), (2, 3)}
  members := {(3, 7)}
  related := by decide

def ownParent : Inventory where
  groups := {1, 2}
  hosts := ∅
  children := {(1, 1), (1, 2)}
  members := ∅
  related := by decide

theorem ownParent_ends : deleteRecursive 3 1
    (⟨[(1, 1), (1, 2)], [], by decide, by decide, rfl, rfl⟩ : Rows ownParent) ≠
      .error (.stopped .outOfFuel) :=
  deleteRecursive_ne_outOfFuel _ (by decide)

/-- The first deletion hands the deleted child 3 to the group 1, the second one removes the
link to the child 2 twice. -/
theorem nested_not_deleted :
    ¬ DeletesInEveryOrder nestedGroups 2 ∧ ¬ DeletesInEveryOrder ownParent 1 := by
  constructor
  · intro hdeletes
    let rows : Rows nestedGroups := ⟨[(1, 2), (2, 3)], [(3, 7)], by decide, by decide, rfl, rfl⟩
    obtain ⟨bound, hbound⟩ := hdeletes rows
    obtain ⟨result, hresult, -⟩ := hbound (bound + 2) (Nat.le_add_right bound 2)
    have hfails : deleteRecursive (bound + 2) 2 rows = .error .integrityError := rfl
    cases hfails.symm.trans hresult
  · intro hdeletes
    let rows : Rows ownParent := ⟨[(1, 1), (1, 2)], [], by decide, by decide, rfl, rfl⟩
    obtain ⟨bound, hbound⟩ := hdeletes rows
    obtain ⟨result, hresult, -⟩ := hbound (bound + 3) (Nat.le_add_right bound 3)
    have hfails : deleteRecursive (bound + 3) 1 rows = .error (.stopped .missing) := rfl
    cases hfails.symm.trans hresult

end Forail.GroupDeletion
