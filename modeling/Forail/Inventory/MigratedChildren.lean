import Forail.Core.VertexRemoval
import Forail.Inventory.GroupClosures

/-!
# Deletion of one group

A group that is deleted without its children hands its hosts and its child groups to its
parents.  The other groups then inherit what they inherited before.
-/

namespace Forail.MigratedChildren

open Relation
open Forail.ClosureRounds
open Forail.GroupClosures
open Forail.GroupDeletion
open Forail.VertexRemoval

/-- `Group.delete`, outside of the removal of an inventory: the links are recorded before the
row is deleted, and handed over after it.  The foreign keys are checked at the end. -/
def delete (inventory : Inventory) (group : ℕ) : Option Inventory :=
  let tables := inventory.deleteGroups [group]
  if related : tables.Related then some ⟨tables, related⟩ else none

/-- Only the group is deleted, links between other rows are kept, and for the other groups
only the group itself is missing from what they inherit. -/
structure KeepsInheritance (inventory : Inventory) (group : ℕ) (result : Inventory) : Prop where
  groups : result.groups = inventory.groups.erase group
  hosts : result.hosts = inventory.hosts
  children : ∀ row ∈ inventory.children, row.1 ≠ group → row.2 ≠ group → row ∈ result.children
  members : ∀ row ∈ inventory.members, row.1 ≠ group → row ∈ result.members
  allHosts : ∀ orders orders' fuel, inventory.groups.card + 1 < fuel → ∀ other ≠ group,
    getAllHosts result orders fuel other = getAllHosts inventory orders' fuel other
  allChildren : ∀ orders orders' fuel, inventory.groups.card + 1 < fuel → ∀ other ≠ group,
    getAllChildren result orders fuel other =
      (getAllChildren inventory orders' fuel other).map (·.erase group)

variable {inventory : Inventory} {group upper item : ℕ}

theorem mem_doomed_iff {rows : Finset (ℕ × ℕ)} :
    (upper, item) ∈ (inventory.groups.filter (· ∈ [group])).biUnion
        (inventory.handed rows (inventory.groups.filter (· ∉ [group]))) ↔
      upper ≠ group ∧ ParentOf inventory upper group ∧ (group, item) ∈ rows := by
  simp only [Finset.mem_biUnion, Finset.mem_filter, List.mem_singleton, mem_handed]
  constructor
  · rintro ⟨doomed, ⟨-, rfl⟩, ⟨⟨-, hne⟩, hparent⟩, hrow⟩
    exact ⟨hne, hparent, hrow⟩
  · rintro ⟨hne, hparent, hrow⟩
    exact ⟨group, ⟨hparent.mem_groups.2, rfl⟩, ⟨⟨hparent.mem_groups.1, hne⟩, hparent⟩, hrow⟩

theorem mem_members_iff : (upper, item) ∈ (inventory.deleteGroups [group]).members ↔
    HandsOver (ParentOf inventory) (fun upper host => (upper, host) ∈ inventory.members) group
      upper item := by
  rw [Tables.deleteGroups, Finset.mem_union, mem_doomed_iff, Finset.mem_filter,
    List.mem_singleton, HandsOver]
  tauto

section

variable (hself : ∀ other, ¬ ParentOf inventory other other)
include hself

theorem mem_children_iff : (upper, item) ∈ (inventory.deleteGroups [group]).children ↔
    Bypass (ParentOf inventory) group upper item := by
  have hne : ParentOf inventory group item → item ≠ group := by
    rintro hlink rfl
    exact hself _ hlink
  rw [Tables.deleteGroups, Finset.mem_union, mem_doomed_iff, Finset.mem_filter,
    List.mem_singleton, List.mem_singleton, Bypass]
  change ParentOf inventory upper item ∧ _ ∨ _ ∧ _ ∧ ParentOf inventory group item ↔ _
  tauto

theorem related_deleteGroups : (inventory.deleteGroups [group]).Related := by
  have hgroups : ∀ other, other ∈ (inventory.deleteGroups [group]).groups ↔
      other ∈ inventory.groups ∧ other ≠ group := by simp [Tables.deleteGroups]
  constructor
  · rintro ⟨upper, lower⟩ hrow
    obtain ⟨hupper, hlower, hlink⟩ := (mem_children_iff hself).mp hrow
    rw [hgroups, hgroups]
    cases hlink with
    | inl hlink => exact ⟨⟨hlink.mem_groups.1, hupper⟩, hlink.mem_groups.2, hlower⟩
    | inr hlinks => exact ⟨⟨hlinks.1.mem_groups.1, hupper⟩, hlinks.2.mem_groups.2, hlower⟩
  · rintro ⟨upper, host⟩ hrow
    obtain ⟨hupper, hheld⟩ := mem_members_iff.mp hrow
    rw [hgroups]
    cases hheld with
    | inl hheld =>
      obtain ⟨hgroup, hhost⟩ := inventory.related.members _ hheld
      exact ⟨⟨hgroup, hupper⟩, hhost⟩
    | inr hheld =>
      exact ⟨⟨hheld.1.mem_groups.1, hupper⟩, (inventory.related.members _ hheld.2).2⟩

end

/-- Without groups that are their own parents, a group can be deleted, and the others keep what
they inherit. -/
theorem inheritance_kept (inventory : Inventory) (group : ℕ)
    (hself : ∀ other, ¬ ParentOf inventory other other) :
    ∃ result, delete inventory group = some result ∧
      KeepsInheritance inventory group result := by
  have hrelated : (inventory.deleteGroups [group]).Related := related_deleteGroups hself
  let result : Inventory := ⟨inventory.deleteGroups [group], hrelated⟩
  have hlinks : ParentOf result = Bypass (ParentOf inventory) group := by
    funext upper lower
    exact propext (mem_children_iff hself)
  have hgroups : result.groups = inventory.groups.erase group := by
    ext other
    simp [result, Tables.deleteGroups, and_comm]
  have hfewer : ∀ {fuel}, inventory.groups.card + 1 < fuel → result.groups.card + 1 < fuel :=
    fun hfuel => lt_of_le_of_lt (Nat.succ_le_succ (hgroups ▸ Finset.card_erase_le)) hfuel
  refine ⟨result, dif_pos hrelated, hgroups, rfl, ?_, ?_, ?_, ?_⟩
  · intro row hrow hupper hlower
    exact (mem_children_iff hself).mpr ⟨hupper, hlower, .inl hrow⟩
  · exact fun row hrow hupper => mem_members_iff.mpr ⟨hupper, .inl hrow⟩
  · intro orders orders' fuel hfuel other hother
    obtain ⟨after, hafter, hmem⟩ : Returns (getAllHosts result orders fuel other) _ :=
      getAllHosts_eq (hfewer hfuel) other
    obtain ⟨before, hbefore, hmem'⟩ : Returns (getAllHosts inventory orders' fuel other) _ :=
      getAllHosts_eq hfuel other
    rw [hafter, hbefore]
    refine congrArg some (Finset.ext fun host => ?_)
    rw [hmem, hmem', hlinks]
    refine Iff.trans ?_ (exists_holder_bypass_iff hother)
    exact exists_congr fun lower => and_congr_right fun _ => mem_members_iff
  · intro orders orders' fuel hfuel other hother
    obtain ⟨after, hafter, hmem⟩ : Returns (getAllChildren result orders fuel other) _ :=
      getAllChildren_eq (hfewer hfuel) other
    obtain ⟨before, hbefore, hmem'⟩ : Returns (getAllChildren inventory orders' fuel other) _ :=
      getAllChildren_eq hfuel other
    rw [hafter, hbefore]
    refine congrArg some (Finset.ext fun lower => ?_)
    rw [Finset.mem_erase, hmem, hmem', hlinks]
    by_cases hlower : lower = group
    · refine iff_of_false (fun hpath => ?_) fun hleft => hleft.1 hlower
      obtain ⟨last, -, hstep⟩ := TransGen.tail'_iff.mp hpath
      exact hstep.2.1 hlower
    · exact (transGen_bypass_iff hother hlower).trans (and_iff_right hlower).symm

def sharedCycle : Inventory where
  groups := {1, 2, 3}
  hosts := {7}
  children := {(1, 2), (2, 1), (2, 3)}
  members := {(2, 7)}
  related := by decide

theorem inheritance_kept_cycle : ∃ result, delete sharedCycle 2 = some result ∧
    KeepsInheritance sharedCycle 2 result := by
  refine inheritance_kept sharedCycle 2 fun other hlink => ?_
  have hrows : ∀ row ∈ sharedCycle.children, row.1 ≠ row.2 := by decide
  exact hrows _ hlink rfl

end Forail.MigratedChildren
