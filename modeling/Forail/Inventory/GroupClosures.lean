import Forail.Core.ClosureRounds
import Forail.Inventory.GroupDeletion
import Mathlib.Data.Finset.Sort

/-!
# Closures of groups

The parents, children and hosts of a group over all levels.  The links of an inventory may
form cycles.
-/

namespace Forail.GroupClosures

open Relation
open Forail.ClosureRounds
open Forail.GroupDeletion

variable (inventory : Inventory) (orders : Orders ℕ) (fuel : ℕ)

/-! ## Maps of the inventory

A group that is not a key of a dictionary has the empty set. -/

def getGroupHostsMap (group : ℕ) : Finset ℕ :=
  (inventory.members.filter fun row => row.1 = group).image Prod.snd

def getGroupParentsMap (group : ℕ) : Finset ℕ :=
  (inventory.children.filter fun row => row.2 = group).image Prod.fst

def getGroupChildrenMap (group : ℕ) : Finset ℕ :=
  (inventory.children.filter fun row => row.1 = group).image Prod.snd

/-! ## The closures -/

def groupsIn (pks : Finset ℕ) : Finset ℕ := inventory.groups.filter (· ∈ pks)

def hostsIn (pks : Finset ℕ) : Finset ℕ := inventory.hosts.filter (· ∈ pks)

def getAllParents (group : ℕ) : Option (Finset ℕ) :=
  let groupParentsMap := getGroupParentsMap inventory
  (close groupParentsMap groupParentsMap orders fuel ⟨{group}, ∅, ∅⟩).map (groupsIn inventory)

def getAllChildren (group : ℕ) : Option (Finset ℕ) :=
  let groupChildrenMap := getGroupChildrenMap inventory
  (close groupChildrenMap groupChildrenMap orders fuel ⟨{group}, ∅, ∅⟩).map (groupsIn inventory)

def getAllHosts (group : ℕ) : Option (Finset ℕ) :=
  (close (getGroupChildrenMap inventory) (getGroupHostsMap inventory) orders fuel
    ⟨{group}, ∅, ∅⟩).map (hostsIn inventory)

def allGroups (host : ℕ) : Option (Finset ℕ) :=
  let groupParentsMap := getGroupParentsMap inventory
  let groupPks := (inventory.members.filter fun row => row.2 = host).image Prod.fst
  (close groupParentsMap groupParentsMap orders fuel ⟨groupPks, ∅, groupPks⟩).map
    (groupsIn inventory)

/-! ## What the closures are -/

def ParentOf (upper lower : ℕ) : Prop := (upper, lower) ∈ inventory.children

def Returns (call : Option (Finset ℕ)) (property : ℕ → Prop) : Prop :=
  ∃ result, call = some result ∧ ∀ item, item ∈ result ↔ property item

/-- Each call returns, with the groups that are above or below, or with the hosts of the group
and of the groups below it. -/
structure Closed : Prop where
  allParents : ∀ group, Returns (getAllParents inventory orders fuel group)
    fun other => TransGen (ParentOf inventory) other group
  allChildren : ∀ group, Returns (getAllChildren inventory orders fuel group)
    fun other => TransGen (ParentOf inventory) group other
  allHosts : ∀ group, Returns (getAllHosts inventory orders fuel group)
    fun host => ∃ lower, ReflTransGen (ParentOf inventory) group lower ∧
      (lower, host) ∈ inventory.members
  allGroups : ∀ host, Returns (allGroups inventory orders fuel host)
    fun other => ∃ member, (member, host) ∈ inventory.members ∧
      ReflTransGen (ParentOf inventory) other member

variable {inventory orders fuel} {group other : ℕ}

theorem Returns.filter {call : Option (Finset ℕ)} {property property' : ℕ → Prop}
    (hcall : Returns call property) (table : Finset ℕ)
    (hproperty : ∀ item, item ∈ table ∧ property item ↔ property' item) :
    Returns (call.map fun pks => table.filter (· ∈ pks)) property' := by
  obtain ⟨pks, rfl, hmem⟩ := hcall
  refine ⟨_, rfl, fun item => ?_⟩
  rw [Finset.mem_filter, hmem]
  exact hproperty item

theorem mem_getGroupHostsMap :
    other ∈ getGroupHostsMap inventory group ↔ (group, other) ∈ inventory.members := by
  simp [getGroupHostsMap]

theorem mem_getGroupParentsMap :
    other ∈ getGroupParentsMap inventory group ↔ ParentOf inventory other group := by
  simp [getGroupParentsMap, ParentOf]

theorem mem_getGroupChildrenMap :
    other ∈ getGroupChildrenMap inventory group ↔ ParentOf inventory group other := by
  simp [getGroupChildrenMap, ParentOf]

theorem reached_children {start : Finset ℕ} : Reached (getGroupChildrenMap inventory) start other ↔
    ∃ first ∈ start, ReflTransGen (ParentOf inventory) first other := by
  have hedges : (fun source target => target ∈ getGroupChildrenMap inventory source) =
      ParentOf inventory := by
    funext source target
    exact propext mem_getGroupChildrenMap
  rw [Reached, hedges]

theorem reached_parents {start : Finset ℕ} : Reached (getGroupParentsMap inventory) start other ↔
    ∃ first ∈ start, ReflTransGen (ParentOf inventory) other first := by
  have hedges : (fun source target => target ∈ getGroupParentsMap inventory source) =
      Function.swap (ParentOf inventory) := by
    funext source target
    exact propext mem_getGroupParentsMap
  rw [Reached, hedges]
  exact exists_congr fun first => and_congr_right fun _ => reflTransGen_swap

theorem ParentOf.mem_groups (hlink : ParentOf inventory group other) :
    group ∈ inventory.groups ∧ other ∈ inventory.groups := inventory.related.children _ hlink

theorem close_eq (orders : Orders ℕ) {next : ℕ → Finset ℕ} {start : Finset ℕ} (collect : ℕ → Finset ℕ)
    (before : Finset ℕ) (root : ℕ)
    (hnext : ∀ vertex target, target ∈ next vertex → target ∈ inventory.groups)
    (hstart : start ⊆ insert root inventory.groups) (hfuel : inventory.groups.card + 1 < fuel) :
    Returns (close next collect orders fuel ⟨start, ∅, before⟩) fun item =>
      item ∈ before ∨ ∃ vertex, Reached next start vertex ∧ item ∈ collect vertex := by
  refine Progress.initial.close hstart (fun vertex _ target htarget =>
    Finset.mem_insert_of_mem (hnext vertex target htarget)) orders ?_
  exact (Finset.card_le_card Finset.sdiff_subset).trans_lt
    ((Finset.card_insert_le root inventory.groups).trans_lt hfuel)

section

variable (hfuel : inventory.groups.card + 1 < fuel)
include hfuel

theorem close_singleton {next : ℕ → Finset ℕ} (collect : ℕ → Finset ℕ)
    (hnext : ∀ vertex target, target ∈ next vertex → target ∈ inventory.groups) (group : ℕ) :
    Returns (close next collect orders fuel ⟨{group}, ∅, ∅⟩) fun item =>
      ∃ vertex, Reached next {group} vertex ∧ item ∈ collect vertex := by
  have hstart : {group} ⊆ insert group inventory.groups :=
    Finset.singleton_subset_iff.mpr (Finset.mem_insert_self group _)
  obtain ⟨result, hresult, hmem⟩ := close_eq orders collect ∅ group hnext hstart hfuel
  refine ⟨result, hresult, fun item => (hmem item).trans ?_⟩
  exact or_iff_right (Finset.notMem_empty item)

theorem getAllParents_eq (group : ℕ) : Returns (getAllParents inventory orders fuel group)
    fun other => TransGen (ParentOf inventory) other group := by
  refine (close_singleton hfuel (getGroupParentsMap inventory)
    (fun _ _ htarget => (mem_getGroupParentsMap.mp htarget).mem_groups.1) group).filter
      inventory.groups fun other => ?_
  simp only [reached_parents, Finset.mem_singleton, exists_eq_left, mem_getGroupParentsMap]
  rw [TransGen.head'_iff]
  constructor
  · rintro ⟨-, lower, hpath, hlink⟩
    exact ⟨lower, hlink, hpath⟩
  · rintro ⟨lower, hlink, hpath⟩
    exact ⟨hlink.mem_groups.1, lower, hpath, hlink⟩

theorem getAllChildren_eq (group : ℕ) : Returns (getAllChildren inventory orders fuel group)
    fun other => TransGen (ParentOf inventory) group other := by
  refine (close_singleton hfuel (getGroupChildrenMap inventory)
    (fun _ _ htarget => (mem_getGroupChildrenMap.mp htarget).mem_groups.2) group).filter
      inventory.groups fun other => ?_
  simp only [reached_children, Finset.mem_singleton, exists_eq_left, mem_getGroupChildrenMap]
  rw [TransGen.tail'_iff]
  refine and_iff_right_of_imp fun ⟨upper, _, hlink⟩ => ?_
  exact hlink.mem_groups.2

theorem getAllHosts_eq (group : ℕ) : Returns (getAllHosts inventory orders fuel group)
    fun host => ∃ lower, ReflTransGen (ParentOf inventory) group lower ∧
      (lower, host) ∈ inventory.members := by
  refine (close_singleton hfuel (getGroupHostsMap inventory)
    (fun _ _ htarget => (mem_getGroupChildrenMap.mp htarget).mem_groups.2) group).filter
      inventory.hosts fun host => ?_
  simp only [reached_children, Finset.mem_singleton, exists_eq_left, mem_getGroupHostsMap]
  refine and_iff_right_of_imp fun ⟨lower, _, hmember⟩ => ?_
  exact (inventory.related.members _ hmember).2

theorem allGroups_eq (host : ℕ) : Returns (allGroups inventory orders fuel host)
    fun other => ∃ member, (member, host) ∈ inventory.members ∧
      ReflTransGen (ParentOf inventory) other member := by
  have hstart : ∀ member, member ∈ (inventory.members.filter fun row => row.2 = host).image
      Prod.fst ↔ (member, host) ∈ inventory.members := by simp
  refine (close_eq orders (getGroupParentsMap inventory)
    ((inventory.members.filter fun row => row.2 = host).image Prod.fst) 0
    (fun _ _ htarget => (mem_getGroupParentsMap.mp htarget).mem_groups.1)
    (fun member hmember => Finset.mem_insert_of_mem
      (inventory.related.members _ ((hstart member).mp hmember)).1) hfuel).filter
        inventory.groups fun other => ?_
  simp only [reached_parents, hstart, mem_getGroupParentsMap]
  constructor
  · rintro ⟨-, hmember | ⟨lower, ⟨member, hmember, hpath⟩, hlink⟩⟩
    · exact ⟨other, hmember, .refl⟩
    · exact ⟨member, hmember, hpath.head hlink⟩
  · rintro ⟨member, hmember, hpath⟩
    cases hpath.cases_head with
    | inl hsame =>
      subst hsame
      exact ⟨(inventory.related.members _ hmember).1, .inl hmember⟩
    | inr hstep =>
      obtain ⟨lower, hlink, hpath⟩ := hstep
      exact ⟨hlink.mem_groups.1, .inr ⟨lower, ⟨member, hmember, hpath⟩, hlink⟩⟩

end

/-- More rounds than there are groups are enough. -/
theorem groups_closed (inventory : Inventory) (orders : Orders ℕ) (fuel : ℕ)
    (hfuel : inventory.groups.card + 1 < fuel) : Closed inventory orders fuel where
  allParents := getAllParents_eq hfuel
  allChildren := getAllChildren_eq hfuel
  allHosts := getAllHosts_eq hfuel
  allGroups := allGroups_eq hfuel

def groupCycle : Inventory where
  groups := {1, 2, 3}
  hosts := {7}
  children := {(1, 2), (2, 3), (3, 1)}
  members := {(3, 7)}
  related := by decide

def ascending : Orders ℕ where
  list := fun _ set => set.sort (· ≤ ·)
  nodup := fun _ set => set.sort_nodup (· ≤ ·)
  mem_list := fun _ _ _ => Finset.mem_sort _

theorem groups_closed_cycle : Closed groupCycle ascending 5 :=
  groups_closed groupCycle ascending 5 (by decide)

end Forail.GroupClosures
