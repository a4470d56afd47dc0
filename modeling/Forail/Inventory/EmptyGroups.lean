import Forail.Core.Dictionaries
import Forail.Core.LeafPruning
import Forail.Core.Runs

/-!
# Empty groups of an inventory in memory

An inventory in memory is built group by group.  Before it is imported, the groups
without children, hosts and variables may be deleted, in one pass over the groups in the
order of their creation.
-/

namespace Forail.EmptyGroups

open Forail.Json Forail.LeafPruning

structure MemGroup where
  children : List String
  hosts : List String
  vars : Vars
  parents : List String

/-- The group objects by name, and the keys of `all_groups` in their order.  The group
`all` is no entry of `all_groups`. -/
structure MemInventory where
  groups : String → MemGroup
  allGroups : List String

namespace MemGroup

def init : MemGroup where
  children := []
  hosts := []
  vars := ∅
  parents := []

def isBare (group : MemGroup) : Bool := group.hosts.isEmpty && group.vars.entries.isEmpty

def dropChild (name : String) (group : MemGroup) : MemGroup :=
  { group with children := group.children.filter fun child => child != name }

def isEmpty (group : MemGroup) : Bool := group.children.isEmpty && group.isBare

theorem dropChild_dropChild (name : String) (group : MemGroup) :
    (group.dropChild name).dropChild name = group.dropChild name := by
  simp only [dropChild, List.filter_filter, Bool.and_self]

end MemGroup

namespace MemInventory

def init : MemInventory where
  groups := fun _ => .init
  allGroups := []

def modify (inventory : MemInventory) (name : String) (change : MemGroup → MemGroup) :
    MemInventory :=
  { inventory with
    groups := Function.update inventory.groups name (change (inventory.groups name)) }

@[simp] theorem groups_modify_self (inventory : MemInventory) (name : String)
    (change : MemGroup → MemGroup) :
    (inventory.modify name change).groups name = change (inventory.groups name) :=
  Function.update_self name _ _

@[simp] theorem groups_modify_of_ne {inventory : MemInventory} {name other : String}
    {change : MemGroup → MemGroup} (hother : other ≠ name) :
    (inventory.modify name change).groups other = inventory.groups other :=
  Function.update_of_ne hother _ _

@[simp] theorem allGroups_modify (inventory : MemInventory) (name : String)
    (change : MemGroup → MemGroup) :
    (inventory.modify name change).allGroups = inventory.allGroups := rfl

def appended (items : List String) (item : String) : List String :=
  if item ∈ items then items else items ++ [item]

/-- `none` for a failed assertion. -/
def addChildGroup (inventory : MemInventory) (self group : String) : Option MemInventory :=
  if group = "all" then none
  else
    let inventory := inventory.modify self fun parent =>
      { parent with children := appended parent.children group }
    some (inventory.modify group fun child => { child with parents := appended child.parents self })

def addHost (inventory : MemInventory) (self host : String) : MemInventory :=
  inventory.modify self fun group => { group with hosts := appended group.hosts host }

def updateVariables (inventory : MemInventory) (self : String) (vars : Vars) :
    MemInventory :=
  inventory.modify self fun group => { group with vars := vars ∪ group.vars }

def createGroup (inventory : MemInventory) (name : String) : Option MemInventory :=
  if name = "" then none
  else some
    { groups := Function.update inventory.groups name .init
      allGroups := inventory.allGroups ++ [name] }

/-- The group that is found or created, if the filter lets it through. -/
def getGroup (groupFilter : String → Bool) (inventory : MemInventory) (name : String)
    (allGroup : Option String) (child : Bool) : Option (Option String × MemInventory) :=
  let allGroup := allGroup.getD "all"
  if name = "all" ∨ name = "ungrouped" then some (some allGroup, inventory)
  else if groupFilter name = false then some (none, inventory)
  else if name ∈ inventory.allGroups then some (some name, inventory)
  else (inventory.createGroup name).bind fun inventory =>
    if child then some (some name, inventory)
    else (inventory.addChildGroup allGroup name).map fun inventory => (some name, inventory)

def removeChild (group : String) (inventory : MemInventory) (parent : String) : MemInventory :=
  if group ∈ (inventory.groups parent).children then
    inventory.modify parent fun parent => { parent with children := parent.children.erase group }
  else inventory

def removeGroup (inventory : MemInventory) (name : String) : MemInventory :=
  let inventory := (inventory.groups name).parents.foldl (removeChild name) inventory
  { inventory with allGroups := inventory.allGroups.erase name }

def deleteEmptyGroups (inventory : MemInventory) : MemInventory :=
  inventory.allGroups.foldl (fun inventory name =>
    if (inventory.groups name).isEmpty then inventory.removeGroup name else inventory) inventory

end MemInventory

/-! ## Building an inventory -/

inductive Operation where
  | getGroup (name : String) (allGroup : Option String) (child : Bool)
  | addChildGroup (self group : String)
  | addHost (self host : String)
  | updateVariables (self : String) (vars : Vars)

def MemInventory.IsGroup (inventory : MemInventory) (name : String) : Prop :=
  name = "all" ∨ name ∈ inventory.allGroups

def step (groupFilter : String → Bool) (inventory : MemInventory) :
    Operation → Option MemInventory
  | .getGroup name allGroup child =>
      (inventory.getGroup groupFilter name allGroup child).map Prod.snd
  | .addChildGroup self group => inventory.addChildGroup self group
  | .addHost self host => some (inventory.addHost self host)
  | .updateVariables self vars => some (inventory.updateVariables self vars)

def Operation.Refers (inventory : MemInventory) : Operation → Prop
  | .getGroup _ allGroup _ => ∀ name ∈ allGroup, inventory.IsGroup name
  | .addChildGroup self group => inventory.IsGroup self ∧ inventory.IsGroup group
  | .addHost self _ => inventory.IsGroup self
  | .updateVariables self _ => inventory.IsGroup self

instance (inventory : MemInventory) (name : String) : Decidable (inventory.IsGroup name) :=
  inferInstanceAs (Decidable (_ ∨ _))

instance (inventory : MemInventory) : ∀ operation, Decidable (Operation.Refers inventory operation)
  | .getGroup _ allGroup _ => inferInstanceAs (Decidable (∀ name ∈ allGroup, _))
  | .addChildGroup _ _ => inferInstanceAs (Decidable (_ ∧ _))
  | .addHost self _ => inferInstanceAs (Decidable (inventory.IsGroup self))
  | .updateVariables self _ => inferInstanceAs (Decidable (inventory.IsGroup self))

def Built (groupFilter : String → Bool) (inventory : MemInventory) : Prop :=
  Runs.Run (step groupFilter) Operation.Refers .init inventory

structure Linked (inventory : MemInventory) : Prop where
  nodup : inventory.allGroups.Nodup
  all : "all" ∉ inventory.allGroups
  nodupChildren : ∀ name, (inventory.groups name).children.Nodup
  parents : ∀ parent child, child ∈ (inventory.groups parent).children ↔
    parent ∈ (inventory.groups child).parents
  children : ∀ parent child, child ∈ (inventory.groups parent).children →
    inventory.IsGroup parent ∧ child ∈ inventory.allGroups

variable {groupFilter : String → Bool} {inventory inventory' : MemInventory}
  {name self group : String}

theorem linked_init : Linked .init where
  nodup := List.nodup_nil
  all := List.not_mem_nil
  nodupChildren := fun _ => List.nodup_nil
  parents := fun _ _ => iff_of_false List.not_mem_nil List.not_mem_nil
  children := fun _ _ hchild => absurd hchild List.not_mem_nil

theorem mem_appended {items : List String} {item other : String} :
    other ∈ MemInventory.appended items item ↔ other ∈ items ∨ other = item := by
  rw [MemInventory.appended]
  split
  · next hmem =>
    refine (or_iff_left_of_imp ?_).symm
    rintro rfl
    exact hmem
  · rw [List.mem_append, List.mem_singleton]

theorem nodup_appended {items : List String} (hnodup : items.Nodup) (item : String) :
    (MemInventory.appended items item).Nodup := by
  rw [MemInventory.appended]
  split
  · exact hnodup
  · next hnew => exact List.nodup_append.mpr ⟨hnodup, List.nodup_singleton item,
      fun other hother single hsingle => by
        rw [List.mem_singleton.mp hsingle]
        exact fun heq => hnew (heq ▸ hother)⟩

theorem Linked.modify (hlinked : Linked inventory) {change : MemGroup → MemGroup}
    (hchildren : ∀ group, (change group).children = group.children)
    (hparents : ∀ group, (change group).parents = group.parents) :
    Linked (inventory.modify name change) := by
  have hgroups (other : String) :
      ((inventory.modify name change).groups other).children =
          (inventory.groups other).children ∧
        ((inventory.modify name change).groups other).parents =
          (inventory.groups other).parents := by
    by_cases hother : other = name
    · subst hother
      rw [MemInventory.groups_modify_self]
      exact ⟨hchildren _, hparents _⟩
    · rw [MemInventory.groups_modify_of_ne hother]
      exact ⟨rfl, rfl⟩
  constructor
  · exact hlinked.nodup
  · exact hlinked.all
  · intro other
    rw [(hgroups other).1]
    exact hlinked.nodupChildren other
  · intro parent child
    rw [(hgroups parent).1, (hgroups child).2]
    exact hlinked.parents parent child
  · intro parent child hchild
    rw [(hgroups parent).1] at hchild
    exact hlinked.children parent child hchild

theorem children_addChildGroup (hadded : inventory.addChildGroup self group = some inventory')
    (parent : String) : (inventory'.groups parent).children =
      if parent = self then MemInventory.appended (inventory.groups self).children group
      else (inventory.groups parent).children := by
  rw [MemInventory.addChildGroup] at hadded
  split at hadded
  · exact absurd hadded fun h => nomatch h
  obtain rfl := Option.some.inj hadded
  simp only [MemInventory.modify, Function.update_apply]
  grind

theorem parents_addChildGroup (hadded : inventory.addChildGroup self group = some inventory')
    (child : String) : (inventory'.groups child).parents =
      if child = group then MemInventory.appended (inventory.groups group).parents self
      else (inventory.groups child).parents := by
  rw [MemInventory.addChildGroup] at hadded
  split at hadded
  · exact absurd hadded fun h => nomatch h
  obtain rfl := Option.some.inj hadded
  simp only [MemInventory.modify, Function.update_apply]
  grind

theorem allGroups_addChildGroup (hadded : inventory.addChildGroup self group = some inventory') :
    inventory'.allGroups = inventory.allGroups ∧ group ≠ "all" := by
  rw [MemInventory.addChildGroup] at hadded
  split at hadded
  · exact absurd hadded fun h => nomatch h
  · next hall =>
    obtain rfl := Option.some.inj hadded
    exact ⟨rfl, hall⟩

theorem Linked.addChildGroup (hlinked : Linked inventory) (hself : inventory.IsGroup self)
    (hgroup : inventory.IsGroup group)
    (hadded : inventory.addChildGroup self group = some inventory') : Linked inventory' := by
  obtain ⟨hallGroups, hall⟩ := allGroups_addChildGroup hadded
  have hchildren := children_addChildGroup hadded
  have hmem : group ∈ inventory.allGroups := hgroup.resolve_left hall
  constructor
  · rw [hallGroups]
    exact hlinked.nodup
  · rw [hallGroups]
    exact hlinked.all
  · intro parent
    rw [hchildren]
    split
    · exact nodup_appended (hlinked.nodupChildren self) group
    · exact hlinked.nodupChildren parent
  · intro parent child
    have hold := hlinked.parents
    rw [hchildren, parents_addChildGroup hadded]
    by_cases hparent : parent = self <;> by_cases hchild : child = group
    · subst hparent hchild
      rw [if_pos rfl, if_pos rfl, mem_appended, mem_appended]
      exact iff_of_true (.inr rfl) (.inr rfl)
    · subst hparent
      rw [if_pos rfl, if_neg hchild, mem_appended, or_iff_left hchild]
      exact hold parent child
    · subst hchild
      rw [if_neg hparent, if_pos rfl, mem_appended, or_iff_left hparent]
      exact hold parent child
    · rw [if_neg hparent, if_neg hchild]
      exact hold parent child
  · intro parent child hchild
    rw [MemInventory.IsGroup, hallGroups]
    rw [hchildren] at hchild
    split at hchild
    · next hparent =>
      subst hparent
      rcases mem_appended.mp hchild with hchild | rfl
      · exact hlinked.children parent child hchild
      · exact ⟨hself, hmem⟩
    · exact hlinked.children parent child hchild

theorem Linked.createGroup (hlinked : Linked inventory) (hname : name ≠ "all")
    (hnew : name ∉ inventory.allGroups) (hcreated : inventory.createGroup name = some inventory') :
    Linked inventory' := by
  rw [MemInventory.createGroup] at hcreated
  split at hcreated
  · exact absurd hcreated fun h => nomatch h
  obtain rfl := Option.some.inj hcreated
  have hchildless : (inventory.groups name).children = [] := by
    refine List.eq_nil_iff_forall_not_mem.mpr fun child hchild => ?_
    exact (hlinked.children name child hchild).1.elim hname hnew
  have hparentless : (inventory.groups name).parents = [] := by
    refine List.eq_nil_iff_forall_not_mem.mpr fun parent hparent => ?_
    exact hnew (hlinked.children parent name ((hlinked.parents parent name).mpr hparent)).2
  have hchildren (other : String) :
      (Function.update inventory.groups name MemGroup.init other).children =
        (inventory.groups other).children := by
    by_cases hother : other = name
    · rw [hother, Function.update_self, hchildless, MemGroup.init]
    · rw [Function.update_of_ne hother]
  have hparents (other : String) :
      (Function.update inventory.groups name MemGroup.init other).parents =
        (inventory.groups other).parents := by
    by_cases hother : other = name
    · rw [hother, Function.update_self, hparentless, MemGroup.init]
    · rw [Function.update_of_ne hother]
  constructor
  · refine List.nodup_append.mpr ⟨hlinked.nodup, List.nodup_singleton name, ?_⟩
    intro other hother single hsingle heq
    exact hnew (List.mem_singleton.mp hsingle ▸ heq ▸ hother)
  · rw [List.mem_append, List.mem_singleton]
    exact not_or.mpr ⟨hlinked.all, hname.symm⟩
  · intro other
    rw [hchildren]
    exact hlinked.nodupChildren other
  · intro parent child
    rw [hchildren, hparents]
    exact hlinked.parents parent child
  · intro parent child hchild
    rw [hchildren] at hchild
    obtain ⟨hparent, hmem⟩ := hlinked.children parent child hchild
    exact ⟨hparent.imp_right (List.mem_append_left [name]), List.mem_append_left [name] hmem⟩

theorem Linked.getGroup (hlinked : Linked inventory) {allGroup : Option String} {child : Bool}
    (hallGroup : ∀ name ∈ allGroup, inventory.IsGroup name) {found : Option String}
    (hfound : inventory.getGroup groupFilter name allGroup child = some (found, inventory')) :
    Linked inventory' := by
  rw [MemInventory.getGroup] at hfound
  split at hfound
  · obtain ⟨-, rfl⟩ := Prod.mk.inj (Option.some.inj hfound)
    exact hlinked
  next hname =>
    split at hfound
    · obtain ⟨-, rfl⟩ := Prod.mk.inj (Option.some.inj hfound)
      exact hlinked
    split at hfound
    · obtain ⟨-, rfl⟩ := Prod.mk.inj (Option.some.inj hfound)
      exact hlinked
    next hnew =>
      obtain ⟨created, hcreated, hfound⟩ := Option.bind_eq_some_iff.mp hfound
      have hcreatedLinked := hlinked.createGroup (fun hall => hname (.inl hall)) hnew hcreated
      split at hfound
      · obtain ⟨-, rfl⟩ := Prod.mk.inj (Option.some.inj hfound)
        exact hcreatedLinked
      · obtain ⟨added, hadded, hfound⟩ := Option.map_eq_some_iff.mp hfound
        obtain ⟨-, rfl⟩ := Prod.mk.inj hfound
        have hallGroups : created.allGroups = inventory.allGroups ++ [name] := by
          rw [MemInventory.createGroup] at hcreated
          split at hcreated
          · exact absurd hcreated fun h => nomatch h
          · exact Option.some.inj hcreated ▸ rfl
        refine hcreatedLinked.addChildGroup ?_ (.inr ?_) hadded
        · rw [MemInventory.IsGroup, hallGroups, List.mem_append]
          cases allGroup with
          | none => exact .inl rfl
          | some parent => exact (hallGroup parent rfl).imp_right .inl
        · rw [hallGroups]
          exact List.mem_append_right _ (List.mem_singleton_self name)

theorem Linked.step (hlinked : Linked inventory) {operation : Operation}
    (hrefers : operation.Refers inventory)
    (hstep : step groupFilter inventory operation = some inventory') : Linked inventory' := by
  cases operation with
  | getGroup name allGroup child =>
    obtain ⟨⟨found, next⟩, hfound, rfl⟩ := Option.map_eq_some_iff.mp hstep
    exact hlinked.getGroup hrefers hfound
  | addChildGroup self group => exact hlinked.addChildGroup hrefers.1 hrefers.2 hstep
  | addHost self host =>
    obtain rfl := Option.some.inj hstep
    exact hlinked.modify (fun _ => rfl) fun _ => rfl
  | updateVariables self vars =>
    obtain rfl := Option.some.inj hstep
    exact hlinked.modify (fun _ => rfl) fun _ => rfl

theorem linked_of_built (hbuilt : Built groupFilter inventory) : Linked inventory :=
  hbuilt.invariant Linked linked_init fun _ _ _ hlinked hrefers hstep =>
    hlinked.step hrefers hstep

/-! ## The pass -/

namespace MemInventory

def without (inventory : MemInventory) (removed : List String) : MemInventory where
  groups := fun name =>
    { inventory.groups name with
      children := (inventory.groups name).children.filter fun child => child ∉ removed }
  allGroups := inventory.allGroups.filter fun name => name ∉ removed

def bare (inventory : MemInventory) (name : String) : Bool := (inventory.groups name).isBare

def children (inventory : MemInventory) (name : String) : List String :=
  (inventory.groups name).children

def removedGroups (inventory : MemInventory) : List String :=
  prune inventory.bare inventory.children [] inventory.allGroups

theorem without_nil (inventory : MemInventory) : inventory.without [] = inventory := by
  simp [without]

theorem groups_removeChild {parent : String} {inventory : MemInventory}
    (hnodup : (inventory.groups parent).children.Nodup) (name : String) :
    (removeChild group inventory parent).groups name =
      if name = parent then (inventory.groups name).dropChild group
      else inventory.groups name := by
  rw [removeChild]
  by_cases hname : name = parent
  · subst hname
    rw [if_pos rfl]
    split
    · rw [groups_modify_self, hnodup.erase_eq_filter, MemGroup.dropChild]
    · next hmem =>
      rw [MemGroup.dropChild, List.filter_eq_self.mpr]
      intro child hchild
      exact bne_iff_ne.mpr fun heq => hmem (heq ▸ hchild)
  · rw [if_neg hname]
    split
    · exact groups_modify_of_ne hname
    · rfl

theorem groups_foldl_removeChild {parents : List String} {inventory : MemInventory}
    (hnodup : ∀ name, (inventory.groups name).children.Nodup) (name : String) :
    (parents.foldl (removeChild group) inventory).groups name =
      if name ∈ parents then (inventory.groups name).dropChild group
      else inventory.groups name := by
  induction parents generalizing inventory with
  | nil => rfl
  | cons parent parents ih =>
    have hstep (name : String) : (removeChild group inventory parent).groups name =
        if name = parent then (inventory.groups name).dropChild group
        else inventory.groups name :=
      groups_removeChild (hnodup parent) name
    have hnodup' (other : String) :
        ((removeChild group inventory parent).groups other).children.Nodup := by
      rw [hstep]
      split
      · exact (hnodup other).filter _
      · exact hnodup other
    rw [List.foldl_cons, ih hnodup', hstep]
    simp only [List.mem_cons]
    by_cases hname : name = parent
    · simp only [hname, if_true, true_or, MemGroup.dropChild_dropChild, ite_self]
    · simp only [hname, if_false, false_or]

theorem allGroups_foldl_removeChild (parents : List String) (inventory : MemInventory) :
    (parents.foldl (removeChild group) inventory).allGroups = inventory.allGroups := by
  induction parents generalizing inventory with
  | nil => rfl
  | cons parent parents ih =>
    rw [List.foldl_cons, ih, removeChild]
    split <;> rfl

theorem removeGroup_without (hlinked : Linked inventory) (removed : List String) (name : String) :
    (inventory.without removed).removeGroup name = inventory.without (name :: removed) := by
  have hnodup (other : String) : ((inventory.without removed).groups other).children.Nodup :=
    (hlinked.nodupChildren other).filter _
  have hfilter (names : List String) : (names.filter fun other => other ∉ name :: removed) =
      (names.filter fun other => other ∉ removed).filter fun other => other != name := by
    rw [List.filter_filter]
    refine List.filter_congr fun other _ => ?_
    grind
  rw [removeGroup]
  refine congrArg₂ MemInventory.mk ?_ ?_
  · funext other
    rw [groups_foldl_removeChild hnodup]
    change (if other ∈ (inventory.groups name).parents then _ else _) =
      MemGroup.mk _ _ _ _
    rw [hfilter]
    split
    · rfl
    · next hparent =>
      rw [← hlinked.parents] at hparent
      rw [List.filter_eq_self.mpr]
      · rfl
      intro child hchild
      exact bne_iff_ne.mpr fun heq => hparent (heq ▸ (List.mem_filter.mp hchild).1)
  · rw [allGroups_foldl_removeChild]
    rw [without, hfilter]
    exact (hlinked.nodup.filter _).erase_eq_filter name

theorem isEmpty_without (removed : List String) (name : String) :
    ((inventory.without removed).groups name).isEmpty = true ↔
      inventory.bare name = true ∧ ∀ child ∈ inventory.children name, child ∈ removed := by
  rw [MemGroup.isEmpty, Bool.and_eq_true, List.isEmpty_iff, and_comm]
  refine and_congr Iff.rfl ?_
  change (List.filter _ (inventory.groups name).children) = [] ↔ _
  rw [List.filter_eq_nil_iff]
  refine forall₂_congr fun child _ => ?_
  rw [decide_eq_true_iff, not_not]

theorem foldl_without (hlinked : Linked inventory) (names removed : List String) :
    names.foldl (fun inventory name =>
        if (inventory.groups name).isEmpty then inventory.removeGroup name else inventory)
        (inventory.without removed) =
      inventory.without (prune inventory.bare inventory.children removed names) := by
  induction names generalizing removed with
  | nil => rfl
  | cons name names ih =>
    rw [List.foldl_cons, prune]
    by_cases hempty : inventory.bare name = true ∧
        ∀ child ∈ inventory.children name, child ∈ removed
    · rw [if_pos hempty, if_pos ((isEmpty_without removed name).mpr hempty),
        removeGroup_without hlinked, ih]
    · rw [if_neg hempty, if_neg fun h => hempty ((isEmpty_without removed name).mp h), ih]

theorem deleteEmptyGroups_eq (hlinked : Linked inventory) :
    inventory.deleteEmptyGroups = inventory.without inventory.removedGroups := by
  have hfold := foldl_without hlinked inventory.allGroups []
  rw [without_nil] at hfold
  exact hfold

theorem mem_allGroups_deleteEmptyGroups (hlinked : Linked inventory) :
    name ∈ inventory.deleteEmptyGroups.allGroups ↔
      name ∈ inventory.allGroups ∧ name ∉ inventory.removedGroups := by
  rw [deleteEmptyGroups_eq hlinked, without, List.mem_filter, decide_eq_true_iff]

end MemInventory

/-! ## Complete pruning -/

def ChildOf (inventory : MemInventory) (parent child : String) : Prop :=
  child ∈ inventory.children parent

def Acyclic (inventory : MemInventory) : Prop :=
  ∀ name, ¬ Relation.TransGen (ChildOf inventory) name name

/-- The pass leaves no empty group, no remaining group lists a removed one, and each group
with a host or variables in itself or below is still there as it was. -/
structure PrunedCompletely (inventory : MemInventory) : Prop where
  noneEmpty : ∀ name ∈ inventory.deleteEmptyGroups.allGroups,
    (inventory.deleteEmptyGroups.groups name).isEmpty = false
  noneDangling : ∀ name, inventory.deleteEmptyGroups.IsGroup name →
    ∀ child ∈ inventory.deleteEmptyGroups.children name,
      child ∈ inventory.deleteEmptyGroups.allGroups
  kept : ∀ name ∈ inventory.allGroups,
    (∃ below, Relation.ReflTransGen (ChildOf inventory) name below ∧
      inventory.bare below = false) →
    name ∈ inventory.deleteEmptyGroups.allGroups ∧
      (inventory.deleteEmptyGroups.groups name).hosts = (inventory.groups name).hosts ∧
      (inventory.deleteEmptyGroups.groups name).vars = (inventory.groups name).vars

theorem children_deleteEmptyGroups (hlinked : Linked inventory) {child : String} :
    child ∈ inventory.deleteEmptyGroups.children name ↔
      child ∈ inventory.children name ∧ child ∉ inventory.removedGroups := by
  rw [MemInventory.deleteEmptyGroups_eq hlinked]
  change child ∈ List.filter _ (inventory.groups name).children ↔ _
  rw [List.mem_filter, decide_eq_true_iff]
  rfl

/-- For every inventory that the operations build: its empty groups are pruned completely
if and only if each child of a group that is hollow, without hosts and variables in itself
and in all its descendants, was created before its parent. -/
theorem prunedCompletely_iff (hbuilt : Built groupFilter inventory) :
    PrunedCompletely inventory ↔
      ∀ name ∈ inventory.allGroups, Hollow inventory.bare inventory.children name →
        ∀ child ∈ inventory.children name,
          inventory.allGroups.idxOf child < inventory.allGroups.idxOf name := by
  have hlinked := linked_of_built hbuilt
  have hclosed : ∀ name ∈ inventory.allGroups, ∀ child ∈ inventory.children name,
      child ∈ inventory.allGroups :=
    fun name _ child hchild => (hlinked.children name child hchild).2
  have hempty (name : String) : (inventory.deleteEmptyGroups.groups name).isEmpty = true ↔
      inventory.bare name = true ∧
        ∀ child ∈ inventory.children name, child ∈ inventory.removedGroups := by
    rw [MemInventory.deleteEmptyGroups_eq hlinked]
    exact MemInventory.isEmpty_without inventory.removedGroups name
  rw [← complete_iff hlinked.nodup hclosed]
  constructor
  · intro hpruned name hname hkept hbare
    have hnonempty := hpruned.noneEmpty name
      ((MemInventory.mem_allGroups_deleteEmptyGroups hlinked).mpr ⟨hname, hkept⟩)
    by_contra hnone
    refine Bool.eq_false_iff.mp hnonempty ((hempty name).mpr ⟨hbare, fun child hchild => ?_⟩)
    by_contra hchildKept
    exact hnone ⟨child, hchild, hchildKept⟩
  · intro hcomplete
    constructor
    · intro name hname
      obtain ⟨hname, hkept⟩ := (MemInventory.mem_allGroups_deleteEmptyGroups hlinked).mp hname
      refine Bool.eq_false_iff.mpr fun hisEmpty => ?_
      obtain ⟨hbare, hchildren⟩ := (hempty name).mp hisEmpty
      obtain ⟨child, hchild, hchildKept⟩ := hcomplete name hname hkept hbare
      exact hchildKept (hchildren child hchild)
    · intro name _ child hchild
      obtain ⟨hchild, hkept⟩ := (children_deleteEmptyGroups hlinked).mp hchild
      exact (MemInventory.mem_allGroups_deleteEmptyGroups hlinked).mpr
        ⟨(hlinked.children name child hchild).2, hkept⟩
    · rintro name hname ⟨below, hreach, hbelow⟩
      refine ⟨(MemInventory.mem_allGroups_deleteEmptyGroups hlinked).mpr ⟨hname, ?_⟩, ?_⟩
      · intro hremoved
        have hhollow := hollow_of_mem_prune
          (fun _ hmem => absurd hmem List.not_mem_nil) hremoved
        exact Bool.eq_false_iff.mp hbelow (hhollow.bare_of_descendant hreach)
      · rw [MemInventory.deleteEmptyGroups_eq hlinked]
        exact ⟨rfl, rfl⟩

def after (operations : List Operation) : MemInventory :=
  (operations.foldlM (step fun _ => true) .init).getD .init

def childFirst : List Operation :=
  [.getGroup "b" none false, .getGroup "a" none false, .addChildGroup "a" "b"]

theorem childFirst_pruned : PrunedCompletely (after childFirst) := by
  have hbuilt : Built (fun _ => true) (after childFirst) := Runs.run_of_checked childFirst rfl
  have hordered : ∀ name ∈ (after childFirst).allGroups,
      ∀ child ∈ (after childFirst).children name,
        (after childFirst).allGroups.idxOf child < (after childFirst).allGroups.idxOf name := by
    decide
  exact (prunedCompletely_iff hbuilt).mpr fun name hname _ => hordered name hname

def parentFirst : List Operation :=
  [.getGroup "a" none false, .getGroup "b" none true, .addChildGroup "a" "b"]

def height (name : String) : ℕ := if name = "all" then 2 else if name = "a" then 1 else 0

theorem built_parentFirst : Built (fun _ => true) (after parentFirst) :=
  Runs.run_of_checked parentFirst rfl

theorem acyclic_parentFirst : Acyclic (after parentFirst) := by
  have hheight : ∀ parent ∈ "all" :: (after parentFirst).allGroups,
      ∀ child ∈ (after parentFirst).children parent, height child < height parent := by
    decide
  have hdescends {first last : String}
      (hpath : Relation.TransGen (ChildOf (after parentFirst)) first last) :
      height last < height first := by
    have hedge (parent child : String) (hchild : ChildOf (after parentFirst) parent child) :
        height child < height parent := by
      refine hheight parent (List.mem_cons.mpr ?_) child hchild
      exact ((linked_of_built built_parentFirst).children parent child hchild).1
    induction hpath with
    | single hchild => exact hedge _ _ hchild
    | tail _ hchild ih => exact (hedge _ _ hchild).trans ih
  exact fun name hcycle => lt_irrefl _ (hdescends hcycle)

theorem parentFirst_not_pruned : Built (fun _ => true) (after parentFirst) ∧
    Acyclic (after parentFirst) ∧ ¬ PrunedCompletely (after parentFirst) := by
  refine ⟨built_parentFirst, acyclic_parentFirst, fun hpruned => ?_⟩
  have hkept := hpruned.noneEmpty "a" (by decide)
  exact absurd hkept (by decide)

end Forail.EmptyGroups
