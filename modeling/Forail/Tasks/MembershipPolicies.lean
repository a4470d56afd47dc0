import Forail.Core.GreedyFill
import Mathlib.Data.Finset.Card
import Mathlib.Data.List.Sort
import Mathlib.Logic.Function.Basic
import Mathlib.Order.Nat

/-!
# The policies of instance groups

`apply_cluster_membership_policies` places the instances of the cluster in its groups: those
of the policy list of a group first, then as many as its minimum asks for, and last as many
as its percentage does.  The instances with the fewest groups are placed first.
-/

namespace Forail.MembershipPolicies

open Forail.GreedyFill

inductive NodeType
  | control
  | execution
  | hybrid
  | hop
  deriving DecidableEq

structure Instance where
  id : ℕ
  hostname : String
  nodeType : NodeType
  managedByPolicy : Bool
  deriving DecidableEq

structure InstanceGroup where
  id : ℕ
  name : String
  policyInstanceList : List String
  policyInstanceMinimum : ℤ
  policyInstancePercentage : ℤ
  isContainerGroup : Bool
  /-- The keys of the instances that are in the group so far. -/
  instances : List ℕ

structure Cluster where
  instances : List Instance
  groups : List InstanceGroup

/-- The instances that may be placed, those that only pass messages on left out. -/
def Cluster.allInstances (cluster : Cluster) : List Instance :=
  (cluster.instances.filter fun inst => inst.nodeType ≠ .hop).insertionSort
    fun inst other => inst.id ≤ other.id

def Cluster.byHostname (cluster : Cluster) (hostname : String) : Option Instance :=
  cluster.allInstances.reverse.find? fun inst => inst.hostname = hostname

/-- The instances of the policy list.  Unknown names are passed over. -/
def Cluster.policyList (cluster : Cluster) (group : InstanceGroup) : List ℕ :=
  group.policyInstanceList.filterMap fun hostname => (cluster.byHostname hostname).map Instance.id

def Cluster.actualInstances (cluster : Cluster) : List Instance :=
  cluster.allInstances.filter fun inst => inst.managedByPolicy

/-- The lists of the computation: the instances of every group and the groups that every
instance was given by a policy. -/
structure Placement where
  instances : ℕ → List ℕ
  groups : ℕ → List ℕ

def excludeType (controlPlane : String) (group : InstanceGroup) : NodeType :=
  if group.name = controlPlane then .execution else .control

def Placement.place (placement : Placement) (group : InstanceGroup) (inst : Instance) :
    Placement where
  instances := Function.update placement.instances group.id
    (placement.instances group.id ++ [inst.id])
  groups := Function.update placement.groups inst.id (placement.groups inst.id ++ [group.id])

def Placement.bySize (placement : Placement) (groups : List InstanceGroup) : List InstanceGroup :=
  groups.insertionSort fun group other =>
    (placement.instances group.id).length ≤ (placement.instances other.id).length

def Placement.byGroups (placement : Placement) (nodes : List Instance) : List Instance :=
  nodes.insertionSort fun inst other =>
    (placement.groups inst.id).length ≤ (placement.groups other.id).length

/-- The first pass, which does not count the groups of an instance. -/
def listStep (cluster : Cluster) (placement : Placement) (group : InstanceGroup) : Placement :=
  { placement with
    instances := Function.update placement.instances group.id (cluster.policyList group) }

def MinimumMet (group : InstanceGroup) (members : List ℕ) : Prop :=
  group.policyInstanceMinimum ≤ members.length

def PercentageMet (pool : ℕ) (group : InstanceGroup) (members : List ℕ) : Prop :=
  group.policyInstancePercentage * pool ≤ 100 * members.length

instance (group : InstanceGroup) : DecidablePred (MinimumMet group) :=
  fun members => inferInstanceAs (Decidable (group.policyInstanceMinimum ≤ members.length))

instance (pool : ℕ) (group : InstanceGroup) : DecidablePred (PercentageMet pool group) :=
  fun members =>
    inferInstanceAs (Decidable (group.policyInstancePercentage * pool ≤ 100 * members.length))

def fillMinimum (exclude : NodeType) (group : InstanceGroup) :
    List Instance → Placement → Placement
  | [], placement => placement
  | inst :: rest, placement =>
      if inst.nodeType = exclude then fillMinimum exclude group rest placement
      else if MinimumMet group (placement.instances group.id) then placement
      else if inst.id ∈ placement.instances group.id then
        fillMinimum exclude group rest placement
      else fillMinimum exclude group rest (placement.place group inst)

def minimumStep (controlPlane : String) (nodes : List Instance) (placement : Placement)
    (group : InstanceGroup) : Placement :=
  fillMinimum (excludeType controlPlane group) group (placement.byGroups nodes) placement

def fillPercentage (exclude : NodeType) (pool : ℕ) (group : InstanceGroup) :
    List Instance → Placement → Placement
  | [], placement => placement
  | inst :: rest, placement =>
      if inst.nodeType = exclude then fillPercentage exclude pool group rest placement
      else if inst.id ∈ placement.instances group.id then
        fillPercentage exclude pool group rest placement
      else if PercentageMet pool group (placement.instances group.id) then placement
      else fillPercentage exclude pool group rest (placement.place group inst)

def eligible (controlPlane : String) (nodes : List Instance) (group : InstanceGroup) :
    List Instance :=
  nodes.filter fun inst => inst.nodeType ≠ excludeType controlPlane group

def percentageStep (controlPlane : String) (nodes : List Instance) (placement : Placement)
    (group : InstanceGroup) : Placement :=
  let candidatePool := (eligible controlPlane nodes group).length
  if candidatePool = 0 then placement
  else
    fillPercentage (excludeType controlPlane group) candidatePool group (placement.byGroups nodes)
      placement

/-- A pass over the groups, in the order of the sizes that they have before it. -/
def pass (step : Placement → InstanceGroup → Placement) (groups : List InstanceGroup)
    (placement : Placement) : Placement :=
  (placement.bySize groups).foldl step placement

def Cluster.placement (controlPlane : String) (cluster : Cluster) : Placement :=
  pass (percentageStep controlPlane cluster.actualInstances) cluster.groups <|
    pass (minimumStep controlPlane cluster.actualInstances) cluster.groups <|
      cluster.groups.foldl (listStep cluster) ⟨fun _ => [], fun _ => []⟩

def SameSet (members other : List ℕ) : Prop := members ⊆ other ∧ other ⊆ members

instance (members other : List ℕ) : Decidable (SameSet members other) :=
  inferInstanceAs (Decidable (members ⊆ other ∧ other ⊆ members))

def InstanceGroup.apply (members : List ℕ) (group : InstanceGroup) : InstanceGroup :=
  if group.isContainerGroup then group
  else
    let instancesToAdd := members.filter fun id => id ∉ group.instances
    let instancesToRemove := group.instances.filter fun id => id ∉ members
    { group with
      instances := (group.instances ++ instancesToAdd).filter fun id => id ∉ instancesToRemove }

def Cluster.applyMembershipPolicies (controlPlane : String) (cluster : Cluster) : Cluster :=
  let members := (cluster.placement controlPlane).instances
  if ∀ group ∈ cluster.groups, SameSet (members group.id) group.instances then cluster
  else { cluster with
    groups := cluster.groups.map fun group => group.apply (members group.id) }

section Passes

variable {controlPlane : String} {cluster : Cluster} {nodes : List Instance}
  {group : InstanceGroup} {groups : List InstanceGroup} {placement : Placement}

theorem place_instances (inst : Instance) :
    (placement.place group inst).instances =
      Function.update placement.instances group.id (placement.instances group.id ++ [inst.id]) :=
  rfl

theorem place_instances_self (inst : Instance) :
    (placement.place group inst).instances group.id =
      placement.instances group.id ++ [inst.id] :=
  Function.update_self ..

def candidates (exclude : NodeType) (nodes : List Instance) : List ℕ :=
  (nodes.filter fun inst => inst.nodeType ≠ exclude).map Instance.id

theorem candidates_cons_of_excluded {exclude : NodeType} {inst : Instance}
    (hexcluded : inst.nodeType = exclude) :
    candidates exclude (inst :: nodes) = candidates exclude nodes := by
  rw [candidates, List.filter_cons_of_neg (by simp [hexcluded]), candidates]

theorem candidates_cons {exclude : NodeType} {inst : Instance} (hkept : inst.nodeType ≠ exclude) :
    candidates exclude (inst :: nodes) = inst.id :: candidates exclude nodes := by
  rw [candidates, List.filter_cons_of_pos (by simp [hkept]), List.map_cons, candidates]

theorem fillMinimum_instances (exclude : NodeType) :
    (fillMinimum exclude group nodes placement).instances =
      Function.update placement.instances group.id
        (fill (MinimumMet group) (candidates exclude nodes) (placement.instances group.id)) := by
  induction nodes generalizing placement with
  | nil => exact (Function.update_eq_self group.id placement.instances).symm
  | cons inst rest ih =>
    rw [fillMinimum]
    by_cases hexcluded : inst.nodeType = exclude
    · rw [if_pos hexcluded, ih, candidates_cons_of_excluded hexcluded]
    rw [if_neg hexcluded, candidates_cons hexcluded]
    by_cases henough : MinimumMet group (placement.instances group.id)
    · rw [if_pos henough, fill_of_enough henough, Function.update_eq_self]
    rw [if_neg henough, fill]
    by_cases hmem : inst.id ∈ placement.instances group.id
    · rw [if_pos hmem, if_pos hmem, ih]
    · rw [if_neg hmem, if_neg hmem, if_neg henough, ih, place_instances_self, place_instances,
        Function.update_idem]

theorem fillPercentage_instances (exclude : NodeType) (pool : ℕ) :
    (fillPercentage exclude pool group nodes placement).instances =
      Function.update placement.instances group.id
        (fill (PercentageMet pool group) (candidates exclude nodes)
          (placement.instances group.id)) := by
  induction nodes generalizing placement with
  | nil => exact (Function.update_eq_self group.id placement.instances).symm
  | cons inst rest ih =>
    rw [fillPercentage]
    by_cases hexcluded : inst.nodeType = exclude
    · rw [if_pos hexcluded, ih, candidates_cons_of_excluded hexcluded]
    rw [if_neg hexcluded, candidates_cons hexcluded, fill]
    by_cases hmem : inst.id ∈ placement.instances group.id
    · rw [if_pos hmem, if_pos hmem, ih]
    rw [if_neg hmem, if_neg hmem]
    by_cases henough : PercentageMet pool group (placement.instances group.id)
    · rw [if_pos henough, if_pos henough, Function.update_eq_self]
    · rw [if_neg henough, if_neg henough, ih, place_instances_self, place_instances,
        Function.update_idem]

def Lists (cluster : Cluster) (group : InstanceGroup) (_members listed : List ℕ) : Prop :=
  listed = cluster.policyList group

theorem listStep_lists :
    ∃ listed, Lists cluster group (placement.instances group.id) listed ∧
      (listStep cluster placement group).instances =
        Function.update placement.instances group.id listed :=
  ⟨_, rfl, rfl⟩

def Fills (enough : InstanceGroup → List ℕ → Prop) [∀ group, DecidablePred (enough group)]
    (controlPlane : String) (nodes : List Instance) (group : InstanceGroup)
    (members filled : List ℕ) : Prop :=
  ∃ order, (∀ id, id ∈ order ↔ id ∈ (eligible controlPlane nodes group).map Instance.id) ∧
    filled = fill (enough group) order members

theorem mem_candidates_byGroups (id : ℕ) :
    id ∈ candidates (excludeType controlPlane group) (placement.byGroups nodes) ↔
      id ∈ (eligible controlPlane nodes group).map Instance.id := by
  rw [candidates, Placement.byGroups, eligible]
  exact (((List.perm_insertionSort _ nodes).filter _).map _).mem_iff

theorem minimumStep_fills :
    ∃ filled, Fills MinimumMet controlPlane nodes group (placement.instances group.id) filled ∧
      (minimumStep controlPlane nodes placement group).instances =
        Function.update placement.instances group.id filled :=
  ⟨_, ⟨_, mem_candidates_byGroups, rfl⟩, fillMinimum_instances _⟩

theorem percentageStep_fills :
    ∃ filled,
      Fills (fun group => PercentageMet (eligible controlPlane nodes group).length group)
        controlPlane nodes group (placement.instances group.id) filled ∧
      (percentageStep controlPlane nodes placement group).instances =
        Function.update placement.instances group.id filled := by
  rw [percentageStep]
  by_cases hpool : (eligible controlPlane nodes group).length = 0
  · rw [if_pos hpool]
    refine ⟨placement.instances group.id, ⟨[], fun id => ?_, rfl⟩,
      (Function.update_eq_self group.id placement.instances).symm⟩
    rw [List.length_eq_zero_iff.mp hpool, List.map_nil]
  · rw [if_neg hpool]
    exact ⟨_, ⟨_, mem_candidates_byGroups, rfl⟩, fillPercentage_instances _ _⟩

variable {step : Placement → InstanceGroup → Placement}
  {Changes : InstanceGroup → List ℕ → List ℕ → Prop}

section

variable (hstep : ∀ placement group, ∃ changed,
  Changes group (placement.instances group.id) changed ∧
    (step placement group).instances = Function.update placement.instances group.id changed)
include hstep

theorem foldl_of_notMem {id : ℕ} (hid : id ∉ groups.map InstanceGroup.id) :
    (groups.foldl step placement).instances id = placement.instances id := by
  induction groups generalizing placement with
  | nil => rfl
  | cons group groups ih =>
    rw [List.map_cons, List.mem_cons, not_or] at hid
    obtain ⟨changed, -, hchanged⟩ := hstep placement group
    rw [List.foldl_cons, ih hid.2, hchanged, Function.update_of_ne hid.1]

theorem foldl_changes (hids : (groups.map InstanceGroup.id).Nodup) (hgroup : group ∈ groups) :
    Changes group (placement.instances group.id)
      ((groups.foldl step placement).instances group.id) := by
  induction groups generalizing placement with
  | nil => exact absurd hgroup List.not_mem_nil
  | cons head groups ih =>
    rw [List.map_cons, List.nodup_cons] at hids
    obtain ⟨changed, hchanges, hchanged⟩ := hstep placement head
    rw [List.foldl_cons]
    obtain rfl | hgroup := List.mem_cons.mp hgroup
    · rw [foldl_of_notMem hstep hids.1, hchanged, Function.update_self]
      exact hchanges
    · have hne : group.id ≠ head.id :=
        fun h => hids.1 (h ▸ List.mem_map_of_mem hgroup)
      have hlater : Changes group ((step placement head).instances group.id) _ :=
        ih hids.2 hgroup
      rw [hchanged, Function.update_of_ne hne] at hlater
      rw [hchanged] at *
      exact hlater

theorem pass_changes (hids : (groups.map InstanceGroup.id).Nodup) (hgroup : group ∈ groups) :
    Changes group (placement.instances group.id)
      ((pass step groups placement).instances group.id) := by
  have hperm : (placement.bySize groups).Perm groups := List.perm_insertionSort _ groups
  exact foldl_changes hstep ((hperm.map InstanceGroup.id).nodup_iff.mpr hids)
    (hperm.mem_iff.mpr hgroup)

end

theorem placement_instances (hids : (cluster.groups.map InstanceGroup.id).Nodup)
    (hgroup : group ∈ cluster.groups) :
    ∃ members, Fills MinimumMet controlPlane cluster.actualInstances group
        (cluster.policyList group) members ∧
      Fills (fun group => PercentageMet
          (eligible controlPlane cluster.actualInstances group).length group)
        controlPlane cluster.actualInstances group members
        ((cluster.placement controlPlane).instances group.id) := by
  have hlist : Lists cluster group [] ((cluster.groups.foldl (listStep cluster)
      ⟨fun _ => [], fun _ => []⟩).instances group.id) :=
    foldl_changes (fun _ _ => listStep_lists) hids hgroup
  refine ⟨_, ?_, pass_changes (fun _ _ => percentageStep_fills) hids hgroup⟩
  rw [Lists] at hlist
  rw [← hlist]
  exact pass_changes (fun _ _ => minimumStep_fills) hids hgroup

end Passes

section Policies

variable {controlPlane : String} {cluster : Cluster} {group : InstanceGroup} {inst : Instance}
  {members : List ℕ}

theorem mem_allInstances :
    inst ∈ cluster.allInstances ↔ inst ∈ cluster.instances ∧ inst.nodeType ≠ .hop := by
  rw [Cluster.allInstances, List.mem_insertionSort, List.mem_filter, decide_eq_true_eq]

/-- The keys and the names of the instances are unique, as the database has it. -/
structure Cluster.Keyed (cluster : Cluster) : Prop where
  ids : (cluster.instances.map Instance.id).Nodup
  hostnames : (cluster.instances.map Instance.hostname).Nodup
  groupIds : (cluster.groups.map InstanceGroup.id).Nodup

theorem byHostname_eq_some (hkeyed : cluster.Keyed) (hostname : String) :
    cluster.byHostname hostname = some inst ↔
      inst ∈ cluster.allInstances ∧ inst.hostname = hostname := by
  constructor
  · intro hfound
    rw [Cluster.byHostname] at hfound
    have hname := List.find?_some hfound
    exact ⟨List.mem_reverse.mp (List.mem_of_find?_eq_some hfound), of_decide_eq_true hname⟩
  · rintro ⟨hinst, rfl⟩
    obtain hnone | ⟨found, hfound⟩ := Option.eq_none_or_eq_some (cluster.byHostname inst.hostname)
    · have hmissed := List.find?_eq_none.mp hnone inst (List.mem_reverse.mpr hinst)
      exact absurd (decide_eq_true rfl) hmissed
    · have hmem : found ∈ cluster.allInstances :=
        List.mem_reverse.mp (List.mem_of_find?_eq_some hfound)
      rw [hfound]
      rw [Cluster.byHostname] at hfound
      have hname := List.find?_some hfound
      rw [List.inj_on_of_nodup_map hkeyed.hostnames (mem_allInstances.mp hmem).1
        (mem_allInstances.mp hinst).1 (of_decide_eq_true hname)]

theorem mem_policyList (hkeyed : cluster.Keyed) (id : ℕ) :
    id ∈ cluster.policyList group ↔
      ∃ inst ∈ cluster.allInstances, inst.hostname ∈ group.policyInstanceList ∧ inst.id = id := by
  rw [Cluster.policyList, List.mem_filterMap]
  constructor
  · rintro ⟨hostname, hlisted, hfound⟩
    obtain ⟨inst, hfound, hid⟩ := Option.map_eq_some_iff.mp hfound
    obtain ⟨hinst, rfl⟩ := (byHostname_eq_some hkeyed hostname).mp hfound
    exact ⟨inst, hinst, hlisted, hid⟩
  · rintro ⟨inst, hinst, hlisted, hid⟩
    exact ⟨inst.hostname, hlisted, Option.map_eq_some_iff.mpr
      ⟨inst, (byHostname_eq_some hkeyed _).mpr ⟨hinst, rfl⟩, hid⟩⟩

theorem nodup_policyList (hkeyed : cluster.Keyed) (hlist : group.policyInstanceList.Nodup) :
    (cluster.policyList group).Nodup := by
  refine hlist.filterMap fun hostname other id hid hother => ?_
  obtain ⟨inst, hfound, rfl⟩ := Option.map_eq_some_iff.mp hid
  obtain ⟨inst', hfound', hsame⟩ := Option.map_eq_some_iff.mp hother
  obtain ⟨hinst, rfl⟩ := (byHostname_eq_some hkeyed hostname).mp hfound
  obtain ⟨hinst', rfl⟩ := (byHostname_eq_some hkeyed other).mp hfound'
  rw [List.inj_on_of_nodup_map hkeyed.ids (mem_allInstances.mp hinst').1
    (mem_allInstances.mp hinst).1 hsame]

def Cluster.eligibleIds (controlPlane : String) (cluster : Cluster) (group : InstanceGroup) :
    List ℕ :=
  (eligible controlPlane cluster.actualInstances group).map Instance.id

theorem mem_eligibleIds (id : ℕ) :
    id ∈ cluster.eligibleIds controlPlane group ↔
      ∃ inst ∈ cluster.allInstances, inst.managedByPolicy ∧
        inst.nodeType ≠ excludeType controlPlane group ∧ inst.id = id := by
  simp only [Cluster.eligibleIds, eligible, Cluster.actualInstances, List.mem_map, List.mem_filter,
    decide_eq_true_eq, and_assoc]

structure PolicyMet (controlPlane : String) (cluster : Cluster) (group : InstanceGroup)
    (members : List ℕ) : Prop where
  /-- The known instances of the policy list are members. -/
  listed : ∀ inst ∈ cluster.allInstances, inst.hostname ∈ group.policyInstanceList →
    inst.id ∈ members
  /-- Every other member is managed by policy and of an eligible type. -/
  others : ∀ id ∈ members, ∃ inst ∈ cluster.allInstances, inst.id = id ∧
    (inst.hostname ∈ group.policyInstanceList ∨
      inst.managedByPolicy ∧ inst.nodeType ≠ excludeType controlPlane group)
  once : members.Nodup
  minimum : min group.policyInstanceMinimum
      ((cluster.policyList group ++ cluster.eligibleIds controlPlane group).toFinset.card : ℤ) ≤
    members.length
  percentage :
    (cluster.eligibleIds controlPlane group ≠ [] ∧
      group.policyInstancePercentage * (cluster.eligibleIds controlPlane group).length ≤
        100 * members.length) ∨
    cluster.eligibleIds controlPlane group ⊆ members

variable {enough : InstanceGroup → List ℕ → Prop} [∀ group, DecidablePred (enough group)]
  {filled : List ℕ}

section

variable (hfills : Fills enough controlPlane cluster.actualInstances group members filled)
include hfills

theorem Fills.grows : members <+: filled := by
  obtain ⟨order, -, rfl⟩ := hfills
  exact prefix_fill

theorem Fills.nodup (hmembers : members.Nodup) : filled.Nodup := by
  obtain ⟨order, -, rfl⟩ := hfills
  exact nodup_fill hmembers

theorem Fills.mem_or_mem {id : ℕ} (hid : id ∈ filled) :
    id ∈ members ∨ id ∈ cluster.eligibleIds controlPlane group := by
  obtain ⟨order, horder, rfl⟩ := hfills
  exact (mem_or_mem_of_mem_fill hid).imp_right (horder id).mp

theorem Fills.enough_or_subset :
    enough group filled ∨ cluster.eligibleIds controlPlane group ⊆ filled := by
  obtain ⟨order, horder, rfl⟩ := hfills
  exact enough_or_subset_fill.imp_right fun hsubset id hid => hsubset ((horder id).mpr hid)

end

theorem card_toFinset_le {ids : List ℕ} (hsubset : ids ⊆ members) :
    ids.toFinset.card ≤ members.length :=
  have hsubset' : ids.toFinset ⊆ members.toFinset :=
    fun _ hid => List.mem_toFinset.mpr (hsubset (List.mem_toFinset.mp hid))
  (Finset.card_le_card hsubset').trans (List.toFinset_card_le members)

theorem placement_policyMet (hkeyed : cluster.Keyed) (hgroup : group ∈ cluster.groups)
    (hlist : group.policyInstanceList.Nodup) :
    PolicyMet controlPlane cluster group ((cluster.placement controlPlane).instances group.id) := by
  obtain ⟨members, hminimum, hpercentage⟩ := placement_instances hkeyed.groupIds hgroup
  have hlisted : cluster.policyList group ⊆ (cluster.placement controlPlane).instances group.id :=
    (hminimum.grows.trans hpercentage.grows).subset
  refine ⟨fun inst hinst hname => ?_, fun id hid => ?_, ?_, ?_, ?_⟩
  · exact hlisted ((mem_policyList hkeyed inst.id).mpr ⟨inst, hinst, hname, rfl⟩)
  · have heligible : id ∈ cluster.eligibleIds controlPlane group → ∃ inst ∈ cluster.allInstances,
        inst.id = id ∧ (inst.hostname ∈ group.policyInstanceList ∨
          inst.managedByPolicy ∧ inst.nodeType ≠ excludeType controlPlane group) := by
      intro hid
      obtain ⟨inst, hinst, hmanaged, htype, rfl⟩ := (mem_eligibleIds id).mp hid
      exact ⟨inst, hinst, rfl, .inr ⟨hmanaged, htype⟩⟩
    obtain hid | hid := hpercentage.mem_or_mem hid
    · obtain hid | hid := hminimum.mem_or_mem hid
      · obtain ⟨inst, hinst, hname, rfl⟩ := (mem_policyList hkeyed id).mp hid
        exact ⟨inst, hinst, rfl, .inl hname⟩
      · exact heligible hid
    · exact heligible hid
  · exact hpercentage.nodup (hminimum.nodup (nodup_policyList hkeyed hlist))
  · obtain henough | hall := hminimum.enough_or_subset
    · have hlength := hpercentage.grows.length_le
      exact (min_le_left _ _).trans (henough.trans (by exact_mod_cast hlength))
    · have hsubset := List.append_subset.mpr
        ⟨hlisted, fun id hid => hpercentage.grows.subset (hall hid)⟩
      exact (min_le_right _ _).trans (by exact_mod_cast card_toFinset_le hsubset)
  · by_cases hpool : cluster.eligibleIds controlPlane group = []
    · exact .inr (hpool ▸ List.nil_subset _)
    · refine hpercentage.enough_or_subset.imp_left fun henough => ⟨hpool, ?_⟩
      rw [Cluster.eligibleIds, List.length_map]
      exact henough

theorem mem_apply_instances (hcontainer : group.isContainerGroup = false) (id : ℕ) :
    id ∈ (group.apply members).instances ↔ id ∈ members := by
  rw [InstanceGroup.apply, hcontainer, if_neg Bool.false_ne_true]
  simp only [List.mem_filter, List.mem_append, decide_eq_true_eq]
  by_cases hprior : id ∈ group.instances <;> by_cases hmember : id ∈ members <;>
    simp [hprior, hmember]

theorem apply_of_container (hcontainer : group.isContainerGroup = true) :
    group.apply members = group := by
  rw [InstanceGroup.apply, if_pos hcontainer]

theorem applyMembershipPolicies_groups :
    ∃ store : InstanceGroup → InstanceGroup,
      (cluster.applyMembershipPolicies controlPlane).groups = cluster.groups.map store ∧
      ∀ group ∈ cluster.groups, (group.isContainerGroup = true → store group = group) ∧
        (group.isContainerGroup = false →
          SameSet (store group).instances
            ((cluster.placement controlPlane).instances group.id)) := by
  rw [Cluster.applyMembershipPolicies]
  split
  · rename_i hsame
    refine ⟨id, (List.map_id _).symm, fun group hgroup => ⟨fun _ => rfl, fun _ => ?_⟩⟩
    exact ⟨(hsame group hgroup).2, (hsame group hgroup).1⟩
  · refine ⟨_, rfl, fun group _ => ⟨apply_of_container, fun hcontainer => ?_⟩⟩
    exact ⟨fun id => (mem_apply_instances hcontainer id).mp,
      fun id => (mem_apply_instances hcontainer id).mpr⟩

/-- Every group is given members that meet its policies, and every group that is not one of
containers has these members afterwards. -/
theorem membershipPolicies_met (controlPlane : String) (cluster : Cluster)
    (hkeyed : cluster.Keyed)
    (hlists : ∀ group ∈ cluster.groups, group.policyInstanceList.Nodup) :
    (∀ group ∈ cluster.groups,
      PolicyMet controlPlane cluster group
        ((cluster.placement controlPlane).instances group.id)) ∧
    ∃ store : InstanceGroup → InstanceGroup,
      (cluster.applyMembershipPolicies controlPlane).groups = cluster.groups.map store ∧
      ∀ group ∈ cluster.groups, (group.isContainerGroup = true → store group = group) ∧
        (group.isContainerGroup = false →
          SameSet (store group).instances
            ((cluster.placement controlPlane).instances group.id)) :=
  ⟨fun group hgroup => placement_policyMet hkeyed hgroup (hlists group hgroup),
    applyMembershipPolicies_groups⟩

def twoGroups : Cluster where
  instances :=
    [⟨1, "first", .hybrid, true⟩, ⟨2, "second", .execution, true⟩, ⟨3, "third", .hop, true⟩]
  groups :=
    [⟨1, "controlplane", [], 1, 0, false, [2]⟩,
      ⟨2, "default", ["second", "absent"], 0, 50, false, []⟩]

theorem twoGroups_met :
    (twoGroups.placement "controlplane").instances 2 = [2] ∧
      PolicyMet "controlplane" twoGroups ⟨2, "default", ["second", "absent"], 0, 50, false, []⟩
        ((twoGroups.placement "controlplane").instances 2) := by
  have hkeyed : twoGroups.Keyed := ⟨by decide, by decide, by decide⟩
  have hlists : ∀ group ∈ twoGroups.groups, group.policyInstanceList.Nodup := by decide
  refine ⟨by decide +kernel, ?_⟩
  exact (membershipPolicies_met "controlplane" twoGroups hkeyed hlists).1
    ⟨2, "default", ["second", "absent"], 0, 50, false, []⟩ (by simp [twoGroups])

end Policies

end Forail.MembershipPolicies
