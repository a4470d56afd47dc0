import Forail.Inventory.ImportModels

/-!
# Rows that are updated again

An update that merges what a row already has changes nothing.  A row is created without the
description in its variables and an update puts it there, so that a new row with a
description is changed by its first update.
-/

namespace Forail.InventoryImport

open Forail.Json

variable {env : Surroundings} {options : Options} {key : String} {vars stored imported : Vars}

/-! ## Merging variables -/

def candidateVars (options : Options) (stored imported : Vars) : Vars :=
  if options.overwriteVars then imported else imported ∪ stored

theorem mergedVars_eq : mergedVars options stored imported =
    if (candidateVars options stored imported).value.equal stored.value then stored
    else candidateVars options stored imported := rfl

theorem lookup_mergedVars_of_same
    (hsame : ∀ key, (candidateVars options stored imported).lookup key = stored.lookup key) :
    (mergedVars options stored imported).lookup key = stored.lookup key := by
  rw [mergedVars_eq]
  split
  · rfl
  · exact hsame key

theorem lookup_mergedVars_twice :
    (mergedVars options (mergedVars options stored imported) imported).lookup key =
      (mergedVars options stored imported).lookup key := by
  have hmerged : mergedVars options stored imported =
      if (candidateVars options stored imported).value.equal stored.value then stored
      else candidateVars options stored imported := mergedVars_eq
  by_cases hequal : (candidateVars options stored imported).value.equal stored.value = true
  · rw [hmerged, if_pos hequal, hmerged, if_pos hequal]
  · rw [hmerged, if_neg hequal]
    apply lookup_mergedVars_of_same
    intro key
    rw [candidateVars, candidateVars]
    split
    · rfl
    · rw [lookup_union, lookup_union]
      cases imported.lookup key <;> rfl

theorem lookup_mergedVars_of_new {value : Value} (hstored : stored.lookup key = none)
    (himported : imported.lookup key = some value) :
    (mergedVars options stored imported).lookup key = some value := by
  have hcandidate : (candidateVars options stored imported).lookup key = some value := by
    rw [candidateVars]
    split
    · exact himported
    · rw [lookup_union, himported, Option.some_or]
  rw [mergedVars_eq, if_neg, hcandidate]
  intro hequal
  have hsome := lookup_isSome_of_equal hequal (by rw [hcandidate]; rfl)
  rw [hstored] at hsome
  exact Bool.false_ne_true hsome

/-! ## Removed variables -/

theorem lookup_foldl_erase (keys : List String) (vars : Vars) :
    (keys.foldl (fun vars key => vars.erase key) vars).lookup key =
      if key ∈ keys then none else vars.lookup key := by
  induction keys generalizing vars with
  | nil => rfl
  | cons first keys ih =>
    rw [List.foldl_cons, ih]
    by_cases hkey : key = first
    · subst hkey
      rw [AList.lookup_erase, ite_self, if_pos List.mem_cons_self]
    · rw [AList.lookup_erase_ne hkey]
      simp only [List.mem_cons, hkey, false_or]

theorem lookup_withoutRemoteVars : (withoutRemoteVars options vars).lookup key =
    if options.constructed = true ∧ key ∈ remoteVars then none else vars.lookup key := by
  rw [withoutRemoteVars]
  by_cases hconstructed : options.constructed = true
  · rw [if_pos hconstructed, lookup_foldl_erase]
    simp only [hconstructed, true_and]
  · rw [if_neg hconstructed, if_neg fun hboth => hconstructed hboth.1]

theorem lookup_description_withoutRemoteVars :
    (withoutRemoteVars options vars).lookup descriptionVar = vars.lookup descriptionVar := by
  rw [lookup_withoutRemoteVars, if_neg]
  exact fun hboth => absurd hboth.2 (by decide)

theorem getEnabled_of_withoutRemoteVars {enabled : Bool}
    (henabled : getEnabled env options (withoutRemoteVars options vars) = some enabled) :
    getEnabled env options vars = some enabled := by
  rw [getEnabled] at henabled ⊢
  cases hvar : options.enabledVar with
  | none =>
    rw [hvar] at henabled
    exact henabled
  | some path =>
    rw [hvar] at henabled
    obtain ⟨value, hvalue, hresult⟩ := Option.map_eq_some_iff.mp henabled
    have hsame : followSome (path.first :: path.rest) vars.value = some value := by
      rw [Vars.value, followSome, lookup_value, lookup_withoutRemoteVars] at hvalue
      rw [Vars.value, followSome, lookup_value]
      split at hvalue
      · exact absurd hvalue.symm (Option.some_ne_none _)
      · exact hvalue
    dsimp only
    rw [hsame]
    exact congrArg some hresult

/-! ## Rows that are updated again -/

/-- Rows with the same fields, and variables that are the same up to their order. -/
structure SameHost (row row' : Host) : Prop where
  pk : row'.pk = row.pk
  name : row'.name = row.name
  description : row'.description = row.description
  instanceId : row'.instanceId = row.instanceId
  enabled : row'.enabled = row.enabled
  vars : ∀ key, row'.vars.lookup key = row.vars.lookup key

structure SameGroup (row row' : Group) : Prop where
  pk : row'.pk = row.pk
  name : row'.name = row.name
  description : row'.description = row.description
  vars : ∀ key, row'.vars.lookup key = row.vars.lookup key

variable {pk : ℕ} {description : String}

theorem SameHost.refl (row : Host) : SameHost row row :=
  ⟨rfl, rfl, rfl, rfl, rfl, fun _ => rfl⟩

theorem SameGroup.refl (row : Group) : SameGroup row row :=
  ⟨rfl, rfl, rfl, fun _ => rfl⟩

theorem getD_getD {α : Type} (value : Option α) (default : α) :
    value.getD (value.getD default) = value.getD default := by
  cases value <;> rfl

theorem sameHost_updateHost (row : Host) (mem : MemHost) :
    SameHost (updateHost env options row mem)
      (updateHost env options (updateHost env options row mem) mem) where
  pk := rfl
  name := rfl
  description := rfl
  instanceId := rfl
  enabled := getD_getD _ row.enabled
  vars := fun _ => lookup_mergedVars_twice

theorem sameHost_createdHost {mem : MemHost} (hnone : mem.vars.lookup descriptionVar = none) :
    SameHost (createdHost env options pk mem description)
      (updateHost env options (createdHost env options pk mem description) mem) := by
  have hvars : mem.vars.erase descriptionVar = mem.vars := erase_of_lookup_eq_none hnone
  have hcreated : (createdHost env options pk mem description).vars =
      withoutRemoteVars options mem.vars := by
    rw [createdHost, hvars]
  refine ⟨rfl, rfl, rfl, ?_, ?_, fun key => ?_⟩
  · rw [updateHost, createdHost, hvars]
  · rw [updateHost, createdHost, hvars]
    cases henabled : getEnabled env options (withoutRemoteVars options mem.vars) with
    | none => rfl
    | some enabled => rw [getEnabled_of_withoutRemoteVars henabled, Option.getD_some]; rfl
  · apply lookup_mergedVars_of_same
    intro key
    rw [hcreated, candidateVars]
    split
    · rfl
    · rw [lookup_union, Option.or_self]

theorem not_sameHost_createdHost {mem : MemHost}
    (hsome : mem.vars.lookup descriptionVar ≠ none) :
    ¬ SameHost (createdHost env options pk mem description)
      (updateHost env options (createdHost env options pk mem description) mem) := by
  intro hsame
  obtain ⟨value, hvalue⟩ := Option.ne_none_iff_exists'.mp hsome
  have hnone : (createdHost env options pk mem description).vars.lookup descriptionVar = none := by
    rw [createdHost, lookup_description_withoutRemoteVars, AList.lookup_erase]
  have hnew := hsame.vars descriptionVar
  rw [hnone, updateHost, lookup_mergedVars_of_new hnone
    (lookup_description_withoutRemoteVars.trans hvalue)] at hnew
  exact Option.some_ne_none value hnew

theorem sameGroup_updateGroup (row : Group) (mem : MemGroup) :
    SameGroup (updateGroup options row mem)
      (updateGroup options (updateGroup options row mem) mem) where
  pk := rfl
  name := rfl
  description := rfl
  vars := fun _ => lookup_mergedVars_twice

theorem sameGroup_createdGroup_iff {mem : MemGroup} :
    SameGroup (createdGroup pk mem description)
        (updateGroup options (createdGroup pk mem description) mem) ↔
      mem.vars.lookup descriptionVar = none := by
  constructor
  · intro hsame
    by_contra hsome
    obtain ⟨value, hvalue⟩ := Option.ne_none_iff_exists'.mp hsome
    have hnone : (createdGroup pk mem description).vars.lookup descriptionVar = none :=
      AList.lookup_erase _ _
    have hnew := hsame.vars descriptionVar
    rw [hnone, updateGroup, lookup_mergedVars_of_new hnone hvalue] at hnew
    exact Option.some_ne_none value hnew
  · intro hnone
    have hvars : (createdGroup pk mem description).vars = mem.vars :=
      erase_of_lookup_eq_none hnone
    refine ⟨rfl, rfl, rfl, fun key => lookup_mergedVars_of_same fun key => ?_⟩
    rw [hvars, candidateVars]
    split
    · rfl
    · rw [lookup_union, Option.or_self]

end Forail.InventoryImport
