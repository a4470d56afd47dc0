import Forail.Sso.SamlLogin
import Mathlib.Data.Option.Basic

/-!
# What the mappings of a SAML login desire

The state of an organization's role is what one of the builders grants, or else what the
last mapping of the organization says.  The state of a team is what was written last.
-/

namespace Forail.Sso

open Forail.DesiredStates Forail.Grouping

variable {settings : SamlSettings} {attributes : Attributes} {user : SamlUser} {tables : Tables}
  {name organization : String} {role : RoleName}

/-! ## Expressions -/

theorem updateM2mFromExpression_eq_true {expr : Option Expression} {remove : Bool} :
    updateM2mFromExpression user expr remove = some true ↔
      (expr.any fun expr => expr.matchesUser user) = true := by
  rw [updateM2mFromExpression]
  split
  · next hmatch => exact iff_of_true rfl hmatch
  · next hmatch =>
    refine iff_of_false ?_ hmatch
    cases remove with
    | true => exact fun hsame => Bool.false_ne_true (Option.some.inj hsame)
    | false => exact nofun

theorem remove_of_updateM2mFromExpression {expr : Option Expression} {remove : Bool}
    (hlost : updateM2mFromExpression user expr remove = some false) : remove = true := by
  rw [updateM2mFromExpression] at hlost
  split at hlost
  · exact absurd (Option.some.inj hlost) (Bool.false_ne_true ∘ Eq.symm)
  · exact by_contra fun hkeep => by rw [if_neg hkeep] at hlost; exact absurd hlost nofun

/-! ## Organizations -/

theorem mem_grantedOrgs :
    (name, role) ∈ grantedOrgs settings attributes ↔
      ∃ attr, settings.organizationAttr.attrs role = some attr ∧
        ∃ orgName ∈ values attributes attr, aliasOfAttr settings orgName = name := by
  rw [grantedOrgs, List.mem_flatMap]
  constructor
  · rintro ⟨role', -, hmem⟩
    cases hattr : settings.organizationAttr.attrs role' with
    | none =>
      rw [hattr] at hmem
      exact absurd hmem List.not_mem_nil
    | some attr =>
      rw [hattr] at hmem
      obtain ⟨orgName, hvalue, hsame⟩ := List.mem_map.mp hmem
      obtain ⟨halias, rfl⟩ := Prod.mk.inj hsame
      exact ⟨attr, hattr, orgName, hvalue, halias⟩
  · rintro ⟨attr, hattr, orgName, hvalue, rfl⟩
    refine ⟨role, by cases role <;> decide, ?_⟩
    rw [hattr]
    exact List.mem_map.mpr ⟨orgName, hvalue, rfl⟩

theorem mem_removedOrgs {attr : OrgAttr} :
    (name, role) ∈ removedOrgs attr tables ↔
      attr.remove role = true ∧ name ∈ tables.organizations.map Organization.name := by
  rw [removedOrgs, List.mem_flatMap]
  constructor
  · rintro ⟨role', -, hmem⟩
    split at hmem
    · next hremove =>
      obtain ⟨row, hrow, hsame⟩ := List.mem_map.mp hmem
      obtain ⟨rfl, rfl⟩ := Prod.mk.inj hsame
      exact ⟨hremove, List.mem_map_of_mem hrow⟩
    · exact absurd hmem List.not_mem_nil
  · rintro ⟨hremove, hname⟩
    obtain ⟨row, hrow, rfl⟩ := List.mem_map.mp hname
    refine ⟨role, by cases role <;> decide, ?_⟩
    rw [if_pos hremove]
    exact List.mem_map.mpr ⟨row, hrow, rfl⟩

theorem mem_addName {names : List String} {other : String} :
    name ∈ addName names other ↔ name ∈ names ∨ name = other := by
  rw [addName]
  split
  · next hold => exact (or_iff_left_of_imp fun hsame => hsame ▸ hold).symm
  · rw [List.mem_append, List.mem_singleton]

theorem mem_foldl_addName (added names : List String) :
    name ∈ added.foldl addName names ↔ name ∈ names ∨ name ∈ added := by
  induction added generalizing names with
  | nil => exact (or_iff_left List.not_mem_nil).symm
  | cons other added ih => rw [List.foldl_cons, ih, mem_addName, List.mem_cons, or_assoc]

theorem desiredOrg_assignAllAt (pairs : List (String × RoleName)) (state : Bool)
    (desired : OrgStates) :
    desiredOrg (assignAllAt Prod.fst Prod.snd (fun _ => some (some state)) pairs desired) name
      role = if (name, role) ∈ pairs then some state else desiredOrg desired name role := by
  rw [desiredOrg, lookupAt_assignAllAt_same]
  have hpair : (∃ row ∈ pairs, row.1 = name ∧ row.2 = role) ↔ (name, role) ∈ pairs := by
    constructor
    · rintro ⟨row, hrow, rfl, rfl⟩
      exact hrow
    · exact fun hmem => ⟨(name, role), hmem, rfl, rfl⟩
  rw [if_congr hpair rfl rfl]
  split
  · rfl
  · rfl

theorem desiredOrg_byAttr :
    desiredOrg (updateUserOrgsBySamlAttr settings attributes tables ⟨∅, []⟩).desired name role =
      if (name, role) ∈ grantedOrgs settings attributes then some true
      else if (name, role) ∈ removedOrgs settings.organizationAttr tables then some false
      else none := by
  rw [updateUserOrgsBySamlAttr, desiredOrg_assignAllAt, desiredOrg_assignAllAt]
  rw [show desiredOrg (∅ : OrgStates) name role = none by rw [desiredOrg, lookupAt_empty]; rfl]

theorem getD_eq_true_iff {state : Option (Option Bool)} :
    state.getD (some false) = some true ↔ state.join = some true := by
  cases state with
  | none => simp
  | some state => rfl

variable {entry : Sigma fun _ : String => OrgMapping}
  {entries : List (Sigma fun _ : String => OrgMapping)}

theorem desiredOrg_combineRole (desired : OrgStates) (role' : RoleName) :
    desiredOrg (combineRole user entry desired role') name role =
      if name = aliasOfMap entry ∧ role = role' then
        if desiredOrg desired name role = some true then some true else entry.2.hasRole user role
      else desiredOrg desired name role := by
  rw [combineRole, desiredOrg, lookupAt_assignAt]
  split
  · next hsame =>
    obtain ⟨rfl, rfl⟩ := hsame
    rw [Option.join_some]
    exact if_congr getD_eq_true_iff rfl rfl
  · rfl

theorem desiredOrg_updateUserOrg (loop : OrgLoop) :
    desiredOrg (updateUserOrg user loop entry).desired name role =
      if name = aliasOfMap entry then
        if desiredOrg loop.desired name role = some true then some true
        else entry.2.hasRole user role
      else desiredOrg loop.desired name role := by
  simp only [updateUserOrg, List.foldl_cons, List.foldl_nil, desiredOrg_combineRole]
  cases role <;> simp

theorem hasRole_eq_true :
    entry.2.hasRole user role = some true ↔
      ((entry.2.expressions role).any fun expr => expr.matchesUser user) = true :=
  updateM2mFromExpression_eq_true

theorem desiredOrg_foldl_eq_true (loop : OrgLoop) :
    desiredOrg (entries.foldl (updateUserOrg user) loop).desired name role = some true ↔
      desiredOrg loop.desired name role = some true ∨ ∃ entry ∈ entries,
        aliasOfMap entry = name ∧ entry.2.hasRole user role = some true := by
  induction entries generalizing loop with
  | nil => simp
  | cons entry entries ih =>
    rw [List.foldl_cons, ih, desiredOrg_updateUserOrg, List.exists_mem_cons_iff, ← or_assoc]
    apply or_congr_left
    by_cases hname : name = aliasOfMap entry
    · rw [if_pos hname]
      split
      · next hold => exact iff_of_true rfl (.inl hold)
      · next hnew => exact ⟨fun hrole => .inr ⟨hname.symm, hrole⟩, fun hrole =>
          hrole.elim (fun hold => absurd hold hnew) And.right⟩
    · rw [if_neg hname]
      exact (or_iff_left fun hrole => hname hrole.1.symm).symm

theorem desiredOrg_foldl_eq_false {loop : OrgLoop}
    (hlost : desiredOrg (entries.foldl (updateUserOrg user) loop).desired name role = some false) :
    (desiredOrg loop.desired name role = some false ∧
        ∀ entry ∈ entries, aliasOfMap entry ≠ name) ∨
      ∃ entry ∈ entries, aliasOfMap entry = name ∧ entry.2.removeMembers role = true := by
  induction entries generalizing loop with
  | nil => exact .inl ⟨hlost, fun _ hentry => absurd hentry List.not_mem_nil⟩
  | cons entry entries ih =>
    rcases ih hlost with ⟨hfirst, hrest⟩ | ⟨later, hlater, hcovers⟩
    · rw [desiredOrg_updateUserOrg] at hfirst
      by_cases hname : name = aliasOfMap entry
      · rw [if_pos hname] at hfirst
        split at hfirst
        · exact absurd (Option.some.inj hfirst) (Bool.false_ne_true ∘ Eq.symm)
        · exact .inr ⟨entry, List.mem_cons_self, hname.symm,
            remove_of_updateM2mFromExpression hfirst⟩
      · rw [if_neg hname] at hfirst
        refine .inl ⟨hfirst, fun other hother => ?_⟩
        rcases List.mem_cons.mp hother with rfl | hother
        · exact Ne.symm hname
        · exact hrest other hother
    · exact .inr ⟨later, List.mem_cons_of_mem _ hlater, hcovers⟩

theorem desiredOrg_foldl_of_ne {loop : OrgLoop} (hne : ∀ entry ∈ entries, aliasOfMap entry ≠ name) :
    desiredOrg (entries.foldl (updateUserOrg user) loop).desired name role =
      desiredOrg loop.desired name role := by
  induction entries generalizing loop with
  | nil => rfl
  | cons entry entries ih =>
    rw [List.foldl_cons, ih fun other hother => hne other (List.mem_cons_of_mem _ hother),
      desiredOrg_updateUserOrg, if_neg (Ne.symm (hne entry List.mem_cons_self))]

theorem mem_toCreate_foldl (loop : OrgLoop) :
    name ∈ (entries.foldl (updateUserOrg user) loop).toCreate ↔
      name ∈ loop.toCreate ∨ ∃ entry ∈ entries, aliasOfMap entry = name := by
  induction entries generalizing loop with
  | nil => simp
  | cons entry entries ih =>
    rw [List.foldl_cons, ih, updateUserOrg, mem_addName, List.exists_mem_cons_iff, or_assoc,
      @eq_comm _ name]

def OrgGranted (settings : SamlSettings) (attributes : Attributes) (user : SamlUser)
    (name : String) (role : RoleName) : Prop :=
  (∃ attr, settings.organizationAttr.attrs role = some attr ∧
      ∃ orgName ∈ values attributes attr, aliasOfAttr settings orgName = name) ∨
    ∃ entry ∈ orgEntries settings, aliasOfMap entry = name ∧
      ((entry.2.expressions role).any fun expr => expr.matchesUser user) = true

def OrgCovered (settings : SamlSettings) (name : String) (role : RoleName) : Prop :=
  (settings.organizationAttr.attrs role ≠ none ∧ settings.organizationAttr.remove role = true) ∨
    ∃ entry ∈ orgEntries settings, aliasOfMap entry = name ∧ entry.2.removeMembers role = true

theorem desiredOrgs_eq_true :
    desiredOrg (desiredOrgs settings attributes user tables).desired name role = some true ↔
      OrgGranted settings attributes user name role := by
  rw [desiredOrgs, updateUserOrgs, desiredOrg_foldl_eq_true, desiredOrg_byAttr, OrgGranted,
    ← mem_grantedOrgs]
  simp only [hasRole_eq_true]
  apply or_congr_left
  split
  · next hgranted => exact iff_of_true rfl hgranted
  · next hgranted =>
    refine iff_of_false ?_ hgranted
    split
    · exact fun hsame => Bool.false_ne_true (Option.some.inj hsame)
    · exact nofun

/-- A role is to be lost without a mapping that covers it exactly when no attribute is
configured for it and its flag is on, and no mapping names the organization. -/
theorem desiredOrgs_eq_false_uncovered :
    desiredOrg (desiredOrgs settings attributes user tables).desired name role = some false ∧
        ¬ OrgCovered settings name role ↔
      settings.organizationAttr.attrs role = none ∧ settings.organizationAttr.remove role = true ∧
        (∀ entry ∈ orgEntries settings, aliasOfMap entry ≠ name) ∧
        name ∈ tables.organizations.map Organization.name := by
  rw [desiredOrgs, updateUserOrgs]
  constructor
  · rintro ⟨hlost, huncovered⟩
    rcases desiredOrg_foldl_eq_false hlost with ⟨hfirst, hne⟩ | hcovers
    · rw [desiredOrg_byAttr] at hfirst
      split at hfirst
      · exact absurd (Option.some.inj hfirst) (Bool.false_ne_true ∘ Eq.symm)
      · obtain ⟨hremoved, -⟩ := Option.ite_none_right_eq_some.mp hfirst
        obtain ⟨hremove, hname⟩ := mem_removedOrgs.mp hremoved
        exact ⟨by_contra fun hattr => huncovered (.inl ⟨hattr, hremove⟩), hremove, hne, hname⟩
    · exact absurd (.inr hcovers) huncovered
  · rintro ⟨hattr, hremove, hne, hname⟩
    constructor
    · rw [desiredOrg_foldl_of_ne hne, desiredOrg_byAttr, if_neg, if_pos]
      · exact mem_removedOrgs.mpr ⟨hremove, hname⟩
      · rw [mem_grantedOrgs, hattr]
        rintro ⟨attr, hsome, -⟩
        exact absurd hsome nofun
    · rintro (⟨hsome, -⟩ | ⟨entry, hentry, hsame, -⟩)
      · exact hsome hattr
      · exact hne entry hentry hsame

theorem mem_toCreate_of_granted (hgranted : OrgGranted settings attributes user name role) :
    name ∈ (desiredOrgs settings attributes user tables).toCreate := by
  rw [desiredOrgs, updateUserOrgs, mem_toCreate_foldl, updateUserOrgsBySamlAttr, mem_foldl_addName]
  rcases hgranted with hattr | ⟨entry, hentry, hname, -⟩
  · exact .inl (.inr (List.mem_map.mpr ⟨(name, role), mem_grantedOrgs.mpr hattr, rfl⟩))
  · exact .inr ⟨entry, hentry, hname⟩

/-! ## Teams -/

variable {samlTeamNames : List String} {nameMap : TeamNameMap}

def TeamNameMap.Grants (samlTeamNames : List String) (nameMap : TeamNameMap)
    (organization name : String) : Prop :=
  nameMap.isMember samlTeamNames = true ∧ truthy nameMap.organization = some organization ∧
    nameMap.teamName samlTeamNames = some name

/-- An entry is about a team that is not one of those of the user. -/
def TeamNameMap.Denies (samlTeamNames : List String) (nameMap : TeamNameMap)
    (organization name : String) : Prop :=
  nameMap.isMember samlTeamNames = false ∧ nameMap.organization = some organization ∧
    nameMap.team = some name

/-- The entries that count; without an attribute there are none. -/
def TeamAttr.nameMaps (attr : TeamAttr) : List TeamNameMap :=
  if attr.samlAttr.isSome then attr.teamOrgMap.getD [] else []

def TeamAttr.teamNames (attr : TeamAttr) (attributes : Attributes) : List String :=
  attr.samlAttr.elim [] (values attributes)

/-- The flag for all teams only counts if an attribute is configured. -/
def TeamAttr.removesAll (attr : TeamAttr) : Bool :=
  attr.samlAttr.isSome && attr.remove.getD true

def NullEntries (settings : SamlSettings) : Prop :=
  settings.teamAttr.samlAttr ≠ none ∧ settings.teamAttr.teamOrgMap = none

theorem updateUserTeamsBySamlAttr_of_null (hnull : NullEntries settings) (loop : TeamLoop) :
    updateUserTeamsBySamlAttr settings.teamAttr attributes tables loop = .error "TypeError" := by
  obtain ⟨attr, hattr⟩ := Option.ne_none_iff_exists'.mp hnull.1
  rw [updateUserTeamsBySamlAttr.eq_def, hattr, hnull.2]

theorem updateUserTeamsBySamlAttr_of_not_null (hnull : ¬ NullEntries settings) (loop : TeamLoop) :
    updateUserTeamsBySamlAttr settings.teamAttr attributes tables loop =
      .ok (updateTeamOrgMap (settings.teamAttr.teamNames attributes)
        (if settings.teamAttr.removesAll then allTeamNames tables else [])
        settings.teamAttr.nameMaps loop) := by
  rw [updateUserTeamsBySamlAttr.eq_def, TeamAttr.teamNames, TeamAttr.removesAll, TeamAttr.nameMaps]
  cases hattr : settings.teamAttr.samlAttr with
  | none => rfl
  | some attr =>
    cases hmap : settings.teamAttr.teamOrgMap with
    | none =>
      have hsome : settings.teamAttr.samlAttr ≠ none := by rw [hattr]; exact nofun
      exact absurd ⟨hsome, hmap⟩ hnull
    | some teamOrgMap => rfl

def teamByExpression (settings : SamlSettings) (user : SamlUser) (organization name : String) :
    Option Bool :=
  ((settings.teamMap.getD ∅).lookup name).bind fun teamOpts =>
    if teamOpts.organization = some (some organization) then teamOpts.addOrRemove user else none

def TeamNameMap.stateOf (samlTeamNames : List String) (organization name : String)
    (nameMap : TeamNameMap) : Option Bool :=
  if nameMap.organization = some organization ∧ nameMap.teamName samlTeamNames = some name then
    nameMap.state samlTeamNames
  else none

theorem stateOf_eq_true :
    nameMap.stateOf samlTeamNames organization name = some true ↔
      nameMap.Grants samlTeamNames organization name := by
  rw [TeamNameMap.stateOf, TeamNameMap.Grants, Option.ite_none_right_eq_some, TeamNameMap.state,
    truthy_eq_some]
  cases hmember : nameMap.isMember samlTeamNames with
  | false => simp
  | true =>
    rw [if_pos rfl, and_iff_right rfl, Option.map_eq_some_iff]
    constructor
    · rintro ⟨⟨horg, hname⟩, found, htruthy, -⟩
      obtain ⟨hfound, hne⟩ := truthy_eq_some.mp htruthy
      rw [horg, Option.some_inj] at hfound
      exact ⟨⟨horg, hfound ▸ hne⟩, hname⟩
    · rintro ⟨⟨horg, hne⟩, hname⟩
      exact ⟨⟨horg, hname⟩, organization, truthy_eq_some.mpr ⟨horg, hne⟩, rfl⟩

theorem stateOf_eq_false :
    nameMap.stateOf samlTeamNames organization name = some false ↔
      nameMap.Denies samlTeamNames organization name := by
  rw [TeamNameMap.stateOf, TeamNameMap.Denies, Option.ite_none_right_eq_some, TeamNameMap.state,
    TeamNameMap.teamName]
  cases hmember : nameMap.isMember samlTeamNames with
  | false => simp
  | true => simp

def LastDenied (settings : SamlSettings) (attributes : Attributes) (organization name : String) :
    Prop :=
  ∃ first nameMap rest, settings.teamAttr.nameMaps = first ++ nameMap :: rest ∧
    nameMap.Denies (settings.teamAttr.teamNames attributes) organization name ∧
    ∀ later ∈ rest, ¬ later.Grants (settings.teamAttr.teamNames attributes) organization name

def teamByEntries (settings : SamlSettings) (attributes : Attributes)
    (organization name : String) : Option Bool :=
  last (TeamNameMap.stateOf (settings.teamAttr.teamNames attributes) organization name)
    settings.teamAttr.nameMaps

theorem teamByEntries_eq_false :
    teamByEntries settings attributes organization name = some false ↔
      LastDenied settings attributes organization name := by
  have hlast : (∃ found, teamByEntries settings attributes organization name = some found ∧
      found ≠ true) ↔ _ := last_ne_iff
  simp only [stateOf_eq_true, Bool.not_eq_true, ne_eq, exists_eq_right, stateOf_eq_false] at hlast
  exact hlast

theorem teamByEntries_eq_none :
    teamByEntries settings attributes organization name = none ↔
      ∀ nameMap ∈ settings.teamAttr.nameMaps,
        ¬ nameMap.Grants (settings.teamAttr.teamNames attributes) organization name ∧
        ¬ nameMap.Denies (settings.teamAttr.teamNames attributes) organization name := by
  rw [teamByEntries, last_eq_none_iff]
  refine forall₂_congr fun nameMap _ => ?_
  rw [← stateOf_eq_true, ← stateOf_eq_false]
  cases nameMap.stateOf (settings.teamAttr.teamNames attributes) organization name with
  | none => simp
  | some state => cases state <;> simp

def desiredTeams (settings : SamlSettings) (attributes : Attributes) (user : SamlUser)
    (tables : Tables) : TeamLoop :=
  updateUserTeams settings user
    (updateTeamOrgMap (settings.teamAttr.teamNames attributes)
      (if settings.teamAttr.removesAll then allTeamNames tables else [])
      settings.teamAttr.nameMaps { desired := ∅, toCreate := ∅ })

theorem lookup_memberState (state : Option Bool) :
    ((state.map memberState).bind fun desired => desired.lookup role).join =
      if role = .memberRole then state else none := by
  cases state with
  | none => rw [ite_self]; rfl
  | some state =>
    rw [Option.map_some, Option.bind_some, memberState, lookup_singleton]
    split
    · rfl
    · rfl

theorem lookupAt_updateUserTeams (loop : TeamLoop) :
    lookupAt (updateUserTeams settings user loop).desired (some organization) (some name) =
      ((teamByExpression settings user organization name).map memberState).or
        (lookupAt loop.desired (some organization) (some name)) := by
  have hlast := lastAt_entries (settings.teamMap.getD ∅)
    (fun teamOpts => teamOpts.organization.join) (Option.some_injective String)
    (fun teamOpts => (teamOpts.addOrRemove user).map memberState) (some organization) name
  rw [updateUserTeams, lookupAt_assignAllAt, hlast, teamByExpression]
  cases (settings.teamMap.getD ∅).lookup name with
  | none => rfl
  | some teamOpts =>
    rw [Option.bind_some, Option.bind_some, apply_ite (Option.map memberState), Option.map_none]
    exact congrArg (fun found : Option RoleStates =>
      found.or (lookupAt loop.desired (some organization) (some name)))
      (if_congr Option.join_eq_some_iff rfl rfl)

theorem lookupAt_updateTeamOrgMap (removed : List (Option String × String))
    (teamOrgMap : List TeamNameMap) :
    lookupAt (updateTeamOrgMap samlTeamNames removed teamOrgMap ⟨∅, ∅⟩).desired
      (some organization) (some name) =
      ((last (TeamNameMap.stateOf samlTeamNames organization name) teamOrgMap).map memberState).or
        (if (some organization, name) ∈ removed then some (memberState false) else none) := by
  have hentries : lastAt TeamNameMap.organization (TeamNameMap.teamName samlTeamNames)
      (fun nameMap => (nameMap.state samlTeamNames).map memberState) (some organization)
      (some name) teamOrgMap =
        (last (TeamNameMap.stateOf samlTeamNames organization name) teamOrgMap).map
          memberState := by
    rw [← last_map, lastAt]
    refine congrArg (fun value => last value teamOrgMap) (funext fun nameMap => ?_)
    rw [TeamNameMap.stateOf, apply_ite (Option.map memberState), Option.map_none]
  have hremoved : (∃ team ∈ removed, team.1 = some organization ∧ some team.2 = some name) ↔
      (some organization, name) ∈ removed := by
    constructor
    · rintro ⟨⟨orgName, teamName⟩, hteam, rfl, hname⟩
      rwa [← Option.some.inj hname]
    · exact fun hteam => ⟨(some organization, name), hteam, rfl, rfl⟩
  rw [updateTeamOrgMap, lookupAt_assignAllAt, lookupAt_assignAllAt_same, lookupAt_empty, hentries]
  exact congrArg (Option.or _) (if_congr hremoved rfl rfl)

theorem desiredTeam_desiredTeams :
    desiredTeam (desiredTeams settings attributes user tables).desired (some organization)
      (some name) role =
      if role = .memberRole then
        ((teamByExpression settings user organization name).or
          (teamByEntries settings attributes organization name)).or
          (if settings.teamAttr.removesAll = true ∧
              (some organization, name) ∈ allTeamNames tables then some false else none)
      else none := by
  rw [← lookup_memberState, desiredTeam]
  refine congrArg (fun found : Option RoleStates =>
    (found.bind fun desired => desired.lookup role).join) ?_
  rw [desiredTeams, lookupAt_updateUserTeams, lookupAt_updateTeamOrgMap, ← teamByEntries,
    Option.or_assoc, Option.map_or, Option.map_or]
  apply congrArg
  apply congrArg
  cases settings.teamAttr.removesAll with
  | false => simp
  | true => simp [apply_ite (Option.map memberState)]

/-! ## Granted teams -/

def TeamMapped (settings : SamlSettings) (organization name : String) (teamOpts : TeamMapping) :
    Prop :=
  (settings.teamMap.getD ∅).lookup name = some teamOpts ∧
    teamOpts.organization = some (some organization)

def TeamGranted (settings : SamlSettings) (attributes : Attributes) (user : SamlUser)
    (organization name : String) : Prop :=
  (∃ nameMap ∈ settings.teamAttr.nameMaps,
      nameMap.Grants (settings.teamAttr.teamNames attributes) organization name) ∨
    ∃ teamOpts, TeamMapped settings organization name teamOpts ∧
      (teamOpts.users.any fun expr => expr.matchesUser user) = true

def TeamCovered (settings : SamlSettings) (organization name : String) : Prop :=
  settings.teamAttr.removesAll = true ∨
    ∃ teamOpts, TeamMapped settings organization name teamOpts ∧ teamOpts.remove.getD true = true

theorem teamByExpression_eq_some {state : Bool} :
    teamByExpression settings user organization name = some state ↔
      ∃ teamOpts, TeamMapped settings organization name teamOpts ∧
        updateM2mFromExpression user teamOpts.users (teamOpts.remove.getD true) = some state := by
  rw [teamByExpression, Option.bind_eq_some_iff]
  refine exists_congr fun teamOpts => ?_
  rw [TeamMapped, Option.ite_none_right_eq_some, and_assoc]
  apply and_congr_right
  intro _
  apply and_congr_right
  intro horg
  rw [TeamMapping.addOrRemove, horg, Option.isNone_some, if_neg Bool.false_ne_true]

theorem teamByExpression_eq_true :
    teamByExpression settings user organization name = some true ↔
      ∃ teamOpts, TeamMapped settings organization name teamOpts ∧
        (teamOpts.users.any fun expr => expr.matchesUser user) = true := by
  simp only [teamByExpression_eq_some, updateM2mFromExpression_eq_true]

theorem covered_of_teamByExpression
    (hlost : teamByExpression settings user organization name = some false) :
    TeamCovered settings organization name := by
  obtain ⟨teamOpts, hmapped, hstate⟩ := teamByExpression_eq_some.mp hlost
  exact .inr ⟨teamOpts, hmapped, remove_of_updateM2mFromExpression hstate⟩

def Overruled (settings : SamlSettings) (attributes : Attributes) (user : SamlUser)
    (organization name : String) : Prop :=
  teamByExpression settings user organization name = some false ∨
    (teamByExpression settings user organization name = none ∧
      LastDenied settings attributes organization name)

theorem desiredTeam_of_overruled
    (hoverruled : Overruled settings attributes user organization name) :
    desiredTeam (desiredTeams settings attributes user tables).desired (some organization)
        (some name) .memberRole = some false := by
  rw [desiredTeam_desiredTeams, if_pos rfl]
  rcases hoverruled with hexpression | ⟨hexpression, hdenied⟩
  · rw [hexpression, Option.some_or, Option.some_or]
  · rw [hexpression, teamByEntries_eq_false.mpr hdenied, Option.none_or, Option.some_or]

theorem desiredTeam_of_granted (hgranted : TeamGranted settings attributes user organization name) :
    desiredTeam (desiredTeams settings attributes user tables).desired (some organization)
        (some name) .memberRole = some true ↔
      ¬ Overruled settings attributes user organization name := by
  rw [desiredTeam_desiredTeams, if_pos rfl, Overruled, ← teamByEntries_eq_false]
  cases hexpression : teamByExpression settings user organization name with
  | some state => cases state <;> simp
  | none =>
    have hentry : ∃ nameMap ∈ settings.teamAttr.nameMaps,
        nameMap.Grants (settings.teamAttr.teamNames attributes) organization name := by
      refine hgranted.resolve_right fun hmapped => ?_
      rw [← teamByExpression_eq_true, hexpression] at hmapped
      exact absurd hmapped nofun
    cases hentries : teamByEntries settings attributes organization name with
    | some state => cases state <;> simp
    | none =>
      obtain ⟨nameMap, hmem, hgrants⟩ := hentry
      exact absurd hgrants (teamByEntries_eq_none.mp hentries nameMap hmem).1

theorem desiredTeam_uncovered (hgranted : ¬ TeamGranted settings attributes user organization name)
    (hcovered : ¬ TeamCovered settings organization name) :
    desiredTeam (desiredTeams settings attributes user tables).desired (some organization)
        (some name) .memberRole = some false ↔
      ∃ nameMap ∈ settings.teamAttr.nameMaps,
        nameMap.Denies (settings.teamAttr.teamNames attributes) organization name := by
  have hexpression : teamByExpression settings user organization name = none := by
    cases hstate : teamByExpression settings user organization name with
    | none => rfl
    | some state =>
      cases state with
      | true => exact absurd (.inr (teamByExpression_eq_true.mp hstate)) hgranted
      | false => exact absurd (covered_of_teamByExpression hstate) hcovered
  rw [desiredTeam_desiredTeams, if_pos rfl, hexpression, Option.none_or,
    if_neg fun hremoved => hcovered (.inl hremoved.1), Option.or_none, teamByEntries]
  constructor
  · intro hlast
    obtain ⟨nameMap, hmem, hstate⟩ := exists_of_last hlast
    exact ⟨nameMap, hmem, stateOf_eq_false.mp hstate⟩
  · rintro ⟨nameMap, hmem, hdenies⟩
    cases hlast : last (TeamNameMap.stateOf (settings.teamAttr.teamNames attributes) organization
        name) settings.teamAttr.nameMaps with
    | none =>
      have hstate := stateOf_eq_false.mpr hdenies
      rw [last_eq_none_iff.mp hlast nameMap hmem] at hstate
      exact absurd hstate nofun
    | some state =>
      cases state with
      | false => rfl
      | true =>
        obtain ⟨other, hother, hstate⟩ := exists_of_last hlast
        exact absurd (.inl ⟨other, hother, stateOf_eq_true.mp hstate⟩) hgranted

/-! ## Teams to create -/

def TeamNameMap.created (samlTeamNames : List String) (name : String) (nameMap : TeamNameMap) :
    Option (Option String) :=
  if (nameMap.teamName samlTeamNames).getD "" = name then
    if nameMap.isMember samlTeamNames then (truthy nameMap.organization).map some else none
  else none

theorem created_eq_some {found : Option String} :
    nameMap.created samlTeamNames name = some found ↔
      ∃ orgName, nameMap.Grants samlTeamNames orgName name ∧ found = some orgName := by
  rw [TeamNameMap.created, Option.ite_none_right_eq_some, Option.ite_none_right_eq_some,
    Option.map_eq_some_iff]
  constructor
  · rintro ⟨hname, hmember, orgName, horg, rfl⟩
    refine ⟨orgName, ⟨hmember, horg, ?_⟩, rfl⟩
    cases hteam : nameMap.teamName samlTeamNames with
    | some team => rw [← hname, hteam, Option.getD_some]
    | none =>
      rw [TeamNameMap.teamName, if_pos hmember, Option.or_eq_none_iff] at hteam
      rw [TeamNameMap.isMember, hteam.2] at hmember
      exact absurd hmember Bool.false_ne_true
  · rintro ⟨orgName, ⟨hmember, horg, hteam⟩, rfl⟩
    rw [hteam]
    exact ⟨rfl, hmember, orgName, horg, rfl⟩

def Displaced (settings : SamlSettings) (attributes : Attributes) (organization name : String) :
    Prop :=
  (∃ teamOpts other, (settings.teamMap.getD ∅).lookup name = some teamOpts ∧
      teamOpts.organization = some other ∧ other ≠ some organization) ∨
    ((∀ teamOpts, (settings.teamMap.getD ∅).lookup name = some teamOpts →
        teamOpts.organization = none) ∧
      ∃ first nameMap rest, settings.teamAttr.nameMaps = first ++ nameMap :: rest ∧
        (∃ other, nameMap.Grants (settings.teamAttr.teamNames attributes) other name ∧
          other ≠ organization) ∧
        ∀ later ∈ rest, ¬ later.Grants (settings.teamAttr.teamNames attributes) organization name)

theorem lookup_toCreate :
    (desiredTeams settings attributes user tables).toCreate.lookup name =
      (((settings.teamMap.getD ∅).lookup name).bind TeamMapping.organization).or
        (last (TeamNameMap.created (settings.teamAttr.teamNames attributes) name)
          settings.teamAttr.nameMaps) := by
  rw [desiredTeams, updateUserTeams, updateTeamOrgMap, lookup_assignAll, lookup_assignAll,
    last_entries, AList.lookup_empty, Option.or_none]
  rfl

/-- The team of a mapping that grants it is created in its organization unless a later
mapping displaces it. -/
theorem toCreate_of_granted (hgranted : TeamGranted settings attributes user organization name) :
    ((desiredTeams settings attributes user tables).toCreate.lookup name).join = some organization ↔
      ¬ Displaced settings attributes organization name := by
  rw [lookup_toCreate, Displaced]
  cases hexpression : ((settings.teamMap.getD ∅).lookup name).bind TeamMapping.organization with
  | some other =>
    obtain ⟨teamOpts, hlookup, horg⟩ := Option.bind_eq_some_iff.mp hexpression
    rw [Option.some_or, Option.join_some, hlookup]
    constructor
    · rintro rfl (⟨found, other, hfound, hother, hne⟩ | ⟨hnone, -⟩)
      · rw [← Option.some.inj hfound, horg] at hother
        exact hne (Option.some.inj hother).symm
      · rw [hnone teamOpts rfl] at horg
        exact absurd horg nofun
    · exact fun hkept => by_contra fun hne => hkept (.inl ⟨teamOpts, other, rfl, horg, hne⟩)
  | none =>
    have hnone : ∀ teamOpts, (settings.teamMap.getD ∅).lookup name = some teamOpts →
        teamOpts.organization = none := Option.bind_eq_none_iff.mp hexpression
    obtain ⟨nameMap, hmem, hgrants⟩ : ∃ nameMap ∈ settings.teamAttr.nameMaps,
        nameMap.Grants (settings.teamAttr.teamNames attributes) organization name := by
      refine hgranted.resolve_right ?_
      rintro ⟨teamOpts, ⟨hlookup, horg⟩, -⟩
      rw [hnone teamOpts hlookup] at horg
      exact absurd horg nofun
    have hlast : (∃ found, last (TeamNameMap.created (settings.teamAttr.teamNames attributes) name)
        settings.teamAttr.nameMaps = some found ∧ found ≠ some organization) ↔ _ := last_ne_iff
    have hlater : ∀ nameMap : TeamNameMap, nameMap.created
        (settings.teamAttr.teamNames attributes) name ≠ some (some organization) ↔
          ¬ nameMap.Grants (settings.teamAttr.teamNames attributes) organization name := by
      intro nameMap
      rw [ne_eq, created_eq_some]
      simp
    have hother : ∀ nameMap : TeamNameMap, (∃ found, nameMap.created
        (settings.teamAttr.teamNames attributes) name = some found ∧ found ≠ some organization) ↔
          ∃ other, nameMap.Grants (settings.teamAttr.teamNames attributes) other name ∧
            other ≠ organization := by
      intro nameMap
      simp only [created_eq_some]
      constructor
      · rintro ⟨found, ⟨other, hgrants, rfl⟩, hne⟩
        exact ⟨other, hgrants, fun hsame => hne (congrArg some hsame)⟩
      · rintro ⟨other, hgrants, hne⟩
        exact ⟨some other, ⟨other, hgrants, rfl⟩, fun hsame => hne (Option.some.inj hsame)⟩
    simp only [hlater, hother] at hlast
    rw [Option.none_or, or_iff_right, and_iff_right hnone, ← hlast]
    · cases hfound : last (TeamNameMap.created (settings.teamAttr.teamNames attributes) name)
          settings.teamAttr.nameMaps with
      | none =>
        have hcreated := created_eq_some.mpr ⟨organization, hgrants, rfl⟩
        rw [last_eq_none_iff.mp hfound nameMap hmem] at hcreated
        exact absurd hcreated nofun
      | some found => simp
    · rintro ⟨teamOpts, other, hlookup, horg, -⟩
      rw [hnone teamOpts hlookup] at horg
      exact absurd horg nofun

end Forail.Sso
