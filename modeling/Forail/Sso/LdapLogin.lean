import Forail.Sso.Common
import Mathlib.Data.Option.Basic

/-!
# Roles after an LDAP login

The maps of organizations and teams say which groups give which roles.  A role that is not
given is taken away unless the flags of the mapping say otherwise.
-/

namespace Forail.Sso

open Forail.DesiredStates Forail.FallibleLoops Forail.Grouping

/-! ## The settings -/

/-- An option of a mapping: a flag, the name of a group, or a list, of which only the texts
count. -/
inductive MapOption where
  | flag (value : Bool)
  | text (groupDn : String)
  | list (items : List (Option String))

/-- The options for admins, auditors and users with their flags for removal, and the
general flag. -/
structure OrgOpts where
  options : RoleName → Option MapOption
  removes : RoleName → Option Bool
  remove : Option Bool

/-- The organization of a team can be missing or null. -/
structure TeamOpts where
  organization : Option (Option String)
  users : Option MapOption
  remove : Option Bool

structure LdapMaps where
  orgMap : Dict String OrgOpts
  teamMap : Dict String TeamOpts

/-! ## The login -/

/-- The groups that are looked for; an option that counts as false has none. -/
def MapOption.groups : MapOption → List String
  | flag _ => []
  | text groupDn => if groupDn = "" then [] else [groupDn]
  | list items => items.filterMap id

/-- The option is true, or the user is a member of one of its groups. -/
def MapOption.matchesUser (isMemberOf : String → Bool) : MapOption → Bool
  | flag value => value
  | opts => opts.groups.any isMemberOf

def updateM2mFromGroups (isMemberOf : String → Bool) (opts : Option MapOption) (remove : Bool) :
    Option Bool :=
  match opts with
  | none => none
  | some opts =>
      if opts.matchesUser isMemberOf then some true
      else if remove then some false else none

section Login

variable (isMemberOf : String → Bool)

/-- The loop over the roles of an organization, in which the flag of a role replaces the one
that was used before. -/
def orgStates (opts : OrgOpts) : RoleStates :=
  ([RoleName.adminRole, .auditorRole, .memberRole].foldl (fun (loop : Bool × RoleStates) role =>
    let remove := (opts.removes role).getD loop.1
    (remove, loop.2.insert role (updateM2mFromGroups isMemberOf (opts.options role) remove)))
    (opts.remove.getD true, ∅)).2

/-- Organizations for which nothing is desired are left out. -/
def desiredOrgStates (orgMap : Dict String OrgOpts) : OrgStates :=
  assignAll (fun entry : Sigma fun _ : String => OrgOpts => entry.1)
    (fun entry =>
      let states := orgStates isMemberOf entry.2
      if states.entries.all fun state => state.2.isNone then none else some states)
    orgMap.entries ∅

def teamState (opts : TeamOpts) : Option RoleStates :=
  if opts.organization.isNone then none
  else
    (updateM2mFromGroups isMemberOf opts.users (opts.remove.getD true)).map fun state =>
      AList.singleton .memberRole (some state)

def desiredTeamStates (teamMap : Dict String TeamOpts) : TeamStates :=
  assignAllAt (fun entry : Sigma fun _ : String => TeamOpts => entry.2.organization.join)
    (fun entry => some entry.1) (fun entry => teamState isMemberOf entry.2) teamMap.entries ∅

/-- The teams to create; one without an organization is an error that is logged. -/
def teamsToCreate (teamMap : Dict String TeamOpts) : TeamMap :=
  assignAll (fun entry : Sigma fun _ : String => TeamOpts => entry.1)
    (fun entry => (truthy entry.2.organization.join).map some) teamMap.entries ∅

def onPopulateUser (maps : LdapMaps) (user : ℕ) (tables : Tables) : Except String Tables := do
  let tables ← createOrgAndTeams maps.orgMap.keys (teamsToCreate maps.teamMap) true tables
  return reconcileUsersOrgTeamMappings user (desiredOrgStates isMemberOf maps.orgMap)
    (desiredTeamStates isMemberOf maps.teamMap) tables

end Login

/-! ## What is desired -/

def OrgOpts.loopRemove (opts : OrgOpts) : RoleName → Bool
  | .adminRole => (opts.removes .adminRole).getD (opts.remove.getD true)
  | .auditorRole =>
      (opts.removes .auditorRole).getD
        ((opts.removes .adminRole).getD (opts.remove.getD true))
  | .memberRole =>
      (opts.removes .memberRole).getD ((opts.removes .auditorRole).getD
        ((opts.removes .adminRole).getD (opts.remove.getD true)))

def OrgOpts.effectiveRemove (opts : OrgOpts) (role : RoleName) : Bool :=
  (opts.removes role).getD (opts.remove.getD true)

variable {isMemberOf : String → Bool}

theorem lookup_orgStates (opts : OrgOpts) (role : RoleName) :
    (orgStates isMemberOf opts).lookup role =
      some (updateM2mFromGroups isMemberOf (opts.options role) (opts.loopRemove role)) := by
  have hstates : orgStates isMemberOf opts =
      ((AList.insert RoleName.adminRole
        (updateM2mFromGroups isMemberOf (opts.options .adminRole) (opts.loopRemove .adminRole))
        (∅ : RoleStates)).insert .auditorRole
        (updateM2mFromGroups isMemberOf (opts.options .auditorRole)
          (opts.loopRemove .auditorRole))).insert .memberRole
        (updateM2mFromGroups isMemberOf (opts.options .memberRole)
          (opts.loopRemove .memberRole)) := rfl
  rw [hstates]
  cases role with
  | memberRole => exact AList.lookup_insert _
  | auditorRole =>
    have hmember : RoleName.auditorRole ≠ .memberRole := nofun
    rw [AList.lookup_insert_ne hmember, AList.lookup_insert]
  | adminRole =>
    have hmember : RoleName.adminRole ≠ .memberRole := nofun
    have hauditor : RoleName.adminRole ≠ .auditorRole := nofun
    rw [AList.lookup_insert_ne hmember, AList.lookup_insert_ne hauditor, AList.lookup_insert]

theorem desiredOrg_desiredOrgStates (orgMap : Dict String OrgOpts) (name : String)
    (role : RoleName) :
    desiredOrg (desiredOrgStates isMemberOf orgMap) name role =
      (orgMap.lookup name).bind fun opts =>
        updateM2mFromGroups isMemberOf (opts.options role) (opts.loopRemove role) := by
  have hlookup := lookup_assignAll_entries orgMap
    (fun opts => if (orgStates isMemberOf opts).entries.all fun state => state.2.isNone then none
      else some (orgStates isMemberOf opts)) name
  rw [desiredOrg, lookupAt, desiredOrgStates, hlookup]
  cases orgMap.lookup name with
  | none => rfl
  | some opts =>
    rw [Option.bind_some, Option.bind_some]
    split
    · next hnone =>
      have hentry := AList.mem_lookup_iff.mp (@lookup_orgStates isMemberOf opts role)
      have hstate : (updateM2mFromGroups isMemberOf (opts.options role)
          (opts.loopRemove role)).isNone = true := List.all_eq_true.mp hnone _ hentry
      rw [Option.isNone_iff_eq_none.mp hstate]
      rfl
    · rw [Option.bind_some, lookup_orgStates, Option.join_some]

theorem desiredTeam_desiredTeamStates (teamMap : Dict String TeamOpts)
    (organization : Option String) (name : String) (role : RoleName) :
    desiredTeam (desiredTeamStates isMemberOf teamMap) organization (some name) role =
      (teamMap.lookup name).bind fun opts =>
        if opts.organization = some organization ∧ role = .memberRole then
          updateM2mFromGroups isMemberOf opts.users (opts.remove.getD true)
        else none := by
  have hlookup := lastAt_entries teamMap (fun opts => opts.organization.join)
    (Option.some_injective String) (teamState isMemberOf) organization name
  rw [desiredTeam, desiredTeamStates, lookupAt_assignAllAt, hlookup, lookupAt_empty,
    Option.or_none]
  cases teamMap.lookup name with
  | none => rfl
  | some opts =>
    rw [Option.bind_some, Option.bind_some, teamState]
    cases horg : opts.organization with
    | none => simp
    | some mapped =>
      rw [Option.join_some]
      by_cases hsame : mapped = organization
      · rw [if_pos hsame, Option.isNone_some, if_neg Bool.false_ne_true]
        cases updateM2mFromGroups isMemberOf opts.users (opts.remove.getD true) with
        | none => simp
        | some state =>
          rw [Option.map_some, Option.bind_some, lookup_singleton]
          by_cases hrole : role = .memberRole
          · rw [if_pos hrole, if_pos ⟨congrArg some hsame, hrole⟩, Option.join_some]
          · rw [if_neg hrole, if_neg fun hboth => hrole hboth.2]
            rfl
      · rw [if_neg hsame, if_neg fun hboth => hsame (Option.some.inj hboth.1)]
        rfl

theorem lookup_teamsToCreate (teamMap : Dict String TeamOpts) (name : String) :
    ((teamsToCreate teamMap).lookup name).join =
      (teamMap.lookup name).bind fun opts => truthy opts.organization.join := by
  have hlookup := lookup_assignAll_entries teamMap
    (fun opts => (truthy opts.organization.join).map some) name
  rw [teamsToCreate, hlookup]
  cases teamMap.lookup name with
  | none => rfl
  | some opts =>
    rw [Option.bind_some, Option.bind_some]
    cases truthy opts.organization.join <;> rfl

/-! ## Logins that follow the mappings -/

/-- What the mapping of an organization says about a role: a matching option gives it, and
another one takes it away if the flag is on. -/
def orgWanted (isMemberOf : String → Bool) (orgMap : Dict String OrgOpts) (name : String)
    (role : RoleName) : Option Bool :=
  (orgMap.lookup name).bind fun opts =>
    updateM2mFromGroups isMemberOf (opts.options role) (opts.effectiveRemove role)

def teamWanted (isMemberOf : String → Bool) (teamMap : Dict String TeamOpts)
    (organization : Option String) (name : String) (role : RoleName) : Option Bool :=
  (teamMap.lookup name).bind fun opts =>
    if opts.organization = some organization ∧ role = .memberRole then
      updateM2mFromGroups isMemberOf opts.users (opts.remove.getD true)
    else none

structure FollowsMappings (isMemberOf : String → Bool) (maps : LdapMaps) (user : ℕ)
    (before after : Tables) : Prop where
  organizations : ∀ name ∈ maps.orgMap, name ∈ after.organizations.map Organization.name
  teams : ∀ name opts orgName, maps.teamMap.lookup name = some opts →
    truthy opts.organization.join = some orgName → TeamIn after name orgName
  organizationRoles : ∀ row ∈ after.organizations, ∀ role,
    Follows (orgWanted isMemberOf maps.orgMap row.name role)
      ((user, .organization row.pk role) ∈ before.members)
      ((user, .organization row.pk role) ∈ after.members)
  teamRoles : ∀ row ∈ after.teams, ∀ role,
    Follows (teamWanted isMemberOf maps.teamMap (after.organizationName row) row.name role)
      ((user, .team row.pk role) ∈ before.members) ((user, .team row.pk role) ∈ after.members)
  otherRoles : ∀ pk, (user, .other pk) ∈ after.members ↔ (user, .other pk) ∈ before.members
  otherUsers : ∀ other role, other ≠ user →
    ((other, role) ∈ after.members ↔ (other, role) ∈ before.members)

/-- The user is a member of a role that the loop over the roles does not treat as the flags
of the mapping say: its option does not match, and the flag of an earlier role is used. -/
def WrongFlag (isMemberOf : String → Bool) (maps : LdapMaps) (user : ℕ) (tables : Tables) : Prop :=
  ∃ row ∈ tables.organizations, ∃ opts role option, maps.orgMap.lookup row.name = some opts ∧
    opts.options role = some option ∧ option.matchesUser isMemberOf = false ∧
    opts.loopRemove role ≠ opts.effectiveRemove role ∧
    (user, .organization row.pk role) ∈ tables.members

/-- A mapped team is missing in its organization, but there is one of this name elsewhere. -/
def NameTaken (maps : LdapMaps) (tables : Tables) : Prop :=
  ∃ name opts orgName, maps.teamMap.lookup name = some opts ∧
    truthy opts.organization.join = some orgName ∧ name ∈ tables.teams.map Team.name ∧
    ¬ TeamIn tables name orgName

/-- An organization without a name is mapped, which is never created. -/
def Unnamed (maps : LdapMaps) (tables : Tables) : Prop :=
  "" ∈ maps.orgMap ∧ "" ∉ tables.organizations.map Organization.name

variable {maps : LdapMaps} {user : ℕ}

theorem updateM2mFromGroups_of_not_match {option : MapOption}
    (hmatch : option.matchesUser isMemberOf = false) (remove : Bool) :
    updateM2mFromGroups isMemberOf (some option) remove = if remove then some false else none := by
  rw [updateM2mFromGroups, hmatch, if_neg Bool.false_ne_true]

theorem not_match_of_ne {opts : Option MapOption} {remove remove' : Bool}
    (hne : updateM2mFromGroups isMemberOf opts remove ≠
      updateM2mFromGroups isMemberOf opts remove') :
    ∃ option, opts = some option ∧ option.matchesUser isMemberOf = false ∧ remove ≠ remove' := by
  cases opts with
  | none => exact absurd rfl hne
  | some option =>
    refine ⟨option, rfl, ?_, fun hsame => hne (hsame ▸ rfl)⟩
    cases hmatch : option.matchesUser isMemberOf with
    | false => rfl
    | true =>
      refine absurd ?_ hne
      rw [updateM2mFromGroups, updateM2mFromGroups, hmatch, if_pos rfl, if_pos rfl]

theorem follows_of_not_before {before after : Prop} (hbefore : ¬ before) {remove remove' : Bool}
    (hfollows : Follows (if remove then some false else none) before after) :
    Follows (if remove' then some false else none) before after := by
  have hafter : ¬ after := by
    cases remove with
    | true => exact hfollows
    | false => exact fun hafter => hbefore (hfollows.mp hafter)
  cases remove' with
  | true => exact hafter
  | false => exact iff_of_false hafter hbefore

theorem flag_eq_of_before {before after : Prop} (hbefore : before) {remove remove' : Bool}
    (hfollows : Follows (if remove then some false else none) before after)
    (hfollows' : Follows (if remove' then some false else none) before after) :
    remove = remove' := by
  cases remove with
  | true =>
    cases remove' with
    | true => rfl
    | false => exact absurd (hfollows'.mpr hbefore) hfollows
  | false =>
    cases remove' with
    | true => exact absurd (hfollows.mpr hbefore) hfollows'
    | false => rfl

theorem onPopulateUser_spec (isMemberOf : String → Bool) (maps : LdapMaps) (user : ℕ)
    (db : Database) :
    ∃ created, onPopulateUser isMemberOf maps user db.toTables =
        .ok (reconcileUsersOrgTeamMappings user (desiredOrgStates isMemberOf maps.orgMap)
          (desiredTeamStates isMemberOf maps.teamMap) created) ∧
      Grown db.toTables created ∧
      (∀ orgName, orgName ∈ created.organizations.map Organization.name ↔
        orgName ∈ db.organizations.map Organization.name ∨
          (orgName ∈ allOrgs maps.orgMap.keys (teamsToCreate maps.teamMap) ∧ orgName ≠ "")) ∧
      ∀ name orgName, TeamIn created name orgName ↔ TeamIn db.toTables name orgName ∨
        (name ∉ db.teams.map Team.name ∧
          ∃ opts, maps.teamMap.lookup name = some opts ∧
            truthy opts.organization.join = some orgName) := by
  obtain ⟨created, hcreate, hgrown, hnames, hteams⟩ :=
    createOrgAndTeams_spec db.consistent maps.orgMap.keys (teamsToCreate maps.teamMap) true
  refine ⟨created, ?_, hgrown, fun orgName => ?_, fun name orgName => ?_⟩
  · rw [onPopulateUser, hcreate]
    rfl
  · rw [hnames, and_iff_right rfl]
  · rw [hteams, and_iff_right rfl, lookup_teamsToCreate, Option.bind_eq_some_iff]
    apply or_congr_right
    apply and_congr_right
    intro _
    refine and_iff_left_of_imp ?_
    rintro ⟨opts, -, htruthy⟩
    exact (truthy_eq_some.mp htruthy).2

theorem mem_organizations_of_member {db : Database} {created : Tables}
    (hgrown : Grown db.toTables created) {row : Organization} (hrow : row ∈ created.organizations)
    {role : RoleName} (hmember : (user, .organization row.pk role) ∈ db.members) :
    row ∈ db.organizations := by
  obtain ⟨old, hold, hpk⟩ :=
    List.mem_map.mp (db.consistent.members_organization user row.pk role hmember)
  rwa [List.inj_on_of_nodup_map hgrown.consistent.organizations_pk
    (hgrown.mem_organizations hold) hrow hpk] at hold

/-- The roles follow the mappings exactly when no flag of an earlier role is used for one
that the user has, no mapped team has its name taken, and no organization without a name has
to be created. -/
theorem followsMappings_iff (isMemberOf : String → Bool) (maps : LdapMaps) (user : ℕ)
    (db : Database) :
    (∃ after, onPopulateUser isMemberOf maps user db.toTables = .ok after ∧
        FollowsMappings isMemberOf maps user db.toTables after) ↔
      ¬ WrongFlag isMemberOf maps user db.toTables ∧ ¬ NameTaken maps db.toTables ∧
        ¬ Unnamed maps db.toTables := by
  obtain ⟨created, hlogin, hgrown, hnames, hteams⟩ :=
    onPopulateUser_spec isMemberOf maps user db
  have hfollows : ∀ row ∈ created.organizations, ∀ role,
      Follows ((maps.orgMap.lookup row.name).bind fun opts =>
        updateM2mFromGroups isMemberOf (opts.options role) (opts.loopRemove role))
        ((user, .organization row.pk role) ∈ db.members)
        ((user, .organization row.pk role) ∈
          (reconcileUsersOrgTeamMappings user (desiredOrgStates isMemberOf maps.orgMap)
            (desiredTeamStates isMemberOf maps.teamMap) created).members) := by
    intro row hrow role
    rw [← desiredOrg_desiredOrgStates, ← hgrown.members]
    exact follows_organization hgrown.consistent user hrow role
  constructor
  · rintro ⟨after, hafter, hmappings⟩
    obtain rfl := Except.ok.inj (hlogin.symm.trans hafter)
    refine ⟨?_, ?_, ?_⟩
    · rintro ⟨row, hrow, opts, role, option, hopts, hoption, hmatch, hflags, hmember⟩
      have hrow' := hgrown.mem_organizations hrow
      have hloop := hfollows row hrow' role
      have hwanted := hmappings.organizationRoles row (by rwa [organizations_reconcile]) role
      rw [orgWanted, hopts, Option.bind_some, hoption,
        updateM2mFromGroups_of_not_match hmatch] at hwanted
      rw [hopts, Option.bind_some, hoption, updateM2mFromGroups_of_not_match hmatch] at hloop
      exact hflags (flag_eq_of_before hmember hloop hwanted)
    · rintro ⟨name, opts, orgName, hopts, horg, hname, hmissing⟩
      have hteam : TeamIn created name orgName := by
        have hteam := hmappings.teams name opts orgName hopts horg
        rwa [teamIn_reconcile] at hteam
      rcases (hteams name orgName).mp hteam with hold | hnew
      · exact hmissing hold
      · exact hnew.1 hname
    · rintro ⟨hmapped, hmissing⟩
      have hexists := hmappings.organizations "" hmapped
      rw [organizations_reconcile, hnames] at hexists
      exact hexists.elim hmissing fun hnew => hnew.2 rfl
  · rintro ⟨hflags, htaken, hunnamed⟩
    refine ⟨_, hlogin, ?_, ?_, fun row hrow role => ?_, fun row hrow role => ?_, fun pk => ?_,
      fun other role hother => ?_⟩
    · intro name hname
      rw [organizations_reconcile, hnames]
      by_cases hempty : name = ""
      · subst hempty
        exact .inl (by_contra fun hmissing => hunnamed ⟨hname, hmissing⟩)
      · exact .inr ⟨mem_allOrgs.mpr (.inl (AList.mem_keys.mp hname)), hempty⟩
    · intro name opts orgName hopts horg
      rw [teamIn_reconcile, hteams]
      by_cases hname : name ∈ db.teams.map Team.name
      · refine .inl (by_contra fun hmissing => htaken ?_)
        exact ⟨name, opts, orgName, hopts, horg, hname, hmissing⟩
      · exact .inr ⟨hname, opts, hopts, horg⟩
    · rw [organizations_reconcile] at hrow
      have hloop := hfollows row hrow role
      rw [orgWanted]
      cases hopts : maps.orgMap.lookup row.name with
      | none =>
        rw [hopts] at hloop
        exact hloop
      | some opts =>
        rw [hopts, Option.bind_some] at hloop
        rw [Option.bind_some]
        by_cases hsame : updateM2mFromGroups isMemberOf (opts.options role) (opts.loopRemove role) =
            updateM2mFromGroups isMemberOf (opts.options role) (opts.effectiveRemove role)
        · rwa [← hsame]
        · obtain ⟨option, hoption, hmatch, hne⟩ := not_match_of_ne hsame
          rw [hoption, updateM2mFromGroups_of_not_match hmatch] at hloop ⊢
          refine follows_of_not_before (fun hmember => hflags ?_) hloop
          exact ⟨row, mem_organizations_of_member hgrown hrow hmember, opts, role, option, hopts,
            hoption, hmatch, hne, hmember⟩
    · rw [teams_reconcile] at hrow
      have hteam := @follows_team (desiredOrgStates isMemberOf maps.orgMap)
        (desiredTeamStates isMemberOf maps.teamMap) created hgrown.consistent user row hrow role
      rw [desiredTeam_desiredTeamStates, hgrown.members] at hteam
      rw [organizationName_reconcile]
      exact hteam
    · rw [mem_members_reconcile hgrown.consistent, hgrown.members]
      simp [Desired]
    · rw [mem_members_reconcile hgrown.consistent, hgrown.members]
      simp [hother]

def keepAdmins : LdapMaps where
  orgMap := AList.singleton "Ops"
    { options := fun
        | .adminRole => some (.text "cn=admins")
        | .auditorRole => none
        | .memberRole => some (.text "cn=ops")
      removes := fun
        | .adminRole => some false
        | _ => none
      remove := some true }
  teamMap := ∅

theorem users_keep_role :
    ¬ ∀ isMemberOf maps user (db : Database),
      ∃ after, onPopulateUser isMemberOf maps user db.toTables = .ok after ∧
        FollowsMappings isMemberOf maps user db.toTables after := by
  intro hall
  obtain ⟨after, hlogin, hfollows⟩ :=
    hall (fun _ => false) keepAdmins 7 opsDatabase
  have hsame : onPopulateUser (fun _ => false) keepAdmins 7 opsTables = .ok opsTables := rfl
  obtain rfl := Except.ok.inj (hsame.symm.trans hlogin)
  have hlost : (7, Role.organization 1 .memberRole) ∉ opsTables.members :=
    hfollows.organizationRoles ⟨1, "Ops"⟩ (List.mem_singleton_self _) .memberRole
  exact hlost (List.mem_singleton_self _)

end Forail.Sso
