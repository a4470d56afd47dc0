import Forail.Sso.SamlStates

/-!
# Roles that a SAML login grants and takes away

After a login the user is to have every role that a mapping grants.  A role may only be
lost when a mapping that covers it has its flag on, and no mapping grants it.
-/

namespace Forail.Sso

open Forail.DesiredStates Forail.Grouping

def MayLose (settings : SamlSettings) (attributes : Attributes) (user : SamlUser)
    (tables : Tables) : Role → Prop
  | .organization pk role => ∃ row ∈ tables.organizations, row.pk = pk ∧
      OrgCovered settings row.name role ∧ ¬ OrgGranted settings attributes user row.name role
  | .team pk role => role = .memberRole ∧ ∃ row ∈ tables.teams, row.pk = pk ∧
      ∃ organization, tables.organizationName row = some organization ∧
        TeamCovered settings organization row.name ∧
        ¬ TeamGranted settings attributes user organization row.name
  | .other _ => False

/-- The user has what is granted, as far as objects exist or may be created, and loses only
what may be lost. -/
structure GrantsAndKeeps (settings : SamlSettings) (attributes : Attributes) (user : SamlUser)
    (before after : Tables) : Prop where
  organizations : ∀ name role, OrgGranted settings attributes user name role →
    settings.autoCreateObjects = true ∨ name ∈ before.organizations.map Organization.name →
    ∃ row ∈ after.organizations, row.name = name ∧
      (user.pk, .organization row.pk role) ∈ after.members
  teams : ∀ organization name, TeamGranted settings attributes user organization name →
    settings.autoCreateObjects = true ∨ TeamIn before name organization →
    ∃ row ∈ after.teams, row.name = name ∧ after.organizationName row = some organization ∧
      (user.pk, .team row.pk .memberRole) ∈ after.members
  losses : ∀ role, (user.pk, role) ∈ before.members → (user.pk, role) ∉ after.members →
    MayLose settings attributes user before role
  otherUsers : ∀ other role, other ≠ user.pk →
    ((other, role) ∈ after.members ↔ (other, role) ∈ before.members)

/-- A role of an organization without a name is granted, which is never created. -/
def UnnamedGranted (settings : SamlSettings) (attributes : Attributes) (user : SamlUser)
    (tables : Tables) : Prop :=
  settings.autoCreateObjects = true ∧ "" ∉ tables.organizations.map Organization.name ∧
    ∃ role, OrgGranted settings attributes user "" role

/-- The user has a role for which no attribute is configured and that is removed from all
organizations, in one that is not mapped. -/
def LostUnmapped (settings : SamlSettings) (user : SamlUser) (tables : Tables) : Prop :=
  ∃ row ∈ tables.organizations, ∃ role, settings.organizationAttr.attrs role = none ∧
    settings.organizationAttr.remove role = true ∧
    (∀ entry ∈ orgEntries settings, aliasOfMap entry ≠ row.name) ∧
    (user.pk, .organization row.pk role) ∈ tables.members

def GrantOverruled (settings : SamlSettings) (attributes : Attributes) (user : SamlUser)
    (tables : Tables) : Prop :=
  ∃ organization name, TeamGranted settings attributes user organization name ∧
    (settings.autoCreateObjects = true ∨ TeamIn tables name organization) ∧
    Overruled settings attributes user organization name

/-- A team is granted and missing, but it is not created: there is one of this name
elsewhere, its organization has no name, or a later mapping creates it elsewhere. -/
def TeamNotCreated (settings : SamlSettings) (attributes : Attributes) (user : SamlUser)
    (tables : Tables) : Prop :=
  ∃ organization name, TeamGranted settings attributes user organization name ∧
    settings.autoCreateObjects = true ∧ ¬ TeamIn tables name organization ∧
    (name ∈ tables.teams.map Team.name ∨ organization = "" ∨
      Displaced settings attributes organization name)

/-- The user is in a team that an entry denies, and nothing covers or grants it. -/
def LostUncovered (settings : SamlSettings) (attributes : Attributes) (user : SamlUser)
    (tables : Tables) : Prop :=
  ∃ row ∈ tables.teams, ∃ organization, tables.organizationName row = some organization ∧
    (user.pk, .team row.pk .memberRole) ∈ tables.members ∧
    ¬ TeamGranted settings attributes user organization row.name ∧
    ¬ TeamCovered settings organization row.name ∧
    ∃ nameMap ∈ settings.teamAttr.nameMaps,
      nameMap.Denies (settings.teamAttr.teamNames attributes) organization row.name

structure Created (settings : SamlSettings) (attributes : Attributes) (user : SamlUser)
    (before created : Tables) : Prop where
  grown : Grown before created
  organizations : ∀ name role, OrgGranted settings attributes user name role →
    (name ∈ created.organizations.map Organization.name ↔
      name ∈ before.organizations.map Organization.name ∨
        (settings.autoCreateObjects = true ∧ name ≠ ""))
  teams : ∀ name organization, TeamGranted settings attributes user organization name →
    (TeamIn created name organization ↔ TeamIn before name organization ∨
      (settings.autoCreateObjects = true ∧ name ∉ before.teams.map Team.name ∧
        ¬ Displaced settings attributes organization name ∧ organization ≠ ""))

def reconciled (settings : SamlSettings) (attributes : Attributes) (user : SamlUser)
    (before created : Tables) : Tables :=
  reconcileUsersOrgTeamMappings user.pk (desiredOrgs settings attributes user before).desired
    (desiredTeams settings attributes user before).desired created

section Login

variable {settings : SamlSettings} {attributes : Attributes} {user : SamlUser}

theorem populateUser_spec (attributes : Attributes) (user : SamlUser) (db : Database)
    (hnull : ¬ NullEntries settings) :
    ∃ created, populateUser settings attributes (some user) db.toTables =
        .ok (reconciled settings attributes user db.toTables created) ∧
      Created settings attributes user db.toTables created := by
  obtain ⟨created, hcreate, hgrown, hnames, hteams⟩ :=
    createOrgAndTeams_spec db.consistent (desiredOrgs settings attributes user db.toTables).toCreate
      (desiredTeams settings attributes user db.toTables).toCreate settings.autoCreateObjects
  have hlogin : populateUser settings attributes (some user) db.toTables =
      createOrgAndTeams (desiredOrgs settings attributes user db.toTables).toCreate
        (desiredTeams settings attributes user db.toTables).toCreate settings.autoCreateObjects
        db.toTables >>= fun created =>
          .ok (reconciled settings attributes user db.toTables created) := by
    rw [populateUser, updateUserTeamsBySamlAttr_of_not_null hnull]
    rfl
  refine ⟨created, ?_, hgrown, fun name role hgranted => ?_, fun name organization hgranted => ?_⟩
  · rw [hlogin, hcreate]
    rfl
  · rw [hnames, mem_allOrgs]
    apply or_congr_right
    apply and_congr_right
    intro _
    exact and_iff_right (.inl (mem_toCreate_of_granted hgranted))
  · rw [hteams, toCreate_of_granted hgranted]

theorem of_follows_true {wanted : Option Bool} {before after : Prop}
    (hfollows : Follows wanted before after) (hwanted : wanted = some true) : after := by
  rw [hwanted] at hfollows
  exact hfollows

theorem not_of_follows_false {wanted : Option Bool} {before after : Prop}
    (hfollows : Follows wanted before after) (hwanted : wanted = some false) : ¬ after := by
  rw [hwanted] at hfollows
  exact hfollows

theorem eq_false_of_lost {wanted : Option Bool} {before after : Prop}
    (hfollows : Follows wanted before after) (hbefore : before) (hafter : ¬ after) :
    wanted = some false := by
  cases wanted with
  | none => exact absurd (hfollows.mpr hbefore) hafter
  | some state =>
    cases state with
    | false => rfl
    | true => exact absurd hfollows hafter

variable {db : Database} {created : Tables}

namespace Created

section

variable (hcreated : Created settings attributes user db.toTables created)
include hcreated

theorem follows_organization
    {row : Organization} (hrow : row ∈ created.organizations) (role : RoleName) :
    Follows (desiredOrg (desiredOrgs settings attributes user db.toTables).desired row.name role)
      ((user.pk, .organization row.pk role) ∈ db.members)
      ((user.pk, .organization row.pk role) ∈
        (reconciled settings attributes user db.toTables created).members) := by
  rw [← hcreated.grown.members]
  exact Sso.follows_organization hcreated.grown.consistent user.pk hrow role

theorem follows_team {row : Team} (hrow : row ∈ created.teams) (role : RoleName) :
    Follows (desiredTeam (desiredTeams settings attributes user db.toTables).desired
        (created.organizationName row) (some row.name) role)
      ((user.pk, .team row.pk role) ∈ db.members)
      ((user.pk, .team row.pk role) ∈
        (reconciled settings attributes user db.toTables created).members) := by
  rw [← hcreated.grown.members]
  exact Sso.follows_team hcreated.grown.consistent user.pk hrow role

theorem organizations_iff :
    (∀ name role, OrgGranted settings attributes user name role →
      settings.autoCreateObjects = true ∨ name ∈ db.organizations.map Organization.name →
      ∃ row ∈ (reconciled settings attributes user db.toTables created).organizations,
        row.name = name ∧ (user.pk, .organization row.pk role) ∈
          (reconciled settings attributes user db.toTables created).members) ↔
      ¬ UnnamedGranted settings attributes user db.toTables := by
  have horganizations : (reconciled settings attributes user db.toTables created).organizations =
      created.organizations := organizations_reconcile user.pk
  rw [horganizations]
  constructor
  · rintro hheld ⟨hauto, hmissing, role, hgranted⟩
    obtain ⟨row, hrow, hname, -⟩ := hheld "" role hgranted (.inl hauto)
    have hexists := (hcreated.organizations "" role hgranted).mp (hname ▸ List.mem_map_of_mem hrow)
    exact hexists.elim hmissing fun hnew => hnew.2 rfl
  · intro hunnamed name role hgranted hmay
    have hname : name ∈ created.organizations.map Organization.name := by
      rw [hcreated.organizations name role hgranted]
      by_cases hold : name ∈ db.organizations.map Organization.name
      · exact .inl hold
      · have hauto := hmay.resolve_right hold
        refine .inr ⟨hauto, ?_⟩
        rintro rfl
        exact hunnamed ⟨hauto, hold, role, hgranted⟩
    obtain ⟨row, hrow, rfl⟩ := List.mem_map.mp hname
    exact ⟨row, hrow, rfl, of_follows_true (hcreated.follows_organization hrow role)
      (desiredOrgs_eq_true.mpr hgranted)⟩

theorem teams_iff :
    (∀ organization name, TeamGranted settings attributes user organization name →
      settings.autoCreateObjects = true ∨ TeamIn db.toTables name organization →
      ∃ row ∈ (reconciled settings attributes user db.toTables created).teams, row.name = name ∧
        (reconciled settings attributes user db.toTables created).organizationName row =
          some organization ∧ (user.pk, .team row.pk .memberRole) ∈
            (reconciled settings attributes user db.toTables created).members) ↔
      ¬ GrantOverruled settings attributes user db.toTables ∧
        ¬ TeamNotCreated settings attributes user db.toTables := by
  have hrows : (reconciled settings attributes user db.toTables created).teams = created.teams :=
    teams_reconcile user.pk
  have hnames : ∀ row, (reconciled settings attributes user db.toTables created).organizationName
      row = created.organizationName row := organizationName_reconcile user.pk
  simp only [hrows, hnames]
  constructor
  · intro hheld
    constructor
    · rintro ⟨organization, name, hgranted, hmay, hoverruled⟩
      obtain ⟨row, hrow, rfl, horg, hmember⟩ := hheld organization name hgranted hmay
      refine not_of_follows_false (hcreated.follows_team hrow .memberRole) ?_ hmember
      rw [horg]
      exact desiredTeam_of_overruled hoverruled
    · rintro ⟨organization, name, hgranted, hauto, hmissing, hcause⟩
      obtain ⟨row, hrow, hname, horg, -⟩ := hheld organization name hgranted (.inl hauto)
      obtain ⟨-, hnew, hplaced, hne⟩ := ((hcreated.teams name organization hgranted).mp
        ⟨row, hrow, hname, horg⟩).resolve_left hmissing
      rcases hcause with htaken | hunnamed | hdisplaced
      · exact hnew htaken
      · exact hne hunnamed
      · exact hplaced hdisplaced
  · rintro ⟨hoverruled, hnotCreated⟩ organization name hgranted hmay
    have hteam : TeamIn created name organization := by
      rw [hcreated.teams name organization hgranted]
      by_cases hold : TeamIn db.toTables name organization
      · exact .inl hold
      · have hauto := hmay.resolve_right hold
        refine .inr ⟨hauto, fun htaken => ?_, fun hdisplaced => ?_, fun hunnamed => ?_⟩
        · exact hnotCreated ⟨organization, name, hgranted, hauto, hold, .inl htaken⟩
        · exact hnotCreated ⟨organization, name, hgranted, hauto, hold, .inr (.inr hdisplaced)⟩
        · exact hnotCreated ⟨organization, name, hgranted, hauto, hold, .inr (.inl hunnamed)⟩
    obtain ⟨row, hrow, rfl, horg⟩ := hteam
    refine ⟨row, hrow, rfl, horg, of_follows_true (hcreated.follows_team hrow .memberRole) ?_⟩
    rw [horg, desiredTeam_of_granted hgranted]
    exact fun hlast => hoverruled ⟨organization, row.name, hgranted, hmay, hlast⟩

/-- A role of an organization is lost without a reason exactly when no attribute is configured
for it and the organization is not mapped. -/
theorem organizationLosses_iff :
    (∀ pk role, (user.pk, .organization pk role) ∈ db.members →
      (user.pk, .organization pk role) ∉
        (reconciled settings attributes user db.toTables created).members →
      MayLose settings attributes user db.toTables (.organization pk role)) ↔
      ¬ LostUnmapped settings user db.toTables := by
  constructor
  · rintro hlosses ⟨row, hrow, role, hattr, hremove, hne, hmember⟩
    obtain ⟨hlost, huncovered⟩ := (@desiredOrgs_eq_false_uncovered settings attributes user
      db.toTables row.name role).mpr ⟨hattr, hremove, hne, List.mem_map_of_mem hrow⟩
    have hafter := not_of_follows_false
      (hcreated.follows_organization (hcreated.grown.mem_organizations hrow) role) hlost
    obtain ⟨other, hother, hpk, hcovered, -⟩ := hlosses row.pk role hmember hafter
    rw [List.inj_on_of_nodup_map db.consistent.organizations_pk hother hrow hpk] at hcovered
    exact huncovered hcovered
  · intro hunmapped pk role hmember hafter
    obtain ⟨row, hrow, rfl⟩ :=
      List.mem_map.mp (db.consistent.members_organization user.pk pk role hmember)
    have hlost := eq_false_of_lost
      (hcreated.follows_organization (hcreated.grown.mem_organizations hrow) role) hmember hafter
    refine ⟨row, hrow, rfl, by_contra fun huncovered => hunmapped ?_, fun hgranted => ?_⟩
    · obtain ⟨hattr, hremove, hne, -⟩ := desiredOrgs_eq_false_uncovered.mp ⟨hlost, huncovered⟩
      exact ⟨row, hrow, role, hattr, hremove, hne, hmember⟩
    · rw [desiredOrgs_eq_true.mpr hgranted] at hlost
      exact Bool.false_ne_true (Option.some.inj hlost).symm

/-- When no grant is overruled, a team is lost without a reason exactly when an entry denies
it and nothing covers it. -/
theorem teamLosses_iff (hoverruled : ¬ GrantOverruled settings attributes user db.toTables) :
    (∀ pk role, (user.pk, .team pk role) ∈ db.members →
      (user.pk, .team pk role) ∉
        (reconciled settings attributes user db.toTables created).members →
      MayLose settings attributes user db.toTables (.team pk role)) ↔
      ¬ LostUncovered settings attributes user db.toTables := by
  constructor
  · rintro hlosses ⟨row, hrow, organization, horg, hmember, hgranted, huncovered, hdenies⟩
    have hlost := (@desiredTeam_uncovered settings attributes user db.toTables row.name
      organization hgranted huncovered).mpr hdenies
    rw [← horg, ← hcreated.grown.organizationName db.consistent hrow] at hlost
    have hafter := not_of_follows_false
      (hcreated.follows_team (hcreated.grown.mem_teams hrow) .memberRole) hlost
    obtain ⟨-, other, hother, hpk, organization', horg', hcovered, -⟩ :=
      hlosses row.pk .memberRole hmember hafter
    obtain rfl := List.inj_on_of_nodup_map db.consistent.teams_pk hother hrow hpk
    rw [horg, Option.some_inj] at horg'
    exact huncovered (horg' ▸ hcovered)
  · intro huncovered pk role hmember hafter
    obtain ⟨row, hrow, rfl⟩ := List.mem_map.mp (db.consistent.members_team user.pk pk role hmember)
    obtain ⟨parent, hparent, hpk⟩ := List.mem_map.mp (db.consistent.teams_organization row hrow)
    have horg := organizationName_eq db.consistent hparent hpk.symm
    have hlost := eq_false_of_lost
      (hcreated.follows_team (hcreated.grown.mem_teams hrow) role) hmember hafter
    rw [hcreated.grown.organizationName db.consistent hrow, horg] at hlost
    have hrole : role = .memberRole := by
      by_contra hother
      rw [desiredTeam_desiredTeams, if_neg hother] at hlost
      exact absurd hlost nofun
    subst hrole
    have hgranted : ¬ TeamGranted settings attributes user parent.name row.name := by
      intro hgranted
      by_cases hlast : Overruled settings attributes user parent.name row.name
      · exact hoverruled ⟨parent.name, row.name, hgranted, .inr ⟨row, hrow, rfl, horg⟩, hlast⟩
      · rw [(desiredTeam_of_granted hgranted).mpr hlast] at hlost
        exact Bool.false_ne_true (Option.some.inj hlost).symm
    refine ⟨rfl, row, hrow, rfl, parent.name, horg, by_contra fun hcovered => ?_, hgranted⟩
    apply huncovered
    exact ⟨row, hrow, parent.name, horg, hmember, hgranted, hcovered,
      (desiredTeam_uncovered hgranted hcovered).mp hlost⟩

end

end Created

/-- The login grants all that is granted and keeps the rest exactly when the entries for teams
are not null and none of the five cases applies in which the code does otherwise. -/
theorem grantsAndKeeps_iff (settings : SamlSettings) (attributes : Attributes) (user : SamlUser)
    (db : Database) :
    (∃ after, populateUser settings attributes (some user) db.toTables = .ok after ∧
        GrantsAndKeeps settings attributes user db.toTables after) ↔
      ¬ NullEntries settings ∧ ¬ UnnamedGranted settings attributes user db.toTables ∧
        ¬ LostUnmapped settings user db.toTables ∧
        ¬ GrantOverruled settings attributes user db.toTables ∧
        ¬ TeamNotCreated settings attributes user db.toTables ∧
        ¬ LostUncovered settings attributes user db.toTables := by
  by_cases hnull : NullEntries settings
  · refine iff_of_false ?_ fun hholds => hholds.1 hnull
    rintro ⟨after, hlogin, -⟩
    rw [populateUser, updateUserTeamsBySamlAttr_of_null hnull] at hlogin
    exact absurd hlogin nofun
  rw [and_iff_right hnull]
  obtain ⟨created, hlogin, hcreated⟩ := populateUser_spec attributes user db hnull
  constructor
  · rintro ⟨after, hafter, hholds⟩
    obtain rfl := Except.ok.inj (hlogin.symm.trans hafter)
    obtain ⟨hoverruled, hnotCreated⟩ := hcreated.teams_iff.mp hholds.teams
    refine ⟨hcreated.organizations_iff.mp hholds.organizations, ?_, hoverruled, hnotCreated, ?_⟩
    · exact hcreated.organizationLosses_iff.mp fun pk role => hholds.losses (.organization pk role)
    · exact (hcreated.teamLosses_iff hoverruled).mp fun pk role => hholds.losses (.team pk role)
  · rintro ⟨hunnamed, hunmapped, hoverruled, hnotCreated, huncovered⟩
    refine ⟨_, hlogin, hcreated.organizations_iff.mpr hunnamed,
      hcreated.teams_iff.mpr ⟨hoverruled, hnotCreated⟩, fun role hbefore hafter => ?_,
      fun other role hother => ?_⟩
    · cases role with
      | organization pk role =>
        exact hcreated.organizationLosses_iff.mpr hunmapped pk role hbefore hafter
      | team pk role =>
        exact (hcreated.teamLosses_iff hoverruled).mpr huncovered pk role hbefore hafter
      | other pk =>
        refine absurd ?_ hafter
        rw [reconciled, mem_members_reconcile hcreated.grown.consistent, hcreated.grown.members]
        exact .inr ⟨hbefore, fun hdesired => hdesired.2⟩
    · rw [reconciled, mem_members_reconcile hcreated.grown.consistent, hcreated.grown.members]
      simp [hother]

end Login

def noMappings : SamlSettings where
  organizationMap := none
  teamMap := none
  organizationAttr := { attrs := fun _ => none, removes := fun _ => none }
  teamAttr := { samlAttr := none, remove := none, teamOrgMap := some [] }
  autoCreateObjects := true

theorem lost_without_mapping :
    ¬ ∀ settings attributes user (db : Database),
      ∃ after, populateUser settings attributes (some user) db.toTables = .ok after ∧
        GrantsAndKeeps settings attributes user db.toTables after := by
  intro hall
  obtain ⟨after, hlogin, hholds⟩ := hall noMappings ∅ ⟨7, "kim", "kim@ops"⟩ opsDatabase
  have hlost : populateUser noMappings ∅ (some ⟨7, "kim", "kim@ops"⟩) opsTables =
      .ok { opsTables with members := [] } := rfl
  obtain rfl := Except.ok.inj (hlost.symm.trans hlogin)
  obtain ⟨row, -, -, hcovered, -⟩ := hholds.losses (.organization 1 .memberRole)
    (List.mem_singleton_self _) List.not_mem_nil
  rcases hcovered with ⟨hattr, -⟩ | ⟨entry, hentry, -⟩
  · exact hattr rfl
  · exact absurd hentry List.not_mem_nil

end Forail.Sso
