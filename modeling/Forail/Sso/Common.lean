import Forail.Core.DesiredStates
import Forail.Core.FallibleLoops
import Mathlib.Data.List.Dedup

/-!
# Organizations and teams of a login

The adapters compute which roles a user is to have, by the names of organizations and
teams.  Missing objects are created, and the roles of the user are brought to the desired
states.
-/

namespace Forail.Sso

open Forail.DesiredStates Forail.FallibleLoops Forail.Grouping

inductive RoleName where
  | adminRole
  | auditorRole
  | memberRole
  deriving DecidableEq

structure Organization where
  pk : ℕ
  name : String
  deriving DecidableEq

structure Team where
  pk : ℕ
  name : String
  organization : ℕ
  deriving DecidableEq

/-- A role of an organization, of a team, or of something else. -/
inductive Role where
  | organization (pk : ℕ) (role : RoleName)
  | team (pk : ℕ) (role : RoleName)
  | other (pk : ℕ)
  deriving DecidableEq

/-- The tables, with the members of the roles as pairs of a user and a role. -/
structure Tables where
  organizations : List Organization
  teams : List Team
  members : List (ℕ × Role)
  deriving DecidableEq

structure Tables.Consistent (tables : Tables) : Prop where
  organizations_pk : (tables.organizations.map Organization.pk).Nodup
  organizations_name : (tables.organizations.map Organization.name).Nodup
  teams_pk : (tables.teams.map Team.pk).Nodup
  teams_name : (tables.teams.map fun team => (team.organization, team.name)).Nodup
  teams_organization : ∀ team ∈ tables.teams,
    team.organization ∈ tables.organizations.map Organization.pk
  members_organization : ∀ user pk role, (user, .organization pk role) ∈ tables.members →
    pk ∈ tables.organizations.map Organization.pk
  members_team : ∀ user pk role, (user, .team pk role) ∈ tables.members →
    pk ∈ tables.teams.map Team.pk

structure Database extends Tables where
  consistent : toTables.Consistent

def Tables.organizationName (tables : Tables) (team : Team) : Option String :=
  (tables.organizations.find? fun organization => organization.pk = team.organization).map
    Organization.name

/-- `{ '<role>': <boolean> or None }` -/
abbrev RoleStates := Dict RoleName (Option Bool)

abbrev OrgStates := Nested String RoleName (Option Bool)

abbrev TeamStates := Nested (Option String) (Option String) RoleStates

/-! ## Reconciliation -/

def roleNames (dicts : List RoleStates) : List RoleName :=
  (dicts.flatMap fun dict =>
    (dict.entries.filter fun entry => entry.2.isSome).map fun entry => entry.1).dedup

def orgItems (states : OrgStates) (tables : Tables) : List (Role × Option Bool) :=
  let roles := roleNames (states.entries.map Sigma.snd)
  let modelRoles := tables.organizations.filter fun row => row.name ∈ states
  modelRoles.flatMap fun row => roles.map fun role =>
    (.organization row.pk role, (lookupAt states row.name role).join)

def teamItems (states : TeamStates) (tables : Tables) : List (Role × Option Bool) :=
  let teamsDicts := states.entries.map Sigma.snd
  let teamNames := teamsDicts.flatMap AList.keys
  let roles := roleNames (teamsDicts.flatMap fun dict => dict.entries.map Sigma.snd)
  let modelRoles := tables.teams.filter fun row => some row.name ∈ teamNames
  modelRoles.flatMap fun row => roles.map fun role =>
    (.team row.pk role,
      ((lookupAt states (tables.organizationName row) (some row.name)).bind fun desired =>
        desired.lookup role).join)

/-- A role of an organization or a team, according to the content types that are asked for. -/
def ofContentTypes (organizations teams : Bool) : Role → Bool
  | .organization _ _ => organizations
  | .team _ _ => teams
  | .other _ => false

def reconcileUsersOrgTeamMappings (user : ℕ) (orgStates : OrgStates) (teamStates : TeamStates)
    (tables : Tables) : Tables :=
  let organizations := !orgStates.keys.isEmpty
  let teams := !teamStates.keys.isEmpty
  if !organizations && !teams then tables
  else
    let usersRoles := tables.members.filter fun member =>
      decide (member.1 = user) && ofContentTypes organizations teams member.2
    let items := (if organizations then orgItems orgStates tables else []) ++
      (if teams then teamItems teamStates tables else [])
    { tables with
      members := settleAll usersRoles (items.map fun item => ((user, item.1), item.2))
        tables.members }

def desiredOrg (states : OrgStates) (name : String) (role : RoleName) : Option Bool :=
  (lookupAt states name role).join

def desiredTeam (states : TeamStates) (organization name : Option String) (role : RoleName) :
    Option Bool :=
  ((lookupAt states organization name).bind fun desired => desired.lookup role).join

def Desired (orgStates : OrgStates) (teamStates : TeamStates) (tables : Tables) :
    Role → Bool → Prop
  | .organization pk role, state => ∃ row ∈ tables.organizations, row.pk = pk ∧
      desiredOrg orgStates row.name role = some state
  | .team pk role, state => ∃ row ∈ tables.teams, row.pk = pk ∧
      desiredTeam teamStates (tables.organizationName row) (some row.name) role = some state
  | .other _, _ => False

/-- What holds afterwards is what is wanted, or else what held before. -/
def Follows (wanted : Option Bool) (before after : Prop) : Prop :=
  match wanted with
  | some true => after
  | some false => ¬ after
  | none => after ↔ before

section Reconcile

variable {orgStates : OrgStates} {teamStates : TeamStates} {tables : Tables} {role : Role}
  {roleName : RoleName} {state : Bool}

theorem mem_roleNames {dicts : List RoleStates} :
    roleName ∈ roleNames dicts ↔
      ∃ dict ∈ dicts, ∃ state, dict.lookup roleName = some (some state) := by
  simp only [roleNames, List.mem_dedup, List.mem_flatMap, List.mem_map, List.mem_filter]
  refine exists_congr fun dict => and_congr_right fun _ => ?_
  constructor
  · rintro ⟨⟨name, value⟩, ⟨hentry, hsome⟩, rfl⟩
    obtain ⟨state, rfl⟩ := Option.isSome_iff_exists.mp hsome
    exact ⟨state, AList.mem_lookup_iff.mpr hentry⟩
  · rintro ⟨state, hlookup⟩
    exact ⟨⟨roleName, some state⟩, ⟨AList.mem_lookup_iff.mp hlookup, rfl⟩, rfl⟩

theorem exists_entry_of_lookupAt {Outer Inner Value : Type} [DecidableEq Outer]
    [DecidableEq Inner] {dict : Nested Outer Inner Value} {outer : Outer} {inner : Inner}
    {value : Value} (hlookup : lookupAt dict outer inner = some value) :
    outer ∈ dict ∧ ∃ values ∈ dict.entries.map Sigma.snd, values.lookup inner = some value := by
  obtain ⟨values, houter, hinner⟩ := Option.bind_eq_some_iff.mp hlookup
  refine ⟨AList.lookup_isSome.mp (Option.isSome_of_eq_some houter), values, ?_, hinner⟩
  exact List.mem_map.mpr ⟨⟨outer, values⟩, AList.mem_lookup_iff.mp houter, rfl⟩

theorem mem_orgItems :
    (role, some state) ∈ orgItems orgStates tables ↔
      ∃ row ∈ tables.organizations, ∃ roleName, role = .organization row.pk roleName ∧
        desiredOrg orgStates row.name roleName = some state := by
  simp only [orgItems, List.mem_flatMap, List.mem_filter, List.mem_map, decide_eq_true_eq,
    Prod.mk.injEq]
  constructor
  · rintro ⟨row, ⟨hrow, -⟩, roleName, -, rfl, hstate⟩
    exact ⟨row, hrow, roleName, rfl, hstate⟩
  · rintro ⟨row, hrow, roleName, rfl, hstate⟩
    have hlookup := Option.join_eq_some_iff.mp hstate
    obtain ⟨hmem, dict, hdict, hvalue⟩ := exists_entry_of_lookupAt hlookup
    exact ⟨row, ⟨hrow, hmem⟩, roleName, mem_roleNames.mpr ⟨dict, hdict, state, hvalue⟩, rfl, hstate⟩

theorem mem_teamItems :
    (role, some state) ∈ teamItems teamStates tables ↔
      ∃ row ∈ tables.teams, ∃ roleName, role = .team row.pk roleName ∧
        desiredTeam teamStates (tables.organizationName row) (some row.name) roleName =
          some state := by
  simp only [teamItems, List.mem_flatMap, List.mem_filter, List.mem_map, decide_eq_true_eq,
    Prod.mk.injEq]
  constructor
  · rintro ⟨row, ⟨hrow, -⟩, roleName, -, rfl, hstate⟩
    exact ⟨row, hrow, roleName, rfl, hstate⟩
  · rintro ⟨row, hrow, roleName, rfl, hstate⟩
    obtain ⟨desired, hlookup, hvalue⟩ :=
      Option.bind_eq_some_iff.mp (Option.join_eq_some_iff.mp hstate)
    obtain ⟨-, dict, hdict, hdesired⟩ := exists_entry_of_lookupAt hlookup
    obtain ⟨entry, hentry, rfl⟩ := List.mem_map.mp hdict
    have hname : some row.name ∈ entry.2.keys :=
      AList.mem_keys.mp (AList.lookup_isSome.mp (Option.isSome_of_eq_some hdesired))
    have hdict' : desired ∈ entry.2.entries.map Sigma.snd :=
      List.mem_map.mpr ⟨⟨_, desired⟩, AList.mem_lookup_iff.mp hdesired, rfl⟩
    refine ⟨row, ⟨hrow, entry.2, ⟨entry, hentry, rfl⟩, hname⟩, roleName, ?_, rfl, hstate⟩
    exact mem_roleNames.mpr
      ⟨desired, List.mem_flatMap.mpr ⟨entry.2, hdict, hdict'⟩, state, hvalue⟩

theorem desired_agree (hconsistent : tables.Consistent)
    (htrue : Desired orgStates teamStates tables role true) :
    ¬ Desired orgStates teamStates tables role false := by
  intro hfalse
  cases role with
  | organization pk roleName =>
    obtain ⟨row, hrow, hpk, hstate⟩ := htrue
    obtain ⟨row', hrow', hpk', hstate'⟩ := hfalse
    obtain rfl := List.inj_on_of_nodup_map hconsistent.organizations_pk hrow hrow'
      (hpk.trans hpk'.symm)
    exact Bool.false_ne_true (Option.some.inj (hstate'.symm.trans hstate))
  | team pk roleName =>
    obtain ⟨row, hrow, hpk, hstate⟩ := htrue
    obtain ⟨row', hrow', hpk', hstate'⟩ := hfalse
    obtain rfl := List.inj_on_of_nodup_map hconsistent.teams_pk hrow hrow' (hpk.trans hpk'.symm)
    exact Bool.false_ne_true (Option.some.inj (hstate'.symm.trans hstate))
  | other pk => exact htrue

theorem isEmpty_keys_of_lookupAt {Outer Inner Value : Type} [DecidableEq Outer]
    [DecidableEq Inner] {dict : Nested Outer Inner Value} {outer : Outer} {inner : Inner}
    {value : Value} (hlookup : lookupAt dict outer inner = some value) :
    dict.keys.isEmpty = false := by
  have hmem := AList.mem_keys.mp (exists_entry_of_lookupAt hlookup).1
  rw [List.isEmpty_eq_false_iff]
  exact List.ne_nil_of_mem hmem

theorem mem_items :
    (role, some state) ∈
        (if !orgStates.keys.isEmpty then orgItems orgStates tables else []) ++
          (if !teamStates.keys.isEmpty then teamItems teamStates tables else []) ↔
      Desired orgStates teamStates tables role state := by
  rw [List.mem_append]
  have horg : (role, some state) ∈ (if !orgStates.keys.isEmpty then orgItems orgStates tables
      else []) ↔ (role, some state) ∈ orgItems orgStates tables := by
    split
    · rfl
    · next hempty =>
      refine iff_of_false List.not_mem_nil fun hitem => ?_
      obtain ⟨row, -, roleName, -, hstate⟩ := mem_orgItems.mp hitem
      rw [isEmpty_keys_of_lookupAt (Option.join_eq_some_iff.mp hstate)] at hempty
      exact hempty rfl
  have hteam : (role, some state) ∈ (if !teamStates.keys.isEmpty then teamItems teamStates tables
      else []) ↔ (role, some state) ∈ teamItems teamStates tables := by
    split
    · rfl
    · next hempty =>
      refine iff_of_false List.not_mem_nil fun hitem => ?_
      obtain ⟨row, -, roleName, -, hstate⟩ := mem_teamItems.mp hitem
      obtain ⟨desired, hlookup, -⟩ :=
        Option.bind_eq_some_iff.mp (Option.join_eq_some_iff.mp hstate)
      rw [isEmpty_keys_of_lookupAt hlookup] at hempty
      exact hempty rfl
  rw [horg, hteam, mem_orgItems, mem_teamItems]
  cases role with
  | organization pk roleName =>
    rw [Desired]
    constructor
    · rintro (⟨row, hrow, name, hrole, hstate⟩ | ⟨row, -, name, hrole, -⟩)
      · obtain ⟨rfl, rfl⟩ := Role.organization.inj hrole
        exact ⟨row, hrow, rfl, hstate⟩
      · exact Role.noConfusion hrole
    · rintro ⟨row, hrow, rfl, hstate⟩
      exact .inl ⟨row, hrow, roleName, rfl, hstate⟩
  | team pk roleName =>
    rw [Desired]
    constructor
    · rintro (⟨row, -, name, hrole, -⟩ | ⟨row, hrow, name, hrole, hstate⟩)
      · exact Role.noConfusion hrole
      · obtain ⟨rfl, rfl⟩ := Role.team.inj hrole
        exact ⟨row, hrow, rfl, hstate⟩
    · rintro ⟨row, hrow, rfl, hstate⟩
      exact .inr ⟨row, hrow, roleName, rfl, hstate⟩
  | other pk =>
    refine iff_of_false ?_ id
    rintro (⟨row, -, name, hrole, -⟩ | ⟨row, -, name, hrole, -⟩)
    · exact Role.noConfusion hrole
    · exact Role.noConfusion hrole

theorem ofContentTypes_of_desired (hdesired : Desired orgStates teamStates tables role state) :
    ofContentTypes (!orgStates.keys.isEmpty) (!teamStates.keys.isEmpty) role = true := by
  cases role with
  | organization pk roleName =>
    obtain ⟨row, -, -, hstate⟩ := hdesired
    rw [ofContentTypes, isEmpty_keys_of_lookupAt (Option.join_eq_some_iff.mp hstate)]
    rfl
  | team pk roleName =>
    obtain ⟨row, -, -, hstate⟩ := hdesired
    obtain ⟨desired, hlookup, -⟩ :=
      Option.bind_eq_some_iff.mp (Option.join_eq_some_iff.mp hstate)
    rw [ofContentTypes, isEmpty_keys_of_lookupAt hlookup]
    rfl
  | other pk => exact absurd hdesired id

/-- The user has the roles that are to be had and not those that are not to be had; nothing
else changes. -/
theorem mem_members_reconcile (hconsistent : tables.Consistent) (user : ℕ) (member : ℕ × Role) :
    member ∈ (reconcileUsersOrgTeamMappings user orgStates teamStates tables).members ↔
      (member.1 = user ∧ Desired orgStates teamStates tables member.2 true) ∨
        (member ∈ tables.members ∧
          ¬ (member.1 = user ∧ Desired orgStates teamStates tables member.2 false)) := by
  obtain ⟨other, role⟩ := member
  have hitems : ∀ (other : ℕ) (role : Role) (state : Bool), ((other, role), some state) ∈
      ((if !orgStates.keys.isEmpty then orgItems orgStates tables else []) ++
        (if !teamStates.keys.isEmpty then teamItems teamStates tables else [])).map
          (fun item => ((user, item.1), item.2)) ↔
      other = user ∧ Desired orgStates teamStates tables role state := by
    intro other role state
    rw [← mem_items, List.mem_map]
    constructor
    · rintro ⟨⟨item, wanted⟩, hitem, hsame⟩
      obtain ⟨hmember, rfl⟩ := Prod.mk.inj hsame
      obtain ⟨rfl, rfl⟩ := Prod.mk.inj hmember
      exact ⟨rfl, hitem⟩
    · rintro ⟨rfl, hitem⟩
      exact ⟨(role, some state), hitem, rfl⟩
  rw [reconcileUsersOrgTeamMappings]
  split
  · next hempty =>
    have hnone : ∀ state, ¬ Desired orgStates teamStates tables role state := by
      intro state hdesired
      have hasked := ofContentTypes_of_desired hdesired
      rw [Bool.and_eq_true, Bool.not_eq_true', Bool.not_eq_true'] at hempty
      rw [hempty.1, hempty.2] at hasked
      cases role <;> exact Bool.false_ne_true hasked
    simp [hnone]
  · refine (mem_settleAll ?_ ?_ (other, role)).trans ?_
    · rintro ⟨other, role⟩ htrue hfalse
      exact desired_agree hconsistent ((hitems other role true).mp htrue).2
        ((hitems other role false).mp hfalse).2
    · rintro ⟨other, role⟩ state hitem
      obtain ⟨rfl, hdesired⟩ := (hitems other role state).mp hitem
      rw [List.mem_filter, ofContentTypes_of_desired hdesired]
      simp
    · rw [hitems, hitems]

@[simp]
theorem organizations_reconcile (user : ℕ) :
    (reconcileUsersOrgTeamMappings user orgStates teamStates tables).organizations =
      tables.organizations := by
  rw [reconcileUsersOrgTeamMappings]
  split <;> rfl

@[simp]
theorem teams_reconcile (user : ℕ) :
    (reconcileUsersOrgTeamMappings user orgStates teamStates tables).teams = tables.teams := by
  rw [reconcileUsersOrgTeamMappings]
  split <;> rfl

theorem organizationName_reconcile (user : ℕ) (team : Team) :
    (reconcileUsersOrgTeamMappings user orgStates teamStates tables).organizationName team =
      tables.organizationName team := by
  rw [Tables.organizationName, Tables.organizationName, organizations_reconcile]

theorem follows_of_desired {before after : Prop} {wanted : Option Bool}
    (hafter : after ↔ wanted = some true ∨ (before ∧ ¬ wanted = some false)) :
    Follows wanted before after := by
  cases wanted with
  | none => simpa [Follows] using hafter
  | some state => cases state <;> simpa [Follows] using hafter

theorem follows_organization (hconsistent : tables.Consistent) (user : ℕ) {row : Organization}
    (hrow : row ∈ tables.organizations) (roleName : RoleName) :
    Follows (desiredOrg orgStates row.name roleName)
      ((user, .organization row.pk roleName) ∈ tables.members)
      ((user, .organization row.pk roleName) ∈
        (reconcileUsersOrgTeamMappings user orgStates teamStates tables).members) := by
  have hdesired : ∀ state,
      Desired orgStates teamStates tables (.organization row.pk roleName) state ↔
      desiredOrg orgStates row.name roleName = some state := by
    intro state
    constructor
    · rintro ⟨other, hother, hpk, hstate⟩
      rwa [List.inj_on_of_nodup_map hconsistent.organizations_pk hother hrow hpk] at hstate
    · exact fun hstate => ⟨row, hrow, rfl, hstate⟩
  apply follows_of_desired
  rw [mem_members_reconcile hconsistent, and_iff_right rfl, and_iff_right rfl, hdesired, hdesired]

theorem follows_team (hconsistent : tables.Consistent) (user : ℕ) {row : Team}
    (hrow : row ∈ tables.teams) (roleName : RoleName) :
    Follows (desiredTeam teamStates (tables.organizationName row) (some row.name) roleName)
      ((user, .team row.pk roleName) ∈ tables.members)
      ((user, .team row.pk roleName) ∈
        (reconcileUsersOrgTeamMappings user orgStates teamStates tables).members) := by
  have hdesired : ∀ state, Desired orgStates teamStates tables (.team row.pk roleName) state ↔
      desiredTeam teamStates (tables.organizationName row) (some row.name) roleName =
        some state := by
    intro state
    constructor
    · rintro ⟨other, hother, hpk, hstate⟩
      rwa [List.inj_on_of_nodup_map hconsistent.teams_pk hother hrow hpk] at hstate
    · exact fun hstate => ⟨row, hrow, rfl, hstate⟩
  apply follows_of_desired
  rw [mem_members_reconcile hconsistent, and_iff_right rfl, and_iff_right rfl, hdesired, hdesired]

end Reconcile

/-! ## Creation -/

def freshPk (pks : List ℕ) : ℕ := pks.foldr max 0 + 1

/-- `get_or_create_org_with_default_galaxy_cred`, for a name that does not exist yet. -/
def createOrg (tables : Tables) (name : String) : Tables :=
  if name = "" ∨ name ∈ tables.organizations.map Organization.name then tables
  else
    { tables with
      organizations := tables.organizations ++
        [⟨freshPk (tables.organizations.map Organization.pk), name⟩] }

/-- The organization of a team, unless it is missing or empty. -/
def truthy : Option String → Option String
  | some name => if name = "" then none else some name
  | none => none

abbrev TeamMap := Dict String (Option String)

def createTeam (existingTeamNames : List String) (teamMap : TeamMap) (tables : Tables)
    (teamName : String) : Except String Tables :=
  if teamName ∈ existingTeamNames then .ok tables
  else
    match tables.organizations.find? fun organization =>
      (teamMap.lookup teamName).join = some organization.name with
    | some organization =>
        .ok { tables with
          teams := tables.teams ++
            [⟨freshPk (tables.teams.map Team.pk), teamName, organization.pk⟩] }
    | none => .error "KeyError"

def allTeams (teamMap : TeamMap) : List String :=
  teamMap.keys.filter fun teamName => (truthy (teamMap.lookup teamName).join).isSome

def addOrg (teamMap : TeamMap) (orgs : List String) (teamName : String) : List String :=
  match (teamMap.lookup teamName).join with
  | some orgName => if orgName ∈ orgs then orgs else orgs ++ [orgName]
  | none => orgs

def allOrgs (orgList : List String) (teamMap : TeamMap) : List String :=
  (allTeams teamMap).foldl (addOrg teamMap) orgList.dedup

def createOrgAndTeams (orgList : List String) (teamMap : TeamMap) (canCreate : Bool)
    (tables : Tables) : Except String Tables :=
  if !canCreate then .ok tables
  else
    let tables' := (allOrgs orgList teamMap).foldl createOrg tables
    (allTeams teamMap).foldlM (createTeam (tables'.teams.map Team.name) teamMap) tables'

def TeamIn (tables : Tables) (name orgName : String) : Prop :=
  ∃ team ∈ tables.teams, team.name = name ∧ tables.organizationName team = some orgName

/-- Organizations and teams have been added, and nothing else has changed. -/
structure Grown (tables tables' : Tables) : Prop where
  consistent : tables'.Consistent
  organizations : ∃ added, tables'.organizations = tables.organizations ++ added
  teams : ∃ added, tables'.teams = tables.teams ++ added
  members : tables'.members = tables.members

section Create

variable {tables tables' : Tables} {name orgName : String} {teamMap : TeamMap}
  {existing : List String}

theorem freshPk_notMem (pks : List ℕ) : freshPk pks ∉ pks := by
  have hle : ∀ pk ∈ pks, pk ≤ pks.foldr max 0 := by
    induction pks with
    | nil => exact fun pk hpk => absurd hpk List.not_mem_nil
    | cons first pks ih =>
      intro pk hpk
      rcases List.mem_cons.mp hpk with rfl | hpk
      · exact le_max_left _ _
      · exact Nat.le_trans (ih pk hpk) (le_max_right _ _)
  exact fun hmem => absurd (hle _ hmem) (Nat.not_succ_le_self _)

namespace Grown

theorem refl (hconsistent : tables.Consistent) : Grown tables tables :=
  ⟨hconsistent, ⟨[], (List.append_nil _).symm⟩, ⟨[], (List.append_nil _).symm⟩, rfl⟩

theorem trans {tables'' : Tables} (hfirst : Grown tables tables')
    (hsecond : Grown tables' tables'') : Grown tables tables'' := by
  obtain ⟨organizations, horganizations⟩ := hfirst.organizations
  obtain ⟨organizations', horganizations'⟩ := hsecond.organizations
  obtain ⟨teams, hteams⟩ := hfirst.teams
  obtain ⟨teams', hteams'⟩ := hsecond.teams
  refine ⟨hsecond.consistent, ⟨organizations ++ organizations', ?_⟩, ⟨teams ++ teams', ?_⟩,
    hsecond.members.trans hfirst.members⟩
  · rw [horganizations', horganizations, List.append_assoc]
  · rw [hteams', hteams, List.append_assoc]

theorem mem_organizations (hgrown : Grown tables tables') {organization : Organization}
    (hmem : organization ∈ tables.organizations) : organization ∈ tables'.organizations := by
  obtain ⟨added, hadded⟩ := hgrown.organizations
  rw [hadded]
  exact List.mem_append_left _ hmem

theorem mem_teams (hgrown : Grown tables tables') {team : Team} (hmem : team ∈ tables.teams) :
    team ∈ tables'.teams := by
  obtain ⟨added, hadded⟩ := hgrown.teams
  rw [hadded]
  exact List.mem_append_left _ hmem

end Grown

theorem organizationName_eq (hconsistent : tables.Consistent) {organization : Organization}
    (horganization : organization ∈ tables.organizations) {team : Team}
    (hteam : team.organization = organization.pk) :
    tables.organizationName team = some organization.name := by
  have hfind : tables.organizations.find? (fun row => row.pk = team.organization) =
      some organization := by
    cases hfound : tables.organizations.find? fun row => row.pk = team.organization with
    | none =>
      have hnone := List.find?_eq_none.mp hfound organization horganization
      exact absurd (decide_eq_true hteam.symm) hnone
    | some row =>
      have hrow := List.mem_of_find?_eq_some hfound
      have hfits := List.find?_some hfound
      have hpk : row.pk = team.organization := of_decide_eq_true hfits
      rw [List.inj_on_of_nodup_map hconsistent.organizations_pk hrow horganization
        (hpk.trans hteam)]
  rw [Tables.organizationName, hfind]
  rfl

theorem Grown.organizationName (hconsistent : tables.Consistent) (hgrown : Grown tables tables')
    {team : Team} (hteam : team ∈ tables.teams) :
    tables'.organizationName team = tables.organizationName team := by
  obtain ⟨organization, horganization, hpk⟩ :=
    List.mem_map.mp (hconsistent.teams_organization team hteam)
  rw [organizationName_eq hconsistent horganization hpk.symm,
    organizationName_eq hgrown.consistent (hgrown.mem_organizations horganization) hpk.symm]

theorem createOrg_grown (hconsistent : tables.Consistent) (name : String) :
    Grown tables (createOrg tables name) := by
  rw [createOrg]
  split
  · exact .refl hconsistent
  · next hnew =>
    have hname := (not_or.mp hnew).2
    refine ⟨⟨?_, ?_, hconsistent.teams_pk, hconsistent.teams_name, ?_, ?_,
      hconsistent.members_team⟩, ⟨_, rfl⟩, ⟨[], (List.append_nil _).symm⟩, rfl⟩
    · rw [List.map_append, List.map_singleton]
      refine List.Nodup.append hconsistent.organizations_pk (List.nodup_singleton _) ?_
      rw [List.disjoint_singleton]
      exact freshPk_notMem _
    · rw [List.map_append, List.map_singleton]
      refine List.Nodup.append hconsistent.organizations_name (List.nodup_singleton _) ?_
      rw [List.disjoint_singleton]
      exact hname
    · intro team hteam
      rw [List.map_append]
      exact List.mem_append_left _ (hconsistent.teams_organization team hteam)
    · intro user pk role hmember
      rw [List.map_append]
      exact List.mem_append_left _ (hconsistent.members_organization user pk role hmember)

theorem mem_names_createOrg :
    orgName ∈ (createOrg tables name).organizations.map Organization.name ↔
      orgName ∈ tables.organizations.map Organization.name ∨ (orgName = name ∧ name ≠ "") := by
  rw [createOrg]
  split
  · next hold =>
    refine (or_iff_left_of_imp ?_).symm
    rintro ⟨rfl, hne⟩
    exact hold.resolve_left hne
  · next hnew =>
    rw [List.map_append, List.map_singleton, List.mem_append, List.mem_singleton,
      and_iff_left (not_or.mp hnew).1]

theorem foldl_createOrg (hconsistent : tables.Consistent) (names : List String) :
    Grown tables (names.foldl createOrg tables) ∧
      (names.foldl createOrg tables).teams = tables.teams ∧
      ∀ orgName, orgName ∈ (names.foldl createOrg tables).organizations.map Organization.name ↔
        orgName ∈ tables.organizations.map Organization.name ∨
          (orgName ∈ names ∧ orgName ≠ "") := by
  induction names generalizing tables with
  | nil => exact ⟨.refl hconsistent, rfl, fun orgName => by simp⟩
  | cons name names ih =>
    have hgrown := createOrg_grown hconsistent name
    obtain ⟨hlater, hteams, hnames⟩ := ih hgrown.consistent
    refine ⟨hgrown.trans hlater, hteams.trans ?_, fun orgName => ?_⟩
    · rw [createOrg]
      split <;> rfl
    · rw [List.foldl_cons, hnames, mem_names_createOrg, List.mem_cons, or_assoc, or_and_right]
      apply or_congr_right
      apply or_congr_left
      exact and_congr_right fun hsame => hsame ▸ Iff.rfl

theorem createTeam_spec (hconsistent : tables.Consistent)
    (horg : ∃ orgName ∈ tables.organizations.map Organization.name,
      (teamMap.lookup name).join = some orgName)
    (hnew : name ∉ existing → name ∉ tables.teams.map Team.name) :
    ∃ tables', createTeam existing teamMap tables name = .ok tables' ∧ Grown tables tables' ∧
      tables'.organizations = tables.organizations ∧
      (∀ other, other ∈ tables'.teams.map Team.name →
        other ∈ tables.teams.map Team.name ∨ other = name) ∧
      ∀ other orgName, TeamIn tables' other orgName ↔ TeamIn tables other orgName ∨
        (other = name ∧ name ∉ existing ∧ (teamMap.lookup name).join = some orgName) := by
  by_cases hexisting : name ∈ existing
  · refine ⟨tables, if_pos hexisting, .refl hconsistent, rfl, fun _ hother => .inl hother, ?_⟩
    exact fun other orgName => (or_iff_left fun hcreated => hcreated.2.1 hexisting).symm
  · obtain ⟨mapped, hmapped, hlookup⟩ := horg
    obtain ⟨organization, horganization, rfl⟩ := List.mem_map.mp hmapped
    have hfind : tables.organizations.find? (fun organization =>
        (teamMap.lookup name).join = some organization.name) = some organization := by
      cases hfound : tables.organizations.find? fun organization =>
          (teamMap.lookup name).join = some organization.name with
      | none =>
        have hnone := List.find?_eq_none.mp hfound organization horganization
        exact absurd (decide_eq_true hlookup) hnone
      | some row =>
        have hrow := List.mem_of_find?_eq_some hfound
        have hfits := List.find?_some hfound
        have hname : (teamMap.lookup name).join = some row.name := of_decide_eq_true hfits
        rw [hlookup] at hname
        rw [List.inj_on_of_nodup_map hconsistent.organizations_name hrow horganization
          (Option.some.inj hname).symm]
    let team : Team := ⟨freshPk (tables.teams.map Team.pk), name, organization.pk⟩
    have hcreate : createTeam existing teamMap tables name =
        .ok { tables with teams := tables.teams ++ [team] } := by
      rw [createTeam, if_neg hexisting, hfind]
    have hgrown : Grown tables { tables with teams := tables.teams ++ [team] } := by
      refine ⟨⟨hconsistent.organizations_pk, hconsistent.organizations_name, ?_, ?_, ?_,
        hconsistent.members_organization, ?_⟩, ⟨[], (List.append_nil _).symm⟩, ⟨_, rfl⟩, rfl⟩
      · rw [List.map_append, List.map_singleton]
        refine List.Nodup.append hconsistent.teams_pk (List.nodup_singleton _) ?_
        rw [List.disjoint_singleton]
        exact freshPk_notMem _
      · rw [List.map_append, List.map_singleton]
        refine List.Nodup.append hconsistent.teams_name (List.nodup_singleton _) ?_
        rw [List.disjoint_singleton]
        intro hsame
        obtain ⟨old, hold, hpair⟩ := List.mem_map.mp hsame
        exact hnew hexisting (List.mem_map.mpr ⟨old, hold, (Prod.mk.inj hpair).2⟩)
      · intro old hold
        rcases List.mem_append.mp hold with hold | hold
        · exact hconsistent.teams_organization old hold
        · rw [List.mem_singleton.mp hold]
          exact List.mem_map_of_mem horganization
      · intro user pk role hmember
        rw [List.map_append]
        exact List.mem_append_left _ (hconsistent.members_team user pk role hmember)
    have hname : ∀ row : Team, Tables.organizationName
        { tables with teams := tables.teams ++ [team] } row = tables.organizationName row :=
      fun _ => rfl
    refine ⟨_, hcreate, hgrown, rfl, fun other hother => ?_, fun other orgName => ?_⟩
    · rw [List.map_append, List.mem_append, List.map_singleton, List.mem_singleton] at hother
      exact hother
    · rw [and_iff_right hexisting, hlookup, Option.some_inj]
      constructor
      · rintro ⟨row, hrow, rfl, hrowName⟩
        rcases List.mem_append.mp hrow with hrow | hrow
        · exact .inl ⟨row, hrow, rfl, hrowName⟩
        · rw [List.mem_singleton.mp hrow] at hrowName ⊢
          rw [hname, organizationName_eq hconsistent horganization rfl] at hrowName
          exact .inr ⟨rfl, Option.some.inj hrowName⟩
      · rintro (⟨row, hrow, hrest⟩ | ⟨rfl, rfl⟩)
        · exact ⟨row, List.mem_append_left _ hrow, hrest⟩
        · refine ⟨team, List.mem_append_right _ (List.mem_singleton_self _), rfl, ?_⟩
          rw [hname, organizationName_eq hconsistent horganization rfl]

theorem createTeams_spec (hconsistent : tables.Consistent) {teamNames : List String}
    (hnodup : teamNames.Nodup)
    (horg : ∀ name ∈ teamNames, ∃ orgName ∈ tables.organizations.map Organization.name,
      (teamMap.lookup name).join = some orgName)
    (hnew : ∀ name ∈ teamNames, name ∉ existing → name ∉ tables.teams.map Team.name) :
    ∃ tables', teamNames.foldlM (createTeam existing teamMap) tables = .ok tables' ∧
      Grown tables tables' ∧ tables'.organizations = tables.organizations ∧
      ∀ other orgName, TeamIn tables' other orgName ↔ TeamIn tables other orgName ∨
        (other ∈ teamNames ∧ other ∉ existing ∧ (teamMap.lookup other).join = some orgName) := by
  induction teamNames generalizing tables with
  | nil => exact ⟨tables, rfl, .refl hconsistent, rfl, fun _ _ => by simp⟩
  | cons name teamNames ih =>
    obtain ⟨hfirst, hrest⟩ := List.nodup_cons.mp hnodup
    obtain ⟨middle, hcreate, hgrown, horganizations, hteams, hcreated⟩ :=
      createTeam_spec hconsistent (horg name List.mem_cons_self) (hnew name List.mem_cons_self)
    obtain ⟨tables', hloop, hlater, hsame, hcreatedLater⟩ := ih hgrown.consistent hrest
      (fun other hother => horganizations ▸ horg other (List.mem_cons_of_mem _ hother))
      (fun other hother hexisting hmem => by
        rcases hteams other hmem with hold | rfl
        · exact hnew other (List.mem_cons_of_mem _ hother) hexisting hold
        · exact hfirst hother)
    refine ⟨tables', ?_, hgrown.trans hlater, hsame.trans horganizations, fun other orgName => ?_⟩
    · rw [List.foldlM_cons, hcreate]
      exact hloop
    · rw [hcreatedLater, hcreated, List.mem_cons, or_assoc, or_and_right]
      apply or_congr_right
      apply or_congr_left
      exact and_congr_right fun hother => hother ▸ Iff.rfl

theorem teamIn_reconcile (user : ℕ) {orgStates : OrgStates} {teamStates : TeamStates} :
    TeamIn (reconcileUsersOrgTeamMappings user orgStates teamStates tables) name orgName ↔
      TeamIn tables name orgName := by
  simp only [TeamIn, teams_reconcile, organizationName_reconcile]

theorem truthy_eq_some {value : Option String} :
    truthy value = some orgName ↔ value = some orgName ∧ orgName ≠ "" := by
  cases value with
  | none => simp [truthy]
  | some found =>
    rw [truthy]
    split
    · next hempty =>
      exact iff_of_false nofun fun hboth => hboth.2 (Option.some.inj hboth.1 ▸ hempty)
    · next hsome =>
      exact ⟨fun hsame => ⟨hsame, Option.some.inj hsame ▸ hsome⟩, fun hboth => hboth.1⟩

theorem mem_allTeams :
    name ∈ allTeams teamMap ↔
      ∃ orgName, (teamMap.lookup name).join = some orgName ∧ orgName ≠ "" := by
  rw [allTeams, List.mem_filter, Option.isSome_iff_exists]
  simp only [truthy_eq_some]
  refine and_iff_right_of_imp ?_
  rintro ⟨orgName, hlookup, -⟩
  exact AList.mem_keys.mp
    (AList.lookup_isSome.mp (Option.isSome_of_eq_some (Option.join_eq_some_iff.mp hlookup)))

theorem mem_addOrg {orgs : List String} :
    orgName ∈ addOrg teamMap orgs name ↔
      orgName ∈ orgs ∨ (teamMap.lookup name).join = some orgName := by
  rw [addOrg.eq_def]
  split
  · next found hfound =>
    rw [hfound, Option.some_inj]
    split
    · next hold => exact (or_iff_left_of_imp fun hsame => hsame ▸ hold).symm
    · rw [List.mem_append, List.mem_singleton, eq_comm]
  · next hnone => simp [hnone]

theorem mem_foldl_addOrg (teamNames orgs : List String) :
    orgName ∈ teamNames.foldl (addOrg teamMap) orgs ↔ orgName ∈ orgs ∨
      ∃ name, (teamMap.lookup name).join = some orgName ∧ name ∈ teamNames := by
  induction teamNames generalizing orgs with
  | nil => simp
  | cons name teamNames ih =>
    rw [List.foldl_cons, ih, mem_addOrg]
    simp only [List.mem_cons, and_or_left, exists_or, exists_eq_right, or_assoc]

theorem mem_allOrgs {orgList : List String} :
    orgName ∈ allOrgs orgList teamMap ↔ orgName ∈ orgList ∨
      ∃ name, (teamMap.lookup name).join = some orgName ∧ name ∈ allTeams teamMap := by
  rw [allOrgs, mem_foldl_addOrg, List.mem_dedup]

theorem createOrgAndTeams_spec (hconsistent : tables.Consistent) (orgList : List String)
    (teamMap : TeamMap) (canCreate : Bool) :
    ∃ tables', createOrgAndTeams orgList teamMap canCreate tables = .ok tables' ∧
      Grown tables tables' ∧
      (∀ orgName, orgName ∈ tables'.organizations.map Organization.name ↔
        orgName ∈ tables.organizations.map Organization.name ∨
          (canCreate = true ∧ orgName ∈ allOrgs orgList teamMap ∧ orgName ≠ "")) ∧
      ∀ name orgName, TeamIn tables' name orgName ↔ TeamIn tables name orgName ∨
        (canCreate = true ∧ name ∉ tables.teams.map Team.name ∧
          (teamMap.lookup name).join = some orgName ∧ orgName ≠ "") := by
  cases canCreate with
  | false =>
    exact ⟨tables, rfl, .refl hconsistent, fun _ => by simp, fun _ _ => by simp⟩
  | true =>
    obtain ⟨hgrown, hteams, hnames⟩ := foldl_createOrg hconsistent (allOrgs orgList teamMap)
    have horg : ∀ name ∈ allTeams teamMap, ∃ orgName ∈
        ((allOrgs orgList teamMap).foldl createOrg tables).organizations.map Organization.name,
        (teamMap.lookup name).join = some orgName := by
      intro name hname
      obtain ⟨orgName, hlookup, hne⟩ := mem_allTeams.mp hname
      have hall : orgName ∈ allOrgs orgList teamMap :=
        mem_allOrgs.mpr (.inr ⟨name, hlookup, hname⟩)
      exact ⟨orgName, (hnames orgName).mpr (.inr ⟨hall, hne⟩), hlookup⟩
    obtain ⟨tables', hloop, hlater, hsame, hcreated⟩ := createTeams_spec hgrown.consistent
      (List.Nodup.filter _ teamMap.keys_nodup) horg fun name _ hexisting => hexisting
    have hteamIn : ∀ name orgName,
        TeamIn ((allOrgs orgList teamMap).foldl createOrg tables) name orgName ↔
          TeamIn tables name orgName := by
      intro name orgName
      rw [TeamIn, TeamIn, hteams]
      refine exists_congr fun team => and_congr_right fun hteam => ?_
      rw [hgrown.organizationName hconsistent hteam]
    refine ⟨tables', hloop, hgrown.trans hlater, fun orgName => ?_, fun name orgName => ?_⟩
    · rw [hsame, hnames, and_iff_right rfl]
    · rw [hcreated, hteamIn, hteams, and_iff_right rfl]
      apply or_congr_right
      constructor
      · rintro ⟨hname, hnew, hlookup⟩
        obtain ⟨found, hfound, hne⟩ := mem_allTeams.mp hname
        rw [hlookup, Option.some_inj] at hfound
        exact ⟨hnew, hlookup, hfound ▸ hne⟩
      · rintro ⟨hnew, hlookup, hne⟩
        exact ⟨mem_allTeams.mpr ⟨orgName, hlookup, hne⟩, hnew, hlookup⟩

end Create

/-! ## An organization with one member -/

def opsTables : Tables where
  organizations := [⟨1, "Ops"⟩]
  teams := []
  members := [(7, .organization 1 .memberRole)]

theorem opsTables_consistent : opsTables.Consistent where
  organizations_pk := by decide
  organizations_name := by decide
  teams_pk := by decide
  teams_name := by decide
  teams_organization := by decide
  members_organization := by
    intro user pk role hmember
    obtain ⟨rfl, hrole⟩ := Prod.mk.inj (List.mem_singleton.mp hmember)
    obtain ⟨rfl, rfl⟩ := Role.organization.inj hrole
    exact List.mem_singleton_self 1
  members_team := by
    intro user pk role hmember
    exact Role.noConfusion (Prod.mk.inj (List.mem_singleton.mp hmember)).2

def opsDatabase : Database where
  toTables := opsTables
  consistent := opsTables_consistent

end Forail.Sso
