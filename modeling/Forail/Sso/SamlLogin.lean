import Forail.Sso.Common

/-!
# Roles after a SAML login

Organizations and teams are mapped in two ways, by attributes of the response and by
expressions for the name and the address of the user.  Four builders write what is desired
into the same two dictionaries.
-/

namespace Forail.Sso

open Forail.DesiredStates Forail.Grouping

/-! ## The settings -/

/-- An item of an expression: a text, a compiled pattern as the texts that it matches, or
something else, which is skipped. -/
inductive ExpressionItem where
  | text (value : String)
  | pattern (matchesText : String → Bool)
  | skipped

/-- An expression can be a flag, one text or pattern, or a list of items. -/
inductive Expression where
  | flag (value : Bool)
  | one (item : ExpressionItem)
  | list (items : List ExpressionItem)

structure SamlUser where
  pk : ℕ
  username : String
  email : String

structure OrgMapping where
  organizationAlias : Option String
  expressions : RoleName → Option Expression
  removes : RoleName → Option Bool
  remove : Option Bool

/-- An entry of `TEAM_MAP`, in which the organization can be missing or null. -/
structure TeamMapping where
  organization : Option (Option String)
  users : Option Expression
  remove : Option Bool

/-- `SOCIAL_AUTH_SAML_ORGANIZATION_ATTR`, with the name of an attribute and a flag for each
role. -/
structure OrgAttr where
  attrs : RoleName → Option String
  removes : RoleName → Option Bool

structure TeamNameMap where
  team : Option String
  teamAlias : Option String
  organization : Option String

/-- `SOCIAL_AUTH_SAML_TEAM_ATTR`; a map that is missing is empty, but it can also be null. -/
structure TeamAttr where
  samlAttr : Option String
  remove : Option Bool
  teamOrgMap : Option (List TeamNameMap)

/-- The settings of the backend, in which a map can be null, and those of the adapter. -/
structure SamlSettings where
  organizationMap : Option (Dict String OrgMapping)
  teamMap : Option (Dict String TeamMapping)
  organizationAttr : OrgAttr
  teamAttr : TeamAttr
  autoCreateObjects : Bool

abbrev Attributes := Dict String (List String)

def values (attributes : Attributes) (name : String) : List String :=
  (attributes.lookup name).getD []

/-! ## Expressions -/

def ExpressionItem.matchesUser (user : SamlUser) : ExpressionItem → Bool
  | text value => user.username = value ∨ user.email = value
  | pattern matchesText => matchesText user.username || matchesText user.email
  | skipped => false

def Expression.matchesUser (user : SamlUser) : Expression → Bool
  | flag value => value
  | one (.text "") => false
  | one item => item.matchesUser user
  | list items => items.any fun item => item.matchesUser user

def updateM2mFromExpression (user : SamlUser) (expr : Option Expression) (remove : Bool) :
    Option Bool :=
  if expr.any fun expr => expr.matchesUser user then some true
  else if remove then some false else none

/-! ## Organizations -/

/-- The desired states of organizations, and the organizations that may be created. -/
structure OrgLoop where
  desired : OrgStates
  toCreate : List String

def addName (names : List String) (name : String) : List String :=
  if name ∈ names then names else names ++ [name]

/-- The flag of a role for all organizations is on unless it was turned off. -/
def OrgAttr.remove (attr : OrgAttr) (role : RoleName) : Bool :=
  (attr.removes role).getD true

/-- The alias of an organization that is mapped by this name, unless it is null. -/
def aliasOfAttr (settings : SamlSettings) (orgName : String) : String :=
  ((settings.organizationMap.bind fun orgMap => orgMap.lookup orgName).bind
    OrgMapping.organizationAlias).getD orgName

def removedOrgs (attr : OrgAttr) (tables : Tables) : List (String × RoleName) :=
  [RoleName.memberRole, .adminRole, .auditorRole].flatMap fun role =>
    if attr.remove role then
      tables.organizations.map fun organization => (organization.name, role)
    else []

def grantedOrgs (settings : SamlSettings) (attributes : Attributes) : List (String × RoleName) :=
  [RoleName.memberRole, .adminRole, .auditorRole].flatMap fun role =>
    match settings.organizationAttr.attrs role with
    | none => []
    | some attr => (values attributes attr).map fun orgName => (aliasOfAttr settings orgName, role)

def updateUserOrgsBySamlAttr (settings : SamlSettings) (attributes : Attributes)
    (tables : Tables) (loop : OrgLoop) : OrgLoop where
  desired := assignAllAt Prod.fst Prod.snd (fun _ => some (some true))
    (grantedOrgs settings attributes)
    (assignAllAt Prod.fst Prod.snd (fun _ => some (some false))
      (removedOrgs settings.organizationAttr tables) loop.desired)
  toCreate := ((grantedOrgs settings attributes).map Prod.fst).foldl addName loop.toCreate

/-- The alias of a mapped organization, unless it is null or empty. -/
def aliasOfMap (entry : Sigma fun _ : String => OrgMapping) : String :=
  (truthy entry.2.organizationAlias).getD entry.1

def OrgMapping.removeMembers (orgOpts : OrgMapping) (role : RoleName) : Bool :=
  (orgOpts.removes role).getD (orgOpts.remove.getD true)

def OrgMapping.hasRole (user : SamlUser) (orgOpts : OrgMapping) (role : RoleName) : Option Bool :=
  updateM2mFromExpression user (orgOpts.expressions role) (orgOpts.removeMembers role)

/-- What is desired already, or else what the mapping says about the role. -/
def combineRole (user : SamlUser) (entry : Sigma fun _ : String => OrgMapping)
    (desired : OrgStates) (role : RoleName) : OrgStates :=
  assignAt desired (aliasOfMap entry) role
    (if (lookupAt desired (aliasOfMap entry) role).getD (some false) = some true then some true
      else entry.2.hasRole user role)

def updateUserOrg (user : SamlUser) (loop : OrgLoop)
    (entry : Sigma fun _ : String => OrgMapping) : OrgLoop where
  desired := [RoleName.adminRole, .memberRole, .auditorRole].foldl (combineRole user entry)
    loop.desired
  toCreate := addName loop.toCreate (aliasOfMap entry)

def orgEntries (settings : SamlSettings) : List (Sigma fun _ : String => OrgMapping) :=
  (settings.organizationMap.getD ∅).entries

def updateUserOrgs (settings : SamlSettings) (user : SamlUser) (loop : OrgLoop) : OrgLoop :=
  (orgEntries settings).foldl (updateUserOrg user) loop

/-! ## Teams -/

structure TeamLoop where
  desired : TeamStates
  toCreate : TeamMap

def memberState (value : Bool) : RoleStates :=
  AList.singleton .memberRole (some value)

def TeamNameMap.isMember (samlTeamNames : List String) (entry : TeamNameMap) : Bool :=
  entry.team.any fun team => team ∈ samlTeamNames

/-- The team that an entry is about; the alias is only used for those of the user. -/
def TeamNameMap.teamName (samlTeamNames : List String) (entry : TeamNameMap) : Option String :=
  if entry.isMember samlTeamNames then (truthy entry.teamAlias).or entry.team else entry.team

/-- An entry for a team of the user without an organization is an error that is logged. -/
def TeamNameMap.state (samlTeamNames : List String) (entry : TeamNameMap) : Option Bool :=
  if entry.isMember samlTeamNames then (truthy entry.organization).map fun _ => true
  else some false

def allTeamNames (tables : Tables) : List (Option String × String) :=
  tables.teams.map fun team => (tables.organizationName team, team.name)

def updateTeamOrgMap (samlTeamNames : List String) (removed : List (Option String × String))
    (teamOrgMap : List TeamNameMap) (loop : TeamLoop) : TeamLoop where
  desired := assignAllAt TeamNameMap.organization (TeamNameMap.teamName samlTeamNames)
    (fun entry => (entry.state samlTeamNames).map memberState) teamOrgMap
    (assignAllAt Prod.fst (fun team => some team.2) (fun _ => some (memberState false)) removed
      loop.desired)
  toCreate := assignAll (fun entry => (entry.teamName samlTeamNames).getD "")
    (fun entry => if entry.isMember samlTeamNames then (truthy entry.organization).map some
      else none) teamOrgMap loop.toCreate

def updateUserTeamsBySamlAttr (attr : TeamAttr) (attributes : Attributes) (tables : Tables)
    (loop : TeamLoop) : Except String TeamLoop :=
  match attr.samlAttr with
  | none => .ok loop
  | some samlAttr =>
      match attr.teamOrgMap with
      | none => .error "TypeError"
      | some teamOrgMap =>
          .ok (updateTeamOrgMap (values attributes samlAttr)
            (if attr.remove.getD true then allTeamNames tables else []) teamOrgMap loop)

def TeamMapping.addOrRemove (user : SamlUser) (teamOpts : TeamMapping) : Option Bool :=
  if teamOpts.organization.isNone then none
  else updateM2mFromExpression user teamOpts.users (teamOpts.remove.getD true)

def updateUserTeams (settings : SamlSettings) (user : SamlUser) (loop : TeamLoop) : TeamLoop where
  desired := assignAllAt (fun entry : Sigma fun _ : String => TeamMapping =>
      entry.2.organization.join) (fun entry => some entry.1)
    (fun entry => (entry.2.addOrRemove user).map memberState)
    (settings.teamMap.getD ∅).entries loop.desired
  toCreate := assignAll (fun entry : Sigma fun _ : String => TeamMapping => entry.1)
    (fun entry => entry.2.organization) (settings.teamMap.getD ∅).entries loop.toCreate

/-! ## The login -/

def desiredOrgs (settings : SamlSettings) (attributes : Attributes) (user : SamlUser)
    (tables : Tables) : OrgLoop :=
  updateUserOrgs settings user
    (updateUserOrgsBySamlAttr settings attributes tables { desired := ∅, toCreate := [] })

def populateUser (settings : SamlSettings) (attributes : Attributes) (user : Option SamlUser)
    (tables : Tables) : Except String Tables :=
  match user with
  | none => .ok tables
  | some user => do
      let orgs := desiredOrgs settings attributes user tables
      let teamsByAttr ← updateUserTeamsBySamlAttr settings.teamAttr attributes tables
        { desired := ∅, toCreate := ∅ }
      let teams := updateUserTeams settings user teamsByAttr
      let tables ← createOrgAndTeams orgs.toCreate teams.toCreate settings.autoCreateObjects tables
      return reconcileUsersOrgTeamMappings user.pk orgs.desired teams.desired tables

end Forail.Sso
