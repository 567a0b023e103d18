import ProjectVault.Run.System

/-!
Provisioning for a trusted machine caller (`service-provisioning/service.ts`), statement by
statement.

A call is known by a number of its own. Row ids are drawn when a transaction commits, as no other
call sees them before.
-/

namespace ProjectVault.ServiceProvisioning

/-! ### Rows -/

inductive OrgRole where
  | owner | admin | member | viewer
  deriving DecidableEq

inductive MembershipStatus where
  | active | deactivated
  deriving DecidableEq

structure Organization where
  id : ℕ
  serviceProvisioningRequestId : Option String
  centralizemeOrganizationId : Option String
  deriving DecidableEq

structure OrgMembership where
  orgId : ℕ
  userId : ℕ
  role : OrgRole
  status : MembershipStatus
  deriving DecidableEq

/-- A row of `external_identities` with the provider `workos`. -/
structure ExternalIdentity where
  id : ℕ
  orgId : ℕ
  userId : ℕ
  externalSubject : String
  deriving DecidableEq

/-- The key of `idx_external_identities_org_provider_subject`. -/
def ExternalIdentity.key (x : ExternalIdentity) : ℕ × String := (x.orgId, x.externalSubject)

/-! ### Requests and answers -/

structure ProvisionServiceOrganizationRequest where
  requestId : String
  workosUserId : String
  centralizemeOrganizationId : Option String
  deriving DecidableEq

structure ProvisionServiceOrganizationResult where
  organizationId : ℕ
  userId : ℕ
  externalIdentityId : ℕ
  deriving DecidableEq

structure ProvisionServiceOrgMemberRequest where
  workosUserId : String
  role : Option String
  deriving DecidableEq

structure ProvisionServiceOrgMemberResult where
  userId : ℕ
  externalIdentityId : ℕ
  created : Bool
  deriving DecidableEq

structure AppError where
  code : String
  message : String
  status : ℕ
  deriving DecidableEq

def invalidRoleError : AppError :=
  ⟨"invalid_role", "role must be one of 'admin', 'member', 'viewer'", 400⟩

def organizationNotFoundError : AppError :=
  ⟨"organization_not_found", "Organization not found", 404⟩

def organizationNotCentralizemeManagedError : AppError :=
  ⟨"organization_not_centralizeme_managed",
    "Organization is not CentralizeMe-managed and cannot be provisioned via this route", 403⟩

/-- `SERVICE_ORG_MEMBER_ROLES`, with the role of each. -/
def serviceOrgMemberRoles : List (String × OrgRole) :=
  [("admin", .admin), ("member", .member), ("viewer", .viewer)]

def validateRequestedRole : Option String → Except AppError OrgRole
  | none => .ok .member
  | some role =>
    match serviceOrgMemberRoles.find? fun r => r.1 = role with
    | some r => .ok r.2
    | none => .error invalidRoleError

/-- How a call ends. -/
inductive Outcome where
  | organization (requestId : String) (result : ProvisionServiceOrganizationResult)
  | member (result : ProvisionServiceOrgMemberResult)
  | rejected (error : AppError)
  /-- an `Error`, answered with 500 -/
  | threw (message : String)
  deriving DecidableEq

def noMembershipMessage (orgId : ℕ) : String :=
  "findExistingProvisioning: organization " ++ toString orgId ++
    " has a service_provisioning_request_id " ++
    "but no membership row — data integrity violation, this should never happen"

def noIdentityMessage (orgId : ℕ) : String :=
  "findExistingProvisioning: organization " ++ toString orgId ++
    " has a service_provisioning_request_id " ++
    "but no external_identities row — data integrity violation, this should never happen"

def noMatchingIdentityMessage : String :=
  "findExistingOrgMemberAndReactivate: unique violation but no matching external " ++
    "identity found — data integrity violation, this should never happen"

def noMemberRowMessage : String :=
  "findExistingOrgMemberAndReactivate: external identity exists but no orgMemberships " ++
    "row — data integrity violation, this should never happen"

/-! ### State -/

/-- The statement a call is before. -/
inductive Call where
  /-- `findExistingProvisioning`: the organization of the request; the second time behind a lost
  race -/
  | findOrganization (input : ProvisionServiceOrganizationRequest) (lostRace : Bool)
  /-- `findExistingProvisioning`: a membership of the organization -/
  | findOwner (input : ProvisionServiceOrganizationRequest) (orgId : ℕ)
  /-- `findExistingProvisioning`: an identity of the organization -/
  | findIdentity (input : ProvisionServiceOrganizationRequest) (orgId userId : ℕ)
  /-- `insertNewProvisioning`: the update that sets the request id -/
  | insertOrganization (input : ProvisionServiceOrganizationRequest)
  /-- `insertNewProvisioning`: its other inserts and the commit -/
  | organizationInserted (input : ProvisionServiceOrganizationRequest)
  /-- `insertNewOrgMember`: `selectOrgForCentralizemeLink` -/
  | findOrgLink (orgId : ℕ) (input : ProvisionServiceOrgMemberRequest) (role : OrgRole)
  /-- `insertNewOrgMember`: the insert of the identity -/
  | insertMember (orgId : ℕ) (input : ProvisionServiceOrgMemberRequest) (role : OrgRole)
  /-- `insertNewOrgMember`: its audit row and the commit -/
  | memberInserted (orgId : ℕ) (input : ProvisionServiceOrgMemberRequest) (role : OrgRole)
  /-- `findExistingOrgMemberAndReactivate`: the identity -/
  | findMemberIdentity (orgId : ℕ) (input : ProvisionServiceOrgMemberRequest)
  /-- `findExistingOrgMemberAndReactivate`: the membership -/
  | findMembership (orgId : ℕ) (input : ProvisionServiceOrgMemberRequest)
      (identity : ExternalIdentity)
  /-- `findExistingOrgMemberAndReactivate`: the reactivation, if the membership needs one, and the
  commit -/
  | memberFound (orgId : ℕ) (input : ProvisionServiceOrgMemberRequest)
      (identity : ExternalIdentity) (status : MembershipStatus)
  deriving DecidableEq

/-- The organization and the subject of a call of `provisionServiceOrgMember`. -/
def Call.member? : Call → Option (ℕ × String)
  | findOrgLink orgId input _ => some (orgId, input.workosUserId)
  | insertMember orgId input _ => some (orgId, input.workosUserId)
  | memberInserted orgId input _ => some (orgId, input.workosUserId)
  | findMemberIdentity orgId input => some (orgId, input.workosUserId)
  | findMembership orgId input _ => some (orgId, input.workosUserId)
  | memberFound orgId input _ _ => some (orgId, input.workosUserId)
  | _ => none

structure State where
  nextId : ℕ
  organizations : List Organization
  orgMemberships : List OrgMembership
  externalIdentities : List ExternalIdentity
  calls : ℕ → Option Call
  /-- the open transaction with a key of `idx_organizations_service_provisioning_request_id` -/
  requestKeys : String → Option ℕ
  /-- the open transaction with a key of `idx_external_identities_org_provider_subject` -/
  identityKeys : ℕ × String → Option ℕ
  /-- what `insertNewProvisioning` has created, by request id -/
  provisioned : List (String × ProvisionServiceOrganizationResult)
  outcomes : List Outcome

namespace State

variable (s : State)

def setCall (i : ℕ) (c : Call) : State := { s with calls := Function.update s.calls i (some c) }

def endCall (i : ℕ) (outcome : Outcome) : State :=
  { s with calls := Function.update s.calls i none, outcomes := s.outcomes ++ [outcome] }

@[simp]
lemma setCall_calls (i : ℕ) (c : Call) :
    (s.setCall i c).calls = Function.update s.calls i (some c) := rfl

@[simp]
lemma endCall_calls (i : ℕ) (outcome : Outcome) :
    (s.endCall i outcome).calls = Function.update s.calls i none := rfl

end State

/-- What can happen. A `SELECT … LIMIT 1` without an order names the row it returns. -/
inductive Label where
  | provisionServiceOrganization (i : ℕ) (input : ProvisionServiceOrganizationRequest)
  | provisionServiceOrgMember (i orgId : ℕ) (input : ProvisionServiceOrgMemberRequest)
  | findOrganization (i : ℕ)
  | findOwner (i : ℕ) (row : Option OrgMembership)
  | findIdentity (i : ℕ) (row : Option ExternalIdentity)
  | insertOrganization (i : ℕ)
  | commitOrganization (i : ℕ)
  | findOrgLink (i : ℕ)
  | insertMember (i : ℕ)
  | commitMember (i : ℕ)
  | findMemberIdentity (i : ℕ)
  | findMembership (i : ℕ)
  | commitReplay (i : ℕ)
  /-- the database fails a statement of the call -/
  | fail (i : ℕ)
  /-- another organization, with its owner -/
  | register (centralizemeOrganizationId : Option String)
  | deactivate (orgId userId : ℕ)
  | removeUserFromOrgMemberships (orgId userId : ℕ)

/-! ### Steps -/

section Steps

variable (s : State) (i : ℕ)

def startOrganization (input : ProvisionServiceOrganizationRequest) : Option State :=
  match s.calls i with
  | some _ => none
  | none => some (s.setCall i (.findOrganization input false))

def startMember (orgId : ℕ) (input : ProvisionServiceOrgMemberRequest) : Option State :=
  match s.calls i with
  | some _ => none
  | none =>
    match validateRequestedRole input.role with
    | .ok role => some (s.setCall i (.findOrgLink orgId input role))
    | .error error => some (s.endCall i (.rejected error))

def findOrganization : Option State :=
  match s.calls i with
  | some (.findOrganization input lostRace) =>
    match s.organizations.find? fun org =>
        org.serviceProvisioningRequestId = some input.requestId with
    | some org => some (s.setCall i (.findOwner input org.id))
    | none =>
      if lostRace then some (s.endCall i (.threw "unique violation"))
      else some (s.setCall i (.insertOrganization input))
  | _ => none

def findOwner (row : Option OrgMembership) : Option State :=
  match s.calls i with
  | some (.findOwner input orgId) =>
    match row with
    | some membership =>
      if membership ∈ s.orgMemberships ∧ membership.orgId = orgId then
        some (s.setCall i (.findIdentity input orgId membership.userId))
      else none
    | none =>
      if ∀ membership ∈ s.orgMemberships, membership.orgId ≠ orgId then
        some (s.endCall i (.threw (noMembershipMessage orgId)))
      else none
  | _ => none

def findIdentity (row : Option ExternalIdentity) : Option State :=
  match s.calls i with
  | some (.findIdentity input orgId userId) =>
    match row with
    | some identity =>
      if identity ∈ s.externalIdentities ∧ identity.orgId = orgId then
        some (s.endCall i (.organization input.requestId ⟨orgId, userId, identity.id⟩))
      else none
    | none =>
      if ∀ identity ∈ s.externalIdentities, identity.orgId ≠ orgId then
        some (s.endCall i (.threw (noIdentityMessage orgId)))
      else none
  | _ => none

/-- The request id meets the index: a committed row loses the race, an open transaction is waited
for. -/
def insertOrganization : Option State :=
  match s.calls i with
  | some (.insertOrganization input) =>
    if ∃ org ∈ s.organizations, org.serviceProvisioningRequestId = some input.requestId then
      some (s.setCall i (.findOrganization input true))
    else if s.requestKeys input.requestId = none then
      some { s.setCall i (.organizationInserted input) with
        requestKeys := Function.update s.requestKeys input.requestId (some i) }
    else none
  | _ => none

def commitOrganization : Option State :=
  match s.calls i with
  | some (.organizationInserted input) =>
    let result := ⟨s.nextId, s.nextId + 1, s.nextId + 2⟩
    some { s.endCall i (.organization input.requestId result) with
      nextId := s.nextId + 3
      organizations := s.organizations ++
        [⟨s.nextId, some input.requestId, input.centralizemeOrganizationId⟩]
      orgMemberships := s.orgMemberships ++ [⟨s.nextId, s.nextId + 1, .owner, .active⟩]
      externalIdentities := s.externalIdentities ++
        [⟨s.nextId + 2, s.nextId, s.nextId + 1, input.workosUserId⟩]
      requestKeys := Function.update s.requestKeys input.requestId none
      provisioned := s.provisioned ++ [(input.requestId, result)] }
  | _ => none

/-- `selectOrgForCentralizemeLink` and the gate behind it. -/
def findOrgLink : Option State :=
  match s.calls i with
  | some (.findOrgLink orgId input role) =>
    match s.organizations.find? fun org => org.id = orgId with
    | none => some (s.endCall i (.rejected organizationNotFoundError))
    | some org =>
      if org.centralizemeOrganizationId = none then
        some (s.endCall i (.rejected organizationNotCentralizemeManagedError))
      else some (s.setCall i (.insertMember orgId input role))
  | _ => none

/-- The subject meets the index. -/
def insertMember : Option State :=
  match s.calls i with
  | some (.insertMember orgId input role) =>
    if ∃ identity ∈ s.externalIdentities, identity.key = (orgId, input.workosUserId) then
      some (s.setCall i (.findMemberIdentity orgId input))
    else if s.identityKeys (orgId, input.workosUserId) = none then
      some { s.setCall i (.memberInserted orgId input role) with
        identityKeys := Function.update s.identityKeys (orgId, input.workosUserId) (some i) }
    else none
  | _ => none

def commitMember : Option State :=
  match s.calls i with
  | some (.memberInserted orgId input role) =>
    some { s.endCall i (.member ⟨s.nextId, s.nextId + 1, true⟩) with
      nextId := s.nextId + 2
      orgMemberships := s.orgMemberships ++ [⟨orgId, s.nextId, role, .active⟩]
      externalIdentities := s.externalIdentities ++
        [⟨s.nextId + 1, orgId, s.nextId, input.workosUserId⟩]
      identityKeys := Function.update s.identityKeys (orgId, input.workosUserId) none }
  | _ => none

def findMemberIdentity : Option State :=
  match s.calls i with
  | some (.findMemberIdentity orgId input) =>
    match s.externalIdentities.find? fun identity =>
        identity.key = (orgId, input.workosUserId) with
    | some identity => some (s.setCall i (.findMembership orgId input identity))
    | none => some (s.endCall i (.threw noMatchingIdentityMessage))
  | _ => none

/-- Whether a membership is the one of a user in an organization. -/
def OrgMembership.isOf (orgId userId : ℕ) (m : OrgMembership) : Bool :=
  m.orgId = orgId && m.userId = userId

def findMembership : Option State :=
  match s.calls i with
  | some (.findMembership orgId input identity) =>
    match s.orgMemberships.find? (OrgMembership.isOf orgId identity.userId) with
    | some membership => some (s.setCall i (.memberFound orgId input identity membership.status))
    | none => some (s.endCall i (.threw noMemberRowMessage))
  | _ => none

/-- `update(orgMemberships).set({ status })` of one member. -/
def setStatus (orgId userId : ℕ) (status : MembershipStatus) : State :=
  { s with
    orgMemberships := s.orgMemberships.map fun m =>
      if m.isOf orgId userId then { m with status } else m }

/-- The reactivation locks the row, so it is one with the commit. -/
def commitReplay : Option State :=
  match s.calls i with
  | some (.memberFound orgId _ identity status) =>
    let s' := if status = .deactivated then setStatus s orgId identity.userId .active else s
    some (s'.endCall i (.member ⟨identity.userId, identity.id, false⟩))
  | _ => none

/-- The transaction is rolled back and the call throws. -/
def fail : Option State :=
  match s.calls i with
  | none => none
  | some (.organizationInserted input) =>
    some { s.endCall i (.threw "database error") with
      requestKeys := Function.update s.requestKeys input.requestId none }
  | some (.memberInserted orgId input _) =>
    some { s.endCall i (.threw "database error") with
      identityKeys := Function.update s.identityKeys (orgId, input.workosUserId) none }
  | some _ => some (s.endCall i (.threw "database error"))

def register (centralizemeOrganizationId : Option String) : State :=
  { s with
    nextId := s.nextId + 2
    organizations := s.organizations ++ [⟨s.nextId, none, centralizemeOrganizationId⟩]
    orgMemberships := s.orgMemberships ++ [⟨s.nextId, s.nextId + 1, .owner, .active⟩] }

def removeUserFromOrgMemberships (orgId userId : ℕ) : State :=
  { s with orgMemberships := s.orgMemberships.filter fun m => !m.isOf orgId userId }

def step : Label → Option State
  | .provisionServiceOrganization i input => startOrganization s i input
  | .provisionServiceOrgMember i orgId input => startMember s i orgId input
  | .findOrganization i => findOrganization s i
  | .findOwner i row => findOwner s i row
  | .findIdentity i row => findIdentity s i row
  | .insertOrganization i => insertOrganization s i
  | .commitOrganization i => commitOrganization s i
  | .findOrgLink i => findOrgLink s i
  | .insertMember i => insertMember s i
  | .commitMember i => commitMember s i
  | .findMemberIdentity i => findMemberIdentity s i
  | .findMembership i => findMembership s i
  | .commitReplay i => commitReplay s i
  | .fail i => fail s i
  | .register centralizemeOrganizationId => some (register s centralizemeOrganizationId)
  | .deactivate orgId userId => some (setStatus s orgId userId .deactivated)
  | .removeUserFromOrgMemberships orgId userId =>
    some (removeUserFromOrgMemberships s orgId userId)

end Steps

/-- Provisioning, from an empty database on. -/
def provisioningSystem : Run.System State Label where
  init := ⟨0, [], [], [], fun _ => none, fun _ => none, fun _ => none, [], []⟩
  step := step

end ProjectVault.ServiceProvisioning
