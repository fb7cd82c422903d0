import AuraWellness.Backend.Repositories

/-!
# The services of the backend

Onboarding, business units, staff, login and chat access as programs over the
repository and chat service calls. `Guid.NewGuid()`, `DateTime.UtcNow` and the
salted hash of a request are its draws; password verification, the default
password and the token format are settings.
-/

namespace AuraWellness.Backend.Services

open AuraWellness.Lib.Calls
open AuraWellness.Chat.Entities AuraWellness.Chat.Handlers
open AuraWellness.Backend.Entities AuraWellness.Backend.Schema AuraWellness.Backend.Repositories

/-- What a request draws. -/
structure Draws where
  /-- The values of `Guid.NewGuid()` and `DateTime.UtcNow` in order. -/
  stamps : ℕ → Stamp
  /-- `passwordHasher.Hash` with the salt of this request. -/
  hash : String → String

/-- The configuration of the backend. -/
structure Settings where
  /-- `configuration["DefaultStaffPassword"]`. -/
  defaultStaffPassword : Option String
  /-- `passwordHasher.Verify`. -/
  verify : String → String → Bool
  /-- `jwtService.GenerateToken`. -/
  generateToken : BuStaffProfile × Person × BusinessUnit → String

/-- The exception of a failed precondition. -/
abbrev invalid {α : Type} (message : String) : BackendProgram α :=
  Program.throw (.invalidOperation message)

/-- The exception of a denied access. -/
abbrev denied {α : Type} (message : String) : BackendProgram α :=
  Program.throw (.unauthorizedAccess message)

/-- `ChatServiceClient.CreateWorkspaceAsync`. -/
def ChatServiceClient.createWorkspace (buId companyId : Uuid) (name : String) :
    BackendProgram Uuid := do
  let reply ← call (.chat (.createWorkspace buId companyId name))
  return reply.id

/-- `ChatServiceClient.AddWorkspaceMemberAsync`. -/
def ChatServiceClient.addWorkspaceMember (workspaceId personId : Uuid) (role : String) :
    BackendProgram Unit := do
  let _ ← call (.chat (.addMember workspaceId personId role))
  return ()

/-- `ChatServiceClient.UpdateMemberAccessAsync`. -/
def ChatServiceClient.updateMemberAccess (workspaceId personId : Uuid) (hasAccess : Bool) :
    BackendProgram Unit := do
  let _ ← call (.chat (.updateMemberAccess workspaceId personId hasAccess))
  return ()

/-- `ChatServiceClient.GetWorkspaceByBuIdAsync`: not found is null. -/
def ChatServiceClient.getWorkspaceByBuId (buId : Uuid) :
    BackendProgram (Option ChatWorkspace) := do
  match ← tryCall (.chat (.getWorkspaceByBuID buId)) with
  | .ok workspace => return some workspace
  | .error (.rpc e) => if e.code = .notFound then return none else Program.throw (.rpc e)
  | .error e => Program.throw e

/-- `ChatServiceClient.GetWorkspaceMembersAsync`. -/
def ChatServiceClient.getWorkspaceMembers (workspaceId : Uuid) :
    BackendProgram (List ChatWorkspaceMember) :=
  call (.chat (.listMembers workspaceId))

/-- `ChatServiceClient.GetMessagesAsync`. -/
def ChatServiceClient.getMessages (conversationId : Uuid) (limit : ℤ) (before : Option Time) :
    BackendProgram (List ChatMessage) :=
  call (.chat (.listMessages conversationId before limit))

/-- `ChatServiceClient.SendMessageAsync`. -/
def ChatServiceClient.sendMessage (workspaceId conversationId personId : Uuid)
    (senderName content : String) : BackendProgram ChatMessage :=
  call (.chat (.sendMessage workspaceId conversationId personId senderName content))

/-- `ChatServiceClient.GetOrCreateDMAsync`. -/
def ChatServiceClient.getOrCreateDM (workspaceId personA personB : Uuid) :
    BackendProgram ChatConversation :=
  call (.chat (.getOrCreateDM workspaceId personA personB))

/-- `ChatServiceClient.GetGroupConversationAsync`. -/
def ChatServiceClient.getGroupConversation (workspaceId : Uuid) :
    BackendProgram ChatConversation :=
  call (.chat (.getGroupConversation workspaceId))

/-- `ChatServiceClient.ListConversationsAsync`. -/
def ChatServiceClient.listConversations (workspaceId personId : Uuid) :
    BackendProgram (List ChatConversation) :=
  call (.chat (.listConversations workspaceId personId))

/-- `ChatServiceClient.GetConversationParticipantsAsync`. -/
def ChatServiceClient.getConversationParticipants (conversationId : Uuid) :
    BackendProgram (List ChatConversationParticipant) :=
  call (.chat (.getConversationParticipants conversationId))

/-- `ChatMemberResponse`. -/
structure ChatMemberResponse where
  personId : Uuid
  firstName : String
  lastName : String
  role : String
  hasAccess : Bool
  deriving DecidableEq, Repr

/-- `ChatWorkspaceResponse`. -/
structure ChatWorkspaceResponse where
  workspaceId : Uuid
  buId : Uuid
  buName : String
  members : List ChatMemberResponse
  deriving DecidableEq, Repr

/-- `ChatMessageDto`. -/
structure ChatMessageDto where
  messageId : Uuid
  conversationId : Uuid
  personId : Uuid
  senderName : String
  content : String
  createdAt : Time
  deriving DecidableEq, Repr

/-- `ChatConversationParticipantResponse`. -/
structure ChatConversationParticipantResponse where
  personId : Uuid
  firstName : String
  lastName : String
  deriving DecidableEq, Repr

/-- `ChatConversationResponse`. -/
structure ChatConversationResponse where
  conversationId : Uuid
  type : ConversationType
  workspaceId : Uuid
  participants : List ChatConversationParticipantResponse
  deriving DecidableEq, Repr

/-- The mapping of a message to `ChatMessageDto`. -/
def toMessageDto (m : ChatMessage) : ChatMessageDto :=
  ⟨m.id, m.conversationID, m.personID, m.senderName, m.content, m.createdAt⟩

/-- `personMap[id]`, if the map contains the key. -/
def personMap (persons : List Person) (id : Uuid) : Option Person :=
  persons.find? fun p => p.id = id

/-- The participants whose persons are known. -/
def toParticipantResponses (persons : List Person)
    (participants : List ChatConversationParticipant) :
    List ChatConversationParticipantResponse :=
  participants.filterMap fun p =>
    (personMap persons p.personID).map fun q => ⟨p.personID, q.firstName, q.lastName⟩

/-- `ChatAccessService.GetWorkspaceAsync`. -/
def ChatAccessService.getWorkspace (buId companyId : Uuid) :
    BackendProgram (Option ChatWorkspaceResponse) := do
  match ← call (.businessUnitGetById buId companyId) with
  | none => return none
  | some bu =>
    match ← ChatServiceClient.getWorkspaceByBuId buId with
    | none => return none
    | some workspace =>
      let members ← ChatServiceClient.getWorkspaceMembers workspace.id
      let persons ← call (.personGetByCompany companyId)
      let memberResponses := members.filterMap fun m =>
        (personMap persons m.personID).map fun p =>
          (⟨m.personID, p.firstName, p.lastName, m.role, m.hasAccess⟩ : ChatMemberResponse)
      return some ⟨workspace.id, buId, bu.name, memberResponses⟩

/-- `ChatAccessService.UpdateAccessAsync`. -/
def ChatAccessService.updateAccess (buId personId : Uuid) (hasAccess : Bool) (companyId : Uuid) :
    BackendProgram Unit := do
  match ← call (.businessUnitGetById buId companyId) with
  | none => invalid "Business unit not found."
  | some _ =>
    match ← call (.personGetById personId companyId) with
    | none => invalid "Person not found."
    | some _ =>
      match ← ChatServiceClient.getWorkspaceByBuId buId with
      | none => invalid "Chat workspace not found."
      | some workspace =>
        ChatServiceClient.updateMemberAccess workspace.id personId hasAccess

/-- The loop of `GetConversationsAsync` over the listed conversations. -/
def ChatAccessService.toConversationResponses (persons : List Person) :
    List ChatConversation → BackendProgram (List ChatConversationResponse)
  | [] => return []
  | conv :: convs => do
    let participants ← ChatServiceClient.getConversationParticipants conv.id
    let responses ← ChatAccessService.toConversationResponses persons convs
    return ⟨conv.id, conv.type, conv.workspaceID, toParticipantResponses persons participants⟩ ::
      responses

/-- `ChatAccessService.GetConversationsAsync`; the group conversation is created
on first access. -/
def ChatAccessService.getConversations (buId personId companyId : Uuid) :
    BackendProgram (Option (List ChatConversationResponse)) := do
  match ← ChatServiceClient.getWorkspaceByBuId buId with
  | none => return none
  | some workspace =>
    let _ ← ChatServiceClient.getGroupConversation workspace.id
    let conversations ← ChatServiceClient.listConversations workspace.id personId
    let persons ← call (.personGetByCompany companyId)
    let responses ← ChatAccessService.toConversationResponses persons conversations
    return some responses

/-- `ChatAccessService.GetOrCreateDMAsync`. -/
def ChatAccessService.getOrCreateDM (buId personId targetPersonId companyId : Uuid) :
    BackendProgram (Option ChatConversationResponse) := do
  match ← ChatServiceClient.getWorkspaceByBuId buId with
  | none => return none
  | some workspace =>
    let conv ← ChatServiceClient.getOrCreateDM workspace.id personId targetPersonId
    let participants ← ChatServiceClient.getConversationParticipants conv.id
    let persons ← call (.personGetByCompany companyId)
    return some ⟨conv.id, conv.type, conv.workspaceID, toParticipantResponses persons participants⟩

/-- `members.FirstOrDefault(m => m.PersonId == personId)` has access. -/
def memberHasAccess (members : List ChatWorkspaceMember) (personId : Uuid) : Bool :=
  match members.find? (fun m => m.personID = personId) with
  | none => false
  | some member => member.hasAccess

/-- The message of a denied chat access. -/
def noChatAccess : String := "You do not have chat access for this workspace."

/-- `ChatAccessService.GetConversationMessagesAsync`. -/
def ChatAccessService.getConversationMessages (buId conversationId personId _companyId : Uuid)
    (limit : ℤ) (before : Option Time) : BackendProgram (Option (List ChatMessageDto)) := do
  match ← ChatServiceClient.getWorkspaceByBuId buId with
  | none => return none
  | some workspace =>
    let members ← ChatServiceClient.getWorkspaceMembers workspace.id
    if memberHasAccess members personId then
      let serviceMessages ← ChatServiceClient.getMessages conversationId limit before
      return some (serviceMessages.map toMessageDto)
    else denied noChatAccess

/-- `ChatAccessService.SendConversationMessageAsync`. -/
def ChatAccessService.sendConversationMessage (buId conversationId personId : Uuid)
    (senderName content : String) (_companyId : Uuid) :
    BackendProgram (Option ChatMessageDto) := do
  match ← ChatServiceClient.getWorkspaceByBuId buId with
  | none => return none
  | some workspace =>
    let members ← ChatServiceClient.getWorkspaceMembers workspace.id
    if memberHasAccess members personId then
      let result ←
        ChatServiceClient.sendMessage workspace.id conversationId personId senderName content
      return some (toMessageDto result)
    else denied noChatAccess

/-- `ChatAccessService.GetMessagesAsync`, on the group conversation. -/
def ChatAccessService.getMessages (buId personId companyId : Uuid) (limit : ℤ)
    (before : Option Time) : BackendProgram (Option (List ChatMessageDto)) := do
  match ← ChatServiceClient.getWorkspaceByBuId buId with
  | none => return none
  | some workspace =>
    let groupConv ← ChatServiceClient.getGroupConversation workspace.id
    ChatAccessService.getConversationMessages buId groupConv.id personId companyId limit before

/-- `ChatAccessService.SendMessageAsync`, to the group conversation. -/
def ChatAccessService.sendMessage (buId personId : Uuid) (senderName content : String)
    (companyId : Uuid) : BackendProgram (Option ChatMessageDto) := do
  match ← ChatServiceClient.getWorkspaceByBuId buId with
  | none => return none
  | some workspace =>
    let groupConv ← ChatServiceClient.getGroupConversation workspace.id
    ChatAccessService.sendConversationMessage buId groupConv.id personId senderName content
      companyId

/-- `OnboardRequest`. -/
structure OnboardRequest where
  companyName : String
  address : Option String
  contactNumber : Option String
  ownerFirstName : String
  ownerLastName : Option String
  ownerEmail : String
  ownerPassword : String
  deriving DecidableEq, Repr

/-- `OnboardResponse`. -/
structure OnboardResponse where
  companyId : Uuid
  defaultBuId : Uuid
  ownerPersonId : Uuid
  deriving DecidableEq, Repr

/-- `OnboardingService.OnboardAsync`. -/
def OnboardingService.onboard (draws : Draws) (request : OnboardRequest) :
    BackendProgram OnboardResponse := do
  let company := Company.create (draws.stamps 0) request.companyName (request.address.getD "")
    (request.contactNumber.getD "")
  call (.addInTransaction [] (.company company))
  let defaultBu := BusinessUnit.create (draws.stamps 1) company.id (request.companyName ++ " HQ")
  call (.addInTransaction [.company company] (.businessUnit defaultBu))
  let person := Person.create (draws.stamps 2) company.id request.ownerFirstName
    (request.ownerLastName.getD "")
  call (.addInTransaction [.company company, .businessUnit defaultBu] (.person person))
  let profile := BuStaffProfile.create (draws.stamps 3) person.id defaultBu.id request.ownerEmail
    (draws.hash request.ownerPassword) StaffRole.owner
  call (.addInTransaction [.company company, .businessUnit defaultBu, .person person]
    (.profile profile))
  let workspaceId ← ChatServiceClient.createWorkspace defaultBu.id company.id defaultBu.name
  ChatServiceClient.addWorkspaceMember workspaceId person.id "Admin"
  call (.commit [.company company, .businessUnit defaultBu, .person person, .profile profile])
  return ⟨company.id, defaultBu.id, person.id⟩

/-- `BusinessUnitService.GetAllAsync`. -/
def BusinessUnitService.getAll (companyId : Uuid) : BackendProgram (List BusinessUnit) :=
  call (.businessUnitGetByCompany companyId)

/-- `BusinessUnitService.CreateAsync`. -/
def BusinessUnitService.create (draws : Draws) (companyId ownerPersonId : Uuid) (name : String) :
    BackendProgram BusinessUnit := do
  let bu := BusinessUnit.create (draws.stamps 0) companyId name
  call (.addInTransaction [] (.businessUnit bu))
  let workspaceId ← ChatServiceClient.createWorkspace bu.id companyId bu.name
  ChatServiceClient.addWorkspaceMember workspaceId ownerPersonId "Admin"
  call (.commit [.businessUnit bu])
  return bu

/-- `StaffResponse`. -/
structure StaffResponse where
  personId : Uuid
  profileId : Uuid
  buId : Uuid
  buName : String
  firstName : String
  lastName : String
  email : String
  role : String
  createdAt : Time
  deriving DecidableEq, Repr

/-- The response that describes a profile. -/
def toStaffResponse (profile : BuStaffProfile) (person : Person) (bu : BusinessUnit) :
    StaffResponse :=
  ⟨person.id, profile.id, bu.id, bu.name, person.firstName, person.lastName, profile.email,
    profile.role.text, profile.createdAt⟩

/-- `StaffService.DefaultPassword`. -/
def Settings.defaultPassword (settings : Settings) : String :=
  settings.defaultStaffPassword.getD "P@ssw0rd"

/-- The role that a request may assign. -/
def assignableRole (role : String) : Option StaffRole :=
  match tryParseRole role with
  | none => none
  | some parsedRole => if parsedRole = StaffRole.owner then none else some parsedRole

/-- The message of a role that may not be assigned. -/
def invalidRole : String := "Invalid role. Allowed: Admin, Staff."

/-- `StaffService.GetAllAsync`. -/
def StaffService.getAll (companyId : Uuid) : BackendProgram (List StaffResponse) := do
  let profiles ← call (.profileGetByCompany companyId)
  return profiles.map fun row => toStaffResponse row.1 row.2.1 row.2.2

/-- `StaffService.GetPersonsAsync`. -/
def StaffService.getPersons (companyId : Uuid) : BackendProgram (List Person) :=
  call (.personGetByCompany companyId)

/-- The end of `CreateAsync` and `EnrollExistingAsync`: insert the profile and
add the person to the chat workspace, if there is one. -/
def StaffService.addProfile (person : Person) (bu : BusinessUnit) (profile : BuStaffProfile) :
    BackendProgram StaffResponse := do
  call (.add (.profile profile))
  match ← ChatServiceClient.getWorkspaceByBuId bu.id with
  | none => return toStaffResponse profile person bu
  | some workspace =>
    ChatServiceClient.addWorkspaceMember workspace.id person.id "Member"
    return toStaffResponse profile person bu

/-- `CreateStaffRequest`. -/
structure CreateStaffRequest where
  firstName : String
  lastName : String
  buId : Uuid
  email : String
  role : String
  deriving DecidableEq, Repr

/-- `StaffService.CreateAsync`. -/
def StaffService.create (settings : Settings) (draws : Draws) (companyId : Uuid)
    (request : CreateStaffRequest) : BackendProgram StaffResponse := do
  match ← call (.businessUnitGetById request.buId companyId) with
  | none => invalid "Business unit not found."
  | some bu =>
    match assignableRole request.role with
    | none => invalid invalidRole
    | some parsedRole =>
      let person := Person.create (draws.stamps 0) companyId request.firstName request.lastName
      call (.add (.person person))
      StaffService.addProfile person bu (BuStaffProfile.create (draws.stamps 1) person.id bu.id
        request.email (draws.hash settings.defaultPassword) parsedRole)

/-- `EnrollExistingStaffRequest`. -/
structure EnrollExistingStaffRequest where
  personId : Uuid
  buId : Uuid
  email : String
  role : String
  deriving DecidableEq, Repr

/-- `StaffService.EnrollExistingAsync`. -/
def StaffService.enrollExisting (settings : Settings) (draws : Draws) (companyId : Uuid)
    (request : EnrollExistingStaffRequest) : BackendProgram StaffResponse := do
  match ← call (.businessUnitGetById request.buId companyId) with
  | none => invalid "Business unit not found."
  | some bu =>
    match ← call (.personGetById request.personId companyId) with
    | none => invalid "Person not found or does not belong to this company."
    | some person =>
      match ← call (.profileGetByPersonAndBu person.id bu.id) with
      | some _ => invalid "This person already has a profile in the selected Business Unit."
      | none =>
        match assignableRole request.role with
        | none => invalid invalidRole
        | some parsedRole =>
          StaffService.addProfile person bu (BuStaffProfile.create (draws.stamps 0) person.id bu.id
            request.email (draws.hash settings.defaultPassword) parsedRole)

/-- `StaffService.UpdateRoleAsync`. Saving writes nothing when the role of the
loaded profile did not change. -/
def StaffService.updateRole (personId buId companyId : Uuid) (role : String) :
    BackendProgram Unit := do
  match ← call (.profileGetByPersonAndBu personId buId) with
  | none => invalid "Staff profile not found."
  | some (profile, person) =>
    if person.companyId ≠ companyId then denied "Access denied."
    else
      match assignableRole role with
      | none => invalid invalidRole
      | some parsedRole =>
        if parsedRole = profile.role then return ()
        else call (.profileSaveRole profile.id parsedRole)

/-- `BuChoiceResponse`. -/
structure BuChoiceResponse where
  buId : Uuid
  buName : String
  deriving DecidableEq, Repr

/-- `LoginResponse`. -/
structure LoginResponse where
  token : String
  personId : Uuid
  buId : Uuid
  companyId : Uuid
  role : String
  firstName : String
  lastName : String
  deriving DecidableEq, Repr

/-- What `LoginAsync` returns. -/
inductive LoginResult
  /-- The business units to choose from. -/
  | choices (units : List BuChoiceResponse)
  /-- A session. -/
  | session (response : LoginResponse)
  deriving DecidableEq, Repr

/-- `AuthService.LoginAsync`. -/
def AuthService.login (settings : Settings) (email password : String) (buId : Option Uuid) :
    BackendProgram LoginResult := do
  let profiles ← call (.profileGetByEmailMultiple email)
  if profiles.length = 0 then denied "Invalid credentials."
  else
    let validProfiles := profiles.filter fun p => settings.verify password p.1.passwordHash
    if validProfiles.length = 0 then denied "Invalid credentials."
    else if 1 < validProfiles.length ∧ buId = none then
      return .choices (validProfiles.map fun p => ⟨p.1.buId, p.2.2.name⟩)
    else
      let profile := match buId with
        | some id => validProfiles.find? fun p => p.1.buId = id
        | none => validProfiles.head?
      match profile with
      | none => denied "Invalid credentials."
      | some (p, person, bu) =>
        return .session ⟨settings.generateToken (p, person, bu), p.personId, p.buId,
          person.companyId, p.role.text, person.firstName, person.lastName⟩

/-- `AuthService.ChangePasswordAsync`. -/
def AuthService.changePassword (settings : Settings) (draws : Draws) (personId buId : Uuid)
    (currentPassword newPassword : String) : BackendProgram Unit := do
  match ← call (.profileGetByPersonAndBu personId buId) with
  | none => denied "Profile not found."
  | some (profile, _) =>
    if settings.verify currentPassword profile.passwordHash = false then
      invalid "Current password is incorrect."
    else if draws.hash newPassword = profile.passwordHash then return ()
    else call (.profileSavePasswordHash profile.id (draws.hash newPassword))

end AuraWellness.Backend.Services
