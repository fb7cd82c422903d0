import AuraWellness.Backend.Services
import AuraWellness.Lib.Transition

/-!
# The stores of the frontend

A browser tab keeps its state in four stores that live as long as the tab. The
actions of the stores set their fields at once or send a request and set them
when the answer has arrived. `logout` is an action of the store of the user.
-/

namespace AuraWellness.Frontend.Stores

open AuraWellness.Lib.Transition
open AuraWellness.Chat.Entities AuraWellness.Backend.Entities AuraWellness.Backend.Services

/-- `AuthUser`. -/
structure AuthUser where
  personId : Uuid
  buId : Uuid
  companyId : Uuid
  role : String
  firstName : String
  lastName : String
  deriving DecidableEq, Repr

/-- `PersonOption`. -/
structure PersonOption where
  personId : Uuid
  firstName : String
  lastName : String
  deriving DecidableEq, Repr

/-- `useAuthStore`. -/
structure AuthStore where
  user : Option AuthUser
  isOwner : Bool
  isOwnerOrAdmin : Bool
  deriving DecidableEq, Repr

/-- `useChatStore`. A record is a map, and a missing key is undefined. -/
structure ChatStore where
  workspaces : Uuid → Option ChatWorkspaceResponse
  /-- Conversations by business unit. -/
  conversations : Uuid → Option (List ChatConversationResponse)
  activeConversationId : Option Uuid
  /-- Messages by conversation, and by business unit for `fetchMessages`. -/
  messages : Uuid → Option (List ChatMessageDto)
  isLoading : Bool
  error : Option String

/-- `useStaffStore`. -/
structure StaffStore where
  staff : List StaffResponse
  businessUnits : List BusinessUnit
  persons : List PersonOption
  isLoading : Bool
  error : Option String
  deriving DecidableEq, Repr

/-- `useBusinessUnitStore`. -/
structure BusinessUnitStore where
  businessUnits : List BusinessUnit
  isLoading : Bool
  error : Option String
  deriving DecidableEq, Repr

/-- A request that is in flight, with what its action still needs. -/
inductive Request
  | logout
  | getWorkspace (buId : Uuid)
  | updateAccess (buId personId : Uuid) (hasAccess : Bool)
  | getConversations (buId : Uuid)
  | createDM (buId targetPersonId : Uuid)
  | getConversationMessages (buId conversationId : Uuid)
  | getMessages (buId : Uuid)
  /-- Staff and business units of `Promise.all`. -/
  | getStaff
  | getPersons
  | createStaff (data : CreateStaffRequest)
  | enrollExisting (data : EnrollExistingStaffRequest)
  | updateRole (personId buId : Uuid) (role : String)
  | getBusinessUnits
  | createBusinessUnit (name : String)
  deriving DecidableEq, Repr

/-- The stores of a tab and its requests in flight. -/
structure Tab where
  auth : AuthStore
  chat : ChatStore
  staff : StaffStore
  businessUnits : BusinessUnitStore
  /-- The requests in flight. -/
  requests : List Request

/-- A tab that was just opened. -/
def Tab.initial : Tab where
  auth := ⟨none, false, false⟩
  chat := ⟨fun _ => none, fun _ => none, none, fun _ => none, false, none⟩
  staff := ⟨[], [], [], false, none⟩
  businessUnits := ⟨[], false, none⟩
  requests := []

/-- `setUser`. -/
def AuthStore.setUser (user : Option AuthUser) : AuthStore where
  user := user
  isOwner := user.any fun u => u.role = "Owner"
  isOwnerOrAdmin := user.any fun u => u.role = "Owner" ∨ u.role = "Admin"

/-- What `logout` sets. -/
def AuthStore.loggedOut : AuthStore := ⟨none, false, false⟩

/-- What `updateAccess` sets: nothing for a workspace that is not loaded. -/
def ChatStore.accessUpdated (s : ChatStore) (buId personId : Uuid) (hasAccess : Bool) : ChatStore :=
  match s.workspaces buId with
  | none => s
  | some ws =>
    let members := ws.members.map fun m => if m.personId = personId then { m with hasAccess } else m
    { s with workspaces := Function.update s.workspaces buId (some { ws with members }) }

/-- The conversation that `fetchConversations` selects: the group, or the first one. -/
def autoSelected (convs : List ChatConversationResponse) : Option Uuid :=
  ((convs.find? fun c => c.type = .group).or convs.head?).map
    ChatConversationResponse.conversationId

/-- What `fetchConversations` sets. -/
def ChatStore.conversationsFetched (s : ChatStore) (buId : Uuid)
    (convs : List ChatConversationResponse) : ChatStore :=
  { s with
    conversations := Function.update s.conversations buId (some convs)
    activeConversationId := s.activeConversationId.or (autoSelected convs) }

/-- What `createDM` sets. -/
def ChatStore.dmCreated (s : ChatStore) (buId : Uuid) (conv : ChatConversationResponse) : ChatStore :=
  let existing := (s.conversations buId).getD []
  if existing.any fun c => c.conversationId = conv.conversationId then
    { s with activeConversationId := some conv.conversationId }
  else { s with
    conversations := Function.update s.conversations buId (some (existing ++ [conv]))
    activeConversationId := some conv.conversationId }

/-- What `fetchConversationMessages` and `fetchMessages` set. -/
def ChatStore.messagesFetched (s : ChatStore) (key : Uuid) (msgs : List ChatMessageDto) : ChatStore :=
  { s with messages := Function.update s.messages key (some msgs) }

/-- `appendMessage`. -/
def ChatStore.appendMessage (s : ChatStore) (conversationId : Uuid) (msg : ChatMessageDto) :
    ChatStore :=
  let existing := (s.messages conversationId).getD []
  if existing.any fun m => m.messageId = msg.messageId then s
  else { s with messages := Function.update s.messages conversationId (some (existing ++ [msg])) }

/-- What `updateRole` sets. -/
def StaffStore.roleUpdated (s : StaffStore) (personId : Uuid) (role : String) : StaffStore :=
  { s with staff := s.staff.map fun m => if m.personId = personId then { m with role } else m }

/-- The member that `updateRole` finds for a person. -/
def StaffStore.member (s : StaffStore) (personId : Uuid) : Option StaffResponse :=
  s.staff.find? fun m => m.personId = personId

/-- The request of `updateRole`, which throws without a member. -/
def StaffStore.updateRole (s : StaffStore) (personId : Uuid) (role : String) : Option Request :=
  (s.member personId).map fun member => .updateRole personId member.buId role

/-- The actions of the stores. -/
inductive Action
  | setUser (user : Option AuthUser)
  | logout
  | fetchWorkspace (buId : Uuid)
  | updateAccess (buId personId : Uuid) (hasAccess : Bool)
  | fetchConversations (buId : Uuid)
  | setActiveConversation (conversationId : Uuid)
  | createDM (buId targetPersonId : Uuid)
  | fetchConversationMessages (buId conversationId : Uuid)
  | appendMessage (conversationId : Uuid) (msg : ChatMessageDto)
  | fetchMessages (buId : Uuid)
  | hydrateStaff (staff : List StaffResponse) (bus : List BusinessUnit)
  | clearStaffError
  | fetchStaff
  | fetchPersons
  | createStaff (data : CreateStaffRequest)
  | enrollExisting (data : EnrollExistingStaffRequest)
  | updateRole (personId : Uuid) (role : String)
  | hydrateBusinessUnits (bus : List BusinessUnit)
  | clearBusinessUnitError
  | fetchBusinessUnits
  | createBusinessUnit (name : String)
  deriving DecidableEq, Repr

/-- The answer to a request. -/
inductive Reply
  /-- The request has failed. -/
  | failed
  /-- It has succeeded without a result that is used. -/
  | done
  | workspace (ws : ChatWorkspaceResponse)
  | conversations (convs : List ChatConversationResponse)
  | conversation (conv : ChatConversationResponse)
  | messages (msgs : List ChatMessageDto)
  | staff (staff : List StaffResponse) (bus : List BusinessUnit)
  | persons (persons : List PersonOption)
  | businessUnits (bus : List BusinessUnit)
  deriving DecidableEq, Repr

/-- Send a request. -/
def Tab.send (s : Tab) (request : Request) : Tab := { s with requests := s.requests ++ [request] }

/-- `fetch` of `useStaffStore`, up to its requests. -/
def Tab.fetchStaff (s : Tab) : Tab :=
  ({ s with staff := { s.staff with isLoading := true, error := none } } : Tab).send .getStaff

/-- `fetch` of `useBusinessUnitStore`, up to its request. -/
def Tab.fetchBusinessUnits (s : Tab) : Tab :=
  ({ s with businessUnits := { s.businessUnits with isLoading := true, error := none } } : Tab).send
    .getBusinessUnits

/-- An action, up to its first request. -/
def Tab.call (s : Tab) : Action → Tab
  | .setUser user => { s with auth := AuthStore.setUser user }
  | .logout => s.send .logout
  | .fetchWorkspace buId =>
    ({ s with chat := { s.chat with isLoading := true, error := none } } : Tab).send
      (.getWorkspace buId)
  | .updateAccess buId personId hasAccess => s.send (.updateAccess buId personId hasAccess)
  | .fetchConversations buId => s.send (.getConversations buId)
  | .setActiveConversation conversationId =>
    { s with chat := { s.chat with activeConversationId := some conversationId } }
  | .createDM buId targetPersonId => s.send (.createDM buId targetPersonId)
  | .fetchConversationMessages buId conversationId =>
    s.send (.getConversationMessages buId conversationId)
  | .appendMessage conversationId msg =>
    { s with chat := s.chat.appendMessage conversationId msg }
  | .fetchMessages buId => s.send (.getMessages buId)
  | .hydrateStaff staff bus => { s with staff := { s.staff with staff, businessUnits := bus } }
  | .clearStaffError => { s with staff := { s.staff with error := none } }
  | .fetchStaff => s.fetchStaff
  | .fetchPersons => s.send .getPersons
  | .createStaff data => s.send (.createStaff data)
  | .enrollExisting data => s.send (.enrollExisting data)
  | .updateRole personId role =>
    match s.staff.updateRole personId role with
    | some request => s.send request
    | none => s
  | .hydrateBusinessUnits bus =>
    { s with businessUnits := { s.businessUnits with businessUnits := bus } }
  | .clearBusinessUnitError => { s with businessUnits := { s.businessUnits with error := none } }
  | .fetchBusinessUnits => s.fetchBusinessUnits
  | .createBusinessUnit name => s.send (.createBusinessUnit name)

/-- The rest of an action once its request is answered. A failure is thrown to the
caller, except that `fetch` and `fetchWorkspace` keep a message. -/
def Tab.answered (s : Tab) : Request → Reply → Option Tab
  | .getWorkspace buId, .workspace ws =>
    some { s with chat := { s.chat with
      workspaces := Function.update s.chat.workspaces buId (some ws)
      isLoading := false } }
  | .getWorkspace _, .failed =>
    some { s with chat := { s.chat with
      error := some "Failed to load chat workspace."
      isLoading := false } }
  | .getStaff, .staff staff bus =>
    some { s with staff := { s.staff with staff, businessUnits := bus, isLoading := false } }
  | .getStaff, .failed =>
    some { s with staff := { s.staff with
      error := some "Failed to load staff data."
      isLoading := false } }
  | .getBusinessUnits, .businessUnits bus =>
    some { s with businessUnits := { s.businessUnits with businessUnits := bus, isLoading := false } }
  | .getBusinessUnits, .failed =>
    some { s with businessUnits := { s.businessUnits with
      error := some "Failed to load business units."
      isLoading := false } }
  | _, .failed => some s
  | .logout, .done => some { s with auth := AuthStore.loggedOut }
  | .updateAccess buId personId hasAccess, .done =>
    some { s with chat := s.chat.accessUpdated buId personId hasAccess }
  | .getConversations buId, .conversations convs =>
    some { s with chat := s.chat.conversationsFetched buId convs }
  | .createDM buId _, .conversation conv => some { s with chat := s.chat.dmCreated buId conv }
  | .getConversationMessages _ conversationId, .messages msgs =>
    some { s with chat := s.chat.messagesFetched conversationId msgs }
  | .getMessages buId, .messages msgs => some { s with chat := s.chat.messagesFetched buId msgs }
  | .getPersons, .persons persons => some { s with staff := { s.staff with persons } }
  | .createStaff _, .done => some s.fetchStaff
  | .enrollExisting _, .done => some s.fetchStaff
  | .updateRole personId _ role, .done =>
    some { s with staff := s.staff.roleUpdated personId role }
  | .createBusinessUnit _, .done => some s.fetchBusinessUnits
  | _, _ => none

/-- What happens next in the tab. -/
inductive TabLabel
  /-- An action is called. -/
  | call (action : Action)
  /-- A request is answered. -/
  | answer (k : ℕ) (reply : Reply)
  deriving DecidableEq, Repr

/-- One step of the tab. -/
def Tab.step (s : Tab) : TabLabel → Option Tab
  | .call action => some (s.call action)
  | .answer k reply =>
    (s.requests[k]?).bind fun request =>
      ({ s with requests := s.requests.eraseIdx k } : Tab).answered request reply

end AuraWellness.Frontend.Stores
