import AuraWellness.Chat.Repositories

/-!
# The application services of the chat service

Every service function is a program over the repository calls, and every
remote procedure call of the service is one of these programs. Each
constructor of an entity draws one value of `uuid.New()` and one of
`time.Now()`; both come from the request's stamps.
-/

namespace AuraWellness.Chat.Services

open AuraWellness.Lib.Calls
open AuraWellness.Chat.Entities AuraWellness.Chat.Schema AuraWellness.Chat.Repositories

/-- A program of the service layer. -/
abbrev ServiceProgram (α : Type) := Program serviceSignature GoError α

/-- Make a call whose error ends the program. -/
abbrev perform (op : ServiceCall) : ServiceProgram op.Reply :=
  Program.perform (S := serviceSignature) op

/-- Make a call and go on with its reply or its error. -/
abbrev attempt (op : ServiceCall) : ServiceProgram (Except GoError op.Reply) :=
  Program.attempt (S := serviceSignature) op

/-- `WorkspaceService.CreateWorkspace`. -/
def WorkspaceService.createWorkspace (stamps : ℕ → Stamp) (buID companyID : Uuid)
    (name : String) : ServiceProgram ChatWorkspace := do
  let w ← Program.ofExcept (newWorkspace (stamps 0) buID companyID name)
  perform (.workspaceCreate w)

/-- `WorkspaceService.GetByBuID`. -/
def WorkspaceService.getByBuID (buID : Uuid) : ServiceProgram ChatWorkspace :=
  perform (.workspaceGetByBuID buID)

/-- `WorkspaceService.GetByID`. -/
def WorkspaceService.getByID (id : Uuid) : ServiceProgram ChatWorkspace :=
  perform (.workspaceGetByID id)

/-- `WorkspaceService.AddMember`. -/
def WorkspaceService.addMember (stamps : ℕ → Stamp) (workspaceID personID : Uuid)
    (role : String) : ServiceProgram ChatWorkspaceMember := do
  let m ← Program.ofExcept (newMember (stamps 0) workspaceID personID role)
  perform (.memberUpsert m)

/-- `WorkspaceService.UpdateMemberAccess`. -/
def WorkspaceService.updateMemberAccess (workspaceID personID : Uuid) (hasAccess : Bool) :
    ServiceProgram ChatWorkspaceMember :=
  perform (.memberUpdateAccess workspaceID personID hasAccess)

/-- `WorkspaceService.ListMembers`. -/
def WorkspaceService.listMembers (workspaceID : Uuid) :
    ServiceProgram (List ChatWorkspaceMember) :=
  perform (.memberListByWorkspace workspaceID)

/-- `ConversationService.GetOrCreateGroupConversation`. Only the text of a
lookup without rows leads to a creation. -/
def ConversationService.getOrCreateGroupConversation (stamps : ℕ → Stamp) (workspaceID : Uuid) :
    ServiceProgram ChatConversation := do
  match ← attempt (.conversationGetGroupByWorkspace workspaceID) with
  | .ok conv => return conv
  | .error err =>
    if err.text ≠ "get group conversation: " ++ errNoRows.text then Program.throw err
    else
      let newConv ← Program.ofExcept (newConversation (stamps 0) workspaceID "group")
      perform (.conversationCreate newConv)

/-- The creating branch of `GetOrCreateDMConversation` after the new
conversation is stored. -/
def ConversationService.addBothParticipants (stamps : ℕ → Stamp) (created : ChatConversation)
    (personA personB : Uuid) : ServiceProgram ChatConversation := do
  let pA ← Program.ofExcept (newConversationParticipant (stamps 1) created.id personA)
  perform (.conversationAddParticipant pA)
  let pB ← Program.ofExcept (newConversationParticipant (stamps 2) created.id personB)
  perform (.conversationAddParticipant pB)
  return created

/-- `ConversationService.GetOrCreateDMConversation`. Every error of the lookup
leads to a creation. -/
def ConversationService.getOrCreateDMConversation (stamps : ℕ → Stamp)
    (workspaceID personA personB : Uuid) : ServiceProgram ChatConversation := do
  match ← attempt (.conversationGetDMByParticipants workspaceID personA personB) with
  | .ok conv => return conv
  | .error _ =>
    let newConv ← Program.ofExcept (newConversation (stamps 0) workspaceID "dm")
    let created ← perform (.conversationCreate newConv)
    ConversationService.addBothParticipants stamps created personA personB

/-- `ConversationService.ListConversations`. -/
def ConversationService.listConversations (workspaceID personID : Uuid) :
    ServiceProgram (List ChatConversation) :=
  perform (.conversationListByWorkspaceAndPerson workspaceID personID)

/-- `ConversationService.GetConversationParticipants`. -/
def ConversationService.getConversationParticipants (conversationID : Uuid) :
    ServiceProgram (List ChatConversationParticipant) :=
  perform (.conversationListParticipants conversationID)

/-- `ConversationService.GetByID`. -/
def ConversationService.getByID (id : Uuid) : ServiceProgram ChatConversation :=
  perform (.conversationGetByID id)

/-- `MessagingService.SendMessage`. The publish is started and not awaited. -/
def MessagingService.sendMessage (stamps : ℕ → Stamp)
    (workspaceID conversationID personID : Uuid) (senderName content : String) :
    ServiceProgram ChatMessage := do
  let member ← perform (.memberGetByWorkspaceAndPerson workspaceID personID)
  if member.hasAccess = false then Program.throw errChatAccessDenied
  else
    let msg ← Program.ofExcept
      (newMessage (stamps 0) workspaceID conversationID personID senderName content)
    let saved ← perform (.messageSave msg)
    perform (.goPublish conversationID ⟨saved⟩)
    return saved

/-- `MessagingService.ListMessages`. -/
def MessagingService.listMessages (conversationID : Uuid) (before : Time) (limit : ℤ) :
    ServiceProgram (List ChatMessage) :=
  perform (.messageList conversationID before limit)

/-- The calls of the application layer with their arguments. -/
inductive Call
  | createWorkspace (buID companyID : Uuid) (name : String)
  | getByBuID (buID : Uuid)
  | getByID (id : Uuid)
  | addMember (workspaceID personID : Uuid) (role : String)
  | updateMemberAccess (workspaceID personID : Uuid) (hasAccess : Bool)
  | listMembers (workspaceID : Uuid)
  | getOrCreateGroupConversation (workspaceID : Uuid)
  | getOrCreateDMConversation (workspaceID personA personB : Uuid)
  | listConversations (workspaceID personID : Uuid)
  | getConversationParticipants (conversationID : Uuid)
  | getConversationByID (id : Uuid)
  | sendMessage (workspaceID conversationID personID : Uuid) (senderName content : String)
  | listMessages (conversationID : Uuid) (before : Time) (limit : ℤ)
  deriving DecidableEq, Repr

/-- A call together with the identifiers and times that it draws. -/
structure Request where
  /-- What is called. -/
  call : Call
  /-- The values of `uuid.New()` and `time.Now()` in order. -/
  stamps : ℕ → Stamp

/-- What a call returns when it succeeds. -/
inductive Response
  | workspace (w : ChatWorkspace)
  | member (m : ChatWorkspaceMember)
  | members (ms : List ChatWorkspaceMember)
  | conversation (c : ChatConversation)
  | conversations (cs : List ChatConversation)
  | participants (ps : List ChatConversationParticipant)
  | message (m : ChatMessage)
  | messages (ms : List ChatMessage)
  deriving DecidableEq, Repr

/-- The program that serves a call. -/
def Call.program (stamps : ℕ → Stamp) : Call → ServiceProgram Response
  | createWorkspace bu company name =>
    .workspace <$> WorkspaceService.createWorkspace stamps bu company name
  | getByBuID bu => .workspace <$> WorkspaceService.getByBuID bu
  | getByID id => .workspace <$> WorkspaceService.getByID id
  | addMember w p role => .member <$> WorkspaceService.addMember stamps w p role
  | updateMemberAccess w p b => .member <$> WorkspaceService.updateMemberAccess w p b
  | listMembers w => .members <$> WorkspaceService.listMembers w
  | getOrCreateGroupConversation w =>
    .conversation <$> ConversationService.getOrCreateGroupConversation stamps w
  | getOrCreateDMConversation w a b =>
    .conversation <$> ConversationService.getOrCreateDMConversation stamps w a b
  | listConversations w p => .conversations <$> ConversationService.listConversations w p
  | getConversationParticipants c =>
    .participants <$> ConversationService.getConversationParticipants c
  | getConversationByID id => .conversation <$> ConversationService.getByID id
  | sendMessage w c p sender content =>
    .message <$> MessagingService.sendMessage stamps w c p sender content
  | listMessages c before limit => .messages <$> MessagingService.listMessages c before limit

/-- The program that serves a request. -/
def body (r : Request) : ServiceProgram Response := r.call.program r.stamps

/-- The repository calls that a call of the application layer can make. -/
inductive Makes : Call → ServiceCall → Prop
  | createWorkspace {bu company : Uuid} {name : String} {w : ChatWorkspace}
    (hbu : w.buID = bu) (hname : w.name = name) :
    Makes (.createWorkspace bu company name) (.workspaceCreate w)
  | getByBuID {bu : Uuid} : Makes (.getByBuID bu) (.workspaceGetByBuID bu)
  | getByID {id : Uuid} : Makes (.getByID id) (.workspaceGetByID id)
  | addMember {w p : Uuid} {role : String} {m : ChatWorkspaceMember}
    (hkey : memberKey m = (w, p)) (hrole : m.role = role)
    (haccess : m.hasAccess = (role == "Admin")) : Makes (.addMember w p role) (.memberUpsert m)
  | updateMemberAccess {w p : Uuid} {access : Bool} :
    Makes (.updateMemberAccess w p access) (.memberUpdateAccess w p access)
  | listMembers {w : Uuid} : Makes (.listMembers w) (.memberListByWorkspace w)
  | groupLookup {w : Uuid} :
    Makes (.getOrCreateGroupConversation w) (.conversationGetGroupByWorkspace w)
  | groupCreate {w : Uuid} {c : ChatConversation} (hw : c.workspaceID = w)
    (htype : c.type = .group) : Makes (.getOrCreateGroupConversation w) (.conversationCreate c)
  | dmLookup {w a b : Uuid} :
    Makes (.getOrCreateDMConversation w a b) (.conversationGetDMByParticipants w a b)
  | dmCreate {w a b : Uuid} {c : ChatConversation} (hw : c.workspaceID = w) (htype : c.type = .dm) :
    Makes (.getOrCreateDMConversation w a b) (.conversationCreate c)
  | dmAdd {w a b : Uuid} {p : ChatConversationParticipant}
    (hperson : p.personID = a ∨ p.personID = b) :
    Makes (.getOrCreateDMConversation w a b) (.conversationAddParticipant p)
  | listConversations {w p : Uuid} :
    Makes (.listConversations w p) (.conversationListByWorkspaceAndPerson w p)
  | getConversationParticipants {c : Uuid} :
    Makes (.getConversationParticipants c) (.conversationListParticipants c)
  | getConversationByID {id : Uuid} : Makes (.getConversationByID id) (.conversationGetByID id)
  | sendLookup {w c p : Uuid} {name content : String} :
    Makes (.sendMessage w c p name content) (.memberGetByWorkspaceAndPerson w p)
  | sendSave {w c p : Uuid} {name content : String} {m : ChatMessage}
    (hw : m.workspaceID = w) (hc : m.conversationID = c) (hp : m.personID = p)
    (hname : m.senderName = name) (hcontent : m.content = content) :
    Makes (.sendMessage w c p name content) (.messageSave m)
  | sendPublish {w c p : Uuid} {name content : String} {event : MessageEvent} :
    Makes (.sendMessage w c p name content) (.goPublish c event)
  | listMessages {c : Uuid} {before : Time} {limit : ℤ} :
    Makes (.listMessages c before limit) (.messageList c before limit)

/-- Only calls for direct conversations add participants. -/
theorem Makes.getOrCreateDM_of_add {call : Call} {p : ChatConversationParticipant}
    (h : Makes call (.conversationAddParticipant p)) :
    ∃ w a b, call = .getOrCreateDMConversation w a b := by
  cases h with
  | dmAdd hperson => exact ⟨_, _, _, rfl⟩

/-- A request makes only the calls of its kind. -/
theorem body_makes (r : Request) : (body r).AllOps (Makes r.call) := by
  obtain ⟨call, stamps⟩ := r
  refine (?_ : (call.program stamps).AllOps (Makes call))
  cases call with
  | createWorkspace bu company name =>
    refine Program.AllOps.map _ (Program.AllOps.ofExcept_bind fun w hw => ?_)
    obtain ⟨-, -, -, rfl⟩ := newWorkspace_ok.mp hw
    exact Program.allOps_perform (Makes.createWorkspace rfl rfl)
  | getByBuID bu => exact Program.AllOps.map _ (Program.allOps_perform Makes.getByBuID)
  | getByID id => exact Program.AllOps.map _ (Program.allOps_perform Makes.getByID)
  | addMember w p role =>
    refine Program.AllOps.map _ (Program.AllOps.ofExcept_bind fun m hm => ?_)
    obtain ⟨-, -, -, rfl⟩ := newMember_ok.mp hm
    exact Program.allOps_perform (Makes.addMember rfl rfl rfl)
  | updateMemberAccess w p access =>
    exact Program.AllOps.map _ (Program.allOps_perform Makes.updateMemberAccess)
  | listMembers w => exact Program.AllOps.map _ (Program.allOps_perform Makes.listMembers)
  | getOrCreateGroupConversation w =>
    refine Program.AllOps.map _ (Program.AllOps.attempt_bind Makes.groupLookup fun r => ?_)
    cases r with
    | ok conv => trivial
    | error err =>
      dsimp only
      split
      · trivial
      · refine Program.AllOps.ofExcept_bind fun c hc => ?_
        obtain ⟨-, type, htype, rfl⟩ := newConversation_ok.mp hc
        cases htype
        exact Program.allOps_perform (Makes.groupCreate rfl rfl)
  | getOrCreateDMConversation w a b =>
    refine Program.AllOps.map _ (Program.AllOps.attempt_bind Makes.dmLookup fun r => ?_)
    cases r with
    | ok conv => trivial
    | error err =>
      refine Program.AllOps.ofExcept_bind fun c hc => ?_
      obtain ⟨-, type, htype, rfl⟩ := newConversation_ok.mp hc
      cases htype
      refine Program.AllOps.perform_bind (Makes.dmCreate rfl rfl) fun created => ?_
      refine Program.AllOps.ofExcept_bind fun pA hpA => ?_
      obtain ⟨-, -, rfl⟩ := newConversationParticipant_ok.mp hpA
      refine Program.AllOps.perform_bind (Makes.dmAdd (Or.inl rfl)) fun _ => ?_
      refine Program.AllOps.ofExcept_bind fun pB hpB => ?_
      obtain ⟨-, -, rfl⟩ := newConversationParticipant_ok.mp hpB
      exact Program.AllOps.perform_bind (Makes.dmAdd (Or.inr rfl)) fun _ => trivial
  | listConversations w p =>
    exact Program.AllOps.map _ (Program.allOps_perform Makes.listConversations)
  | getConversationParticipants c =>
    exact Program.AllOps.map _ (Program.allOps_perform Makes.getConversationParticipants)
  | getConversationByID id =>
    exact Program.AllOps.map _ (Program.allOps_perform Makes.getConversationByID)
  | sendMessage w c p name content =>
    refine Program.AllOps.map _ (Program.AllOps.perform_bind Makes.sendLookup fun member => ?_)
    split
    · trivial
    · refine Program.AllOps.ofExcept_bind fun m hm => ?_
      obtain ⟨-, -, -, -, rfl⟩ := newMessage_ok.mp hm
      refine Program.AllOps.perform_bind (Makes.sendSave rfl rfl rfl rfl rfl) fun saved => ?_
      exact Program.AllOps.perform_bind Makes.sendPublish fun _ => trivial
  | listMessages c before limit =>
    exact Program.AllOps.map _ (Program.allOps_perform Makes.listMessages)

/-- A chat service at work: its database and all requests so far. -/
abbrev Service := Pool serviceSignature ChatState GoError Response Request

/-- What happens next to the service. -/
abbrev ServiceLabel := Label Choice GoError Request

/-- One step of the service. -/
abbrev Service.step : Service → ServiceLabel → Option Service := Pool.step chatMachine body

/-- The service after its installation. -/
def Service.initial : Service := ⟨ChatState.initial, []⟩

/-- A request whose constructors draw the same identifier and time. -/
def Call.request (call : Call) : Request := ⟨call, fun _ => ⟨1, 0⟩⟩

/-- The environment serves a thread's next call with this generated identifier
at this time and delivers open orders by identifier. -/
def served (i uuid : ℕ) (now : Time) : ServiceLabel :=
  .turn i (.serve (Choice.generating uuid now))

end AuraWellness.Chat.Services
