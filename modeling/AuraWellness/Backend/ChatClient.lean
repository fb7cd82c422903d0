import AuraWellness.Chat.Transport
import AuraWellness.Chat.Fitting
import AuraWellness.Frontend.Encodings

/-!
# The backend's client of the chat service

`ChatServiceClient` writes identifiers and times into requests and reads them from the
replies. In every run of the server, what it makes of the answer to its request is what
the service function returned.
-/

namespace AuraWellness.Backend.ChatClient

open AuraWellness.Lib.Calls AuraWellness.Lib.Transition
open AuraWellness.Chat.Entities AuraWellness.Chat.Repositories AuraWellness.Chat.Services
open AuraWellness.Chat.Handlers AuraWellness.Chat.Identifiers AuraWellness.Chat.Publishing
open AuraWellness.Chat.Transport AuraWellness.Chat.Fitting
open AuraWellness.Chat.Schema (Choice)
open AuraWellness.Backend.Repositories
open AuraWellness.Frontend.Encodings (GuidParser canonicalGuids)

/-- `ChatWorkspaceDto`. -/
structure ChatWorkspaceDto where
  id : Uuid
  buId : Uuid
  companyId : Uuid
  name : String
  createdAt : Time
  deriving DecidableEq, Repr

/-- `ChatMemberDto`. -/
structure ChatMemberDto where
  id : Uuid
  workspaceId : Uuid
  personId : Uuid
  role : String
  hasAccess : Bool
  createdAt : Time
  deriving DecidableEq, Repr

/-- `ChatMessageServiceDto`. -/
structure ChatMessageServiceDto where
  id : Uuid
  conversationId : Uuid
  workspaceId : Uuid
  personId : Uuid
  senderName : String
  content : String
  createdAt : Time
  deriving DecidableEq, Repr

/-- `ChatConversationDto`. -/
structure ChatConversationDto where
  id : Uuid
  workspaceId : Uuid
  type : String
  createdAt : Time
  deriving DecidableEq, Repr

/-- `ChatConversationParticipantDto`. -/
structure ChatConversationParticipantDto where
  id : Uuid
  conversationId : Uuid
  personId : Uuid
  deriving DecidableEq, Repr

/-- `Timestamp.ToDateTime`; none stands for the exception. -/
def toDateTime (ts : PbTimestamp) : Option Time := if ts.isValid then some ts.asTime else none

/-- `Timestamp.FromDateTime`. -/
def fromDateTime (t : Time) : PbTimestamp := .new t

/-- The reading of a workspace. -/
def readWorkspace (guids : GuidParser) (reply : PbWorkspace) : Option ChatWorkspaceDto := do
  let id ← guids.parse reply.id
  let buId ← guids.parse reply.buId
  let companyId ← guids.parse reply.companyId
  let createdAt ← toDateTime reply.createdAt
  return ⟨id, buId, companyId, reply.name, createdAt⟩

/-- The reading of a member. -/
def readMember (guids : GuidParser) (m : PbWorkspaceMember) : Option ChatMemberDto := do
  let id ← guids.parse m.id
  let workspaceId ← guids.parse m.workspaceId
  let personId ← guids.parse m.personId
  let createdAt ← toDateTime m.createdAt
  return ⟨id, workspaceId, personId, m.role, m.hasAccess, createdAt⟩

/-- The reading of a message. -/
def readMessage (guids : GuidParser) (m : PbChatMessage) : Option ChatMessageServiceDto := do
  let id ← guids.parse m.id
  let conversationId ← guids.parse m.conversationId
  let workspaceId ← guids.parse m.workspaceId
  let personId ← guids.parse m.personId
  let createdAt ← toDateTime m.createdAt
  return ⟨id, conversationId, workspaceId, personId, m.senderName, m.content, createdAt⟩

/-- The reading of a conversation. -/
def readConversation (guids : GuidParser) (c : PbConversation) : Option ChatConversationDto := do
  let id ← guids.parse c.id
  let workspaceId ← guids.parse c.workspaceId
  let createdAt ← toDateTime c.createdAt
  return ⟨id, workspaceId, c.type, createdAt⟩

/-- The reading of a participant. -/
def readParticipant (guids : GuidParser) (p : PbConversationParticipant) :
    Option ChatConversationParticipantDto := do
  let id ← guids.parse p.id
  let conversationId ← guids.parse p.conversationId
  let personId ← guids.parse p.personId
  return ⟨id, conversationId, personId⟩

/-- A method of the client: the request that it sends, and what it makes of the answer.
None stands for an exception in reading a reply, an error for the `RpcException`. -/
structure Method (α : Type) where
  request : PbRequest
  outcome : Except Status PbReply → Option (Except Status α)

/-- A reply is read, and an error is thrown. -/
def reading {α : Type} (read : PbReply → Option α) :
    Except Status PbReply → Option (Except Status α)
  | .ok reply => (read reply).map .ok
  | .error status => some (.error status)

/-- `ChatServiceClient.CreateWorkspaceAsync`. -/
def ChatServiceClient.createWorkspace (guids : GuidParser) (buId companyId : Uuid)
    (name : String) : Method Uuid where
  request := .createWorkspace (uuidText buId) (uuidText companyId) name
  outcome := reading fun
    | .workspace reply => guids.parse reply.id
    | _ => none

/-- `ChatServiceClient.AddWorkspaceMemberAsync`. -/
def ChatServiceClient.addWorkspaceMember (workspaceId personId : Uuid) (role : String) :
    Method Unit where
  request := .addMember (uuidText workspaceId) (uuidText personId) role
  outcome := reading fun
    | .member _ => some ()
    | _ => none

/-- `ChatServiceClient.UpdateMemberAccessAsync`. -/
def ChatServiceClient.updateMemberAccess (workspaceId personId : Uuid) (hasAccess : Bool) :
    Method Unit where
  request := .updateMemberAccess (uuidText workspaceId) (uuidText personId) hasAccess
  outcome := reading fun
    | .member _ => some ()
    | _ => none

/-- `ChatServiceClient.GetWorkspaceByBuIdAsync`: not found is null. -/
def ChatServiceClient.getWorkspaceByBuId (guids : GuidParser) (buId : Uuid) :
    Method (Option ChatWorkspaceDto) where
  request := .getWorkspaceByBuId (uuidText buId)
  outcome
    | .ok (.workspace reply) => (readWorkspace guids reply).map fun dto => .ok (some dto)
    | .ok _ => none
    | .error status => if status.code = .notFound then some (.ok none) else some (.error status)

/-- `ChatServiceClient.GetWorkspaceMembersAsync`. -/
def ChatServiceClient.getWorkspaceMembers (guids : GuidParser) (workspaceId : Uuid) :
    Method (List ChatMemberDto) where
  request := .listMembers (uuidText workspaceId)
  outcome := reading fun
    | .members ms => ms.mapM (readMember guids)
    | _ => none

/-- `ChatServiceClient.GetMessagesAsync`. -/
def ChatServiceClient.getMessages (guids : GuidParser) (conversationId : Uuid) (limit : ℤ)
    (before : Option Time) : Method (List ChatMessageServiceDto) where
  request := .listMessages (uuidText conversationId) limit (before.map fromDateTime)
  outcome := reading fun
    | .messages ms => ms.mapM (readMessage guids)
    | _ => none

/-- `ChatServiceClient.SendMessageAsync`. -/
def ChatServiceClient.sendMessage (guids : GuidParser)
    (workspaceId conversationId personId : Uuid) (senderName content : String) :
    Method ChatMessageServiceDto where
  request := .sendMessage (uuidText workspaceId) (uuidText conversationId) (uuidText personId)
    senderName content
  outcome := reading fun
    | .message m => readMessage guids m
    | _ => none

/-- `ChatServiceClient.GetOrCreateDMAsync`. -/
def ChatServiceClient.getOrCreateDM (guids : GuidParser)
    (workspaceId personAId personBId : Uuid) : Method ChatConversationDto where
  request := .getOrCreateDM (uuidText workspaceId) (uuidText personAId) (uuidText personBId)
  outcome := reading fun
    | .conversation c => readConversation guids c
    | _ => none

/-- `ChatServiceClient.GetGroupConversationAsync`. -/
def ChatServiceClient.getGroupConversation (guids : GuidParser) (workspaceId : Uuid) :
    Method ChatConversationDto where
  request := .getGroupConversation (uuidText workspaceId)
  outcome := reading fun
    | .conversation c => readConversation guids c
    | _ => none

/-- `ChatServiceClient.ListConversationsAsync`. -/
def ChatServiceClient.listConversations (guids : GuidParser) (workspaceId personId : Uuid) :
    Method (List ChatConversationDto) where
  request := .listConversations (uuidText workspaceId) (uuidText personId)
  outcome := reading fun
    | .conversations cs => cs.mapM (readConversation guids)
    | _ => none

/-- `ChatServiceClient.GetConversationParticipantsAsync`. -/
def ChatServiceClient.getConversationParticipants (guids : GuidParser) (conversationId : Uuid) :
    Method (List ChatConversationParticipantDto) where
  request := .getConversationParticipants (uuidText conversationId)
  outcome := reading fun
    | .participants ps => ps.mapM (readParticipant guids)
    | _ => none

/-- The calls of the methods. -/
inductive ClientCall
  | createWorkspace (buId companyId : Uuid) (name : String)
  | addWorkspaceMember (workspaceId personId : Uuid) (role : String)
  | updateMemberAccess (workspaceId personId : Uuid) (hasAccess : Bool)
  | getWorkspaceByBuId (buId : Uuid)
  | getWorkspaceMembers (workspaceId : Uuid)
  | getMessages (conversationId : Uuid) (limit : ℤ) (before : Option Time)
  | sendMessage (workspaceId conversationId personId : Uuid) (senderName content : String)
  | getOrCreateDM (workspaceId personAId personBId : Uuid)
  | getGroupConversation (workspaceId : Uuid)
  | listConversations (workspaceId personId : Uuid)
  | getConversationParticipants (conversationId : Uuid)
  deriving DecidableEq, Repr

namespace ClientCall

/-- What each method returns. -/
abbrev Result : ClientCall → Type
  | createWorkspace _ _ _ => Uuid
  | addWorkspaceMember _ _ _ => Unit
  | updateMemberAccess _ _ _ => Unit
  | getWorkspaceByBuId _ => Option ChatWorkspaceDto
  | getWorkspaceMembers _ => List ChatMemberDto
  | getMessages _ _ _ => List ChatMessageServiceDto
  | sendMessage _ _ _ _ _ => ChatMessageServiceDto
  | getOrCreateDM _ _ _ => ChatConversationDto
  | getGroupConversation _ => ChatConversationDto
  | listConversations _ _ => List ChatConversationDto
  | getConversationParticipants _ => List ChatConversationParticipantDto

/-- The method that is called. -/
def method (guids : GuidParser) : (c : ClientCall) → Method c.Result
  | createWorkspace bu company name => ChatServiceClient.createWorkspace guids bu company name
  | addWorkspaceMember w p role => ChatServiceClient.addWorkspaceMember w p role
  | updateMemberAccess w p access => ChatServiceClient.updateMemberAccess w p access
  | getWorkspaceByBuId bu => ChatServiceClient.getWorkspaceByBuId guids bu
  | getWorkspaceMembers w => ChatServiceClient.getWorkspaceMembers guids w
  | getMessages c limit before => ChatServiceClient.getMessages guids c limit before
  | sendMessage w c p name content => ChatServiceClient.sendMessage guids w c p name content
  | getOrCreateDM w a b => ChatServiceClient.getOrCreateDM guids w a b
  | getGroupConversation w => ChatServiceClient.getGroupConversation guids w
  | listConversations w p => ChatServiceClient.listConversations guids w p
  | getConversationParticipants c => ChatServiceClient.getConversationParticipants guids c

/-- The procedure behind a method. -/
def rpc : ClientCall → Rpc
  | createWorkspace bu company name => .createWorkspace bu company name
  | addWorkspaceMember w p role => .addMember w p role
  | updateMemberAccess w p access => .updateMemberAccess w p access
  | getWorkspaceByBuId bu => .getWorkspaceByBuID bu
  | getWorkspaceMembers w => .listMembers w
  | getMessages c limit before => .listMessages c before limit
  | sendMessage w c p name content => .sendMessage w c p name content
  | getOrCreateDM w a b => .getOrCreateDM w a b
  | getGroupConversation w => .getGroupConversation w
  | listConversations w p => .listConversations w p
  | getConversationParticipants c => .getConversationParticipants c

/-- A `Guid` has 128 bits and a `DateTime` is of the years 1 to 9999. -/
def Fits : ClientCall → Prop
  | createWorkspace bu company _ => Bits bu ∧ Bits company
  | addWorkspaceMember w p _ => Bits w ∧ Bits p
  | updateMemberAccess w p _ => Bits w ∧ Bits p
  | getWorkspaceByBuId bu => Bits bu
  | getWorkspaceMembers w => Bits w
  | getMessages c _ before => Bits c ∧ ∀ t ∈ before, Timestamp.IsValid t
  | sendMessage w c p _ _ => Bits w ∧ Bits c ∧ Bits p
  | getOrCreateDM w a b => Bits w ∧ Bits a ∧ Bits b
  | getGroupConversation w => Bits w
  | listConversations w p => Bits w ∧ Bits p
  | getConversationParticipants c => Bits c

end ClientCall

/-- The workspace of the service as the backend has it. -/
def workspaceDto (w : ChatWorkspace) : ChatWorkspaceDto :=
  ⟨w.id, w.buID, w.companyID, w.name, w.createdAt⟩

/-- So a member. -/
def memberDto (m : ChatWorkspaceMember) : ChatMemberDto :=
  ⟨m.id, m.workspaceID, m.personID, m.role, m.hasAccess, m.createdAt⟩

/-- So a message. -/
def messageDto (m : ChatMessage) : ChatMessageServiceDto :=
  ⟨m.id, m.conversationID, m.workspaceID, m.personID, m.senderName, m.content, m.createdAt⟩

/-- So a conversation. -/
def conversationDto (c : ChatConversation) : ChatConversationDto :=
  ⟨c.id, c.workspaceID, ConversationType.text c.type, c.createdAt⟩

/-- So a participant. -/
def participantDto (p : ChatConversationParticipant) : ChatConversationParticipantDto :=
  ⟨p.id, p.conversationID, p.personID⟩

/-- What the result of the procedure is for the caller of the method. -/
def ClientCall.expected : (c : ClientCall) → Except RpcError c.rpc.Reply → Except RpcError c.Result
  | createWorkspace _ _ _, r => r.map ChatWorkspace.id
  | addWorkspaceMember _ _ _, r => r.map fun _ => ()
  | updateMemberAccess _ _ _, r => r.map fun _ => ()
  | getWorkspaceByBuId _, .ok w => .ok (some (workspaceDto w))
  | getWorkspaceByBuId _, .error e => if e.code = .notFound then .ok none else .error e
  | getWorkspaceMembers _, r => r.map (List.map memberDto)
  | getMessages _ _ _, r => r.map (List.map messageDto)
  | sendMessage _ _ _ _ _, r => r.map messageDto
  | getOrCreateDM _ _ _, r => r.map conversationDto
  | getGroupConversation _, r => r.map conversationDto
  | listConversations _ _, r => r.map (List.map conversationDto)
  | getConversationParticipants _, r => r.map (List.map participantDto)

/-- The program that the backend runs for a method, up to the records of its results. -/
def ClientCall.program : (c : ClientCall) → BackendProgram c.Result
  | createWorkspace bu company name => Services.ChatServiceClient.createWorkspace bu company name
  | addWorkspaceMember w p role => Services.ChatServiceClient.addWorkspaceMember w p role
  | updateMemberAccess w p access => Services.ChatServiceClient.updateMemberAccess w p access
  | getWorkspaceByBuId bu =>
    Option.map workspaceDto <$> Services.ChatServiceClient.getWorkspaceByBuId bu
  | getWorkspaceMembers w => List.map memberDto <$> Services.ChatServiceClient.getWorkspaceMembers w
  | getMessages c limit before =>
    List.map messageDto <$> Services.ChatServiceClient.getMessages c limit before
  | sendMessage w c p name content =>
    messageDto <$> Services.ChatServiceClient.sendMessage w c p name content
  | getOrCreateDM w a b => conversationDto <$> Services.ChatServiceClient.getOrCreateDM w a b
  | getGroupConversation w => conversationDto <$> Services.ChatServiceClient.getGroupConversation w
  | listConversations w p =>
    List.map conversationDto <$> Services.ChatServiceClient.listConversations w p
  | getConversationParticipants c =>
    List.map participantDto <$> Services.ChatServiceClient.getConversationParticipants c

/-- The program makes one procedure call, and returns this when that is answered so. -/
def ClientCall.Answered (c : ClientCall) (reply : Except RpcError c.rpc.Reply)
    (result : Except RpcError c.Result) : Prop :=
  ∃ next, c.program = .call (.chat c.rpc) next ∧
    next (reply.mapError Exn.rpc) = .ret (result.mapError Exn.rpc)

/-- A program that is one call with a wrapped result. -/
theorem answered_map {rpc : Rpc} {α : Type} (f : rpc.Reply → α)
    (reply : Except RpcError rpc.Reply) :
    ∃ next, f <$> call (.chat rpc) = .call (.chat rpc) next ∧
      next (reply.mapError Exn.rpc) = .ret ((reply.map f).mapError Exn.rpc) := by
  refine ⟨_, rfl, ?_⟩
  cases reply <;> rfl

/-- It returns what is expected of the answer. -/
theorem ClientCall.answered (c : ClientCall) (reply : Except RpcError c.rpc.Reply) :
    c.Answered reply (c.expected reply) := by
  cases c with
  | getWorkspaceByBuId bu =>
    refine ⟨_, rfl, ?_⟩
    cases reply with
    | ok w => rfl
    | error e =>
      obtain ⟨code, detail⟩ := e
      cases code <;> rfl
  | _ => exact answered_map _ reply

/-- A valid time is read as it was written. -/
theorem toDateTime_new {t : Time} (h : Timestamp.IsValid t) : toDateTime (.new t) = some t := by
  unfold toDateTime
  rw [if_pos ((PbTimestamp.isValid_new t).mpr h), PbTimestamp.asTime_new]

/-- A workspace that fits is read as it is. -/
theorem readWorkspace_toProto (guids : GuidParser) {w : ChatWorkspace}
    (h : ChatWorkspace.Fits w) :
    readWorkspace guids (workspaceToProto w) = some (workspaceDto w) := by
  obtain ⟨hid, hbu, hcompany, hcreated⟩ := h
  unfold readWorkspace workspaceToProto
  simp only [guids.parse_canonical _ hid, guids.parse_canonical _ hbu,
    guids.parse_canonical _ hcompany, toDateTime_new hcreated]
  rfl

/-- So is a member. -/
theorem readMember_toProto (guids : GuidParser) {m : ChatWorkspaceMember}
    (h : ChatWorkspaceMember.Fits m) : readMember guids (memberToProto m) = some (memberDto m) := by
  obtain ⟨hid, hworkspace, hperson, hcreated⟩ := h
  unfold readMember memberToProto
  simp only [guids.parse_canonical _ hid, guids.parse_canonical _ hworkspace,
    guids.parse_canonical _ hperson, toDateTime_new hcreated]
  rfl

/-- So is a message. -/
theorem readMessage_toProto (guids : GuidParser) {m : ChatMessage} (h : ChatMessage.Fits m) :
    readMessage guids (messageToProto m) = some (messageDto m) := by
  obtain ⟨hid, hworkspace, hconversation, hperson, hcreated⟩ := h
  unfold readMessage messageToProto
  simp only [guids.parse_canonical _ hid, guids.parse_canonical _ hworkspace,
    guids.parse_canonical _ hconversation, guids.parse_canonical _ hperson,
    toDateTime_new hcreated]
  rfl

/-- So is a conversation. -/
theorem readConversation_toProto (guids : GuidParser) {c : ChatConversation}
    (h : ChatConversation.Fits c) :
    readConversation guids (conversationToProto c) = some (conversationDto c) := by
  obtain ⟨hid, hworkspace, hcreated⟩ := h
  unfold readConversation conversationToProto
  simp only [guids.parse_canonical _ hid, guids.parse_canonical _ hworkspace,
    toDateTime_new hcreated]
  rfl

/-- So is a participant. -/
theorem readParticipant_toProto (guids : GuidParser) {p : ChatConversationParticipant}
    (h : ChatConversationParticipant.Fits p) :
    readParticipant guids (participantToProto p) = some (participantDto p) := by
  obtain ⟨hid, hconversation, hperson⟩ := h
  unfold readParticipant participantToProto
  simp only [guids.parse_canonical _ hid, guids.parse_canonical _ hconversation,
    guids.parse_canonical _ hperson]
  rfl

/-- A list is read as it is when its elements are. -/
theorem mapM_map_eq_some {α β γ : Type} {write : α → β} {read : β → Option γ} {view : α → γ}
    {as : List α} (h : ∀ a ∈ as, read (write a) = some (view a)) :
    (as.map write).mapM read = some (as.map view) := by
  induction as with
  | nil => rfl
  | cons a as ih =>
    obtain ⟨ha, has⟩ := List.forall_mem_cons.mp h
    simp [ha, ih has]

/-- A canonical identifier parses. -/
theorem field_uuidText (uuids : GoUuid) (name : String) {id : Uuid} (h : Bits id) :
    uuids.field name (uuidText id) = .ok id := by
  unfold GoUuid.field
  rw [uuids.parse_canonical id h]
  rfl

/-- The handler makes the call of the procedure that the method stands for. -/
theorem request_call (uuids : GoUuid) (guids : GuidParser) (now : Time) {c : ClientCall}
    (h : c.Fits) : (c.method guids).request.call uuids now = .ok (c.rpc.call now) := by
  have parsed : ∀ {α : Type} {name : String} {id : Uuid} {f : Uuid → Except Status α}, Bits id →
      (uuids.field name (uuidText id) >>= f) = f id := fun hid => by
    rw [field_uuidText uuids _ hid]
    rfl
  cases c with
  | createWorkspace bu company name => exact (parsed h.1).trans (parsed h.2)
  | addWorkspaceMember w p role => exact (parsed h.1).trans (parsed h.2)
  | updateMemberAccess w p access => exact (parsed h.1).trans (parsed h.2)
  | getWorkspaceByBuId bu => exact parsed h
  | getWorkspaceMembers w => exact parsed h
  | getMessages conv limit before =>
    refine (parsed h.1).trans ?_
    cases before with
    | none => rfl
    | some t =>
      have ht : Timestamp.IsValid t := h.2 t rfl
      have hvalid : (fromDateTime t).isValid = true := (PbTimestamp.isValid_new t).mpr ht
      have htime : (fromDateTime t).asTime = t := PbTimestamp.asTime_new t
      dsimp only [Option.map_some, ClientCall.rpc, Rpc.call]
      rw [if_pos hvalid, htime, defaultBefore_some now ht]
      rfl
  | sendMessage w conv p name content =>
    exact (parsed h.1).trans ((parsed h.2.1).trans (parsed h.2.2))
  | getOrCreateDM w a b => exact (parsed h.1).trans ((parsed h.2.1).trans (parsed h.2.2))
  | getGroupConversation w => exact parsed h
  | listConversations w p => exact (parsed h.1).trans (parsed h.2)
  | getConversationParticipants conv => exact parsed h

/-- A reply that reads as it was written is what the caller expects, and so is an error. -/
theorem reading_respond {α β : Type} {read : PbReply → Option β} {view : α → β}
    {response : α → Response} {result : Except GoError α}
    (h : ∀ a, result = .ok a → read (Response.toProto (response a)) = some (view a)) :
    reading read (respond (result.map response)) =
      some (((result.mapError toGrpcError).map view).mapError RpcError.status) := by
  cases result with
  | error e => rfl
  | ok a => exact congrArg (Option.map Except.ok) (h a rfl)

/-- Only not found is written as not found. -/
theorem status_notFound (e : RpcError) :
    (RpcError.status e).code = .notFound ↔ e.code = .notFound := by
  unfold RpcError.status
  cases e.code <;> simp [Code.ofStatusCode]

/-- What a method makes of the written result of its procedure is that result. -/
theorem outcome_respond (guids : GuidParser) {c : ClientCall} {result : Except GoError c.rpc.Reply}
    (h : ∀ a, result = .ok a → Response.Fits (c.rpc.response a)) :
    (c.method guids).outcome (respond (result.map c.rpc.response)) =
      some ((c.expected (result.mapError toGrpcError)).mapError RpcError.status) := by
  cases c with
  | createWorkspace bu company name =>
    exact reading_respond fun a ha => guids.parse_canonical a.id (h a ha).1
  | addWorkspaceMember w p role => exact reading_respond fun a ha => rfl
  | updateMemberAccess w p access => exact reading_respond fun a ha => rfl
  | getWorkspaceByBuId bu =>
    cases result with
    | ok w =>
      have hread := readWorkspace_toProto guids (h w rfl)
      exact congrArg (Option.map fun dto => Except.ok (some dto)) hread
    | error e =>
      have hcode := status_notFound (toGrpcError e)
      dsimp only [ClientCall.method, ChatServiceClient.getWorkspaceByBuId, respond, Except.map,
        Except.mapError, ClientCall.expected]
      by_cases hnot : (toGrpcError e).code = .notFound
      · rw [if_pos (hcode.mpr hnot), if_pos hnot]
      · rw [if_neg fun hc => hnot (hcode.mp hc), if_neg hnot]
  | getWorkspaceMembers w =>
    exact reading_respond fun a ha =>
      mapM_map_eq_some fun m hm => readMember_toProto guids (h a ha m hm)
  | getMessages conv limit before =>
    exact reading_respond fun a ha =>
      mapM_map_eq_some fun m hm => readMessage_toProto guids (h a ha m hm)
  | sendMessage w conv p name content =>
    exact reading_respond fun a ha => readMessage_toProto guids (h a ha)
  | getOrCreateDM w a b =>
    exact reading_respond fun a ha => readConversation_toProto guids (h a ha)
  | getGroupConversation w =>
    exact reading_respond fun a ha => readConversation_toProto guids (h a ha)
  | listConversations w p =>
    exact reading_respond fun a ha =>
      mapM_map_eq_some fun conv hconv => readConversation_toProto guids (h a ha conv hconv)
  | getConversationParticipants conv =>
    exact reading_respond fun a ha =>
      mapM_map_eq_some fun p hp => readParticipant_toProto guids (h a ha p hp)

/-- The request is sent by the method, behind `ApiKeyHandler`. -/
def ClientCall.Sends (guids : GuidParser) (apiKey : String) (c : ClientCall)
    (r : WireRequest) : Prop :=
  r.metadata = some [apiKey] ∧ r.request = (c.method guids).request

/-- The server accepts it and calls the procedure. -/
theorem accept_sends {srv : Server} {guids : GuidParser} {c : ClientCall} {r : WireRequest}
    (hsends : c.Sends guids srv.apiKey r) (h : c.Fits) :
    srv.accept r = some ⟨c.rpc.call r.now, r.stamps⟩ := by
  have hkey : validate srv.apiKey r.metadata = .ok () := by
    rw [hsends.1]
    exact if_neg (not_not_intro rfl)
  have hcall : srv.call r = .ok (c.rpc.call r.now) := by
    unfold Server.call
    rw [hkey, hsends.2]
    exact request_call srv.uuids guids r.now h
  unfold Server.accept
  rw [hcall]
  rfl

/-- A parsed identifier has 128 bits. -/
theorem field_bind_ok {α : Type} {uuids : GoUuid} {name text : String}
    {f : Uuid → Except Status α} {a : α} (h : (uuids.field name text >>= f) = .ok a) :
    ∃ id, Bits id ∧ f id = .ok a := by
  unfold GoUuid.field at h
  cases hparse : uuids.parse text with
  | error e =>
    rw [hparse] at h
    cases h
  | ok id =>
    rw [hparse] at h
    exact ⟨id, uuids.parse_bits hparse, h⟩

/-- The call of a handler fits, whoever has written the request. -/
theorem call_fits {uuids : GoUuid} {now : Time} {r : PbRequest} {call : Call}
    (h : r.call uuids now = .ok call) : Call.Fits call := by
  cases r with
  | createWorkspace bu company name =>
    obtain ⟨first, hfirst, h⟩ := field_bind_ok h
    obtain ⟨second, hsecond, h⟩ := field_bind_ok h
    cases h
    exact ⟨hfirst, hsecond⟩
  | getWorkspaceByBuId bu =>
    obtain ⟨id, hid, h⟩ := field_bind_ok h
    cases h
    exact hid
  | getWorkspaceById id =>
    obtain ⟨id, hid, h⟩ := field_bind_ok h
    cases h
    exact hid
  | addMember w p role =>
    obtain ⟨first, hfirst, h⟩ := field_bind_ok h
    obtain ⟨second, hsecond, h⟩ := field_bind_ok h
    cases h
    exact ⟨hfirst, hsecond⟩
  | updateMemberAccess w p access =>
    obtain ⟨first, hfirst, h⟩ := field_bind_ok h
    obtain ⟨second, hsecond, h⟩ := field_bind_ok h
    cases h
    exact ⟨hfirst, hsecond⟩
  | listMembers w =>
    obtain ⟨id, hid, h⟩ := field_bind_ok h
    cases h
    exact hid
  | sendMessage w c p name content =>
    obtain ⟨first, hfirst, h⟩ := field_bind_ok h
    obtain ⟨second, hsecond, h⟩ := field_bind_ok h
    obtain ⟨third, hthird, h⟩ := field_bind_ok h
    cases h
    exact ⟨hfirst, hsecond, hthird⟩
  | listMessages c limit before =>
    obtain ⟨id, hid, h⟩ := field_bind_ok h
    cases h
    exact hid
  | getOrCreateDM w a b =>
    obtain ⟨first, hfirst, h⟩ := field_bind_ok h
    obtain ⟨second, hsecond, h⟩ := field_bind_ok h
    obtain ⟨third, hthird, h⟩ := field_bind_ok h
    cases h
    exact ⟨hfirst, hsecond, hthird⟩
  | getGroupConversation w =>
    obtain ⟨id, hid, h⟩ := field_bind_ok h
    cases h
    exact hid
  | listConversations w p =>
    obtain ⟨first, hfirst, h⟩ := field_bind_ok h
    obtain ⟨second, hsecond, h⟩ := field_bind_ok h
    cases h
    exact ⟨hfirst, hsecond⟩
  | getConversationParticipants c =>
    obtain ⟨id, hid, h⟩ := field_bind_ok h
    cases h
    exact hid

/-- So does what the server accepts. -/
theorem accept_fits {srv : Server} {r : WireRequest} {q : Request} (h : srv.accept r = some q) :
    Call.Fits q.call := by
  unfold Server.accept Server.call at h
  cases hkey : validate srv.apiKey r.metadata with
  | error status =>
    rw [hkey] at h
    cases h
  | ok _ =>
    rw [hkey] at h
    cases hcall : r.request.call srv.uuids r.now with
    | error status =>
      rw [hcall] at h
      cases h
    | ok call =>
      rw [hcall] at h
      cases h
      exact call_fits hcall

/-- The result is one of the procedure, and fits. -/
def ResultFits (rpc : Rpc) (answer : Except GoError Response) : Prop :=
  ∃ result, answer = Except.map rpc.response result ∧
    ∀ a, result = .ok a → Response.Fits (rpc.response a)

/-- The call of a procedure comes to such a result. -/
theorem rpc_within {rpc : Rpc} {now : Time} (stamps : ℕ → Stamp) (h : Call.Fits (rpc.call now)) :
    (body ⟨rpc.call now, stamps⟩).Within CallFits ReplyFits (ResultFits rpc) := by
  have hbody : body ⟨rpc.call now, stamps⟩ = rpc.response <$> rpc.program stamps now :=
    (rpc.program_call stamps now).symm
  have hfits := body_returning (r := ⟨rpc.call now, stamps⟩) h
  unfold Returning at hfits
  rw [hbody] at hfits ⊢
  refine hfits.map.mono fun answer hanswer => ?_
  obtain ⟨hok, result, rfl⟩ := hanswer
  exact ⟨result, rfl, fun a ha => hok _ (congrArg (Except.map rpc.response) ha)⟩

/-- In a run with fitting generated values, the results of a procedure are such. -/
theorem result_fits {s : ChatState} {u : Pool serviceSignature ChatState GoError Response Request}
    {ls : List (Label Choice GoError Request)} (hs : FitsDb s.db.toTables)
    (hls : ∀ l ∈ ls, FittingLabel l) (hr : run (Pool.step chatMachine body) ⟨s, []⟩ ls = some u)
    {j : ℕ} {rpc : Rpc} {now : Time} {stamps : ℕ → Stamp} {answer : Except GoError Response}
    (hj : u.threads[j]? = some ⟨⟨rpc.call now, stamps⟩, .ret answer⟩) : ResultFits rpc answer := by
  have hrun := within_run (Q := fun r answer => r.call = rpc.call now → ResultFits rpc answer) hs
    hls (fun r hfits => ?_) (fun r e _ => ⟨.error e, rfl, fun a ha => by cases ha⟩) hr
  · exact hrun.2 j _ hj rfl
  · obtain ⟨call, stamps⟩ := r
    by_cases hcall : call = rpc.call now
    · subst hcall
      exact (rpc_within stamps hfits).mono fun answer h _ => h
    · exact (body_returning hfits).mono fun answer _ h => absurd h hcall

/-- A state of the server is one that the calls behind it lead to by themselves. What a
method makes of the answer to its request is what the backend's program for it returns
when the procedure call is answered with the result of the service function. -/
def Understood (srv : Server) (guids : GuidParser) (s : ChatState) (p : Wire) : Prop :=
  ∃ ls u, run (Pool.step chatMachine body) ⟨s, []⟩ ls = some u ∧ u.state = p.state ∧
    u.threads.map Thread.req = p.threads.filterMap (fun th => srv.accept th.req) ∧
    ∀ (i : ℕ) (r : WireRequest) (c : ClientCall) (answer : Except Status PbReply),
      p.threads[i]? = some ⟨r, .ret (.ok answer)⟩ → c.Sends guids srv.apiKey r → c.Fits →
      ∃ result outcome, u.threads[place srv.accept p.threads i]? =
          some ⟨⟨c.rpc.call r.now, r.stamps⟩, .ret (Except.map c.rpc.response result)⟩ ∧
        c.Answered (result.mapError toGrpcError) outcome ∧
        (c.method guids).outcome answer = some (outcome.mapError RpcError.status)

/-- A parser that reads the canonical text and nothing else. -/
def canonicalUuids : GoUuid where
  parse text := match readUuid text with
    | some id => if id < 2 ^ 128 then .ok id else .error "invalid UUID format"
    | none => .error "invalid UUID format"
  parse_canonical id h := by
    rw [readUuid_uuidText h]
    exact if_pos h
  parse_bits {text id} h := by
    split at h
    · split at h
      · cases h
        assumption
      · cases h
    · cases h

/-- A server with a key. -/
def keyedServer : Server := ⟨"internal-key", canonicalUuids⟩

/-- The request of a call, with this key. -/
def sentWith (key : String) (c : ClientCall) : WireLabel :=
  .start ⟨some [key], (c.method canonicalGuids).request, 0, fun n => ⟨n + 1, 0⟩⟩

/-- The call that creates a workspace. -/
def creation : ClientCall := .createWorkspace 9 3 "HQ"

/-- A request with another key comes before one with the key of the server. -/
def twoCreations : List WireLabel :=
  [sentWith "other-key" creation, sentWith "internal-key" creation,
    .turn 1 (.serve ⟨10, by decide, 1, id⟩)]

/-- What the client makes of the answers so far. -/
def outcomes (p : Wire) : List (Option (Except Status Uuid)) :=
  p.threads.map fun th => match th.prog with
    | .ret (.ok answer) => (creation.method canonicalGuids).outcome answer
    | _ => none

end AuraWellness.Backend.ChatClient
