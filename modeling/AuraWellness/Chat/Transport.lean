import AuraWellness.Lib.Screening
import AuraWellness.Chat.Handlers
import AuraWellness.Chat.Identifiers

/-!
# The procedures on the wire

A request carries identifiers as texts and the internal key as metadata. The
interceptor checks the key, the handler parses the identifiers in turn, calls one
service function and writes its result or its error. Requests without the key or
with an identifier that does not parse never reach the services.
-/

namespace AuraWellness.Chat.Transport

open AuraWellness.Lib.Calls AuraWellness.Lib.Transition
open AuraWellness.Chat.Entities AuraWellness.Chat.Schema AuraWellness.Chat.Repositories
open AuraWellness.Chat.Services AuraWellness.Chat.Handlers AuraWellness.Chat.Publishing

/-- `google.protobuf.Timestamp`. -/
structure PbTimestamp where
  seconds : ℤ
  nanos : ℤ
  deriving DecidableEq, Repr

/-- `timestamppb.New`; times are in microseconds. -/
def PbTimestamp.new (t : ℤ) : PbTimestamp := ⟨t / 1000000, t % 1000000 * 1000⟩

/-- `Timestamp.IsValid`. -/
def PbTimestamp.isValid (ts : PbTimestamp) : Bool :=
  -62135596800 ≤ ts.seconds ∧ ts.seconds ≤ 253402300799 ∧ 0 ≤ ts.nanos ∧ ts.nanos ≤ 999999999

/-- `Timestamp.AsTime`. -/
def PbTimestamp.asTime (ts : PbTimestamp) : ℤ := ts.seconds * 1000000 + ts.nanos / 1000

/-- A timestamp is the time that it was made of. -/
theorem PbTimestamp.asTime_new (t : ℤ) : (PbTimestamp.new t).asTime = t := by
  unfold PbTimestamp.asTime PbTimestamp.new
  dsimp only
  omega

/-- It is valid exactly if the time is of the years 1 to 9999. -/
theorem PbTimestamp.isValid_new (t : ℤ) :
    (PbTimestamp.new t).isValid = true ↔ Timestamp.IsValid t := by
  unfold PbTimestamp.isValid PbTimestamp.new Timestamp.IsValid
  rw [decide_eq_true_iff]
  have hcursor : (-62135596800000000 ≤ t ∧ t < 253402300800000000) ↔
      (-62135596800 ≤ t / 1000000 ∧ t / 1000000 ≤ 253402300799 ∧ 0 ≤ t % 1000000 * 1000 ∧
        t % 1000000 * 1000 ≤ 999999999) := by
    omega
  exact hcursor.symm

/-- `pb.Workspace`. -/
structure PbWorkspace where
  id : String
  buId : String
  companyId : String
  name : String
  createdAt : PbTimestamp
  deriving DecidableEq, Repr

/-- `pb.WorkspaceMember`. -/
structure PbWorkspaceMember where
  id : String
  workspaceId : String
  personId : String
  role : String
  hasAccess : Bool
  createdAt : PbTimestamp
  deriving DecidableEq, Repr

/-- `pb.ChatMessage`. -/
structure PbChatMessage where
  id : String
  workspaceId : String
  personId : String
  senderName : String
  content : String
  createdAt : PbTimestamp
  conversationId : String
  deriving DecidableEq, Repr

/-- `pb.Conversation`. -/
structure PbConversation where
  id : String
  workspaceId : String
  type : String
  createdAt : PbTimestamp
  deriving DecidableEq, Repr

/-- `pb.ConversationParticipant`. -/
structure PbConversationParticipant where
  id : String
  conversationId : String
  personId : String
  deriving DecidableEq, Repr

/-- The requests, with the fields that the handlers read. -/
inductive PbRequest
  | createWorkspace (buId companyId name : String)
  | getWorkspaceByBuId (buId : String)
  | getWorkspaceById (id : String)
  | addMember (workspaceId personId role : String)
  | updateMemberAccess (workspaceId personId : String) (hasAccess : Bool)
  | listMembers (workspaceId : String)
  | sendMessage (workspaceId conversationId personId senderName content : String)
  | listMessages (conversationId : String) (limit : ℤ) (before : Option PbTimestamp)
  | getOrCreateDM (workspaceId personAId personBId : String)
  | getGroupConversation (workspaceId : String)
  | listConversations (workspaceId personId : String)
  | getConversationParticipants (conversationId : String)
  deriving DecidableEq, Repr

/-- The replies. -/
inductive PbReply
  | workspace (w : PbWorkspace)
  | member (m : PbWorkspaceMember)
  | members (ms : List PbWorkspaceMember)
  | conversation (c : PbConversation)
  | conversations (cs : List PbConversation)
  | participants (ps : List PbConversationParticipant)
  | message (m : PbChatMessage)
  | messages (ms : List PbChatMessage)
  deriving DecidableEq, Repr

/-- The status codes of the server. -/
inductive Code
  | unauthenticated
  | invalidArgument
  | notFound
  | permissionDenied
  | internal
  | unavailable
  deriving DecidableEq, Repr

/-- A status other than OK. -/
structure Status where
  code : Code
  message : String
  deriving DecidableEq, Repr

/-- The code of a status that a handler makes of an error. -/
def Code.ofStatusCode : StatusCode → Code
  | .notFound => .notFound
  | .permissionDenied => .permissionDenied
  | .internal => .internal
  | .unavailable => .unavailable

/-- The status of the error of a procedure. -/
def RpcError.status (e : RpcError) : Status := ⟨Code.ofStatusCode e.code, e.detail⟩

/-- `uuid.Parse`, which is not part of the repository. -/
structure GoUuid where
  /-- The identifier of a text, or the text of the error. -/
  parse : String → Except String Uuid
  /-- It reads the canonical text. -/
  parse_canonical : ∀ id < 2 ^ 128, parse (uuidText id) = .ok id
  /-- Identifiers have 128 bits. -/
  parse_bits : ∀ {text id}, parse text = .ok id → id < 2 ^ 128

/-- Parse an identifier of the request. -/
def GoUuid.field (uuids : GoUuid) (name text : String) : Except Status Uuid :=
  (uuids.parse text).mapError fun e => ⟨.invalidArgument, "invalid " ++ name ++ ": " ++ e⟩

/-- `WorkspaceHandler.CreateWorkspace` up to its service call. -/
def WorkspaceHandler.createWorkspace (uuids : GoUuid) (buId companyId name : String) :
    Except Status Call := do
  let buID ← uuids.field "bu_id" buId
  let companyID ← uuids.field "company_id" companyId
  return .createWorkspace buID companyID name

/-- `WorkspaceHandler.GetWorkspaceByBuId` up to its service call. -/
def WorkspaceHandler.getWorkspaceByBuId (uuids : GoUuid) (buId : String) : Except Status Call := do
  let buID ← uuids.field "bu_id" buId
  return .getByBuID buID

/-- `WorkspaceHandler.GetWorkspaceById` up to its service call. -/
def WorkspaceHandler.getWorkspaceById (uuids : GoUuid) (id : String) : Except Status Call := do
  let id ← uuids.field "id" id
  return .getByID id

/-- `WorkspaceHandler.AddMember` up to its service call. -/
def WorkspaceHandler.addMember (uuids : GoUuid) (workspaceId personId role : String) :
    Except Status Call := do
  let wsID ← uuids.field "workspace_id" workspaceId
  let pID ← uuids.field "person_id" personId
  return .addMember wsID pID role

/-- `WorkspaceHandler.UpdateMemberAccess` up to its service call. -/
def WorkspaceHandler.updateMemberAccess (uuids : GoUuid) (workspaceId personId : String)
    (hasAccess : Bool) : Except Status Call := do
  let wsID ← uuids.field "workspace_id" workspaceId
  let pID ← uuids.field "person_id" personId
  return .updateMemberAccess wsID pID hasAccess

/-- `WorkspaceHandler.ListMembers` up to its service call. -/
def WorkspaceHandler.listMembers (uuids : GoUuid) (workspaceId : String) : Except Status Call := do
  let wsID ← uuids.field "workspace_id" workspaceId
  return .listMembers wsID

/-- `MessagingHandler.SendMessage` up to its service call. -/
def MessagingHandler.sendMessage (uuids : GoUuid)
    (workspaceId conversationId personId senderName content : String) : Except Status Call := do
  let wsID ← uuids.field "workspace_id" workspaceId
  let convID ← uuids.field "conversation_id" conversationId
  let pID ← uuids.field "person_id" personId
  return .sendMessage wsID convID pID senderName content

/-- `MessagingHandler.ListMessages` up to its service call. -/
def MessagingHandler.listMessages (uuids : GoUuid) (now : Time) (conversationId : String)
    (limit : ℤ) (before : Option PbTimestamp) : Except Status Call := do
  let convID ← uuids.field "conversation_id" conversationId
  let cursor := match before with
    | some ts => if ts.isValid then ts.asTime else now + 1000000
    | none => now + 1000000
  return .listMessages convID cursor (if limit ≤ 0 ∨ limit > 200 then 50 else limit)

/-- `ConversationHandler.GetOrCreateDM` up to its service call. -/
def ConversationHandler.getOrCreateDM (uuids : GoUuid) (workspaceId personAId personBId : String) :
    Except Status Call := do
  let wsID ← uuids.field "workspace_id" workspaceId
  let personA ← uuids.field "person_a_id" personAId
  let personB ← uuids.field "person_b_id" personBId
  return .getOrCreateDMConversation wsID personA personB

/-- `ConversationHandler.GetGroupConversation` up to its service call. -/
def ConversationHandler.getGroupConversation (uuids : GoUuid) (workspaceId : String) :
    Except Status Call := do
  let wsID ← uuids.field "workspace_id" workspaceId
  return .getOrCreateGroupConversation wsID

/-- `ConversationHandler.ListConversations` up to its service call. -/
def ConversationHandler.listConversations (uuids : GoUuid) (workspaceId personId : String) :
    Except Status Call := do
  let wsID ← uuids.field "workspace_id" workspaceId
  let pID ← uuids.field "person_id" personId
  return .listConversations wsID pID

/-- `ConversationHandler.GetConversationParticipants` up to its service call. -/
def ConversationHandler.getConversationParticipants (uuids : GoUuid) (conversationId : String) :
    Except Status Call := do
  let convID ← uuids.field "conversation_id" conversationId
  return .getConversationParticipants convID

/-- `chatServiceServer`: each request goes to its handler. -/
def PbRequest.call (uuids : GoUuid) (now : Time) : PbRequest → Except Status Call
  | createWorkspace bu company name => WorkspaceHandler.createWorkspace uuids bu company name
  | getWorkspaceByBuId bu => WorkspaceHandler.getWorkspaceByBuId uuids bu
  | getWorkspaceById id => WorkspaceHandler.getWorkspaceById uuids id
  | addMember w p role => WorkspaceHandler.addMember uuids w p role
  | updateMemberAccess w p access => WorkspaceHandler.updateMemberAccess uuids w p access
  | listMembers w => WorkspaceHandler.listMembers uuids w
  | sendMessage w c p name content => MessagingHandler.sendMessage uuids w c p name content
  | listMessages c limit before => MessagingHandler.listMessages uuids now c limit before
  | getOrCreateDM w a b => ConversationHandler.getOrCreateDM uuids w a b
  | getGroupConversation w => ConversationHandler.getGroupConversation uuids w
  | listConversations w p => ConversationHandler.listConversations uuids w p
  | getConversationParticipants c => ConversationHandler.getConversationParticipants uuids c

/-- `workspaceToProto`. -/
def workspaceToProto (w : ChatWorkspace) : PbWorkspace :=
  ⟨uuidText w.id, uuidText w.buID, uuidText w.companyID, w.name, .new w.createdAt⟩

/-- `memberToProto`. -/
def memberToProto (m : ChatWorkspaceMember) : PbWorkspaceMember :=
  ⟨uuidText m.id, uuidText m.workspaceID, uuidText m.personID, m.role, m.hasAccess,
    .new m.createdAt⟩

/-- `messageToProto`. -/
def messageToProto (m : ChatMessage) : PbChatMessage :=
  ⟨uuidText m.id, uuidText m.workspaceID, uuidText m.personID, m.senderName, m.content,
    .new m.createdAt, uuidText m.conversationID⟩

/-- The text of a conversation type. -/
def ConversationType.text : ConversationType → String
  | .group => "group"
  | .dm => "dm"

/-- `conversationToProto`. -/
def conversationToProto (c : ChatConversation) : PbConversation :=
  ⟨uuidText c.id, uuidText c.workspaceID, ConversationType.text c.type, .new c.createdAt⟩

/-- The participant in a reply of `GetConversationParticipants`. -/
def participantToProto (p : ChatConversationParticipant) : PbConversationParticipant :=
  ⟨uuidText p.id, uuidText p.conversationID, uuidText p.personID⟩

/-- The reply that a handler writes. -/
def Response.toProto : Response → PbReply
  | .workspace w => .workspace (workspaceToProto w)
  | .member m => .member (memberToProto m)
  | .members ms => .members (ms.map memberToProto)
  | .conversation c => .conversation (conversationToProto c)
  | .conversations cs => .conversations (cs.map conversationToProto)
  | .participants ps => .participants (ps.map participantToProto)
  | .message m => .message (messageToProto m)
  | .messages ms => .messages (ms.map messageToProto)

/-- What a handler makes of the result of its service call. -/
def respond (result : Except GoError Response) : Except Status PbReply :=
  (result.mapError fun err => RpcError.status (toGrpcError err)).map Response.toProto

/-- `validate`: the values of `x-internal-key` in the metadata of the request, if it has
any metadata. -/
def validate (apiKey : String) : Option (List String) → Except Status Unit
  | none => .error ⟨.unauthenticated, "missing metadata"⟩
  | some [] => .error ⟨.unauthenticated, "invalid api key"⟩
  | some (v :: _) =>
    if v ≠ apiKey then .error ⟨.unauthenticated, "invalid api key"⟩ else .ok ()

/-- A request as it arrives, with the values of `uuid.New()` and `time.Now()` that serving
it draws. -/
structure WireRequest where
  metadata : Option (List String)
  request : PbRequest
  now : Time
  stamps : ℕ → Stamp

/-- The configuration of the server. -/
structure Server where
  apiKey : String
  uuids : GoUuid

/-- The service call of a request, behind the interceptor and the parsers. -/
def Server.call (srv : Server) (r : WireRequest) : Except Status Call := do
  validate srv.apiKey r.metadata
  r.request.call srv.uuids r.now

/-- The program that serves a request. -/
def Server.program (srv : Server) (r : WireRequest) : ServiceProgram (Except Status PbReply) :=
  match srv.call r with
  | .error status => .ret (.ok (.error status))
  | .ok call => (body ⟨call, r.stamps⟩).mapResult fun result => .ok (respond result)

/-- Requests to the server beside each other. -/
abbrev Wire := Pool serviceSignature ChatState GoError (Except Status PbReply) WireRequest

/-- What happens next to the server. -/
abbrev WireLabel := Label Choice GoError WireRequest

/-- One step of the server. -/
abbrev Server.step (srv : Server) : Wire → WireLabel → Option Wire :=
  Pool.step chatMachine srv.program

/-- The call of the services that a request becomes, if any. -/
def Server.accept (srv : Server) (r : WireRequest) : Option Request :=
  (srv.call r).toOption.map fun call => ⟨call, r.stamps⟩

/-- The server is a screen in front of the services. -/
theorem server_screen (srv : Server) :
    Screen chatMachine srv.program body srv.accept fun _ result => .ok (respond result) where
  handed := by
    intro r q h
    unfold Server.accept at h
    unfold Server.program
    cases hcall : srv.call r with
    | error status =>
      rw [hcall] at h
      cases h
    | ok call =>
      rw [hcall] at h
      cases h
      rfl
  refused := by
    intro r h
    unfold Server.accept at h
    unfold Server.program
    cases hcall : srv.call r with
    | error status => trivial
    | ok call =>
      rw [hcall] at h
      cases h

/-- The identifiers of a request with the names of their fields, in the order in which its
handler parses them. -/
def PbRequest.fields : PbRequest → List (String × String)
  | createWorkspace bu company _ => [("bu_id", bu), ("company_id", company)]
  | getWorkspaceByBuId bu => [("bu_id", bu)]
  | getWorkspaceById id => [("id", id)]
  | addMember w p _ => [("workspace_id", w), ("person_id", p)]
  | updateMemberAccess w p _ => [("workspace_id", w), ("person_id", p)]
  | listMembers w => [("workspace_id", w)]
  | sendMessage w c p _ _ => [("workspace_id", w), ("conversation_id", c), ("person_id", p)]
  | listMessages c _ _ => [("conversation_id", c)]
  | getOrCreateDM w a b => [("workspace_id", w), ("person_a_id", a), ("person_b_id", b)]
  | getGroupConversation w => [("workspace_id", w)]
  | listConversations w p => [("workspace_id", w), ("person_id", p)]
  | getConversationParticipants c => [("conversation_id", c)]

/-- The status for the first of the fields that does not parse. -/
def unparsed (uuids : GoUuid) : List (String × String) → Option Status
  | [] => none
  | (name, text) :: fields =>
    match uuids.parse text with
    | .error e => some ⟨.invalidArgument, "invalid " ++ name ++ ": " ++ e⟩
    | .ok _ => unparsed uuids fields

/-- Parsing one more field first. -/
theorem field_bind_error {uuids : GoUuid} {name text : String} {fields : List (String × String)}
    {f : Uuid → Except Status Call}
    (hf : ∀ id status, f id = .error status ↔ unparsed uuids fields = some status)
    (status : Status) : (uuids.field name text >>= f) = .error status ↔
      unparsed uuids ((name, text) :: fields) = some status := by
  unfold GoUuid.field unparsed
  cases uuids.parse text with
  | error e => exact ⟨fun h => by cases h; rfl, fun h => by cases h; rfl⟩
  | ok id => exact hf id status

/-- A handler refuses a request exactly for its first field that does not parse. -/
theorem PbRequest.call_error_iff (uuids : GoUuid) (now : Time) (r : PbRequest) (status : Status) :
    r.call uuids now = .error status ↔ unparsed uuids r.fields = some status := by
  have parsed : ∀ (call : Call) (status : Status),
      (pure call : Except Status Call) = .error status ↔ unparsed uuids [] = some status :=
    fun call status => iff_of_false (fun h => by cases h) (fun h => by cases h)
  cases r with
  | createWorkspace bu company name =>
    exact field_bind_error (fun _ => field_bind_error fun _ => parsed _) status
  | getWorkspaceByBuId bu => exact field_bind_error (fun _ => parsed _) status
  | getWorkspaceById id => exact field_bind_error (fun _ => parsed _) status
  | addMember w p role =>
    exact field_bind_error (fun _ => field_bind_error fun _ => parsed _) status
  | updateMemberAccess w p access =>
    exact field_bind_error (fun _ => field_bind_error fun _ => parsed _) status
  | listMembers w => exact field_bind_error (fun _ => parsed _) status
  | sendMessage w c p name content =>
    exact field_bind_error
      (fun _ => field_bind_error fun _ => field_bind_error fun _ => parsed _) status
  | listMessages c limit before => exact field_bind_error (fun _ => parsed _) status
  | getOrCreateDM w a b =>
    exact field_bind_error
      (fun _ => field_bind_error fun _ => field_bind_error fun _ => parsed _) status
  | getGroupConversation w => exact field_bind_error (fun _ => parsed _) status
  | listConversations w p =>
    exact field_bind_error (fun _ => field_bind_error fun _ => parsed _) status
  | getConversationParticipants c => exact field_bind_error (fun _ => parsed _) status

/-- Why the server refuses a request: there is no metadata, it does not begin with the
key, or a field does not parse. -/
def Refused (srv : Server) (r : WireRequest) (status : Status) : Prop :=
  (r.metadata = none ∧ status = ⟨.unauthenticated, "missing metadata"⟩) ∨
  ∃ values, r.metadata = some values ∧
    ((values.head? ≠ some srv.apiKey ∧ status = ⟨.unauthenticated, "invalid api key"⟩) ∨
      values.head? = some srv.apiKey ∧ unparsed srv.uuids r.request.fields = some status)

/-- The server refuses a request for one of these reasons, and for no other. -/
theorem call_error_iff {srv : Server} {r : WireRequest} {status : Status} :
    srv.call r = .error status ↔ Refused srv r status := by
  unfold Server.call Refused
  cases r.metadata with
  | none =>
    constructor
    · intro h
      cases h
      exact Or.inl ⟨rfl, rfl⟩
    · intro h
      obtain ⟨-, rfl⟩ | ⟨values, hvalues, -⟩ := h
      · rfl
      · cases hvalues
  | some values =>
    have hkey : validate srv.apiKey (some values) =
        if values.head? = some srv.apiKey then .ok ()
        else .error ⟨.unauthenticated, "invalid api key"⟩ := by
      cases values with
      | nil => rfl
      | cons v vs => simp [validate]
    rw [hkey]
    by_cases h : values.head? = some srv.apiKey
    · rw [if_pos h]
      refine (PbRequest.call_error_iff srv.uuids r.now r.request status).trans ?_
      simp [h]
    · rw [if_neg h]
      have hrefused : ((.error ⟨.unauthenticated, "invalid api key"⟩ : Except Status Unit) >>=
          fun _ => r.request.call srv.uuids r.now) = .error status ↔
          status = ⟨.unauthenticated, "invalid api key"⟩ :=
        ⟨fun he => by cases he; rfl, fun he => by rw [he]; rfl⟩
      refine hrefused.trans ?_
      simp [h]

/-- A state of the server is one that the calls behind it lead to by themselves: they
leave the database so, each answer to an accepted request is written from the result of
its call unless the request has crashed, and all others were refused at once. -/
structure Behind (srv : Server) (s : ChatState) (p : Wire) : Prop where
  served : ∃ ls u, run (Pool.step chatMachine body) ⟨s, []⟩ ls = some u ∧ u.state = p.state ∧
    u.threads.map Thread.req = p.threads.filterMap (fun th => srv.accept th.req) ∧
    ∀ (i : ℕ) (r : WireRequest) (q : Request) (answer : Except GoError (Except Status PbReply)),
      p.threads[i]? = some ⟨r, .ret answer⟩ → srv.accept r = some q →
      ∃ result, u.threads[place srv.accept p.threads i]? = some ⟨q, .ret result⟩ ∧
        (answer = .ok (respond result) ∨ ∃ e, answer = .error e ∧ result = .error e)
  refused : ∀ th ∈ p.threads, srv.accept th.req = none →
    ∃ status, Refused srv th.req status ∧ th.prog = .ret (.ok (.error status))

/-- A request that becomes no call is refused. -/
theorem program_of_none {srv : Server} {r : WireRequest} (h : srv.accept r = none) :
    ∃ status, Refused srv r status ∧ srv.program r = .ret (.ok (.error status)) := by
  unfold Server.accept at h
  unfold Server.program
  cases hcall : srv.call r with
  | error status => exact ⟨status, call_error_iff.mp hcall, rfl⟩
  | ok call =>
    rw [hcall] at h
    cases h

/-- Refused requests stay as they are. -/
theorem refused_step {srv : Server} {p p' : Wire} {l : WireLabel}
    (hp : p.Each fun _ r _ q => srv.accept r = none → q = srv.program r)
    (h : srv.step p l = some p') :
    p'.Each fun _ r _ q => srv.accept r = none → q = srv.program r := by
  have waiting : ∀ {r : WireRequest} {op : ServiceCall}
      {next : Except GoError op.Reply → ServiceProgram (Except Status PbReply)},
      (srv.accept r = none → .call op next = srv.program r) → srv.accept r ≠ none := by
    intro r op next hr hnone
    obtain ⟨status, -, hret⟩ := program_of_none hnone
    cases (hr hnone).trans hret
  obtain ⟨_, -, hL⟩ := Pool.step_modular (M := chatMachine) (fun (_ : Unit) _ => True)
    (fun _ _ r _ q => srv.accept r = none → q = srv.program r) (fun _ _ r _ _ _ => rfl)
    (fun _ _ r _ op next e hr hnone => absurd hnone (waiting hr))
    (fun _ _ r s op next t _ hr => ⟨(), trivial, fun hnone => absurd hnone (waiting hr),
      fun _ _ _ _ hq => hq⟩) ⟨(), trivial, hp⟩ h
  exact hL

/-- Every run of the server is a run of the services behind it, whatever arrives, however
the requests are interleaved and whatever fails or crashes. -/
theorem server_refines_services (srv : Server) (s : ChatState) (ls : List WireLabel) :
    Throughout srv.step (Behind srv s) ⟨s, []⟩ ls := by
  have hcovers : Throughout srv.step (fun p => (∃ ls u,
      run (Pool.step chatMachine body) ⟨s, []⟩ ls = some u ∧ u.state = p.state ∧
        Covers chatMachine srv.accept (fun _ result => .ok (respond result)) p.threads u.threads) ∧
      p.Each fun _ r _ q => srv.accept r = none → q = srv.program r) ⟨s, []⟩ ls := by
    refine throughout_invariant (fun p l p' hp h => ?_) ls
      ⟨⟨[], _, rfl, rfl, .nil⟩, fun i th hi => by cases hi⟩
    obtain ⟨⟨first, u, hrun, hstate, hc⟩, hrefused⟩ := hp
    obtain ⟨rest, u', hrest, hstate', hc', -⟩ := (server_screen srv).step hstate hc h
    exact ⟨⟨first ++ rest, u', run_trans hrun hrest, hstate', hc'⟩, refused_step hrefused h⟩
  refine hcovers.mono fun p hp => ?_
  obtain ⟨⟨ls', u, hrun, hstate, hc⟩, hrefused⟩ := hp
  refine ⟨⟨ls', u, hrun, hstate, hc.requests, fun i r q answer hi hq => hc.returned hi hq⟩,
    fun th hth hnone => ?_⟩
  obtain ⟨i, hi⟩ := List.mem_iff_getElem?.mp hth
  obtain ⟨status, hstatus, hprogram⟩ := program_of_none hnone
  exact ⟨status, hstatus, (hrefused i th hi hnone).trans hprogram⟩

end AuraWellness.Chat.Transport
