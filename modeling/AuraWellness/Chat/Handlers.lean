import AuraWellness.Chat.Growth

/-!
# The remote procedure calls of the chat service

The handlers parse identifiers, call one service function and map its error to
a status. Identifiers arrive as the canonical text of a UUID, so parsing them
back never fails. A procedure call runs its service program to the end.
-/

namespace AuraWellness.Chat.Handlers

open AuraWellness.Lib.Calls AuraWellness.Lib.Transition
open AuraWellness.Chat.Entities AuraWellness.Chat.Schema AuraWellness.Chat.Repositories
open AuraWellness.Chat.Services AuraWellness.Chat.Growth

/-- The status codes that the handlers and the connection produce. -/
inductive StatusCode
  | notFound
  | permissionDenied
  | internal
  | unavailable
  deriving DecidableEq, Repr

/-- The error of a remote procedure call. -/
structure RpcError where
  /-- The code. -/
  code : StatusCode
  /-- The detail text. -/
  detail : String
  deriving DecidableEq, Repr

/-- `toGrpcError`. -/
def toGrpcError (err : GoError) : RpcError :=
  match err.kind with
  | .noRows => ⟨.notFound, "not found"⟩
  | .accessDenied => ⟨.permissionDenied, "chat access denied"⟩
  | _ => ⟨.internal, err.text⟩

/-- The procedures with their arguments. -/
inductive Rpc
  | createWorkspace (buID companyID : Uuid) (name : String)
  | getWorkspaceByBuID (buID : Uuid)
  | getWorkspaceByID (id : Uuid)
  | addMember (workspaceID personID : Uuid) (role : String)
  | updateMemberAccess (workspaceID personID : Uuid) (hasAccess : Bool)
  | listMembers (workspaceID : Uuid)
  | getOrCreateDM (workspaceID personA personB : Uuid)
  | getGroupConversation (workspaceID : Uuid)
  | listConversations (workspaceID personID : Uuid)
  | getConversationParticipants (conversationID : Uuid)
  | sendMessage (workspaceID conversationID personID : Uuid) (senderName content : String)
  | listMessages (conversationID : Uuid) (before : Option Time) (limit : ℤ)
  deriving DecidableEq, Repr

/-- What each procedure returns. -/
abbrev Rpc.Reply : Rpc → Type
  | createWorkspace _ _ _ => ChatWorkspace
  | getWorkspaceByBuID _ => ChatWorkspace
  | getWorkspaceByID _ => ChatWorkspace
  | addMember _ _ _ => ChatWorkspaceMember
  | updateMemberAccess _ _ _ => ChatWorkspaceMember
  | listMembers _ => List ChatWorkspaceMember
  | getOrCreateDM _ _ _ => ChatConversation
  | getGroupConversation _ => ChatConversation
  | listConversations _ _ => List ChatConversation
  | getConversationParticipants _ => List ChatConversationParticipant
  | sendMessage _ _ _ _ _ => ChatMessage
  | listMessages _ _ _ => List ChatMessage

/-- `Timestamp.IsValid`: the years 1 to 9999. -/
def Timestamp.IsValid (t : Time) : Prop :=
  -62135596800000000 ≤ t ∧ t < 253402300800000000

instance (t : Time) : Decidable (Timestamp.IsValid t) := by
  unfold Timestamp.IsValid
  infer_instance

/-- The cursor of `ListMessages`: one second ahead of the clock when the request
has none or an invalid one. -/
def defaultBefore (now : Time) : Option Time → Time
  | some t => if Timestamp.IsValid t then t else now + 1000000
  | none => now + 1000000

/-- A valid cursor is used as it is. -/
theorem defaultBefore_some (now : Time) {t : Time} (h : Timestamp.IsValid t) :
    defaultBefore now (some t) = t := if_pos h

/-- The page size of `ListMessages`: 50 unless the request asks for 1 to 200. -/
def clampLimit (limit : ℤ) : ℤ := if limit ≤ 0 ∨ limit > 200 then 50 else limit

/-- A clamped page size is from 1 to 200. -/
theorem clampLimit_bounds (limit : ℤ) : 1 ≤ clampLimit limit ∧ clampLimit limit ≤ 200 := by
  unfold clampLimit
  split <;> omega

/-- The call of the application layer that a procedure makes at this time. -/
def Rpc.call (now : Time) : Rpc → Call
  | createWorkspace bu company name => .createWorkspace bu company name
  | getWorkspaceByBuID bu => .getByBuID bu
  | getWorkspaceByID id => .getByID id
  | addMember w p role => .addMember w p role
  | updateMemberAccess w p access => .updateMemberAccess w p access
  | listMembers w => .listMembers w
  | getOrCreateDM w a b => .getOrCreateDMConversation w a b
  | getGroupConversation w => .getOrCreateGroupConversation w
  | listConversations w p => .listConversations w p
  | getConversationParticipants c => .getConversationParticipants c
  | sendMessage w c p name content => .sendMessage w c p name content
  | listMessages c before limit => .listMessages c (defaultBefore now before) (clampLimit limit)

/-- The service function behind each procedure. -/
def Rpc.program (stamps : ℕ → Stamp) (now : Time) : (rpc : Rpc) → ServiceProgram rpc.Reply
  | createWorkspace bu company name => WorkspaceService.createWorkspace stamps bu company name
  | getWorkspaceByBuID bu => WorkspaceService.getByBuID bu
  | getWorkspaceByID id => WorkspaceService.getByID id
  | addMember w p role => WorkspaceService.addMember stamps w p role
  | updateMemberAccess w p access => WorkspaceService.updateMemberAccess w p access
  | listMembers w => WorkspaceService.listMembers w
  | getOrCreateDM w a b => ConversationService.getOrCreateDMConversation stamps w a b
  | getGroupConversation w => ConversationService.getOrCreateGroupConversation stamps w
  | listConversations w p => ConversationService.listConversations w p
  | getConversationParticipants c => ConversationService.getConversationParticipants c
  | sendMessage w c p name content => MessagingService.sendMessage stamps w c p name content
  | listMessages c before limit =>
    MessagingService.listMessages c (defaultBefore now before) (clampLimit limit)

/-- The reply of a procedure as the reply of its call. -/
def Rpc.response : (rpc : Rpc) → rpc.Reply → Response
  | createWorkspace _ _ _, w => .workspace w
  | getWorkspaceByBuID _, w => .workspace w
  | getWorkspaceByID _, w => .workspace w
  | addMember _ _ _, m => .member m
  | updateMemberAccess _ _ _, m => .member m
  | listMembers _, ms => .members ms
  | getOrCreateDM _ _ _, c => .conversation c
  | getGroupConversation _, c => .conversation c
  | listConversations _ _, cs => .conversations cs
  | getConversationParticipants _, ps => .participants ps
  | sendMessage _ _ _ _ _, m => .message m
  | listMessages _ _ _, ms => .messages ms

/-- A procedure runs the program of its call. -/
theorem Rpc.program_call (stamps : ℕ → Stamp) (now : Time) (rpc : Rpc) :
    rpc.response <$> rpc.program stamps now = (rpc.call now).program stamps := by
  cases rpc <;> rfl

/-- What the environment contributes to one procedure call. -/
structure RpcEnv where
  /-- The values of `uuid.New()` and `time.Now()` in the constructors. -/
  stamps : ℕ → Stamp
  /-- The value of `time.Now()` in the handler. -/
  now : Time
  /-- How the repository calls are answered. -/
  turns : ℕ → Turn Choice GoError

/-- Serve one procedure call. -/
def Rpc.serve (rpc : Rpc) (env : RpcEnv) (s : ChatState) : Except RpcError rpc.Reply × ChatState :=
  let reply := (rpc.program env.stamps env.now).run chatMachine env.turns s
  (reply.1.mapError toGrpcError, reply.2)

/-- Serving a procedure whose program runs to this result. -/
theorem Rpc.serve_eq {rpc : Rpc} {env : RpcEnv} {s t : ChatState} {r : Except GoError rpc.Reply}
    (h : (rpc.program env.stamps env.now).run chatMachine env.turns s = (r, t)) :
    rpc.serve env s = (r.mapError toGrpcError, t) := by
  unfold Rpc.serve
  rw [h]

/-- A procedure makes only the repository calls of its kind. -/
theorem Rpc.program_makes (stamps : ℕ → Stamp) (now : Time) (rpc : Rpc) :
    (rpc.program stamps now).AllOps (Makes (rpc.call now)) := by
  have hbody := body_makes ⟨rpc.call now, stamps⟩
  have hmap : body ⟨rpc.call now, stamps⟩ = rpc.response <$> rpc.program stamps now :=
    (rpc.program_call stamps now).symm
  rw [hmap] at hbody
  exact hbody.of_map

/-- What the repository calls of a procedure preserve, the procedure preserves. -/
theorem Rpc.serve_preserves {I : ChatState → Prop} (rpc : Rpc) (env : RpcEnv) {s : ChatState}
    (hI : ∀ op c s, Makes (rpc.call env.now) op → I s → I (ServiceCall.exec op c s).2) (hs : I s) :
    I (rpc.serve env s).2 :=
  Program.run_preserves hI (rpc.program_makes env.stamps env.now) env.turns hs

/-- The procedures that only read. -/
def Rpc.Reads : Rpc → Prop
  | getWorkspaceByBuID _ | getWorkspaceByID _ | listMembers _ | listConversations _ _
  | getConversationParticipants _ | listMessages _ _ _ => True
  | _ => False

/-- A single call that changes nothing leaves the state. -/
theorem perform_state {op : ServiceCall} (h : ∀ c s, (op.exec c s).2 = s)
    (env : ℕ → Turn Choice GoError) (s : ChatState) :
    ((perform op).run chatMachine env s).2 = s := by
  refine (?_ : (chatMachine.answer op (env 0) s).2 = s)
  obtain hs | ⟨c, hs⟩ := chatMachine.answer_state op (env 0) s
  · exact hs
  · rw [hs]
    exact h c s

/-- A procedure that only reads leaves the state, whatever it is answered. -/
theorem Rpc.Reads.serve_state {rpc : Rpc} (h : rpc.Reads) (env : RpcEnv) (s : ChatState) :
    (rpc.serve env s).2 = s := by
  cases rpc with
  | getWorkspaceByBuID bu => exact perform_state (fun _ _ => rfl) env.turns s
  | getWorkspaceByID id => exact perform_state (fun _ _ => rfl) env.turns s
  | listMembers w => exact perform_state (fun _ _ => rfl) env.turns s
  | listConversations w p => exact perform_state (fun _ _ => rfl) env.turns s
  | getConversationParticipants conv => exact perform_state (fun _ _ => rfl) env.turns s
  | listMessages conv before limit => exact perform_state (fun _ _ => rfl) env.turns s
  | createWorkspace bu company name => exact h.elim
  | addMember w p role => exact h.elim
  | updateMemberAccess w p access => exact h.elim
  | getOrCreateDM w a b => exact h.elim
  | getGroupConversation w => exact h.elim
  | sendMessage conv w p name content => exact h.elim

end AuraWellness.Chat.Handlers
