import AuraWellness.Lib.Calls
import AuraWellness.Lib.Ranked
import AuraWellness.Lib.Reversal
import AuraWellness.Chat.Schema

/-!
# The repositories of the chat service

Every repository method is one SQL statement on the chat database. The choices
of the environment are the generated identifier, the clock and the order of
rows that the statement leaves open. The calls of the service layer are these
methods and the detached publish of a saved message.
-/

namespace AuraWellness.Chat.Repositories

open AuraWellness.Lib.Calls AuraWellness.Lib.Ranked AuraWellness.Lib.Reversal
open AuraWellness.Lib.Keyed
open AuraWellness.Chat.Entities AuraWellness.Chat.Schema

/-- Scan the first delivered row, or report that there is none. -/
def scanRow {α : Type} (label : String) : List α → Except GoError α
  | [] => .error (errorf label errNoRows)
  | row :: _ => .ok row

/-- A scanned row was delivered. -/
theorem scanRow_ok {α : Type} {label : String} {rows : List α} {a : α}
    (h : scanRow label rows = .ok a) : a ∈ rows := by
  cases rows with
  | nil => cases h
  | cons row rest =>
    cases h
    exact List.mem_cons_self

/-- A scan fails only when no row was delivered. -/
theorem scanRow_error {α : Type} {label : String} {rows : List α} {e : GoError}
    (h : scanRow label rows = .error e) : rows = [] ∧ e = errorf label errNoRows := by
  cases rows with
  | nil =>
    cases h
    exact ⟨rfl, rfl⟩
  | cons row rest => cases h

/-- `workspaceRepo.GetByBuID`; its error is returned unwrapped. -/
def WorkspaceRepo.getByBuID (d : ChatDb) (buID : Uuid) : Except GoError ChatWorkspace :=
  match d.workspaces.find? (fun w => w.buID = buID) with
  | some w => .ok w
  | none => .error errNoRows

/-- A workspace that the lookup finds is stored for the business unit. -/
theorem getByBuID_ok {d : ChatDb} {bu : Uuid} {w : ChatWorkspace}
    (h : WorkspaceRepo.getByBuID d bu = .ok w) : w ∈ d.workspaces ∧ w.buID = bu := by
  unfold WorkspaceRepo.getByBuID at h
  split at h
  · rename_i v hv
    cases h
    exact ⟨List.mem_of_find?_eq_some hv, by simpa using List.find?_some hv⟩
  · cases h

/-- `workspaceRepo.GetByID`; its error is returned unwrapped. -/
def WorkspaceRepo.getByID (d : ChatDb) (id : Uuid) : Except GoError ChatWorkspace :=
  match d.workspaces.find? (fun w => w.id = id) with
  | some w => .ok w
  | none => .error errNoRows

/-- `memberRepo.Upsert`: insert the member, or update the role on conflict.
The role is checked before the conflict, and has_access is never updated. -/
def MemberRepo.upsert (d : ChatDb) (choice : Choice) (m : ChatWorkspaceMember) :
    Except GoError (ChatWorkspaceMember × ChatDb) :=
  if 20 < m.role.length then .error (valueTooLong "20")
  else if hrole : m.role = "Admin" ∨ m.role = "Member" then
    if hkey : ∃ v ∈ d.members, memberKey v = memberKey m then
      let f : ChatWorkspaceMember → ChatWorkspaceMember := fun v =>
        if memberKey v = memberKey m then { v with role := m.role } else v
      let d' := d.updateMembers f (fun v => by simp only [f]; split <;> rfl)
        (fun v => by simp only [f]; split <;> rfl)
        (fun v hv => by simp only [f]; split; exacts [hrole, hv])
      match d'.members.find? (fun v => memberKey v = memberKey m) with
      | some row => .ok (row, d')
      | none => .error errNoRows
    else d.insertMember choice m hkey hrole
  else .error (checkViolation "chat_workspace_members" "chat_workspace_members_role_check")

/-- `memberRepo.UpdateAccess`: set has_access of the member, or insert the
person as a Member. -/
def MemberRepo.updateAccess (d : ChatDb) (choice : Choice) (workspaceID personID : Uuid)
    (hasAccess : Bool) : Except GoError (ChatWorkspaceMember × ChatDb) :=
  let m : ChatWorkspaceMember :=
    { id := choice.uuid, workspaceID, personID, role := "Member", hasAccess,
      createdAt := choice.now }
  if hkey : ∃ v ∈ d.members, memberKey v = memberKey m then
    let f : ChatWorkspaceMember → ChatWorkspaceMember := fun v =>
      if memberKey v = memberKey m then { v with hasAccess } else v
    let d' := d.updateMembers f (fun v => by simp only [f]; split <;> rfl)
      (fun v => by simp only [f]; split <;> rfl)
      (fun v hv => by simp only [f]; split; exacts [hv, hv])
    match d'.members.find? (fun v => memberKey v = memberKey m) with
    | some row => .ok (row, d')
    | none => .error errNoRows
  else d.insertMember choice m hkey (Or.inr rfl)

/-- `memberRepo.ListByWorkspace`, ordered by created_at. -/
def MemberRepo.listByWorkspace (d : ChatDb) (choice : Choice) (workspaceID : Uuid) :
    List ChatWorkspaceMember :=
  sortOn (tieRank ChatWorkspaceMember.createdAt choice.tie ChatWorkspaceMember.id)
    (d.members.filter fun m => m.workspaceID = workspaceID)

/-- `memberRepo.GetByWorkspaceAndPerson`. -/
def MemberRepo.getByWorkspaceAndPerson (d : ChatDb) (workspaceID personID : Uuid) :
    Except GoError ChatWorkspaceMember :=
  match d.members.find? (fun m => memberKey m = (workspaceID, personID)) with
  | some m => .ok m
  | none => .error (errorf "get member" errNoRows)

/-- The rows of a message page as the query delivers them, newest first. -/
def MessageRepo.queryPage (d : ChatDb) (choice : Choice) (conversationID : Uuid) (before : Time)
    (limit : ℕ) : List ChatMessage :=
  (sortOn (tieRank (fun m : ChatMessage => OrderDual.toDual m.createdAt) choice.tie ChatMessage.id)
    (d.messages.filter fun m => m.conversationID = conversationID ∧ m.createdAt < before)).take limit

/-- `messageRepo.List`: one page before the cursor, reversed to oldest first. -/
def MessageRepo.list (d : ChatDb) (choice : Choice) (conversationID : Uuid) (before : Time)
    (limit : ℤ) : Except GoError (List ChatMessage) :=
  if limit < 0 then
    .error (errorf "list messages" ⟨.infrastructure, "ERROR: LIMIT must not be negative (SQLSTATE 2201W)"⟩)
  else .ok (reverseInPlace (MessageRepo.queryPage d choice conversationID before limit.toNat))

/-- `conversationRepo.GetByID`. -/
def ConversationRepo.getByID (d : ChatDb) (id : Uuid) : Except GoError ChatConversation :=
  match d.conversations.find? (fun c => c.id = id) with
  | some c => .ok c
  | none => .error (errorf "get conversation by id" errNoRows)

/-- `conversationRepo.GetGroupByWorkspace`. -/
def ConversationRepo.getGroupByWorkspace (d : ChatDb) (choice : Choice) (workspaceID : Uuid) :
    Except GoError ChatConversation :=
  scanRow "get group conversation"
    (sortOn (tieRank (fun _ => ()) choice.tie ChatConversation.id)
      (d.conversations.filter fun c => c.workspaceID = workspaceID ∧ c.type = .group))

/-- The person is a participant of the conversation. -/
def Participates (d : ChatDb) (conversationID personID : Uuid) : Prop :=
  ∃ p ∈ d.participants, p.conversationID = conversationID ∧ p.personID = personID

instance (d : ChatDb) (c p : Uuid) : Decidable (Participates d c p) := by
  unfold Participates
  infer_instance

/-- The rows of `conversationRepo.GetDMByParticipants`: direct conversations of
the workspace in which both persons take part. -/
def ConversationRepo.dmsOf (d : ChatDb) (workspaceID personA personB : Uuid) :
    List ChatConversation :=
  d.conversations.filter fun c =>
    c.workspaceID = workspaceID ∧ c.type = .dm ∧
      Participates d c.id personA ∧ Participates d c.id personB

/-- `conversationRepo.GetDMByParticipants`: the first row delivered. -/
def ConversationRepo.getDMByParticipants (d : ChatDb) (choice : Choice)
    (workspaceID personA personB : Uuid) : Except GoError ChatConversation :=
  scanRow "get dm conversation"
    (sortOn (tieRank (fun _ => ()) choice.tie ChatConversation.id)
      (ConversationRepo.dmsOf d workspaceID personA personB))

/-- The position of a type in the order of its text. -/
def ConversationType.textRank : ConversationType → ℕ
  | .dm => 0
  | .group => 1

/-- The left join of a conversation with its participants. -/
def ConversationRepo.joinParticipants (d : ChatDb) (c : ChatConversation) :
    List (ChatConversation × Option ChatConversationParticipant) :=
  match d.participants.filter (fun p => p.conversationID = c.id) with
  | [] => [(c, none)]
  | p :: ps => (p :: ps).map fun q => (c, some q)

/-- `conversationRepo.ListByWorkspaceAndPerson`: one row for each joined pair. -/
def ConversationRepo.listByWorkspaceAndPerson (d : ChatDb) (choice : Choice)
    (workspaceID personID : Uuid) : List ChatConversation :=
  sortOn (tieRank (fun c : ChatConversation => toLex (ConversationType.textRank c.type, c.createdAt))
      choice.tie ChatConversation.id)
    (((d.conversations.flatMap (ConversationRepo.joinParticipants d)).filter fun row =>
      row.1.workspaceID = workspaceID ∧
        (row.1.type = .group ∨ row.2.map (·.personID) = some personID)).map (·.1))

/-- `conversationRepo.ListParticipants`, ordered by created_at. -/
def ConversationRepo.listParticipants (d : ChatDb) (choice : Choice) (conversationID : Uuid) :
    List ChatConversationParticipant :=
  sortOn (tieRank ChatConversationParticipant.createdAt choice.tie ChatConversationParticipant.id)
    (d.participants.filter fun p => p.conversationID = conversationID)

/-- The unit published to a channel. -/
structure MessageEvent where
  /-- The saved message. -/
  message : ChatMessage
  deriving DecidableEq, Repr

/-- A publish that a goroutine has been started for. -/
structure Publication where
  /-- The conversation whose channel is addressed. -/
  conversationID : Uuid
  /-- The event. -/
  event : MessageEvent
  deriving DecidableEq, Repr

/-- The database and the detached publishes that have not run yet. -/
structure ChatState where
  /-- The chat database. -/
  db : ChatDb
  /-- Started goroutines that still have to publish. -/
  publishing : List Publication

/-- The state of a new installation. -/
def ChatState.initial : ChatState := ⟨ChatDb.empty, []⟩

/-- The calls that the services make. -/
inductive ServiceCall
  | workspaceCreate (w : ChatWorkspace)
  | workspaceGetByBuID (buID : Uuid)
  | workspaceGetByID (id : Uuid)
  | memberUpsert (m : ChatWorkspaceMember)
  | memberUpdateAccess (workspaceID personID : Uuid) (hasAccess : Bool)
  | memberListByWorkspace (workspaceID : Uuid)
  | memberGetByWorkspaceAndPerson (workspaceID personID : Uuid)
  | messageSave (m : ChatMessage)
  | messageList (conversationID : Uuid) (before : Time) (limit : ℤ)
  | conversationCreate (c : ChatConversation)
  | conversationGetByID (id : Uuid)
  | conversationGetGroupByWorkspace (workspaceID : Uuid)
  | conversationGetDMByParticipants (workspaceID personA personB : Uuid)
  | conversationListByWorkspaceAndPerson (workspaceID personID : Uuid)
  | conversationAddParticipant (p : ChatConversationParticipant)
  | conversationListParticipants (conversationID : Uuid)
  | goPublish (conversationID : Uuid) (event : MessageEvent)

/-- What each call returns. -/
abbrev ServiceCall.Reply : ServiceCall → Type
  | workspaceCreate _ => ChatWorkspace
  | workspaceGetByBuID _ => ChatWorkspace
  | workspaceGetByID _ => ChatWorkspace
  | memberUpsert _ => ChatWorkspaceMember
  | memberUpdateAccess _ _ _ => ChatWorkspaceMember
  | memberListByWorkspace _ => List ChatWorkspaceMember
  | memberGetByWorkspaceAndPerson _ _ => ChatWorkspaceMember
  | messageSave _ => ChatMessage
  | messageList _ _ _ => List ChatMessage
  | conversationCreate _ => ChatConversation
  | conversationGetByID _ => ChatConversation
  | conversationGetGroupByWorkspace _ => ChatConversation
  | conversationGetDMByParticipants _ _ _ => ChatConversation
  | conversationListByWorkspaceAndPerson _ _ => List ChatConversation
  | conversationAddParticipant _ => Unit
  | conversationListParticipants _ => List ChatConversationParticipant
  | goPublish _ _ => Unit

/-- The signature of the service layer. -/
abbrev serviceSignature : Signature := ⟨ServiceCall, ServiceCall.Reply⟩

/-- Store what a write returned, wrapping its error. -/
def commitWrite {α : Type} (label : String) (s : ChatState) :
    Except GoError (α × ChatDb) → Except GoError α × ChatState
  | .ok (a, d) => (.ok a, { s with db := d })
  | .error e => (.error (errorf label e), s)

/-- A write to the database starts no publish. -/
theorem commitWrite_publishing {α : Type} (label : String) (s : ChatState)
    (r : Except GoError (α × ChatDb)) : (commitWrite label s r).2.publishing = s.publishing := by
  cases r <;> rfl

/-- The effect and the reply of one call. -/
def ServiceCall.exec : (op : ServiceCall) → Choice → ChatState → Except GoError op.Reply × ChatState
  | workspaceCreate w, c, s => commitWrite "create workspace" s (s.db.insertWorkspace c w)
  | workspaceGetByBuID bu, _, s => (WorkspaceRepo.getByBuID s.db bu, s)
  | workspaceGetByID id, _, s => (WorkspaceRepo.getByID s.db id, s)
  | memberUpsert m, c, s => commitWrite "upsert member" s (MemberRepo.upsert s.db c m)
  | memberUpdateAccess w p b, c, s =>
    commitWrite "update access" s (MemberRepo.updateAccess s.db c w p b)
  | memberListByWorkspace w, c, s => (.ok (MemberRepo.listByWorkspace s.db c w), s)
  | memberGetByWorkspaceAndPerson w p, _, s => (MemberRepo.getByWorkspaceAndPerson s.db w p, s)
  | messageSave m, c, s => commitWrite "save message" s (s.db.insertMessage c m)
  | messageList conv before limit, c, s => (MessageRepo.list s.db c conv before limit, s)
  | conversationCreate conv, c, s =>
    commitWrite "create conversation" s (s.db.insertConversation c conv)
  | conversationGetByID id, _, s => (ConversationRepo.getByID s.db id, s)
  | conversationGetGroupByWorkspace w, c, s => (ConversationRepo.getGroupByWorkspace s.db c w, s)
  | conversationGetDMByParticipants w a b, c, s =>
    (ConversationRepo.getDMByParticipants s.db c w a b, s)
  | conversationListByWorkspaceAndPerson w p, c, s =>
    (.ok (ConversationRepo.listByWorkspaceAndPerson s.db c w p), s)
  | conversationAddParticipant p, c, s =>
    commitWrite "add participant" s (s.db.insertParticipant c p)
  | conversationListParticipants conv, c, s =>
    (.ok (ConversationRepo.listParticipants s.db c conv), s)
  | goPublish conv event, _, s => (.ok (), { s with publishing := s.publishing ++ [⟨conv, event⟩] })

/-- Starting a goroutine stays inside the process; every other call leaves it. -/
def ServiceCall.leavesProcess : ServiceCall → Bool
  | goPublish _ _ => false
  | _ => true

/-- The machine that answers the calls of the service layer. -/
abbrev chatMachine : Machine serviceSignature ChatState Choice GoError :=
  ⟨ServiceCall.exec, ServiceCall.leavesProcess⟩

end AuraWellness.Chat.Repositories
