import Mathlib.Algebra.GroupWithZero.Nat
import Mathlib.Data.Int.Order.Basic

/-!
# Entities of the chat service

Workspaces, members, conversations, participants and messages, with the
constructors that check their required fields. An error carries the text that
the service compares and reports, and the kind that `errors.Is` recognises.
-/

namespace AuraWellness.Chat.Entities

/-- Identifiers; generated ones are never the nil identifier. -/
abbrev Uuid := ℕ

/-- The identifier `uuid.Nil`. -/
abbrev Uuid.nil : Uuid := 0

/-- Points in time, in microseconds. -/
abbrev Time := ℤ

/-- What `errors.Is` can find behind an error. -/
inductive ErrorKind
  /-- `pgx.ErrNoRows`. -/
  | noRows
  /-- `ErrChatAccessDenied`. -/
  | accessDenied
  /-- A constructor refused its arguments. -/
  | validation
  /-- A statement broke a constraint of the schema. -/
  | constraint
  /-- The connection, the context or the server failed. -/
  | infrastructure
  deriving DecidableEq, Repr

/-- An error value: what it wraps and its text. -/
structure GoError where
  /-- The sentinel behind the error. -/
  kind : ErrorKind
  /-- The result of `Error()`. -/
  text : String
  deriving DecidableEq, Repr

/-- `errors.New` in a constructor. -/
def errorsNew (text : String) : GoError := ⟨.validation, text⟩

/-- `fmt.Errorf` with a prefix and a wrapped error. -/
def errorf (label : String) (err : GoError) : GoError := ⟨err.kind, label ++ ": " ++ err.text⟩

/-- `pgx.ErrNoRows`. -/
def errNoRows : GoError := ⟨.noRows, "no rows in result set"⟩

/-- `ErrChatAccessDenied`. -/
def errChatAccessDenied : GoError := ⟨.accessDenied, "chat access denied"⟩

/-- The values of `uuid.New()` and `time.Now().UTC()` in one constructor. -/
structure Stamp where
  /-- The new identifier. -/
  id : Uuid
  /-- The current time. -/
  now : Time
  deriving DecidableEq, Repr

/-- A chat workspace, one for each business unit. -/
structure ChatWorkspace where
  /-- Primary key. -/
  id : Uuid
  /-- The business unit of the workspace. -/
  buID : Uuid
  /-- The company of the business unit. -/
  companyID : Uuid
  /-- Display name. -/
  name : String
  /-- Time of the insert. -/
  createdAt : Time
  deriving DecidableEq, Repr

/-- A person's membership in a workspace. -/
structure ChatWorkspaceMember where
  /-- Primary key. -/
  id : Uuid
  /-- The workspace. -/
  workspaceID : Uuid
  /-- The person. -/
  personID : Uuid
  /-- "Admin" or "Member" once stored. -/
  role : String
  /-- Whether the person may chat in the workspace. -/
  hasAccess : Bool
  /-- Time of the insert. -/
  createdAt : Time
  deriving DecidableEq, Repr

/-- The two conversation types. -/
inductive ConversationType
  /-- The conversation of all members of a workspace. -/
  | group
  /-- A direct conversation. -/
  | dm
  deriving DecidableEq, Repr

/-- The type that a string names, if any. -/
def ConversationType.ofString? (convType : String) : Option ConversationType :=
  if convType = "group" then some .group
  else if convType = "dm" then some .dm
  else none

/-- A conversation of a workspace. -/
structure ChatConversation where
  /-- Primary key. -/
  id : Uuid
  /-- The workspace of the conversation. -/
  workspaceID : Uuid
  /-- Group or direct conversation. -/
  type : ConversationType
  /-- Time of the insert. -/
  createdAt : Time
  deriving DecidableEq, Repr

/-- A person taking part in a conversation. -/
structure ChatConversationParticipant where
  /-- Primary key. -/
  id : Uuid
  /-- The conversation. -/
  conversationID : Uuid
  /-- The person. -/
  personID : Uuid
  /-- Time of the insert. -/
  createdAt : Time
  deriving DecidableEq, Repr

/-- A message of a conversation. -/
structure ChatMessage where
  /-- Primary key. -/
  id : Uuid
  /-- The workspace the message was sent in. -/
  workspaceID : Uuid
  /-- The conversation the message was sent to. -/
  conversationID : Uuid
  /-- The sender. -/
  personID : Uuid
  /-- The sender's name at the time of sending. -/
  senderName : String
  /-- The text. -/
  content : String
  /-- Time of the insert. -/
  createdAt : Time
  deriving DecidableEq, Repr

/-- The check that an identifier is given. -/
def requireID (field : String) (id : Uuid) : Except GoError Unit :=
  if id = Uuid.nil then .error (errorsNew (field ++ " is required")) else .ok ()

/-- The check that a string is given. -/
def requireText (field text : String) : Except GoError Unit :=
  if text = "" then .error (errorsNew (field ++ " is required")) else .ok ()

/-- `NewWorkspace`. -/
def newWorkspace (stamp : Stamp) (buID companyID : Uuid) (name : String) :
    Except GoError ChatWorkspace := do
  requireID "buID" buID
  requireID "companyID" companyID
  requireText "name" name
  return { id := stamp.id, buID, companyID, name, createdAt := stamp.now }

/-- `NewMember`; Admins get chat access by default. -/
def newMember (stamp : Stamp) (workspaceID personID : Uuid) (role : String) :
    Except GoError ChatWorkspaceMember := do
  requireID "workspaceID" workspaceID
  requireID "personID" personID
  requireText "role" role
  return { id := stamp.id, workspaceID, personID, role, hasAccess := role == "Admin",
           createdAt := stamp.now }

/-- `NewConversation`. -/
def newConversation (stamp : Stamp) (workspaceID : Uuid) (convType : String) :
    Except GoError ChatConversation := do
  requireID "workspaceID" workspaceID
  match ConversationType.ofString? convType with
  | none => .error (errorsNew "type must be 'group' or 'dm'")
  | some type => return { id := stamp.id, workspaceID, type, createdAt := stamp.now }

/-- `NewConversationParticipant`. -/
def newConversationParticipant (stamp : Stamp) (conversationID personID : Uuid) :
    Except GoError ChatConversationParticipant := do
  requireID "conversationID" conversationID
  requireID "personID" personID
  return { id := stamp.id, conversationID, personID, createdAt := stamp.now }

/-- `NewMessage`. -/
def newMessage (stamp : Stamp) (workspaceID conversationID personID : Uuid)
    (senderName content : String) : Except GoError ChatMessage := do
  requireID "workspaceID" workspaceID
  requireID "conversationID" conversationID
  requireID "personID" personID
  requireText "content" content
  return { id := stamp.id, workspaceID, conversationID, personID, senderName, content,
           createdAt := stamp.now }

/-- A passed identifier check hands over to what follows. -/
@[simp] theorem requireID_bind_ok {α : Type} {field : String} {id : Uuid}
    {next : Unit → Except GoError α} {a : α} :
    requireID field id >>= next = .ok a ↔ id ≠ Uuid.nil ∧ next () = .ok a := by
  unfold requireID
  split <;> simp [*, bind, Except.bind]

/-- A passed text check hands over to what follows. -/
@[simp] theorem requireText_bind_ok {α : Type} {field text : String}
    {next : Unit → Except GoError α} {a : α} :
    requireText field text >>= next = .ok a ↔ text ≠ "" ∧ next () = .ok a := by
  unfold requireText
  split <;> simp [*, bind, Except.bind]

@[simp] theorem pure_eq_ok {α : Type} {a b : α} :
    (pure a : Except GoError α) = .ok b ↔ b = a := by
  simp [pure, Except.pure, eq_comm]

/-- What a workspace constructor accepts. -/
theorem newWorkspace_ok {stamp : Stamp} {bu company : Uuid} {name : String}
    {w : ChatWorkspace} :
    newWorkspace stamp bu company name = .ok w ↔
      bu ≠ Uuid.nil ∧ company ≠ Uuid.nil ∧ name ≠ "" ∧
        w = ⟨stamp.id, bu, company, name, stamp.now⟩ := by
  simp only [newWorkspace, requireID_bind_ok, requireText_bind_ok, pure_eq_ok]

/-- What a member constructor accepts; only an Admin starts with access. -/
theorem newMember_ok {stamp : Stamp} {w person : Uuid} {role : String}
    {m : ChatWorkspaceMember} :
    newMember stamp w person role = .ok m ↔
      w ≠ Uuid.nil ∧ person ≠ Uuid.nil ∧ role ≠ "" ∧
        m = ⟨stamp.id, w, person, role, role == "Admin", stamp.now⟩ := by
  simp only [newMember, requireID_bind_ok, requireText_bind_ok, pure_eq_ok]

/-- What a conversation constructor accepts. -/
theorem newConversation_ok {stamp : Stamp} {w : Uuid} {text : String} {c : ChatConversation} :
    newConversation stamp w text = .ok c ↔
      w ≠ Uuid.nil ∧ ∃ type, ConversationType.ofString? text = some type ∧
        c = ⟨stamp.id, w, type, stamp.now⟩ := by
  simp only [newConversation, requireID_bind_ok]
  cases ConversationType.ofString? text with
  | none => simp
  | some type => simp

/-- What a participant constructor accepts. -/
theorem newConversationParticipant_ok {stamp : Stamp} {conv person : Uuid}
    {p : ChatConversationParticipant} :
    newConversationParticipant stamp conv person = .ok p ↔
      conv ≠ Uuid.nil ∧ person ≠ Uuid.nil ∧ p = ⟨stamp.id, conv, person, stamp.now⟩ := by
  simp only [newConversationParticipant, requireID_bind_ok, pure_eq_ok]

/-- What a message constructor accepts. -/
theorem newMessage_ok {stamp : Stamp} {w conv person : Uuid} {sender content : String}
    {m : ChatMessage} :
    newMessage stamp w conv person sender content = .ok m ↔
      w ≠ Uuid.nil ∧ conv ≠ Uuid.nil ∧ person ≠ Uuid.nil ∧ content ≠ "" ∧
        m = ⟨stamp.id, w, conv, person, sender, content, stamp.now⟩ := by
  simp only [newMessage, requireID_bind_ok, requireText_bind_ok, pure_eq_ok]

end AuraWellness.Chat.Entities
