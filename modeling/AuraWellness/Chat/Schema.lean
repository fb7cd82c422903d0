import AuraWellness.Lib.Keyed
import AuraWellness.Chat.Entities

/-!
# The chat database and its constraints

The five tables after the last migration. A database carries the primary keys,
foreign keys, unique indexes and checks of the migrations as a field, so every
state of the service is a state that the schema allows. Each insert is refused
with the violated constraint or appends one row.
-/

namespace AuraWellness.Chat.Schema

open AuraWellness.Lib.Keyed
open AuraWellness.Chat.Entities

/-- The rows of the chat database. -/
structure Tables where
  /-- `chat_workspaces`. -/
  workspaces : List ChatWorkspace
  /-- `chat_workspace_members`. -/
  members : List ChatWorkspaceMember
  /-- `chat_conversations`. -/
  conversations : List ChatConversation
  /-- `chat_conversation_participants`. -/
  participants : List ChatConversationParticipant
  /-- `chat_messages`. -/
  messages : List ChatMessage
  deriving DecidableEq, Repr

/-- The columns of the unique index on members. -/
abbrev memberKey (m : ChatWorkspaceMember) : Uuid × Uuid := (m.workspaceID, m.personID)

/-- The columns of the unique index on participants. -/
abbrev participantKey (p : ChatConversationParticipant) : Uuid × Uuid :=
  (p.conversationID, p.personID)

/-- The group conversations, which the partial unique index covers. -/
abbrev groups (conversations : List ChatConversation) : List ChatConversation :=
  conversations.filter fun c => c.type = .group

/-- The constraints of migrations 000001 to 000006, and that generated
identifiers are not nil. -/
structure Tables.Valid (t : Tables) : Prop where
  workspaces_id : UniqueColumn ChatWorkspace.id t.workspaces
  workspaces_bu : UniqueColumn ChatWorkspace.buID t.workspaces
  workspaces_generated : ∀ w ∈ t.workspaces, w.id ≠ Uuid.nil
  members_id : UniqueColumn ChatWorkspaceMember.id t.members
  members_key : UniqueColumn memberKey t.members
  members_workspace : ∀ m ∈ t.members, ∃ w ∈ t.workspaces, w.id = m.workspaceID
  members_role : ∀ m ∈ t.members, m.role = "Admin" ∨ m.role = "Member"
  conversations_id : UniqueColumn ChatConversation.id t.conversations
  conversations_group : UniqueColumn ChatConversation.workspaceID (groups t.conversations)
  conversations_workspace : ∀ c ∈ t.conversations, ∃ w ∈ t.workspaces, w.id = c.workspaceID
  conversations_generated : ∀ c ∈ t.conversations, c.id ≠ Uuid.nil
  participants_id : UniqueColumn ChatConversationParticipant.id t.participants
  participants_key : UniqueColumn participantKey t.participants
  participants_conversation : ∀ p ∈ t.participants, ∃ c ∈ t.conversations, c.id = p.conversationID
  messages_id : UniqueColumn ChatMessage.id t.messages
  messages_workspace : ∀ m ∈ t.messages, ∃ w ∈ t.workspaces, w.id = m.workspaceID
  messages_conversation : ∀ m ∈ t.messages, ∃ c ∈ t.conversations, c.id = m.conversationID

/-- A database state that the schema allows. -/
structure ChatDb extends Tables where
  /-- The constraints hold. -/
  valid : toTables.Valid

/-- The database right after the migrations of an empty installation. -/
def ChatDb.empty : ChatDb where
  workspaces := []
  members := []
  conversations := []
  participants := []
  messages := []
  valid := by constructor <;> simp [UniqueColumn, groups]

theorem ChatDb.ext_tables {d d' : ChatDb} (h : d.toTables = d'.toTables) : d = d' := by
  cases d
  cases d'
  cases h
  rfl

/-- The error of a broken primary key or unique index. -/
def uniqueViolation (index : String) : GoError :=
  ⟨.constraint, "ERROR: duplicate key value violates unique constraint \"" ++ index ++
    "\" (SQLSTATE 23505)"⟩

/-- The error of a broken foreign key. -/
def foreignKeyViolation (table key : String) : GoError :=
  ⟨.constraint, "ERROR: insert or update on table \"" ++ table ++
    "\" violates foreign key constraint \"" ++ key ++ "\" (SQLSTATE 23503)"⟩

/-- The error of a broken check. -/
def checkViolation (table check : String) : GoError :=
  ⟨.constraint, "ERROR: new row for relation \"" ++ table ++
    "\" violates check constraint \"" ++ check ++ "\" (SQLSTATE 23514)"⟩

/-- The error of a string that its column cannot hold. -/
def valueTooLong (length : String) : GoError :=
  ⟨.constraint, "ERROR: value too long for type character varying(" ++ length ++
    ") (SQLSTATE 22001)"⟩

/-- What the environment chooses while it serves one statement. -/
structure Choice where
  /-- The value of `gen_random_uuid()`. -/
  uuid : Uuid
  /-- A generated identifier is not nil. -/
  uuid_ne_nil : uuid ≠ Uuid.nil
  /-- The value of `NOW()`. -/
  now : Time
  /-- The order of rows that the statement's ORDER BY leaves open. -/
  tie : Uuid → ℕ

/-- One of an identifier and 1 is not nil. -/
theorem max_one_ne_nil (uuid : Uuid) : max uuid 1 ≠ Uuid.nil :=
  Nat.ne_of_gt (lt_max_of_lt_right Nat.one_pos)

/-- The environment generates this identifier, 1 instead of the nil one, at this
time, and delivers open orders by identifier. -/
def Choice.generating (uuid : Uuid) (now : Time) : Choice :=
  ⟨max uuid 1, max_one_ne_nil uuid, now, fun _ => 0⟩

/-- Appending a conversation keeps one group conversation for each workspace. -/
theorem groups_concat {rows : List ChatConversation} {row : ChatConversation}
    (h : UniqueColumn ChatConversation.workspaceID (groups rows))
    (hnew : ¬(row.type = .group ∧ ∃ c ∈ rows, c.type = .group ∧ c.workspaceID = row.workspaceID)) :
    UniqueColumn ChatConversation.workspaceID (groups (rows ++ [row])) := by
  unfold groups
  rw [List.filter_append]
  by_cases hg : row.type = .group
  · have hs : [row].filter (fun c => c.type = .group) = [row] := by simp [hg]
    rw [hs]
    refine h.concat fun hc => hnew ⟨hg, ?_⟩
    obtain ⟨c, hc, hw⟩ := hc
    have hm := List.mem_filter.mp hc
    exact ⟨c, hm.1, by simpa using hm.2, hw⟩
  · have hs : [row].filter (fun c => c.type = .group) = [] := by simp [hg]
    rw [hs, List.append_nil]
    exact h

/-- `INSERT INTO chat_workspaces`. -/
def ChatDb.insertWorkspace (d : ChatDb) (choice : Choice) (w : ChatWorkspace) :
    Except GoError (ChatWorkspace × ChatDb) :=
  let row : ChatWorkspace := { w with id := choice.uuid, createdAt := choice.now }
  if 255 < w.name.length then .error (valueTooLong "255")
  else if hid : ∃ v ∈ d.workspaces, v.id = row.id then
    .error (uniqueViolation "chat_workspaces_pkey")
  else if hbu : ∃ v ∈ d.workspaces, v.buID = row.buID then
    .error (uniqueViolation "chat_workspaces_bu_id_key")
  else .ok (row, { d with
    workspaces := d.workspaces ++ [row]
    valid := { d.valid with
      workspaces_id := d.valid.workspaces_id.concat hid
      workspaces_bu := d.valid.workspaces_bu.concat hbu
      workspaces_generated := forall_mem_concat d.valid.workspaces_generated choice.uuid_ne_nil
      members_workspace := fun m hm => resolved_append _ (d.valid.members_workspace m hm)
      conversations_workspace := fun c hc =>
        resolved_append _ (d.valid.conversations_workspace c hc)
      messages_workspace := fun m hm => resolved_append _ (d.valid.messages_workspace m hm) } })

/-- When a workspace is inserted, and what the database is then. -/
theorem insertWorkspace_ok_iff {d d' : ChatDb} {choice : Choice} {w row : ChatWorkspace} :
    d.insertWorkspace choice w = .ok (row, d') ↔
      w.name.length ≤ 255 ∧ (¬∃ v ∈ d.workspaces, v.id = choice.uuid) ∧
      (¬∃ v ∈ d.workspaces, v.buID = w.buID) ∧
      row = { w with id := choice.uuid, createdAt := choice.now } ∧
      d'.toTables = { d.toTables with workspaces := d.workspaces ++ [row] } := by
  unfold ChatDb.insertWorkspace
  dsimp only
  by_cases hlen : 255 < w.name.length
  · rw [if_pos hlen]
    constructor
    · intro h
      cases h
    · rintro ⟨h, -⟩
      omega
  rw [if_neg hlen]
  split
  · rename_i hid
    exact ⟨fun h => (by cases h), fun h => absurd hid h.2.1⟩
  split
  · rename_i hbu
    exact ⟨fun h => (by cases h), fun h => absurd hbu h.2.2.1⟩
  rename_i hid hbu
  constructor
  · intro h
    cases h
    exact ⟨by omega, hid, hbu, rfl, rfl⟩
  · rintro ⟨-, -, -, rfl, hd⟩
    exact congrArg (fun x => Except.ok (_, x)) (ChatDb.ext_tables hd.symm)

/-- A workspace with a new identifier for a new business unit is accepted. -/
theorem insertWorkspace_accepts {d : ChatDb} {choice : Choice} {w : ChatWorkspace}
    (hname : w.name.length ≤ 255) (hid : ¬∃ v ∈ d.workspaces, v.id = choice.uuid)
    (hbu : ¬∃ v ∈ d.workspaces, v.buID = w.buID) :
    ∃ row d', d.insertWorkspace choice w = .ok (row, d') := by
  unfold ChatDb.insertWorkspace
  dsimp only
  rw [if_neg (by omega), dif_neg hid, dif_neg hbu]
  exact ⟨_, _, rfl⟩

/-- `INSERT INTO chat_workspace_members` of a row without a conflicting member. -/
def ChatDb.insertMember (d : ChatDb) (choice : Choice) (m : ChatWorkspaceMember)
    (hkey : ¬∃ v ∈ d.members, memberKey v = memberKey m)
    (hrole : m.role = "Admin" ∨ m.role = "Member") :
    Except GoError (ChatWorkspaceMember × ChatDb) :=
  let row : ChatWorkspaceMember := { m with id := choice.uuid, createdAt := choice.now }
  if hid : ∃ v ∈ d.members, v.id = row.id then
    .error (uniqueViolation "chat_workspace_members_pkey")
  else if hw : ∃ w ∈ d.workspaces, w.id = row.workspaceID then
    .ok (row, { d with
      members := d.members ++ [row]
      valid := { d.valid with
        members_id := d.valid.members_id.concat hid
        members_key := d.valid.members_key.concat hkey
        members_workspace := forall_mem_concat d.valid.members_workspace hw
        members_role := forall_mem_concat d.valid.members_role hrole } })
  else .error (foreignKeyViolation "chat_workspace_members" "chat_workspace_members_workspace_id_fkey")

/-- When a member without a conflict is inserted, and what the database is then. -/
theorem insertMember_ok_iff {d d' : ChatDb} {choice : Choice} {m row : ChatWorkspaceMember}
    {hkey : ¬∃ v ∈ d.members, memberKey v = memberKey m}
    {hrole : m.role = "Admin" ∨ m.role = "Member"} :
    d.insertMember choice m hkey hrole = .ok (row, d') ↔
      (¬∃ v ∈ d.members, v.id = choice.uuid) ∧ (∃ w ∈ d.workspaces, w.id = m.workspaceID) ∧
      row = { m with id := choice.uuid, createdAt := choice.now } ∧
      d'.toTables = { d.toTables with members := d.members ++ [row] } := by
  unfold ChatDb.insertMember
  dsimp only
  split
  · rename_i hid
    exact ⟨fun h => (by cases h), fun h => absurd hid h.1⟩
  split
  · rename_i hid hw
    constructor
    · intro h
      cases h
      exact ⟨hid, hw, rfl, rfl⟩
    · rintro ⟨-, -, rfl, hd⟩
      exact congrArg (fun x => Except.ok (_, x)) (ChatDb.ext_tables hd.symm)
  · rename_i hw
    exact ⟨fun h => (by cases h), fun h => absurd h.2.1 hw⟩

/-- A member without a conflict is accepted in an existing workspace. -/
theorem insertMember_accepts {d : ChatDb} {choice : Choice} {m : ChatWorkspaceMember}
    {hkey : ¬∃ v ∈ d.members, memberKey v = memberKey m}
    {hrole : m.role = "Admin" ∨ m.role = "Member"} (hid : ¬∃ v ∈ d.members, v.id = choice.uuid)
    (hw : ∃ w ∈ d.workspaces, w.id = m.workspaceID) :
    ∃ row d', d.insertMember choice m hkey hrole = .ok (row, d') := by
  unfold ChatDb.insertMember
  dsimp only
  rw [dif_neg hid, dif_pos hw]
  exact ⟨_, _, rfl⟩

/-- `DO UPDATE SET` on the members with this key: neither the key nor the
identifier changes, and a role stays one of the two. -/
def ChatDb.updateMembers (d : ChatDb) (f : ChatWorkspaceMember → ChatWorkspaceMember)
    (hid : ∀ m, (f m).id = m.id) (hkey : ∀ m, memberKey (f m) = memberKey m)
    (hrole : ∀ m, (m.role = "Admin" ∨ m.role = "Member") →
      ((f m).role = "Admin" ∨ (f m).role = "Member")) : ChatDb :=
  { d with
    members := d.members.map f
    valid := { d.valid with
      members_id := d.valid.members_id.map hid
      members_key := d.valid.members_key.map hkey
      members_workspace := by
        intro m hm
        obtain ⟨v, hv, rfl⟩ := List.mem_map.mp hm
        have hw : (f v).workspaceID = v.workspaceID := (Prod.mk.inj (hkey v)).1
        rw [hw]
        exact d.valid.members_workspace v hv
      members_role := by
        intro m hm
        obtain ⟨v, hv, rfl⟩ := List.mem_map.mp hm
        exact hrole v (d.valid.members_role v hv) } }

/-- `INSERT INTO chat_conversations`. -/
def ChatDb.insertConversation (d : ChatDb) (choice : Choice) (c : ChatConversation) :
    Except GoError (ChatConversation × ChatDb) :=
  let row : ChatConversation := { c with id := choice.uuid, createdAt := choice.now }
  if hid : ∃ v ∈ d.conversations, v.id = row.id then
    .error (uniqueViolation "chat_conversations_pkey")
  else if hg : row.type = .group ∧
      ∃ v ∈ d.conversations, v.type = .group ∧ v.workspaceID = row.workspaceID then
    .error (uniqueViolation "idx_conversations_group_unique")
  else if hw : ∃ w ∈ d.workspaces, w.id = row.workspaceID then
    .ok (row, { d with
      conversations := d.conversations ++ [row]
      valid := { d.valid with
        conversations_id := d.valid.conversations_id.concat hid
        conversations_group := groups_concat d.valid.conversations_group hg
        conversations_workspace := forall_mem_concat d.valid.conversations_workspace hw
        conversations_generated :=
          forall_mem_concat d.valid.conversations_generated choice.uuid_ne_nil
        participants_conversation := fun p hp =>
          resolved_append _ (d.valid.participants_conversation p hp)
        messages_conversation := fun m hm =>
          resolved_append _ (d.valid.messages_conversation m hm) } })
  else .error (foreignKeyViolation "chat_conversations" "chat_conversations_workspace_id_fkey")

/-- When a conversation is inserted, and what the database is then. -/
theorem insertConversation_ok_iff {d d' : ChatDb} {choice : Choice} {c row : ChatConversation} :
    d.insertConversation choice c = .ok (row, d') ↔
      (¬∃ v ∈ d.conversations, v.id = choice.uuid) ∧
      (¬(c.type = .group ∧ ∃ v ∈ d.conversations, v.type = .group ∧ v.workspaceID = c.workspaceID)) ∧
      (∃ w ∈ d.workspaces, w.id = c.workspaceID) ∧
      row = { c with id := choice.uuid, createdAt := choice.now } ∧
      d'.toTables = { d.toTables with conversations := d.conversations ++ [row] } := by
  unfold ChatDb.insertConversation
  dsimp only
  split
  · rename_i hid
    exact ⟨fun h => (by cases h), fun h => absurd hid h.1⟩
  split
  · rename_i hg
    exact ⟨fun h => (by cases h), fun h => absurd hg h.2.1⟩
  split
  · rename_i hid hg hw
    constructor
    · intro h
      cases h
      exact ⟨hid, hg, hw, rfl, rfl⟩
    · rintro ⟨-, -, -, rfl, hd⟩
      exact congrArg (fun x => Except.ok (_, x)) (ChatDb.ext_tables hd.symm)
  · rename_i hw
    exact ⟨fun h => (by cases h), fun h => absurd h.2.2.1 hw⟩

/-- A conversation of an existing workspace is accepted, unless it would be a
second group conversation. -/
theorem insertConversation_accepts {d : ChatDb} {choice : Choice} {c : ChatConversation}
    (hid : ¬∃ v ∈ d.conversations, v.id = choice.uuid)
    (hg : ¬(c.type = .group ∧
      ∃ v ∈ d.conversations, v.type = .group ∧ v.workspaceID = c.workspaceID))
    (hw : ∃ w ∈ d.workspaces, w.id = c.workspaceID) :
    ∃ row d', d.insertConversation choice c = .ok (row, d') := by
  unfold ChatDb.insertConversation
  dsimp only
  rw [dif_neg hid, dif_neg hg, dif_pos hw]
  exact ⟨_, _, rfl⟩

/-- `INSERT INTO chat_conversation_participants`, doing nothing on a conflict. -/
def ChatDb.insertParticipant (d : ChatDb) (choice : Choice) (p : ChatConversationParticipant) :
    Except GoError (Unit × ChatDb) :=
  let row : ChatConversationParticipant := { p with id := choice.uuid, createdAt := choice.now }
  if hkey : ∃ v ∈ d.participants, participantKey v = participantKey row then .ok ((), d)
  else if hid : ∃ v ∈ d.participants, v.id = row.id then
    .error (uniqueViolation "chat_conversation_participants_pkey")
  else if hc : ∃ c ∈ d.conversations, c.id = row.conversationID then
    .ok ((), { d with
      participants := d.participants ++ [row]
      valid := { d.valid with
        participants_id := d.valid.participants_id.concat hid
        participants_key := d.valid.participants_key.concat hkey
        participants_conversation := forall_mem_concat d.valid.participants_conversation hc } })
  else .error (foreignKeyViolation "chat_conversation_participants"
    "chat_conversation_participants_conversation_id_fkey")

/-- When a participant is accepted, and what the database is then. -/
theorem insertParticipant_ok_iff {d d' : ChatDb} {choice : Choice}
    {p : ChatConversationParticipant} :
    d.insertParticipant choice p = .ok ((), d') ↔
      ((∃ v ∈ d.participants, participantKey v = participantKey p) ∧ d' = d) ∨
      ((¬∃ v ∈ d.participants, participantKey v = participantKey p) ∧
        (¬∃ v ∈ d.participants, v.id = choice.uuid) ∧
        (∃ c ∈ d.conversations, c.id = p.conversationID) ∧
        d'.toTables = { d.toTables with
          participants := d.participants ++ [{ p with id := choice.uuid, createdAt := choice.now }] }) := by
  unfold ChatDb.insertParticipant
  dsimp only
  split
  · rename_i hkey
    constructor
    · intro h
      cases h
      exact Or.inl ⟨hkey, rfl⟩
    · rintro (⟨-, rfl⟩ | ⟨h, -⟩)
      · rfl
      · exact absurd hkey h
  rename_i hkey
  split
  · rename_i hid
    constructor
    · intro h
      cases h
    · rintro (⟨h, -⟩ | ⟨-, h, -⟩)
      · exact absurd h hkey
      · exact absurd hid h
  rename_i hid
  split
  · rename_i hc
    constructor
    · intro h
      cases h
      exact Or.inr ⟨hkey, hid, hc, rfl⟩
    · rintro (⟨h, -⟩ | ⟨-, -, -, hd⟩)
      · exact absurd h hkey
      · exact congrArg (fun x => Except.ok ((), x)) (ChatDb.ext_tables hd.symm)
  · rename_i hc
    constructor
    · intro h
      cases h
    · rintro (⟨h, -⟩ | ⟨-, -, h, -⟩)
      · exact absurd h hkey
      · exact absurd h hc

/-- A participant of an existing conversation is accepted. -/
theorem insertParticipant_accepts {d : ChatDb} {choice : Choice} {p : ChatConversationParticipant}
    (hid : ¬∃ v ∈ d.participants, v.id = choice.uuid)
    (hc : ∃ c ∈ d.conversations, c.id = p.conversationID) :
    ∃ d', d.insertParticipant choice p = .ok ((), d') := by
  unfold ChatDb.insertParticipant
  dsimp only
  by_cases hkey : ∃ v ∈ d.participants, participantKey v = (p.conversationID, p.personID)
  · rw [dif_pos hkey]
    exact ⟨_, rfl⟩
  · rw [dif_neg hkey, dif_neg hid, dif_pos hc]
    exact ⟨_, rfl⟩

/-- `INSERT INTO chat_messages`. -/
def ChatDb.insertMessage (d : ChatDb) (choice : Choice) (m : ChatMessage) :
    Except GoError (ChatMessage × ChatDb) :=
  let row : ChatMessage := { m with id := choice.uuid, createdAt := choice.now }
  if hid : ∃ v ∈ d.messages, v.id = row.id then .error (uniqueViolation "chat_messages_pkey")
  else if hw : ∃ w ∈ d.workspaces, w.id = row.workspaceID then
    if hc : ∃ c ∈ d.conversations, c.id = row.conversationID then
      .ok (row, { d with
        messages := d.messages ++ [row]
        valid := { d.valid with
          messages_id := d.valid.messages_id.concat hid
          messages_workspace := forall_mem_concat d.valid.messages_workspace hw
          messages_conversation := forall_mem_concat d.valid.messages_conversation hc } })
    else .error (foreignKeyViolation "chat_messages" "chat_messages_conversation_id_fkey")
  else .error (foreignKeyViolation "chat_messages" "chat_messages_workspace_id_fkey")

/-- When a message is inserted, and what the database is then. -/
theorem insertMessage_ok_iff {d d' : ChatDb} {choice : Choice} {m row : ChatMessage} :
    d.insertMessage choice m = .ok (row, d') ↔
      (¬∃ v ∈ d.messages, v.id = choice.uuid) ∧ (∃ w ∈ d.workspaces, w.id = m.workspaceID) ∧
      (∃ c ∈ d.conversations, c.id = m.conversationID) ∧
      row = { m with id := choice.uuid, createdAt := choice.now } ∧
      d'.toTables = { d.toTables with messages := d.messages ++ [row] } := by
  unfold ChatDb.insertMessage
  dsimp only
  split
  · rename_i hid
    exact ⟨fun h => (by cases h), fun h => absurd hid h.1⟩
  split
  · rename_i hid hw
    split
    · rename_i hc
      constructor
      · intro h
        cases h
        exact ⟨hid, hw, hc, rfl, rfl⟩
      · rintro ⟨-, -, -, rfl, hd⟩
        exact congrArg (fun x => Except.ok (_, x)) (ChatDb.ext_tables hd.symm)
    · rename_i hc
      exact ⟨fun h => (by cases h), fun h => absurd h.2.2.1 hc⟩
  · rename_i hw
    exact ⟨fun h => (by cases h), fun h => absurd h.2.1 hw⟩

/-- A message to an existing workspace and an existing conversation is accepted,
whether or not the two belong together. -/
theorem insertMessage_accepts {d : ChatDb} {choice : Choice} {m : ChatMessage}
    (hid : ¬∃ v ∈ d.messages, v.id = choice.uuid)
    (hw : ∃ w ∈ d.workspaces, w.id = m.workspaceID)
    (hc : ∃ c ∈ d.conversations, c.id = m.conversationID) :
    ∃ row d', d.insertMessage choice m = .ok (row, d') := by
  unfold ChatDb.insertMessage
  dsimp only
  rw [dif_neg hid, dif_pos hw, dif_pos hc]
  exact ⟨_, _, rfl⟩

end AuraWellness.Chat.Schema
