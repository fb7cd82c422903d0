import AuraWellness.Chat.Schema

/-!
# Migration 000006

Before it a message belongs to a workspace only. The script adds the column
`conversation_id`, creates a group conversation for each workspace, moves the
messages there and makes the members its participants, all in one transaction.
The down script drops the column and nothing else.
-/

namespace AuraWellness.Chat.Migration

open AuraWellness.Lib.Keyed
open AuraWellness.Chat.Entities AuraWellness.Chat.Schema

/-- A message before the migration. -/
structure EarlierMessage where
  /-- Primary key. -/
  id : Uuid
  /-- The workspace the message was sent in. -/
  workspaceID : Uuid
  /-- The sender. -/
  personID : Uuid
  /-- The sender's name at the time of sending. -/
  senderName : String
  /-- The text. -/
  content : String
  /-- Time of the insert. -/
  createdAt : Time
  deriving DecidableEq, Repr

/-- The tables after migration 000005. -/
structure EarlierTables where
  /-- `chat_workspaces`. -/
  workspaces : List ChatWorkspace
  /-- `chat_workspace_members`. -/
  members : List ChatWorkspaceMember
  /-- `chat_conversations`. -/
  conversations : List ChatConversation
  /-- `chat_conversation_participants`. -/
  participants : List ChatConversationParticipant
  /-- `chat_messages`. -/
  messages : List EarlierMessage
  deriving DecidableEq, Repr

/-- The constraints of migrations 000001 to 000005, and that generated
identifiers are not nil. -/
structure EarlierTables.Valid (t : EarlierTables) : Prop where
  workspaces_id : UniqueColumn ChatWorkspace.id t.workspaces
  workspaces_bu : UniqueColumn ChatWorkspace.buID t.workspaces
  workspaces_generated : ∀ w ∈ t.workspaces, w.id ≠ Uuid.nil
  members_id : UniqueColumn ChatWorkspaceMember.id t.members
  members_key : UniqueColumn memberKey t.members
  members_workspace : ∀ m ∈ t.members, ∃ w ∈ t.workspaces, w.id = m.workspaceID
  members_role : ∀ m ∈ t.members, m.role = "Admin" ∨ m.role = "Member"
  conversations_id : UniqueColumn ChatConversation.id t.conversations
  conversations_group : UniqueColumn ChatConversation.workspaceID (groups t.conversations)
  conversations_workspace : ∀ c ∈ t.conversations, ∃ w ∈ t.workspaces, w.id = c.workspaceID
  conversations_generated : ∀ c ∈ t.conversations, c.id ≠ Uuid.nil
  participants_id : UniqueColumn ChatConversationParticipant.id t.participants
  participants_key : UniqueColumn participantKey t.participants
  participants_conversation : ∀ p ∈ t.participants, ∃ c ∈ t.conversations, c.id = p.conversationID
  messages_id : UniqueColumn EarlierMessage.id t.messages
  messages_workspace : ∀ m ∈ t.messages, ∃ w ∈ t.workspaces, w.id = m.workspaceID

/-- A message whose new column may still be NULL. -/
structure BackfilledMessage extends EarlierMessage where
  /-- The conversation, or NULL. -/
  conversationID : Option Uuid
  deriving DecidableEq, Repr

/-- The tables while the column may be NULL. -/
structure Backfill where
  /-- `chat_workspaces`. -/
  workspaces : List ChatWorkspace
  /-- `chat_workspace_members`. -/
  members : List ChatWorkspaceMember
  /-- `chat_conversations`. -/
  conversations : List ChatConversation
  /-- `chat_conversation_participants`. -/
  participants : List ChatConversationParticipant
  /-- `chat_messages` with the new column. -/
  messages : List BackfilledMessage

/-- What the environment chooses while the script runs. -/
structure MigrationChoice where
  /-- The values of `gen_random_uuid()` for the new conversations. -/
  conversationIDs : ℕ → Uuid
  /-- The values of `gen_random_uuid()` for the new participants. -/
  participantIDs : ℕ → Uuid
  /-- A generated identifier is not nil. -/
  ids_ne_nil : ∀ n, conversationIDs n ≠ Uuid.nil
  /-- The value of `NOW()` in the transaction. -/
  now : Time

/-- No two generated identifiers are equal. -/
def MigrationChoice.Distinct (choice : MigrationChoice) : Prop :=
  choice.conversationIDs.Injective ∧ choice.participantIDs.Injective

/-- The error of a NULL in a column that forbids it. -/
def notNullViolation (table column : String) : GoError :=
  ⟨.constraint, "ERROR: column \"" ++ column ++ "\" of relation \"" ++ table ++
    "\" contains null values (SQLSTATE 23502)"⟩

/-- Insert rows into `chat_conversations`, all or none. -/
def insertConversations (workspaces : List ChatWorkspace)
    (conversations rows : List ChatConversation) :
    Except GoError (List ChatConversation) :=
  if ¬UniqueColumn ChatConversation.id (conversations ++ rows) then
    .error (uniqueViolation "chat_conversations_pkey")
  else if ¬UniqueColumn ChatConversation.workspaceID (groups (conversations ++ rows)) then
    .error (uniqueViolation "idx_conversations_group_unique")
  else if ¬∀ c ∈ rows, ∃ w ∈ workspaces, w.id = c.workspaceID then
    .error (foreignKeyViolation "chat_conversations" "chat_conversations_workspace_id_fkey")
  else .ok (conversations ++ rows)

/-- Insert rows into `chat_conversation_participants`, all or none. -/
def insertParticipants (conversations : List ChatConversation)
    (participants rows : List ChatConversationParticipant) :
    Except GoError (List ChatConversationParticipant) :=
  if ¬UniqueColumn ChatConversationParticipant.id (participants ++ rows) then
    .error (uniqueViolation "chat_conversation_participants_pkey")
  else if ¬UniqueColumn participantKey (participants ++ rows) then
    .error (uniqueViolation "chat_conversation_participants_conversation_id_person_id_key")
  else if ¬∀ p ∈ rows, ∃ c ∈ conversations, c.id = p.conversationID then
    .error (foreignKeyViolation "chat_conversation_participants"
      "chat_conversation_participants_conversation_id_fkey")
  else .ok (participants ++ rows)

/-- `ALTER TABLE chat_messages ADD COLUMN conversation_id`. -/
def addColumn (t : EarlierTables) : Backfill :=
  ⟨t.workspaces, t.members, t.conversations, t.participants,
    t.messages.map fun m => { m with conversationID := none }⟩

/-- The group conversations for the existing workspaces. -/
def newGroups (choice : MigrationChoice) (workspaces : List ChatWorkspace) :
    List ChatConversation :=
  (numbered choice.conversationIDs workspaces).map fun r => ⟨r.1, r.2.id, .group, choice.now⟩

/-- `INSERT INTO chat_conversations SELECT gen_random_uuid(), id, 'group'`. -/
def createGroups (choice : MigrationChoice) (t : Backfill) : Except GoError Backfill := do
  let conversations ← insertConversations t.workspaces t.conversations
    (newGroups choice t.workspaces)
  return { t with conversations }

/-- The group conversation that the join finds for a workspace. -/
def groupOf (conversations : List ChatConversation) (workspaceID : Uuid) :
    Option ChatConversation :=
  conversations.find? fun c => c.workspaceID = workspaceID ∧ c.type = .group

/-- `UPDATE chat_messages m SET conversation_id = c.id FROM chat_conversations c`. -/
def moveMessages (t : Backfill) : Except GoError Backfill :=
  let messages := t.messages.map fun m =>
    match groupOf t.conversations m.workspaceID with
    | some c => { m with conversationID := some c.id }
    | none => m
  if ¬∀ m ∈ messages, ∀ id ∈ m.conversationID, ∃ c ∈ t.conversations, c.id = id then
    .error (foreignKeyViolation "chat_messages" "chat_messages_conversation_id_fkey")
  else .ok { t with messages }

/-- The message once its column has a value. -/
def BackfilledMessage.complete (m : BackfilledMessage) : Option ChatMessage :=
  m.conversationID.map fun conversationID =>
    ⟨m.id, m.workspaceID, conversationID, m.personID, m.senderName, m.content, m.createdAt⟩

/-- `ALTER TABLE chat_messages ALTER COLUMN conversation_id SET NOT NULL`. -/
def setNotNull (t : Backfill) : Except GoError Tables :=
  if ∃ m ∈ t.messages, m.conversationID = none then
    .error (notNullViolation "chat_messages" "conversation_id")
  else .ok ⟨t.workspaces, t.members, t.conversations, t.participants,
    t.messages.filterMap BackfilledMessage.complete⟩

/-- The rows of the join of group conversations with the members of their
workspaces. -/
def groupMembers (t : Tables) : List (Uuid × Uuid) :=
  (groups t.conversations).flatMap fun c =>
    (t.members.filter fun m => m.workspaceID = c.workspaceID).map fun m => (c.id, m.personID)

/-- The new participants. -/
def newParticipants (choice : MigrationChoice) (t : Tables) : List ChatConversationParticipant :=
  (numbered choice.participantIDs (groupMembers t)).map fun r => ⟨r.1, r.2.1, r.2.2, choice.now⟩

/-- `INSERT INTO chat_conversation_participants SELECT gen_random_uuid(), ..`. -/
def addMembers (choice : MigrationChoice) (t : Tables) : Except GoError Tables := do
  let participants ← insertParticipants t.conversations t.participants (newParticipants choice t)
  return { t with participants }

/-- `000006_add_conversation_id_to_messages.up.sql`. -/
def up (choice : MigrationChoice) (t : EarlierTables) : Except GoError Tables := do
  let t ← createGroups choice (addColumn t)
  let t ← moveMessages t
  let t ← setNotNull t
  addMembers choice t

/-- A message without the column `conversation_id`. -/
def dropColumn (m : ChatMessage) : EarlierMessage :=
  ⟨m.id, m.workspaceID, m.personID, m.senderName, m.content, m.createdAt⟩

/-- `000006_add_conversation_id_to_messages.down.sql`. -/
def down (t : Tables) : EarlierTables :=
  ⟨t.workspaces, t.members, t.conversations, t.participants, t.messages.map dropColumn⟩

/-- The message that the script makes of an earlier one, if its workspace has a
group conversation. -/
def moved (conversations : List ChatConversation) (m : EarlierMessage) : Option ChatMessage :=
  (groupOf conversations m.workspaceID).map fun c =>
    ⟨m.id, m.workspaceID, c.id, m.personID, m.senderName, m.content, m.createdAt⟩

/-- The tables before the last statement. -/
def beforeMembers (choice : MigrationChoice) (t : EarlierTables) : Tables :=
  let conversations := t.conversations ++ newGroups choice t.workspaces
  ⟨t.workspaces, t.members, conversations, t.participants,
    t.messages.filterMap (moved conversations)⟩

/-- The tables that the script leaves when no statement fails. -/
def migrated (choice : MigrationChoice) (t : EarlierTables) : Tables :=
  { beforeMembers choice t with
    participants := t.participants ++ newParticipants choice (beforeMembers choice t) }

/-- Nothing makes a statement of the script fail. -/
structure Migratable (choice : MigrationChoice) (t : EarlierTables) : Prop where
  conversations_id : UniqueColumn ChatConversation.id (migrated choice t).conversations
  conversations_group :
    UniqueColumn ChatConversation.workspaceID (groups (migrated choice t).conversations)
  messages_moved : ∀ m ∈ t.messages,
    groupOf (migrated choice t).conversations m.workspaceID ≠ none
  participants_id : UniqueColumn ChatConversationParticipant.id (migrated choice t).participants
  participants_key : UniqueColumn participantKey (migrated choice t).participants

/-- The new group conversations belong to the workspaces. -/
theorem mem_newGroups {choice : MigrationChoice} {workspaces : List ChatWorkspace}
    {c : ChatConversation} (h : c ∈ newGroups choice workspaces) :
    c.type = .group ∧ c.id ≠ Uuid.nil ∧ ∃ w ∈ workspaces, w.id = c.workspaceID := by
  obtain ⟨r, hr, rfl⟩ := List.mem_map.mp h
  obtain ⟨⟨n, hn⟩, hw⟩ := mem_numbered hr
  refine ⟨rfl, ?_, r.2, hw, rfl⟩
  dsimp only
  rw [hn]
  exact choice.ids_ne_nil n

/-- The rows of the join. -/
theorem mem_groupMembers {t : Tables} {k : Uuid × Uuid} :
    k ∈ groupMembers t ↔ ∃ c ∈ t.conversations, c.type = .group ∧
      ∃ m ∈ t.members, m.workspaceID = c.workspaceID ∧ k = (c.id, m.personID) := by
  simp only [groupMembers, groups, List.mem_flatMap, List.mem_filter, List.mem_map,
    decide_eq_true_eq, eq_comm (b := k), and_assoc]

/-- The new participants are the rows of the join. -/
theorem mem_newParticipants {choice : MigrationChoice} {t : Tables}
    {p : ChatConversationParticipant} (h : p ∈ newParticipants choice t) :
    participantKey p ∈ groupMembers t := by
  obtain ⟨r, hr, rfl⟩ := List.mem_map.mp h
  exact (mem_numbered hr).2

/-- Three checks of which the last one passes. -/
theorem checks_ok_iff {α : Type} {a b c : Prop} [Decidable a] [Decidable b] [Decidable c]
    {e₁ e₂ e₃ : GoError} {x y : α} (hc : c) :
    (if ¬a then .error e₁ else if ¬b then .error e₂ else if ¬c then .error e₃ else .ok x :
      Except GoError α) = .ok y ↔ a ∧ b ∧ y = x := by
  by_cases ha : a
  · by_cases hb : b
    · rw [if_neg (not_not_intro ha), if_neg (not_not_intro hb), if_neg (not_not_intro hc)]
      exact ⟨fun h => ⟨ha, hb, (Except.ok.inj h).symm⟩, fun h => by rw [h.2.2]⟩
    · rw [if_neg (not_not_intro ha), if_pos hb]
      exact ⟨fun h => (by cases h), fun h => absurd h.2.1 hb⟩
  · rw [if_pos ha]
    exact ⟨fun h => (by cases h), fun h => absurd h.1 ha⟩

/-- The group conversations are created unless a unique index forbids it. -/
theorem createGroups_ok_iff {choice : MigrationChoice} {t t' : Backfill} :
    createGroups choice t = .ok t' ↔
      UniqueColumn ChatConversation.id (t.conversations ++ newGroups choice t.workspaces) ∧
      UniqueColumn ChatConversation.workspaceID
        (groups (t.conversations ++ newGroups choice t.workspaces)) ∧
      t' = { t with conversations := t.conversations ++ newGroups choice t.workspaces } := by
  have hrows : ∀ c ∈ newGroups choice t.workspaces, ∃ w ∈ t.workspaces, w.id = c.workspaceID :=
    fun c hc => (mem_newGroups hc).2.2
  unfold createGroups
  cases hr : insertConversations t.workspaces t.conversations (newGroups choice t.workspaces) with
  | ok all =>
    obtain ⟨hid, hg, rfl⟩ := (checks_ok_iff hrows).mp hr
    exact ⟨fun h => ⟨hid, hg, (Except.ok.inj h).symm⟩, fun h => by rw [h.2.2]; rfl⟩
  | error e =>
    refine ⟨fun h => (by cases h), fun ⟨hid, hg, _⟩ => ?_⟩
    cases hr.symm.trans ((checks_ok_iff hrows).mpr ⟨hid, hg, rfl⟩)

/-- The participants are added unless a unique index forbids it. -/
theorem addMembers_ok_iff {choice : MigrationChoice} {t t' : Tables} :
    addMembers choice t = .ok t' ↔
      UniqueColumn ChatConversationParticipant.id (t.participants ++ newParticipants choice t) ∧
      UniqueColumn participantKey (t.participants ++ newParticipants choice t) ∧
      t' = { t with participants := t.participants ++ newParticipants choice t } := by
  have hrows : ∀ p ∈ newParticipants choice t, ∃ c ∈ t.conversations, c.id = p.conversationID := by
    intro p hp
    obtain ⟨c, hc, -, m, -, -, hkey⟩ := mem_groupMembers.mp (mem_newParticipants hp)
    exact ⟨c, hc, (congrArg Prod.fst hkey).symm⟩
  unfold addMembers
  cases hr : insertParticipants t.conversations t.participants (newParticipants choice t) with
  | ok all =>
    obtain ⟨hid, hk, rfl⟩ := (checks_ok_iff hrows).mp hr
    exact ⟨fun h => ⟨hid, hk, (Except.ok.inj h).symm⟩, fun h => by rw [h.2.2]; rfl⟩
  | error e =>
    refine ⟨fun h => (by cases h), fun ⟨hid, hk, _⟩ => ?_⟩
    cases hr.symm.trans ((checks_ok_iff hrows).mpr ⟨hid, hk, rfl⟩)

/-- The conversation that the join finds is stored. -/
theorem groupOf_some {conversations : List ChatConversation} {w : Uuid} {c : ChatConversation}
    (h : groupOf conversations w = some c) :
    c ∈ conversations ∧ c.workspaceID = w ∧ c.type = .group :=
  ⟨List.mem_of_find?_eq_some h, by simpa using List.find?_some h⟩

/-- The join finds the one group conversation of a workspace. -/
theorem groupOf_eq_some {conversations : List ChatConversation}
    (hg : UniqueColumn ChatConversation.workspaceID (groups conversations)) {c : ChatConversation}
    (hc : c ∈ conversations) (htype : c.type = .group) :
    groupOf conversations c.workspaceID = some c := by
  cases hf : groupOf conversations c.workspaceID with
  | none => exact absurd (List.find?_eq_none.mp hf c hc) (by simp [htype])
  | some v =>
    obtain ⟨hv, hvw, hvtype⟩ := groupOf_some hf
    rw [hg.eq (List.mem_filter.mpr ⟨hv, by simp [hvtype]⟩)
      (List.mem_filter.mpr ⟨hc, by simp [htype]⟩) hvw]

/-- The messages after the update, in the table in which the column may be
NULL. -/
def pointed (conversations : List ChatConversation) (m : EarlierMessage) : BackfilledMessage :=
  { m with conversationID := (groupOf conversations m.workspaceID).map ChatConversation.id }

/-- The update writes the identifiers of stored conversations and cannot fail. -/
theorem moveMessages_addColumn (conversations : List ChatConversation) (t : EarlierTables) :
    moveMessages ⟨t.workspaces, t.members, conversations, t.participants, (addColumn t).messages⟩ =
      .ok ⟨t.workspaces, t.members, conversations, t.participants,
        t.messages.map (pointed conversations)⟩ := by
  have hmap : ((addColumn t).messages.map fun m =>
      match groupOf conversations m.workspaceID with
      | some c => { m with conversationID := some c.id }
      | none => m) = t.messages.map (pointed conversations) := by
    refine (List.map_map).trans (List.map_congr_left fun m _ => ?_)
    dsimp only [Function.comp, pointed]
    cases groupOf conversations m.workspaceID <;> rfl
  have hkeys : ∀ m ∈ t.messages.map (pointed conversations), ∀ id ∈ m.conversationID,
      ∃ c ∈ conversations, c.id = id := by
    intro m hm id hid
    obtain ⟨m, -, rfl⟩ := List.mem_map.mp hm
    obtain ⟨c, hc, rfl⟩ := Option.map_eq_some_iff.mp hid
    exact ⟨c, (groupOf_some hc).1, rfl⟩
  unfold moveMessages
  dsimp only
  rw [hmap, if_neg (not_not_intro hkeys)]

/-- The column can be made NOT NULL when every message has a conversation. -/
theorem setNotNull_ok_iff {workspaces : List ChatWorkspace} {members : List ChatWorkspaceMember}
    {conversations : List ChatConversation} {participants : List ChatConversationParticipant}
    {messages : List EarlierMessage} {t' : Tables} :
    setNotNull ⟨workspaces, members, conversations, participants,
        messages.map (pointed conversations)⟩ = .ok t' ↔
      (∀ m ∈ messages, groupOf conversations m.workspaceID ≠ none) ∧
      t' = ⟨workspaces, members, conversations, participants,
        messages.filterMap (moved conversations)⟩ := by
  have hnull : (∃ m ∈ messages.map (pointed conversations), m.conversationID = none) ↔
      ¬∀ m ∈ messages, groupOf conversations m.workspaceID ≠ none := by
    simp [pointed]
  have hcomplete : (messages.map (pointed conversations)).filterMap BackfilledMessage.complete =
      messages.filterMap (moved conversations) := by
    rw [List.filterMap_map]
    refine List.filterMap_congr fun m _ => ?_
    dsimp only [Function.comp, pointed, moved, BackfilledMessage.complete]
    cases groupOf conversations m.workspaceID <;> rfl
  unfold setNotNull
  dsimp only
  rw [hcomplete]
  by_cases hall : ∀ m ∈ messages, groupOf conversations m.workspaceID ≠ none
  · rw [if_neg (fun h => hnull.mp h hall)]
    exact ⟨fun h => ⟨hall, (Except.ok.inj h).symm⟩, fun h => by rw [h.2]⟩
  · rw [if_pos (hnull.mpr hall)]
    exact ⟨fun h => (by cases h), fun h => absurd h.1 hall⟩

/-- When the script succeeds, and what it leaves. -/
theorem up_ok_iff {choice : MigrationChoice} {t : EarlierTables} {t' : Tables} :
    up choice t = .ok t' ↔ Migratable choice t ∧ t' = migrated choice t := by
  have hmove := moveMessages_addColumn (t.conversations ++ newGroups choice t.workspaces) t
  unfold up
  cases hc : createGroups choice (addColumn t) with
  | error e =>
    refine ⟨fun h => (by cases h), fun ⟨h, _⟩ => ?_⟩
    cases hc.symm.trans
      (createGroups_ok_iff.mpr ⟨h.conversations_id, h.conversations_group, rfl⟩)
  | ok b =>
    obtain ⟨hid, hg, rfl⟩ := createGroups_ok_iff.mp hc
    refine (?_ : (moveMessages ⟨t.workspaces, t.members,
      t.conversations ++ newGroups choice t.workspaces, t.participants, (addColumn t).messages⟩ >>=
      fun t => setNotNull t >>= fun t => addMembers choice t) = _ ↔ _)
    rw [hmove]
    refine (?_ : (setNotNull _ >>= fun t => addMembers choice t) = _ ↔ _)
    cases hn : setNotNull ⟨t.workspaces, t.members,
        t.conversations ++ newGroups choice t.workspaces, t.participants, t.messages.map
          (pointed (t.conversations ++ newGroups choice t.workspaces))⟩ with
    | error e =>
      refine ⟨fun h => (by cases h), fun ⟨h, _⟩ => ?_⟩
      cases hn.symm.trans (setNotNull_ok_iff.mpr ⟨h.messages_moved, rfl⟩)
    | ok b =>
      obtain ⟨hmoved, rfl⟩ := setNotNull_ok_iff.mp hn
      refine addMembers_ok_iff.trans ⟨?_, ?_⟩
      · rintro ⟨hpid, hpk, rfl⟩
        exact ⟨⟨hid, hg, hmoved, hpid, hpk⟩, rfl⟩
      · rintro ⟨h, rfl⟩
        exact ⟨h.participants_id, h.participants_key, rfl⟩

/-- The script keeps every message with its other columns. -/
theorem map_dropColumn_moved {conversations : List ChatConversation}
    {messages : List EarlierMessage}
    (h : ∀ m ∈ messages, groupOf conversations m.workspaceID ≠ none) :
    (messages.filterMap (moved conversations)).map dropColumn = messages := by
  induction messages with
  | nil => rfl
  | cons m messages ih =>
    obtain ⟨c, hc⟩ := Option.ne_none_iff_exists'.mp (h m List.mem_cons_self)
    have hm : moved conversations m =
        some ⟨m.id, m.workspaceID, c.id, m.personID, m.senderName, m.content, m.createdAt⟩ := by
      rw [moved, hc]
      rfl
    rw [List.filterMap_cons_some hm, List.map_cons,
      ih fun m hm => h m (List.mem_cons_of_mem _ hm)]
    rfl

/-- A message of the new table points to the group conversation of its workspace. -/
theorem mem_moved {conversations : List ChatConversation} {messages : List EarlierMessage}
    {m : ChatMessage} (h : m ∈ messages.filterMap (moved conversations)) :
    ∃ c ∈ conversations, c.workspaceID = m.workspaceID ∧ c.type = .group ∧
      m.conversationID = c.id := by
  obtain ⟨m₀, -, hm⟩ := List.mem_filterMap.mp h
  obtain ⟨c, hc, rfl⟩ := Option.map_eq_some_iff.mp hm
  obtain ⟨hstored, hw, htype⟩ := groupOf_some hc
  exact ⟨c, hstored, hw, htype, rfl⟩

/-- The script leads to tables that the schema allows. -/
theorem up_valid {choice : MigrationChoice} {t : EarlierTables} {t' : Tables} (h : t.Valid)
    (hup : up choice t = .ok t') : t'.Valid := by
  obtain ⟨hm, rfl⟩ := up_ok_iff.mp hup
  have hmessages := map_dropColumn_moved hm.messages_moved
  have hold : ∀ m ∈ (migrated choice t).messages, dropColumn m ∈ t.messages := by
    intro m hmem
    rw [← hmessages]
    exact List.mem_map_of_mem hmem
  refine { h with
    workspaces_id := h.workspaces_id
    members_id := h.members_id
    conversations_id := hm.conversations_id
    conversations_group := hm.conversations_group
    conversations_workspace := fun c hc => ?_
    conversations_generated := fun c hc => ?_
    participants_id := hm.participants_id
    participants_key := hm.participants_key
    participants_conversation := fun p hp => ?_
    messages_id := ?_
    messages_workspace := fun m hmem => h.messages_workspace _ (hold m hmem)
    messages_conversation := fun m hmem => ?_ }
  · obtain hc | hc := List.mem_append.mp hc
    · exact h.conversations_workspace c hc
    · exact (mem_newGroups hc).2.2
  · obtain hc | hc := List.mem_append.mp hc
    · exact h.conversations_generated c hc
    · exact (mem_newGroups hc).2.1
  · obtain hp | hp := List.mem_append.mp hp
    · obtain ⟨c, hc, he⟩ := h.participants_conversation p hp
      exact ⟨c, List.mem_append_left _ hc, he⟩
    · obtain ⟨c, hc, -, m, -, -, hkey⟩ := mem_groupMembers.mp (mem_newParticipants hp)
      exact ⟨c, hc, (congrArg Prod.fst hkey).symm⟩
  · have hid := h.messages_id
    rw [← hmessages] at hid
    unfold UniqueColumn at hid ⊢
    rw [List.map_map] at hid
    exact hid
  · obtain ⟨c, hc, -, -, he⟩ := mem_moved hmem
    exact ⟨c, hc, he.symm⟩

/-- Each workspace gets a group conversation. -/
theorem exists_mem_newGroups (choice : MigrationChoice) {workspaces : List ChatWorkspace}
    {w : ChatWorkspace} (hw : w ∈ workspaces) :
    ∃ c ∈ newGroups choice workspaces, c.type = .group ∧ c.workspaceID = w.id := by
  obtain ⟨k, hk⟩ := exists_mem_numbered choice.conversationIDs hw
  exact ⟨_, List.mem_map_of_mem hk, rfl, rfl⟩

theorem map_workspaceID_newGroups (choice : MigrationChoice) (workspaces : List ChatWorkspace) :
    (newGroups choice workspaces).map ChatConversation.workspaceID =
      workspaces.map ChatWorkspace.id := by
  unfold newGroups
  rw [List.map_map]
  refine (?_ : (numbered choice.conversationIDs workspaces).map (ChatWorkspace.id ∘ Prod.snd) = _)
  rw [← List.map_map, map_snd_numbered]

theorem groups_newGroups (choice : MigrationChoice) (workspaces : List ChatWorkspace) :
    groups (newGroups choice workspaces) = newGroups choice workspaces :=
  List.filter_eq_self.mpr fun c hc => by simp [(mem_newGroups hc).1]

theorem map_key_newParticipants (choice : MigrationChoice) (t : Tables) :
    (newParticipants choice t).map participantKey = groupMembers t := by
  unfold newParticipants
  rw [List.map_map]
  refine (?_ : (numbered choice.participantIDs (groupMembers t)).map Prod.snd = _)
  rw [map_snd_numbered]

/-- The join delivers no pair twice. -/
theorem nodup_groupMembers {t : Tables} (hc : UniqueColumn ChatConversation.id t.conversations)
    (hm : UniqueColumn memberKey t.members) : (groupMembers t).Nodup := by
  refine List.nodup_flatMap.mpr ⟨fun c _ => ?_, ?_⟩
  · refine List.Nodup.map_on (fun m hm₁ m' hm₂ he => ?_) (hm.nodup.filter _)
    obtain ⟨hmem, hw⟩ := List.mem_filter.mp hm₁
    obtain ⟨hmem', hw'⟩ := List.mem_filter.mp hm₂
    rw [decide_eq_true_eq] at hw hw'
    exact hm.eq hmem hmem' (Prod.ext (hw.trans hw'.symm) (Prod.mk.inj he).2)
  · have hids : (groups t.conversations).Pairwise fun c c' => c.id ≠ c'.id :=
      List.pairwise_map.mp (hc.filter _)
    refine hids.imp fun hne => ?_
    intro k hk hk'
    obtain ⟨m, -, rfl⟩ := List.mem_map.mp hk
    obtain ⟨m', -, he⟩ := List.mem_map.mp hk'
    exact hne (Prod.mk.inj he).1.symm

/-- With distinct generated identifiers, nothing makes the script fail when there
is no conversation yet. -/
theorem migratable {choice : MigrationChoice} {t : EarlierTables} (h : t.Valid)
    (hempty : t.conversations = []) (hdistinct : choice.Distinct) : Migratable choice t := by
  have hconversations : (migrated choice t).conversations = newGroups choice t.workspaces := by
    refine (?_ : t.conversations ++ newGroups choice t.workspaces = _)
    rw [hempty, List.nil_append]
  have hnobody : t.participants = [] := by
    refine List.eq_nil_iff_forall_not_mem.mpr fun p hp => ?_
    obtain ⟨c, hc, -⟩ := h.participants_conversation p hp
    rw [hempty] at hc
    cases hc
  have hparticipants : (migrated choice t).participants =
      newParticipants choice (beforeMembers choice t) := by
    refine (?_ : t.participants ++ _ = _)
    rw [hnobody, List.nil_append]
  have hids : UniqueColumn ChatConversation.id (migrated choice t).conversations := by
    rw [hconversations]
    unfold UniqueColumn newGroups
    rw [List.map_map]
    exact uniqueColumn_numbered hdistinct.1 t.workspaces
  have hgroup : UniqueColumn ChatConversation.workspaceID
      (groups (migrated choice t).conversations) := by
    rw [hconversations, groups_newGroups]
    unfold UniqueColumn
    rw [map_workspaceID_newGroups]
    exact h.workspaces_id
  refine ⟨hids, hgroup, fun m hm => ?_, ?_, ?_⟩
  · obtain ⟨w, hw, hmw⟩ := h.messages_workspace m hm
    obtain ⟨c, hc, htype, hcw⟩ := exists_mem_newGroups choice hw
    rw [← hmw, ← hcw, groupOf_eq_some hgroup (by rw [hconversations]; exact hc) htype]
    exact Option.some_ne_none c
  · rw [hparticipants]
    unfold UniqueColumn newParticipants
    rw [List.map_map]
    exact uniqueColumn_numbered hdistinct.2 _
  · rw [hparticipants]
    unfold UniqueColumn
    rw [map_key_newParticipants]
    exact nodup_groupMembers hids h.members_key

/-- Where the script succeeds there was no group conversation before. -/
theorem Migratable.not_group {choice : MigrationChoice} {t : EarlierTables}
    (hm : Migratable choice t) (h : t.Valid) {c : ChatConversation} (hc : c ∈ t.conversations) :
    c.type ≠ .group := by
  intro htype
  obtain ⟨w, hw, hwc⟩ := h.conversations_workspace c hc
  obtain ⟨c', hc', htype', hcw'⟩ := exists_mem_newGroups choice hw
  have hgroup : ∀ v ∈ t.conversations ++ newGroups choice t.workspaces, v.type = .group →
      v ∈ groups (migrated choice t).conversations := fun v hv htype =>
    List.mem_filter.mpr ⟨hv, by simp [htype]⟩
  have he : c = c' := hm.conversations_group.eq (hgroup c (List.mem_append_left _ hc) htype)
    (hgroup c' (List.mem_append_right _ hc') htype') (hwc.symm.trans hcw'.symm)
  have hids : ((t.conversations ++ newGroups choice t.workspaces).map ChatConversation.id).Nodup :=
    hm.conversations_id
  rw [List.map_append] at hids
  refine (List.nodup_append.mp hids).2.2 c.id (List.mem_map_of_mem hc) c'.id
    (List.mem_map_of_mem hc') ?_
  rw [he]

/-- The participants of a group conversation after the script are the members of
its workspace, each once. -/
theorem Migratable.participants_perm {choice : MigrationChoice} {t : EarlierTables}
    (hm : Migratable choice t) (h : t.Valid) {c : ChatConversation}
    (hc : c ∈ (migrated choice t).conversations) (htype : c.type = .group) :
    (((migrated choice t).participants.filter fun p => p.conversationID = c.id).map
        ChatConversationParticipant.personID).Perm
      ((t.members.filter fun m => m.workspaceID = c.workspaceID).map
        ChatWorkspaceMember.personID) := by
  refine (List.perm_ext_iff_of_nodup ?_ ?_).mpr fun x => ?_
  · refine List.Nodup.map_on (fun p hp p' hp' he => ?_) (hm.participants_id.nodup.filter _)
    obtain ⟨hp, hpc⟩ := List.mem_filter.mp hp
    obtain ⟨hp', hpc'⟩ := List.mem_filter.mp hp'
    rw [decide_eq_true_eq] at hpc hpc'
    exact hm.participants_key.eq hp hp' (Prod.ext (hpc.trans hpc'.symm) he)
  · refine List.Nodup.map_on (fun m hmem m' hmem' he => ?_) (h.members_key.nodup.filter _)
    obtain ⟨hmem, hw⟩ := List.mem_filter.mp hmem
    obtain ⟨hmem', hw'⟩ := List.mem_filter.mp hmem'
    rw [decide_eq_true_eq] at hw hw'
    exact h.members_key.eq hmem hmem' (Prod.ext (hw.trans hw'.symm) he)
  · simp only [List.mem_map, List.mem_filter, decide_eq_true_eq]
    constructor
    · rintro ⟨p, ⟨hp, hpc⟩, rfl⟩
      obtain hp | hp := List.mem_append.mp hp
      · obtain ⟨c₀, hc₀, he⟩ := h.participants_conversation p hp
        have hsame : c₀ = c := hm.conversations_id.eq (List.mem_append_left _ hc₀) hc
          (he.trans hpc)
        rw [hsame] at hc₀
        exact absurd htype (hm.not_group h hc₀)
      · obtain ⟨c₀, hc₀, -, m, hmem, hw, hkey⟩ := mem_groupMembers.mp (mem_newParticipants hp)
        obtain ⟨hid, hperson⟩ := Prod.mk.inj hkey
        have hsame : c₀ = c := hm.conversations_id.eq hc₀ hc (hid.symm.trans hpc)
        rw [hsame] at hw
        exact ⟨m, ⟨hmem, hw⟩, hperson.symm⟩
    · rintro ⟨m, ⟨hmem, hw⟩, rfl⟩
      have hkey : (c.id, m.personID) ∈ groupMembers (beforeMembers choice t) :=
        mem_groupMembers.mpr ⟨c, hc, htype, m, hmem, hw, rfl⟩
      rw [← map_key_newParticipants choice] at hkey
      obtain ⟨p, hp, hpk⟩ := List.mem_map.mp hkey
      obtain ⟨hpc, hperson⟩ := Prod.mk.inj hpk
      exact ⟨p, ⟨List.mem_append_right _ hp, hpc⟩, hperson⟩

/-- The script has moved everything: the workspaces, the members and all columns
of the messages are unchanged, and each workspace has one conversation, of type
group, with its members as participants and its messages. -/
structure Preserved (t : EarlierTables) (t' : Tables) : Prop where
  valid : t'.Valid
  workspaces : t'.workspaces = t.workspaces
  members : t'.members = t.members
  messages : t'.messages.map dropColumn = t.messages
  conversation : ∀ w ∈ t.workspaces, ∃ c,
    (t'.conversations.filter fun v => v.workspaceID = w.id) = [c] ∧ c.type = .group ∧
    ((t'.participants.filter fun p => p.conversationID = c.id).map
        ChatConversationParticipant.personID).Perm
      ((t.members.filter fun m => m.workspaceID = w.id).map ChatWorkspaceMember.personID) ∧
    ((t'.messages.filter fun m => m.conversationID = c.id).map dropColumn) =
      t.messages.filter fun m => m.workspaceID = w.id

/-- On every database after migration 000005 without conversations the script
succeeds and preserves every message. -/
theorem up_preserves {choice : MigrationChoice} {t : EarlierTables} (h : t.Valid)
    (hempty : t.conversations = []) (hdistinct : choice.Distinct) :
    ∃ t', up choice t = .ok t' ∧ Preserved t t' := by
  have hm := migratable h hempty hdistinct
  have hup : up choice t = .ok (migrated choice t) := up_ok_iff.mpr ⟨hm, rfl⟩
  have hmessages : (migrated choice t).messages.map dropColumn = t.messages :=
    map_dropColumn_moved hm.messages_moved
  refine ⟨_, hup, up_valid h hup, rfl, rfl, hmessages, fun w hw => ?_⟩
  obtain ⟨c, hnew, htype, hcw⟩ := exists_mem_newGroups choice hw
  have hc : c ∈ (migrated choice t).conversations := List.mem_append_right _ hnew
  have hall : ∀ v ∈ (migrated choice t).conversations, v.type = .group := by
    intro v hv
    obtain hv | hv := List.mem_append.mp hv
    · rw [hempty] at hv
      cases hv
    · exact (mem_newGroups hv).1
  have honly : ∀ v ∈ (migrated choice t).conversations, v.workspaceID = w.id → v = c := by
    intro v hv hvw
    exact hm.conversations_group.eq (List.mem_filter.mpr ⟨hv, by simp [hall v hv]⟩)
      (List.mem_filter.mpr ⟨hc, by simp [htype]⟩) (hvw.trans hcw.symm)
  refine ⟨c, ?_, htype, ?_, ?_⟩
  · refine List.perm_singleton.mp ((List.perm_ext_iff_of_nodup
      (hm.conversations_id.nodup.filter _) (List.nodup_singleton c)).mpr fun v => ?_)
    rw [List.mem_filter, decide_eq_true_eq, List.mem_singleton]
    exact ⟨fun hv => honly v hv.1 hv.2, fun hv => by rw [hv]; exact ⟨hc, hcw⟩⟩
  · rw [← hcw]
    exact hm.participants_perm h hc htype
  · have hsame : ((migrated choice t).messages.filter fun m => m.conversationID = c.id) =
        (migrated choice t).messages.filter fun m => (dropColumn m).workspaceID = w.id := by
      refine List.filter_congr fun m hmem => ?_
      obtain ⟨v, hv, hvw, -, hmv⟩ := mem_moved hmem
      refine decide_eq_decide.mpr ⟨fun he => ?_, fun he => ?_⟩
      · have hvc : v = c := hm.conversations_id.eq hv hc (hmv.symm.trans he)
        rw [← hcw, ← hvc]
        exact hvw.symm
      · rw [hmv, honly v hv (hvw.trans he)]
    rw [hsame, ← hmessages, List.filter_map]
    rfl

/-- Generated identifiers counted from these numbers on. -/
def MigrationChoice.counting (conversation participant : ℕ) : MigrationChoice :=
  ⟨fun n => conversation + 1 + n, fun n => participant + n,
    fun n => Nat.ne_of_gt ((Nat.succ_pos conversation).trans_le (Nat.le_add_right _ n)), 0⟩

theorem MigrationChoice.counting_distinct (conversation participant : ℕ) :
    (MigrationChoice.counting conversation participant).Distinct :=
  ⟨fun _ _ h => Nat.add_left_cancel h, fun _ _ h => Nat.add_left_cancel h⟩

/-- A workspace with two members and a message. -/
def twoMembers : EarlierTables where
  workspaces := [⟨10, 9, 3, "HQ", 0⟩]
  members := [⟨20, 10, 1, "Admin", true, 0⟩, ⟨21, 10, 2, "Member", false, 0⟩]
  conversations := []
  participants := []
  messages := [⟨40, 10, 1, "Ann Lee", "hello", 5⟩]

theorem twoMembers_valid : twoMembers.Valid := by
  constructor <;> decide

/-- The workspace with two members is migrated. -/
theorem up_preserves_twoMembers :
    ∃ t', up (.counting 99 200) twoMembers = .ok t' ∧ Preserved twoMembers t' :=
  up_preserves twoMembers_valid rfl (MigrationChoice.counting_distinct 99 200)

/-- Two tables are the same up to generated identifiers and times. -/
def SameUpToGenerated (t t' : Tables) : Prop :=
  t.workspaces = t'.workspaces ∧ t.members = t'.members ∧ ∃ rename : Uuid → Uuid,
    (∀ c ∈ t.conversations, ∀ c' ∈ t.conversations, rename c.id = rename c'.id → c.id = c'.id) ∧
    (t.conversations.map fun c => (rename c.id, c.workspaceID, c.type)) =
      (t'.conversations.map fun c => (c.id, c.workspaceID, c.type)) ∧
    (t.participants.map fun p => (rename p.conversationID, p.personID)) =
      t'.participants.map participantKey ∧
    (t.messages.map fun m => { m with conversationID := rename m.conversationID }) = t'.messages

/-- Running the script down after up gives the tables of before, and running it up
again succeeds with the same result. -/
def RollsBack (first second : MigrationChoice) (t : EarlierTables) : Prop :=
  ∃ t₁, up first t = .ok t₁ ∧ down t₁ = t ∧
    ∃ t₂, up second (down t₁) = .ok t₂ ∧ SameUpToGenerated t₁ t₂

/-- Without the column the constraints of before still hold. -/
theorem down_valid {t : Tables} (h : t.Valid) : (down t).Valid := by
  refine { h with
    messages_id := ?_
    messages_workspace := fun m hm => ?_ }
  · refine (?_ : ((t.messages.map dropColumn).map EarlierMessage.id).Nodup)
    rw [List.map_map]
    exact h.messages_id
  · obtain ⟨m₀, hm₀, rfl⟩ := List.mem_map.mp hm
    exact h.messages_workspace m₀ hm₀

/-- After a rollback the script fails as soon as there is a workspace: its group
conversation is still there. -/
theorem up_down_fails {first : MigrationChoice} (second : MigrationChoice) {t : EarlierTables}
    {t₁ : Tables} (h : t.Valid) (hup : up first t = .ok t₁) {w : ChatWorkspace}
    (hw : w ∈ t.workspaces) :
    ∃ e, up second (down t₁) = .error e := by
  cases hagain : up second (down t₁) with
  | error e => exact ⟨e, rfl⟩
  | ok t₂ =>
    have hvalid := down_valid (up_valid h hup)
    obtain ⟨-, rfl⟩ := up_ok_iff.mp hup
    obtain ⟨c, hc, htype, -⟩ := exists_mem_newGroups first hw
    exact absurd htype ((up_ok_iff.mp hagain).1.not_group hvalid (List.mem_append_right _ hc))

/-- A database without workspaces and conversations is empty. -/
theorem EarlierTables.Valid.eq_empty {t : EarlierTables} (h : t.Valid)
    (hempty : t.conversations = []) (hworkspaces : t.workspaces = []) : t = ⟨[], [], [], [], []⟩ := by
  have hmembers : t.members = [] := List.eq_nil_iff_forall_not_mem.mpr fun m hm => by
    obtain ⟨w, hw, -⟩ := h.members_workspace m hm
    rw [hworkspaces] at hw
    cases hw
  have hmessages : t.messages = [] := List.eq_nil_iff_forall_not_mem.mpr fun m hm => by
    obtain ⟨w, hw, -⟩ := h.messages_workspace m hm
    rw [hworkspaces] at hw
    cases hw
  have hparticipants : t.participants = [] := List.eq_nil_iff_forall_not_mem.mpr fun p hp => by
    obtain ⟨c, hc, -⟩ := h.participants_conversation p hp
    rw [hempty] at hc
    cases hc
  obtain ⟨workspaces, members, conversations, participants, messages⟩ := t
  dsimp only at hworkspaces hmembers hempty hparticipants hmessages
  rw [hworkspaces, hmembers, hempty, hparticipants, hmessages]

/-- Down and up again does nothing exactly when there is no workspace. -/
theorem rollsBack_iff {first second : MigrationChoice} {t : EarlierTables} (h : t.Valid)
    (hempty : t.conversations = []) : RollsBack first second t ↔ t.workspaces = [] := by
  constructor
  · rintro ⟨t₁, hup, -, t₂, hagain, -⟩
    by_contra hne
    obtain ⟨w, hw⟩ := List.exists_mem_of_ne_nil _ hne
    obtain ⟨e, he⟩ := up_down_fails second h hup hw
    cases he.symm.trans hagain
  · intro hworkspaces
    rw [h.eq_empty hempty hworkspaces]
    exact ⟨⟨[], [], [], [], []⟩, rfl, rfl, ⟨[], [], [], [], []⟩, rfl, rfl, rfl, id,
      fun c hc => (by cases hc), rfl, rfl, rfl⟩

/-- An empty database can be rolled back and forward. -/
theorem rollsBack_empty :
    RollsBack (.counting 99 200) (.counting 299 400) ⟨[], [], [], [], []⟩ :=
  (rollsBack_iff (by constructor <;> decide) rfl).mpr rfl

/-- With one workspace the second run up violates the unique index. -/
theorem rollsBack_not_always :
    ¬∀ first second t, t.Valid → t.conversations = [] → first.Distinct → second.Distinct →
      RollsBack first second t := by
  intro h
  obtain ⟨t₁, hup, -, t₂, hagain, -⟩ := h (.counting 99 200) (.counting 299 400) twoMembers
    twoMembers_valid rfl (MigrationChoice.counting_distinct 99 200)
    (MigrationChoice.counting_distinct 299 400)
  have hfails : (up (.counting 99 200) twoMembers).bind (fun t => up (.counting 299 400) (down t)) =
      .error (uniqueViolation "idx_conversations_group_unique") := by decide
  rw [hup] at hfails
  cases hagain.symm.trans hfails

end AuraWellness.Chat.Migration
