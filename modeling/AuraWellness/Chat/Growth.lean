import AuraWellness.Chat.Services

/-!
# What one call can do to the chat database

An effect names the one insert or update behind a call. The tables of
workspaces, conversations, participants and messages only grow, and a member
keeps its key and identifier; only the creating calls append rows.
-/

namespace AuraWellness.Chat.Growth

open AuraWellness.Lib.Keyed AuraWellness.Lib.Calls AuraWellness.Lib.Ranked
open AuraWellness.Chat.Entities AuraWellness.Chat.Schema AuraWellness.Chat.Repositories
open AuraWellness.Chat.Services

/-- The rows that a successful upsert leaves: one new member, or the roles of
the members with the key. -/
theorem upsert_ok {d d' : ChatDb} {choice : Choice} {m row : ChatWorkspaceMember}
    (h : MemberRepo.upsert d choice m = .ok (row, d')) :
    (m.role = "Admin" ∨ m.role = "Member") ∧
      (((¬∃ v ∈ d.members, memberKey v = memberKey m) ∧
          row = { m with id := choice.uuid, createdAt := choice.now } ∧
          (∃ w ∈ d.workspaces, w.id = m.workspaceID) ∧
          d'.toTables = { d.toTables with members := d.members ++ [row] }) ∨
        ((∃ v ∈ d.members, memberKey v = memberKey m) ∧
          d'.toTables = { d.toTables with
            members := d.members.map fun v =>
              if memberKey v = memberKey m then { v with role := m.role } else v })) := by
  unfold MemberRepo.upsert at h
  split at h
  · cases h
  split at h
  · rename_i hrole
    refine ⟨hrole, ?_⟩
    split at h
    · rename_i hkey
      dsimp only at h
      split at h
      · cases h
        exact Or.inr ⟨hkey, rfl⟩
      · cases h
    · rename_i hkey
      obtain ⟨-, hw, hrow, hd⟩ := insertMember_ok_iff.mp h
      exact Or.inl ⟨hkey, hrow, hw, hd⟩
  · cases h

/-- The rows that a successful access update leaves. -/
theorem updateAccess_ok {d d' : ChatDb} {choice : Choice} {w p : Uuid} {access : Bool}
    {row : ChatWorkspaceMember} (h : MemberRepo.updateAccess d choice w p access = .ok (row, d')) :
    ((¬∃ v ∈ d.members, memberKey v = (w, p)) ∧
        row = ⟨choice.uuid, w, p, "Member", access, choice.now⟩ ∧
        (∃ v ∈ d.workspaces, v.id = w) ∧
        d'.toTables = { d.toTables with members := d.members ++ [row] }) ∨
      ((∃ v ∈ d.members, memberKey v = (w, p)) ∧
        d'.toTables = { d.toTables with
          members := d.members.map fun v =>
            if memberKey v = (w, p) then { v with hasAccess := access } else v }) := by
  unfold MemberRepo.updateAccess at h
  dsimp only at h
  split at h
  · rename_i hkey
    split at h
    · cases h
      exact Or.inr ⟨hkey, rfl⟩
    · cases h
  · rename_i hkey
    obtain ⟨-, hw, hrow, hd⟩ := insertMember_ok_iff.mp h
    exact Or.inl ⟨hkey, hrow, hw, hd⟩

/-- The change of the database behind a call. -/
inductive Effect (choice : Choice) (d : ChatDb) : ServiceCall → ChatDb → Prop
  /-- A read, a refused write, or a call that does not reach the database. -/
  | same (op : ServiceCall) : Effect choice d op d
  | workspaceCreate {w row : ChatWorkspace} {d' : ChatDb}
    (h : d.insertWorkspace choice w = .ok (row, d')) : Effect choice d (.workspaceCreate w) d'
  | memberUpsert {m row : ChatWorkspaceMember} {d' : ChatDb}
    (h : MemberRepo.upsert d choice m = .ok (row, d')) : Effect choice d (.memberUpsert m) d'
  | memberUpdateAccess {w p : Uuid} {access : Bool} {row : ChatWorkspaceMember} {d' : ChatDb}
    (h : MemberRepo.updateAccess d choice w p access = .ok (row, d')) :
    Effect choice d (.memberUpdateAccess w p access) d'
  | messageSave {m row : ChatMessage} {d' : ChatDb}
    (h : d.insertMessage choice m = .ok (row, d')) : Effect choice d (.messageSave m) d'
  | conversationCreate {c row : ChatConversation} {d' : ChatDb}
    (h : d.insertConversation choice c = .ok (row, d')) :
    Effect choice d (.conversationCreate c) d'
  | conversationAddParticipant {p : ChatConversationParticipant} {d' : ChatDb}
    (h : d.insertParticipant choice p = .ok ((), d')) :
    Effect choice d (.conversationAddParticipant p) d'

/-- A write stores its table and hands its row on, or changes nothing. -/
theorem commitWrite_cases {α : Type} (label : String) (s : ChatState)
    (r : Except GoError (α × ChatDb)) :
    (∃ a d, r = .ok (a, d) ∧ commitWrite label s r = (.ok a, { s with db := d })) ∨
      (∃ e, r = .error e ∧ commitWrite label s r = (.error (errorf label e), s)) := by
  cases r with
  | ok ad => exact Or.inl ⟨ad.1, ad.2, rfl, rfl⟩
  | error e => exact Or.inr ⟨e, rfl, rfl⟩

/-- Every call has one of the effects. -/
theorem exec_effect (op : ServiceCall) (choice : Choice) (s : ChatState) :
    Effect choice s.db op (op.exec choice s).2.db := by
  have same : (op.exec choice s).2.db = s.db → Effect choice s.db op (op.exec choice s).2.db :=
    fun h => by rw [h]; exact Effect.same op
  cases op with
  | workspaceCreate w =>
    obtain ⟨a, d, hr, hc⟩ | ⟨e, hr, hc⟩ :=
      commitWrite_cases "create workspace" s (s.db.insertWorkspace choice w)
    · rw [ServiceCall.exec, hc]
      exact Effect.workspaceCreate hr
    · exact same (by rw [ServiceCall.exec, hc])
  | memberUpsert m =>
    obtain ⟨a, d, hr, hc⟩ | ⟨e, hr, hc⟩ :=
      commitWrite_cases "upsert member" s (MemberRepo.upsert s.db choice m)
    · rw [ServiceCall.exec, hc]
      exact Effect.memberUpsert hr
    · exact same (by rw [ServiceCall.exec, hc])
  | memberUpdateAccess w p b =>
    obtain ⟨a, d, hr, hc⟩ | ⟨e, hr, hc⟩ :=
      commitWrite_cases "update access" s (MemberRepo.updateAccess s.db choice w p b)
    · rw [ServiceCall.exec, hc]
      exact Effect.memberUpdateAccess hr
    · exact same (by rw [ServiceCall.exec, hc])
  | messageSave m =>
    obtain ⟨a, d, hr, hc⟩ | ⟨e, hr, hc⟩ :=
      commitWrite_cases "save message" s (s.db.insertMessage choice m)
    · rw [ServiceCall.exec, hc]
      exact Effect.messageSave hr
    · exact same (by rw [ServiceCall.exec, hc])
  | conversationCreate c =>
    obtain ⟨a, d, hr, hc⟩ | ⟨e, hr, hc⟩ :=
      commitWrite_cases "create conversation" s (s.db.insertConversation choice c)
    · rw [ServiceCall.exec, hc]
      exact Effect.conversationCreate hr
    · exact same (by rw [ServiceCall.exec, hc])
  | conversationAddParticipant p =>
    obtain ⟨a, d, hr, hc⟩ | ⟨e, hr, hc⟩ :=
      commitWrite_cases "add participant" s (s.db.insertParticipant choice p)
    · rw [ServiceCall.exec, hc]
      exact Effect.conversationAddParticipant hr
    · exact same (by rw [ServiceCall.exec, hc])
  | workspaceGetByBuID _ => exact same rfl
  | workspaceGetByID _ => exact same rfl
  | memberListByWorkspace _ => exact same rfl
  | memberGetByWorkspaceAndPerson _ _ => exact same rfl
  | messageList _ _ _ => exact same rfl
  | conversationGetByID _ => exact same rfl
  | conversationGetGroupByWorkspace _ => exact same rfl
  | conversationGetDMByParticipants _ _ _ => exact same rfl
  | conversationListByWorkspaceAndPerson _ _ => exact same rfl
  | conversationListParticipants _ => exact same rfl
  | goPublish _ _ => exact same rfl

/-- Whatever turn a call gets, its effect happened or the database is the same. -/
theorem answer_effect (op : ServiceCall) (t : Turn Choice GoError) (s : ChatState) :
    (chatMachine.answer op t s).2.db = s.db ∨
      ∃ choice, Effect choice s.db op (chatMachine.answer op t s).2.db := by
  obtain h | ⟨choice, h⟩ := chatMachine.answer_state op t s
  · exact Or.inl (by rw [h])
  · refine Or.inr ⟨choice, ?_⟩
    rw [h]
    exact exec_effect op choice s

/-- Every row that the call does not rewrite is still there. -/
structure Grows (d d' : ChatDb) : Prop where
  workspaces : ∀ w ∈ d.workspaces, w ∈ d'.workspaces
  members : ∀ m ∈ d.members, ∃ m' ∈ d'.members, m'.id = m.id ∧ memberKey m' = memberKey m
  conversations : ∀ c ∈ d.conversations, c ∈ d'.conversations
  participants : ∀ p ∈ d.participants, p ∈ d'.participants
  messages : ∀ m ∈ d.messages, m ∈ d'.messages

theorem Grows.refl (d : ChatDb) : Grows d d :=
  ⟨fun _ h => h, fun m h => ⟨m, h, rfl, rfl⟩, fun _ h => h, fun _ h => h, fun _ h => h⟩

theorem Grows.trans {d d' d'' : ChatDb} (h : Grows d d') (h' : Grows d' d'') : Grows d d'' where
  workspaces w hw := h'.workspaces w (h.workspaces w hw)
  members m hm := by
    obtain ⟨m', hm', hid, hkey⟩ := h.members m hm
    obtain ⟨m'', hm'', hid', hkey'⟩ := h'.members m' hm'
    exact ⟨m'', hm'', hid'.trans hid, hkey'.trans hkey⟩
  conversations c hc := h'.conversations c (h.conversations c hc)
  participants p hp := h'.participants p (h.participants p hp)
  messages m hm := h'.messages m (h.messages m hm)

/-- The one table that an effect touches and what it does to it. -/
theorem Effect.tables {choice : Choice} {d d' : ChatDb} {op : ServiceCall}
    (h : Effect choice d op d') :
    d' = d ∨
    (∃ w row, op = .workspaceCreate w ∧
      row = { w with id := choice.uuid, createdAt := choice.now } ∧
      d'.toTables = { d.toTables with workspaces := d.workspaces ++ [row] }) ∨
    (∃ row, d'.toTables = { d.toTables with members := d.members ++ [row] }) ∨
    (∃ f : ChatWorkspaceMember → ChatWorkspaceMember,
      (∀ m, (f m).id = m.id ∧ memberKey (f m) = memberKey m) ∧
      d'.toTables = { d.toTables with members := d.members.map f }) ∨
    (∃ c row, op = .conversationCreate c ∧
      row = { c with id := choice.uuid, createdAt := choice.now } ∧
      (¬∃ v ∈ d.conversations, v.id = row.id) ∧
      d'.toTables = { d.toTables with conversations := d.conversations ++ [row] }) ∨
    (∃ p row, op = .conversationAddParticipant p ∧
      row = { p with id := choice.uuid, createdAt := choice.now } ∧
      d'.toTables = { d.toTables with participants := d.participants ++ [row] }) ∨
    (∃ m row, op = .messageSave m ∧
      row = { m with id := choice.uuid, createdAt := choice.now } ∧
      d'.toTables = { d.toTables with messages := d.messages ++ [row] }) := by
  cases h with
  | same => exact Or.inl rfl
  | workspaceCreate h =>
    obtain ⟨-, -, -, hrow, hd⟩ := insertWorkspace_ok_iff.mp h
    exact Or.inr (Or.inl ⟨_, _, rfl, hrow, hd⟩)
  | memberUpsert h =>
    obtain ⟨-, ⟨-, -, -, hd⟩ | ⟨-, hd⟩⟩ := upsert_ok h
    · exact Or.inr (Or.inr (Or.inl ⟨_, hd⟩))
    · refine Or.inr (Or.inr (Or.inr (Or.inl ⟨_, fun m => ?_, hd⟩)))
      split <;> exact ⟨rfl, rfl⟩
  | memberUpdateAccess h =>
    obtain ⟨-, -, -, hd⟩ | ⟨-, hd⟩ := updateAccess_ok h
    · exact Or.inr (Or.inr (Or.inl ⟨_, hd⟩))
    · refine Or.inr (Or.inr (Or.inr (Or.inl ⟨_, fun m => ?_, hd⟩)))
      split <;> exact ⟨rfl, rfl⟩
  | conversationCreate h =>
    obtain ⟨hid, -, -, hrow, hd⟩ := insertConversation_ok_iff.mp h
    refine Or.inr (Or.inr (Or.inr (Or.inr (Or.inl ⟨_, _, rfl, hrow, ?_, hd⟩))))
    rw [hrow]
    exact hid
  | conversationAddParticipant h =>
    obtain ⟨-, he⟩ | ⟨-, -, -, hd⟩ := insertParticipant_ok_iff.mp h
    · exact Or.inl he
    · exact Or.inr (Or.inr (Or.inr (Or.inr (Or.inr (Or.inl ⟨_, _, rfl, rfl, hd⟩)))))
  | messageSave h =>
    obtain ⟨-, -, -, hrow, hd⟩ := insertMessage_ok_iff.mp h
    exact Or.inr (Or.inr (Or.inr (Or.inr (Or.inr (Or.inr ⟨_, _, rfl, hrow, hd⟩)))))

/-- Every effect keeps the rows. -/
theorem Effect.grows {choice : Choice} {d d' : ChatDb} {op : ServiceCall}
    (h : Effect choice d op d') : Grows d d' := by
  obtain rfl | ⟨_, _, -, -, hd⟩ | ⟨_, hd⟩ | ⟨f, hf, hd⟩ | ⟨_, _, -, -, -, hd⟩ | ⟨_, _, -, -, hd⟩ |
    ⟨_, _, -, -, hd⟩ := h.tables
  · exact Grows.refl _
  · constructor <;> rw [hd]
    exacts [fun w hw => List.mem_append_left _ hw, fun m hm => ⟨m, hm, rfl, rfl⟩,
      fun _ h => h, fun _ h => h, fun _ h => h]
  · constructor <;> rw [hd]
    exacts [fun _ h => h, fun m hm => ⟨m, List.mem_append_left _ hm, rfl, rfl⟩,
      fun _ h => h, fun _ h => h, fun _ h => h]
  · constructor <;> rw [hd]
    exacts [fun _ h => h, fun m hm => ⟨f m, List.mem_map_of_mem hm, hf m⟩,
      fun _ h => h, fun _ h => h, fun _ h => h]
  · constructor <;> rw [hd]
    exacts [fun _ h => h, fun m hm => ⟨m, hm, rfl, rfl⟩,
      fun c hc => List.mem_append_left _ hc, fun _ h => h, fun _ h => h]
  · constructor <;> rw [hd]
    exacts [fun _ h => h, fun m hm => ⟨m, hm, rfl, rfl⟩, fun _ h => h,
      fun p hp => List.mem_append_left _ hp, fun _ h => h]
  · constructor <;> rw [hd]
    exacts [fun _ h => h, fun m hm => ⟨m, hm, rfl, rfl⟩, fun _ h => h, fun _ h => h,
      fun m hm => List.mem_append_left _ hm]

/-- Every call keeps the rows, whatever turn it gets. -/
theorem answer_grows (op : ServiceCall) (t : Turn Choice GoError) (s : ChatState) :
    Grows s.db (chatMachine.answer op t s).2.db := by
  obtain h | ⟨choice, h⟩ := answer_effect op t s
  · rw [h]
    exact Grows.refl _
  · exact h.grows

/-- A participant stays a participant. -/
theorem Grows.participates {d d' : ChatDb} (h : Grows d d') {c p : Uuid}
    (hp : Participates d c p) : Participates d' c p := by
  obtain ⟨row, hrow, hc, hper⟩ := hp
  exact ⟨row, h.participants row hrow, hc, hper⟩

/-- A message row that an effect added is the one that its save was asked for. -/
theorem Effect.message_new {choice : Choice} {d d' : ChatDb} {op : ServiceCall}
    (h : Effect choice d op d') {m : ChatMessage} (hm : m ∈ d'.messages) :
    m ∈ d.messages ∨ ∃ m₀, op = .messageSave m₀ ∧
      m = { m₀ with id := choice.uuid, createdAt := choice.now } := by
  obtain rfl | ⟨_, _, -, -, hd⟩ | ⟨_, hd⟩ | ⟨_, -, hd⟩ | ⟨_, _, -, -, -, hd⟩ | ⟨_, _, -, -, hd⟩ |
    ⟨m₀, row, hop, hrow, hd⟩ := h.tables
  · exact Or.inl hm
  all_goals rw [hd] at hm
  iterate 5 exact Or.inl hm
  obtain hm | hm := List.mem_append.mp hm
  · exact Or.inl hm
  · exact Or.inr ⟨m₀, hop, (List.mem_singleton.mp hm).trans hrow⟩

/-- A conversation row that an effect added is the one its creation asked for,
under an identifier that no conversation had. -/
theorem Effect.conversation_new {choice : Choice} {d d' : ChatDb} {op : ServiceCall}
    (h : Effect choice d op d') {c : ChatConversation} (hc : c ∈ d'.conversations) :
    c ∈ d.conversations ∨ ∃ c₀, op = .conversationCreate c₀ ∧
      c = { c₀ with id := choice.uuid, createdAt := choice.now } ∧
      ¬∃ v ∈ d.conversations, v.id = c.id := by
  obtain rfl | ⟨_, _, -, -, hd⟩ | ⟨_, hd⟩ | ⟨_, -, hd⟩ | ⟨c₀, row, hop, hrow, hid, hd⟩ |
    ⟨_, _, -, -, hd⟩ | ⟨_, _, -, -, hd⟩ := h.tables
  · exact Or.inl hc
  all_goals rw [hd] at hc
  iterate 3 exact Or.inl hc
  · obtain hc | hc := List.mem_append.mp hc
    · exact Or.inl hc
    · have he := List.mem_singleton.mp hc
      rw [← he] at hid
      exact Or.inr ⟨c₀, hop, he.trans hrow, hid⟩
  iterate 2 exact Or.inl hc

/-- A participant row that an effect added is the one that was asked for. -/
theorem Effect.participant_new {choice : Choice} {d d' : ChatDb} {op : ServiceCall}
    (h : Effect choice d op d') {p : ChatConversationParticipant} (hp : p ∈ d'.participants) :
    p ∈ d.participants ∨ ∃ p₀, op = .conversationAddParticipant p₀ ∧
      p = { p₀ with id := choice.uuid, createdAt := choice.now } := by
  obtain rfl | ⟨_, _, -, -, hd⟩ | ⟨_, hd⟩ | ⟨_, -, hd⟩ | ⟨_, _, -, -, -, hd⟩ |
    ⟨p₀, row, hop, hrow, hd⟩ | ⟨_, _, -, -, hd⟩ := h.tables
  · exact Or.inl hp
  all_goals rw [hd] at hp
  iterate 4 exact Or.inl hp
  · obtain hp | hp := List.mem_append.mp hp
    · exact Or.inl hp
    · exact Or.inr ⟨p₀, hop, (List.mem_singleton.mp hp).trans hrow⟩
  · exact Or.inl hp

/-- A new participant comes from the call that adds it. -/
theorem answer_participates {op : ServiceCall} {t : Turn Choice GoError} {s : ChatState}
    {c x : Uuid} (h : Participates (chatMachine.answer op t s).2.db c x) :
    Participates s.db c x ∨ ∃ p, op = .conversationAddParticipant p ∧
      p.conversationID = c ∧ p.personID = x := by
  obtain ⟨row, hrow, hc, hx⟩ := h
  obtain he | ⟨choice, he⟩ := answer_effect op t s
  · rw [he] at hrow
    exact Or.inl ⟨row, hrow, hc, hx⟩
  · obtain hold | ⟨p, hop, hp⟩ := he.participant_new hrow
    · exact Or.inl ⟨row, hold, hc, hx⟩
    · rw [hp] at hc hx
      exact Or.inr ⟨p, hop, hc, hx⟩

/-- A call that adds no participant leaves who takes part. -/
theorem participates_of_not_add {op : ServiceCall} {t : Turn Choice GoError} {s : ChatState}
    (hop : ∀ p, op ≠ .conversationAddParticipant p) {c x : Uuid}
    (h : Participates (chatMachine.answer op t s).2.db c x) : Participates s.db c x := by
  obtain hold | ⟨p, hp, -, -⟩ := answer_participates h
  · exact hold
  · exact absurd hp (hop p)

/-- Who takes part after an addition. -/
theorem answer_add_participates {p : ChatConversationParticipant} {t : Turn Choice GoError}
    {s : ChatState} {c x : Uuid}
    (h : Participates (chatMachine.answer (.conversationAddParticipant p) t s).2.db c x) :
    Participates s.db c x ∨ (p.conversationID = c ∧ p.personID = x) := by
  obtain hold | ⟨p', hp', hc, hx⟩ := answer_participates h
  · exact Or.inl hold
  · cases hp'
    exact Or.inr ⟨hc, hx⟩

/-- A new conversation comes from the call that creates it. -/
theorem answer_conversation {op : ServiceCall} {t : Turn Choice GoError} {s : ChatState}
    {c : ChatConversation} (h : c ∈ (chatMachine.answer op t s).2.db.conversations) :
    c ∈ s.db.conversations ∨ ∃ c₀, op = .conversationCreate c₀ ∧
      c.workspaceID = c₀.workspaceID ∧ c.type = c₀.type ∧
      ¬∃ v ∈ s.db.conversations, v.id = c.id := by
  obtain he | ⟨choice, he⟩ := answer_effect op t s
  · rw [he] at h
    exact Or.inl h
  · obtain hold | ⟨c₀, hop, hc, hid⟩ := he.conversation_new h
    · exact Or.inl hold
    · exact Or.inr ⟨c₀, hop, by rw [hc], by rw [hc], hid⟩

/-- A creation that succeeds returns a stored conversation with a new identifier. -/
theorem answer_create_ok {c₀ row : ChatConversation} {t : Turn Choice GoError} {s : ChatState}
    (h : (chatMachine.answer (.conversationCreate c₀) t s).1 = .ok row) :
    row ∈ (chatMachine.answer (.conversationCreate c₀) t s).2.db.conversations ∧
      row.workspaceID = c₀.workspaceID ∧ row.type = c₀.type ∧ row.id ≠ Uuid.nil ∧
      ¬∃ v ∈ s.db.conversations, v.id = row.id := by
  obtain ⟨choice, -, ha⟩ := Machine.answer_ok h
  obtain ⟨a, d, hr, hc⟩ | ⟨e, hr, hc⟩ :=
    commitWrite_cases "create conversation" s (s.db.insertConversation choice c₀)
  · have he : chatMachine.answer (.conversationCreate c₀) t s = (.ok a, { s with db := d }) :=
      ha.trans hc
    obtain ⟨hid, -, -, hrow, hd⟩ := insertConversation_ok_iff.mp hr
    rw [he] at h ⊢
    cases h
    dsimp only
    rw [hd, hrow]
    exact ⟨List.mem_append_right _ (List.mem_singleton_self _), rfl, rfl, choice.uuid_ne_nil, hid⟩
  · have he : chatMachine.answer (.conversationCreate c₀) t s = (_, s) := ha.trans hc
    rw [he] at h
    cases h

/-- An addition that succeeds leaves the person in the conversation. -/
theorem answer_addParticipant_ok {p : ChatConversationParticipant} {t : Turn Choice GoError}
    {s : ChatState} (h : (chatMachine.answer (.conversationAddParticipant p) t s).1 = .ok ()) :
    Participates (chatMachine.answer (.conversationAddParticipant p) t s).2.db
      p.conversationID p.personID := by
  obtain ⟨choice, -, ha⟩ := Machine.answer_ok h
  obtain ⟨a, d, hr, hc⟩ | ⟨e, hr, hc⟩ :=
    commitWrite_cases "add participant" s (s.db.insertParticipant choice p)
  · have he : chatMachine.answer (.conversationAddParticipant p) t s = (.ok a, { s with db := d }) :=
      ha.trans hc
    rw [he]
    obtain ⟨⟨v, hv, hkey⟩, rfl⟩ | ⟨-, -, -, hd⟩ := insertParticipant_ok_iff.mp hr
    · have hk := Prod.mk.inj hkey
      exact ⟨v, hv, hk.1, hk.2⟩
    · unfold Participates
      rw [hd]
      exact ⟨_, List.mem_append_right _ (List.mem_singleton_self _), rfl, rfl⟩
  · have he : chatMachine.answer (.conversationAddParticipant p) t s = (_, s) := ha.trans hc
    rw [he] at h
    cases h

/-- The workspace has its group conversation. -/
def GroupExists (d : ChatDb) (workspaceID : Uuid) : Prop :=
  ∃ c ∈ d.conversations, c.workspaceID = workspaceID ∧ c.type = .group

instance (d : ChatDb) (w : Uuid) : Decidable (GroupExists d w) := by
  unfold GroupExists
  infer_instance

/-- The lookup of the group conversation finds it when it exists. -/
theorem getGroupByWorkspace_cases (d : ChatDb) (choice : Choice) (w : Uuid) :
    (GroupExists d w ∧ ∃ c, ConversationRepo.getGroupByWorkspace d choice w = .ok c) ∨
    (¬GroupExists d w ∧ ConversationRepo.getGroupByWorkspace d choice w =
      .error (errorf "get group conversation" errNoRows)) := by
  cases hr : ConversationRepo.getGroupByWorkspace d choice w with
  | ok c =>
    have hc := mem_sortOn.mp (scanRow_ok hr)
    have hgroup := List.mem_filter.mp hc
    exact Or.inl ⟨⟨c, hgroup.1, by simpa using hgroup.2⟩, c, rfl⟩
  | error e =>
    obtain ⟨hnone, he⟩ := scanRow_error hr
    refine Or.inr ⟨?_, by rw [he]⟩
    rintro ⟨c, hc, hw, htype⟩
    have hempty := eq_nil_of_sortOn_eq_nil hnone
    have hmem : c ∈ d.conversations.filter fun c => c.workspaceID = w ∧ c.type = .group :=
      List.mem_filter.mpr ⟨hc, by simp [hw, htype]⟩
    rw [hempty] at hmem
    cases hmem

/-- An existing group conversation is returned. -/
theorem run_getOrCreateGroup_stored {w : Uuid} {turns : ℕ → Turn Choice GoError} {choice : Choice}
    {s : ChatState} (stamps : ℕ → Stamp) (hturn : turns 0 = .serve choice)
    (hg : GroupExists s.db w) :
    ∃ c, (ConversationService.getOrCreateGroupConversation stamps w).run chatMachine turns s =
      (.ok c, s) := by
  obtain ⟨-, c, hget⟩ | ⟨hnone, -⟩ := getGroupByWorkspace_cases s.db choice w
  · have hlookup : chatMachine.answer (.conversationGetGroupByWorkspace w) (turns 0) s =
        (.ok c, s) := by
      rw [hturn, ← hget]
      rfl
    refine ⟨c, ?_⟩
    unfold ConversationService.getOrCreateGroupConversation
    rw [Program.run_attempt_bind, hlookup]
    rfl
  · exact absurd hg hnone

/-- A missing group conversation is created. -/
theorem run_getOrCreateGroup_new {w : Uuid} {turns : ℕ → Turn Choice GoError} {choice : Choice}
    {s : ChatState} (stamps : ℕ → Stamp) (hturn : turns 0 = .serve choice) (hw : w ≠ Uuid.nil)
    (hg : ¬GroupExists s.db w) :
    (ConversationService.getOrCreateGroupConversation stamps w).run chatMachine turns s =
      chatMachine.answer (.conversationCreate ⟨(stamps 0).id, w, .group, (stamps 0).now⟩)
        (turns 1) s := by
  obtain ⟨hstored, -⟩ | ⟨-, hget⟩ := getGroupByWorkspace_cases s.db choice w
  · exact absurd hstored hg
  have hlookup : chatMachine.answer (.conversationGetGroupByWorkspace w) (turns 0) s =
      (.error (errorf "get group conversation" errNoRows), s) := by
    rw [hturn, ← hget]
    rfl
  have hnew : newConversation (stamps 0) w "group" =
      .ok ⟨(stamps 0).id, w, .group, (stamps 0).now⟩ :=
    newConversation_ok.mpr ⟨hw, .group, rfl, rfl⟩
  unfold ConversationService.getOrCreateGroupConversation
  rw [Program.run_attempt_bind, hlookup]
  refine (?_ : (Program.bind (.ret (newConversation (stamps 0) w "group")) _).run chatMachine
    (fun n => turns (n + 1)) s = _)
  rw [hnew]
  rfl

end AuraWellness.Chat.Growth
