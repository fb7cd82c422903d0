import AuraWellness.Chat.Migration
import AuraWellness.Chat.Subscribed

/-!
# How often a conversation is listed

`ListByWorkspaceAndPerson` joins the conversations with their participants. A
direct conversation keeps the row of the person, a group conversation all of its
rows. The service adds participants to direct conversations only, so the rows of
a group conversation are those that migration 000006 has made of the members.
-/

namespace AuraWellness.Chat.ListedOnce

open AuraWellness.Lib.Transition AuraWellness.Lib.Calls AuraWellness.Lib.Keyed
open AuraWellness.Lib.Ranked
open AuraWellness.Chat.Entities AuraWellness.Chat.Schema AuraWellness.Chat.Repositories
open AuraWellness.Chat.Services AuraWellness.Chat.Growth AuraWellness.Chat.DirectMessages
open AuraWellness.Chat.Subscribed AuraWellness.Chat.Migration

/-- The person sees the conversation in the workspace: it is the group
conversation, or a direct one in which the person takes part. -/
def Sees (d : ChatDb) (workspaceID personID : Uuid) (c : ChatConversation) : Prop :=
  c ∈ d.conversations ∧ c.workspaceID = workspaceID ∧
    (c.type = .group ∨ (c.type = .dm ∧ Participates d c.id personID))

instance (d : ChatDb) (w p : Uuid) (c : ChatConversation) : Decidable (Sees d w p c) := by
  unfold Sees
  infer_instance

/-- The list contains each conversation that the person sees once, and nothing
else. -/
def ListsExactly (d : ChatDb) (choice : Choice) (workspaceID personID : Uuid) : Prop :=
  ∀ c, (ConversationRepo.listByWorkspaceAndPerson d choice workspaceID personID).count c =
    if Sees d workspaceID personID c then 1 else 0

/-- The rows of `chat_conversation_participants` of a conversation. -/
def participantsOf (d : ChatDb) (conversationID : Uuid) : List ChatConversationParticipant :=
  d.participants.filter fun p => p.conversationID = conversationID

/-- The condition of the query on a joined row. -/
def kept (workspaceID personID : Uuid)
    (row : ChatConversation × Option ChatConversationParticipant) : Bool :=
  row.1.workspaceID = workspaceID ∧
    (row.1.type = .group ∨ row.2.map (·.personID) = some personID)

/-- A stored conversation is listed once for each of its joined rows that the
query keeps. -/
theorem count_list (d : ChatDb) (choice : Choice) (w person : Uuid) (c : ChatConversation) :
    (ConversationRepo.listByWorkspaceAndPerson d choice w person).count c =
      if c ∈ d.conversations then
        (ConversationRepo.joinParticipants d c).countP (kept w person) else 0 := by
  have hjoin : ∀ v, ∀ row ∈ ConversationRepo.joinParticipants d v, row.1 = v :=
    fun v row hrow => (mem_joinParticipants hrow).1
  have hcount : (ConversationRepo.listByWorkspaceAndPerson d choice w person).count c =
      ((d.conversations.flatMap (ConversationRepo.joinParticipants d)).filter
        (kept w person)).countP fun row => row.1 == c := by
    refine ((sortOn_perm _ _).count_eq c).trans ?_
    rw [List.count, List.countP_map]
    rfl
  have hswap : ((d.conversations.flatMap (ConversationRepo.joinParticipants d)).filter
        (kept w person)).countP (fun row => row.1 == c) =
      ((d.conversations.flatMap (ConversationRepo.joinParticipants d)).filter
        fun row => row.1 = c).countP (kept w person) := by
    rw [List.countP_filter, List.countP_filter]
    refine List.countP_congr fun row _ => ?_
    simp [and_comm]
  rw [hcount, hswap, filter_join hjoin d.valid.conversations_id.nodup c]
  split <;> rfl

/-- A group conversation of the workspace keeps all of its joined rows. -/
theorem countP_group {d : ChatDb} {w : Uuid} (person : Uuid) {c : ChatConversation}
    (hw : c.workspaceID = w) (htype : c.type = .group) :
    (ConversationRepo.joinParticipants d c).countP (kept w person) =
      max 1 (participantsOf d c.id).length := by
  have hall : (ConversationRepo.joinParticipants d c).countP (kept w person) =
      (ConversationRepo.joinParticipants d c).length := by
    refine List.countP_eq_length.mpr fun row hrow => ?_
    have hrow₁ := (mem_joinParticipants hrow).1
    simp [kept, hrow₁, hw, htype]
  rw [hall]
  unfold ConversationRepo.joinParticipants participantsOf
  split
  · rename_i hnone
    rw [hnone]
    rfl
  · rename_i p ps hrows
    rw [hrows, List.length_map, List.length_cons]
    omega

/-- A direct conversation of the workspace keeps the row of the person. -/
theorem countP_dm {d : ChatDb} {w person : Uuid} {c : ChatConversation}
    (hw : c.workspaceID = w) (htype : c.type = .dm) :
    (ConversationRepo.joinParticipants d c).countP (kept w person) =
      if Participates d c.id person then 1 else 0 := by
  have hrows : (ConversationRepo.joinParticipants d c).countP (kept w person) =
      (participantsOf d c.id).countP fun p => p.personID = person := by
    unfold ConversationRepo.joinParticipants participantsOf
    split
    · rename_i hnone
      rw [hnone]
      simp [kept, htype]
    · rename_i p ps hrows
      rw [hrows, List.countP_map]
      refine List.countP_congr fun p _ => ?_
      simp [kept, hw, htype]
  have hcount : ((participantsOf d c.id).countP fun p => p.personID = person) =
      (d.participants.map participantKey).count (c.id, person) := by
    unfold participantsOf
    rw [List.countP_filter, List.count, List.countP_map]
    refine List.countP_congr fun p _ => ?_
    simp [and_comm, Prod.ext_iff]
  rw [hrows, hcount]
  split
  · rename_i hp
    obtain ⟨p, hp, hc, hperson⟩ := hp
    refine List.count_eq_one_of_mem d.valid.participants_key ?_
    rw [← hc, ← hperson]
    exact List.mem_map_of_mem hp
  · rename_i hp
    refine List.count_eq_zero.mpr fun hmem => hp ?_
    obtain ⟨p, hmem, hkey⟩ := List.mem_map.mp hmem
    obtain ⟨hc, hperson⟩ := Prod.mk.inj hkey
    exact ⟨p, hmem, hc, hperson⟩

/-- A conversation of another workspace keeps no row. -/
theorem countP_other {d : ChatDb} {w : Uuid} (person : Uuid) {c : ChatConversation}
    (hw : c.workspaceID ≠ w) :
    (ConversationRepo.joinParticipants d c).countP (kept w person) = 0 := by
  refine List.countP_eq_zero.mpr fun row hrow => ?_
  have hrow₁ := (mem_joinParticipants hrow).1
  simp [kept, hrow₁, hw]

/-- The list is exact when the workspace's group conversation has at most one
participant, and only then. -/
theorem listsExactly_iff_participants (d : ChatDb) (choice : Choice) (w person : Uuid) :
    ListsExactly d choice w person ↔
      ∀ c ∈ d.conversations, c.workspaceID = w → c.type = .group →
        (participantsOf d c.id).length ≤ 1 := by
  constructor
  · intro h c hc hw htype
    have hsees : Sees d w person c := ⟨hc, hw, Or.inl htype⟩
    have hcount := h c
    rw [count_list, if_pos hc, countP_group person hw htype, if_pos hsees] at hcount
    omega
  · intro h c
    rw [count_list]
    by_cases hc : c ∈ d.conversations
    · rw [if_pos hc]
      by_cases hw : c.workspaceID = w
      · cases htype : c.type with
        | group =>
          have hsees : Sees d w person c := ⟨hc, hw, Or.inl htype⟩
          have hle := h c hc hw htype
          rw [countP_group person hw htype, if_pos hsees]
          omega
        | dm =>
          rw [countP_dm hw htype]
          simp [Sees, hc, hw, htype]
      · rw [countP_other person hw, if_neg fun hsees => hw hsees.2.1]
    · rw [if_neg hc, if_neg fun hsees => hc hsees.1]

/-- A call that adds participants to direct conversations only leaves those of
the group conversations. -/
theorem Effect.participantsOf_group {choice : Choice} {d d' : ChatDb} {op : ServiceCall}
    (h : Effect choice d op d')
    (hop : ∀ p, op = .conversationAddParticipant p →
      ∃ v ∈ d.conversations, v.id = p.conversationID ∧ v.type = .dm)
    {c : ChatConversation} (hc : c ∈ d'.conversations) (htype : c.type = .group) :
    participantsOf d' c.id = participantsOf d c.id := by
  unfold participantsOf
  obtain rfl | ⟨_, _, -, -, hd⟩ | ⟨_, hd⟩ | ⟨_, -, hd⟩ | ⟨_, _, -, -, -, hd⟩ |
    ⟨p, row, hadd, hrow, hd⟩ | ⟨_, _, -, -, hd⟩ := h.tables
  · rfl
  iterate 4 rw [hd]
  · obtain ⟨v, hv, hid, hdm⟩ := hop p hadd
    have hother : row.conversationID ≠ c.id := by
      intro he
      have hvc : v = c := by
        refine d'.valid.conversations_id.eq (h.grows.conversations v hv) hc ?_
        rw [hid, ← he, hrow]
      rw [hvc, htype] at hdm
      cases hdm
    rw [hd, List.filter_append]
    simp [hother]
  · rw [hd]

/-- A conversation identifier that no conversation has has no participants. -/
theorem participantsOf_eq_nil {d : ChatDb} {id : Uuid} (h : ¬∃ v ∈ d.conversations, v.id = id) :
    participantsOf d id = [] := by
  refine List.filter_eq_nil_iff.mpr fun p hp he => h ?_
  obtain ⟨v, hv, hid⟩ := d.valid.participants_conversation p hp
  exact ⟨v, hv, hid.trans (of_decide_eq_true he)⟩

/-- The state has grown out of an earlier database and every group conversation
has the participants it had there. -/
structure GroupsAsIn (d₀ : ChatDb) (s : ChatState) : Prop where
  grows : Grows d₀ s.db
  participants : ∀ c ∈ s.db.conversations, c.type = .group →
    participantsOf s.db c.id = participantsOf d₀ c.id

/-- A call that adds participants to direct conversations only keeps the
participants of the group conversations. -/
theorem GroupsAsIn.answer {d₀ : ChatDb} {s : ChatState} (h : GroupsAsIn d₀ s) {op : ServiceCall}
    (t : Turn Choice GoError)
    (hop : ∀ p, op = .conversationAddParticipant p →
      ∃ v ∈ s.db.conversations, v.id = p.conversationID ∧ v.type = .dm) :
    GroupsAsIn d₀ (chatMachine.answer op t s).2 := by
  refine ⟨h.grows.trans (answer_grows op t s), fun c hc htype => ?_⟩
  obtain he | ⟨choice, he⟩ := answer_effect op t s
  · rw [he] at hc ⊢
    exact h.participants c hc htype
  · rw [Effect.participantsOf_group he hop hc htype]
    obtain hold | ⟨-, -, -, hnew⟩ := he.conversation_new hc
    · exact h.participants c hold htype
    · rw [participantsOf_eq_nil hnew, participantsOf_eq_nil]
      rintro ⟨v, hv, hid⟩
      exact hnew ⟨v, h.grows.conversations v hv, hid⟩

/-- A thread adds participants only to a direct conversation that it knows. -/
def AddsToDM (_ : Unit) (_ : ℕ) (r : Request) (s : ChatState) (q : ServiceProgram Response) :
    Prop :=
  q.AllOps (Makes r.call) ∧ ∀ w a b, r.call = .getOrCreateDMConversation w a b →
    ∃ stage : Stage, q = stage.program r.stamps w a b ∧
      ∀ c, (stage = .addingFirst c ∨ stage = .addingSecond c) →
        c ∈ s.db.conversations ∧ c.type = .dm

/-- What a thread knows survives the calls of the other threads. -/
theorem AddsToDM.grows {i : ℕ} {r : Request} {s s' : ChatState} {q : ServiceProgram Response}
    (h : AddsToDM () i r s q) (hgrows : Grows s.db s'.db) : AddsToDM () i r s' q := by
  refine ⟨h.1, fun w a b hcall => ?_⟩
  obtain ⟨stage, hq, hok⟩ := h.2 w a b hcall
  exact ⟨stage, hq, fun c hc => ⟨hgrows.conversations c (hok c hc).1, (hok c hc).2⟩⟩

/-- The stage is about to add a participant to the conversation. -/
def Adds (stage : Stage) (c : ChatConversation) : Prop :=
  stage = .addingFirst c ∨ stage = .addingSecond c

@[simp] theorem not_adds_looking (c : ChatConversation) : ¬Adds .looking c := by
  rintro (h | h) <;> cases h

@[simp] theorem not_adds_creating (c : ChatConversation) : ¬Adds .creating c := by
  rintro (h | h) <;> cases h

@[simp] theorem not_adds_returned (conv c : ChatConversation) : ¬Adds (.returned conv) c := by
  rintro (h | h) <;> cases h

@[simp] theorem not_adds_failed (err : GoError) (c : ChatConversation) : ¬Adds (.failed err) c := by
  rintro (h | h) <;> cases h

/-- The two checks of the participant constructor add nothing by themselves. -/
theorem adds_of_checks {p q : Prop} [Decidable p] [Decidable q] {e e' : GoError} {stage : Stage}
    {c : ChatConversation}
    (h : Adds (if p then .failed e else if q then .failed e' else stage) c) : Adds stage c := by
  split at h
  · exact absurd h (not_adds_failed e c)
  split at h
  · exact absurd h (not_adds_failed e' c)
  · exact h

section Stages

variable {stamps : ℕ → Stamp} {w a b : Uuid} {stage : Stage} {op : ServiceCall}
  {after : Except GoError op.Reply → Stage}

/-- Participants are added to the conversation of the stage. -/
theorem adds_of_call (h : Stage.Calls stamps w a b stage op after)
    {p : ChatConversationParticipant} (hp : op = .conversationAddParticipant p) :
    ∃ c, Adds stage c ∧ c.id = p.conversationID := by
  cases h with
  | looking => cases hp
  | creating => cases hp
  | addingFirst created =>
    cases hp
    exact ⟨created, Or.inl rfl, rfl⟩
  | addingSecond created =>
    cases hp
    exact ⟨created, Or.inr rfl, rfl⟩

/-- The conversation that the next stage adds to has just been created, or the
first participant has just been added to it. -/
theorem adds_answered (h : Stage.Calls stamps w a b stage op after) {t : Turn Choice GoError}
    {s : ChatState} {c : ChatConversation} (hc : Adds (after (chatMachine.answer op t s).1) c) :
    Adds stage c ∨ (c ∈ (chatMachine.answer op t s).2.db.conversations ∧ c.type = .dm) := by
  cases h with
  | looking =>
    cases hr : (chatMachine.answer (.conversationGetDMByParticipants w a b) t s).1 with
    | ok conv =>
      rw [hr] at hc
      exact absurd hc (not_adds_returned conv c)
    | error e =>
      rw [hr] at hc
      dsimp only at hc
      split at hc
      · exact absurd hc (not_adds_failed _ c)
      · exact absurd hc (not_adds_creating c)
  | creating =>
    cases hr : (chatMachine.answer
      (.conversationCreate ⟨(stamps 0).id, w, .dm, (stamps 0).now⟩) t s).1 with
    | ok created =>
      obtain ⟨hstored, -, htype, -, -⟩ := answer_create_ok hr
      rw [hr] at hc
      obtain hc | hc := adds_of_checks hc <;> cases hc
      exact Or.inr ⟨hstored, htype⟩
    | error e =>
      rw [hr] at hc
      exact absurd hc (not_adds_failed e c)
  | addingFirst created =>
    cases hr : (chatMachine.answer (.conversationAddParticipant
      ⟨(stamps 1).id, created.id, a, (stamps 1).now⟩) t s).1 with
    | ok u =>
      rw [hr] at hc
      obtain hc | hc := adds_of_checks hc <;> cases hc
      exact Or.inl (Or.inl rfl)
    | error e =>
      rw [hr] at hc
      exact absurd hc (not_adds_failed e c)
  | addingSecond created =>
    cases hr : (chatMachine.answer (.conversationAddParticipant
      ⟨(stamps 2).id, created.id, b, (stamps 2).now⟩) t s).1 with
    | ok u =>
      rw [hr] at hc
      exact absurd hc (not_adds_returned created c)
    | error e =>
      rw [hr] at hc
      exact absurd hc (not_adds_failed e c)

end Stages

/-- The call of a thread adds participants to direct conversations only, and the
thread knows the conversation that it has created. -/
theorem addsToDM_turn {i : ℕ} {r : Request} {s : ChatState} {op : ServiceCall}
    {next : Except GoError op.Reply → ServiceProgram Response} (t : Turn Choice GoError)
    (h : AddsToDM () i r s (.call op next)) :
    (∀ p, op = .conversationAddParticipant p →
      ∃ v ∈ s.db.conversations, v.id = p.conversationID ∧ v.type = .dm) ∧
    AddsToDM () i r (chatMachine.answer op t s).2 (next (chatMachine.answer op t s).1) := by
  obtain ⟨⟨hmakes, hrest⟩, hstage⟩ := h
  by_cases hdm : ∃ w a b, r.call = .getOrCreateDMConversation w a b
  · obtain ⟨w, a, b, hcall⟩ := hdm
    obtain ⟨stage, hq, hok⟩ := hstage w a b hcall
    obtain ⟨after, hcalls, hnext⟩ := stage.program_call hq.symm
    refine ⟨fun p hp => ?_, hrest _, fun w' a' b' hcall' => ?_⟩
    · obtain ⟨c, hadds, hid⟩ := adds_of_call hcalls hp
      obtain ⟨hstored, htype⟩ := hok c hadds
      exact ⟨c, hstored, hid, htype⟩
    · cases hcall.symm.trans hcall'
      refine ⟨_, hnext _, fun c hc => ?_⟩
      obtain hadds | hcreated := adds_answered hcalls hc
      · obtain ⟨hstored, htype⟩ := hok c hadds
        exact ⟨(answer_grows op t s).conversations c hstored, htype⟩
      · exact hcreated
  · have hop : ∀ p, op ≠ .conversationAddParticipant p := by
      rintro p rfl
      exact hdm hmakes.getOrCreateDM_of_add
    exact ⟨fun p hp => absurd hp (hop p), hrest _, fun w a b hcall => absurd ⟨w, a, b, hcall⟩ hdm⟩

/-- A request starts by knowing no conversation. -/
theorem body_addsToDM (i : ℕ) (r : Request) (s : ChatState) : AddsToDM () i r s (body r) :=
  ⟨body_makes r, fun _ _ _ hcall => ⟨.looking, body_looking hcall, fun c hc =>
    absurd hc (not_adds_looking c)⟩⟩

/-- A failed thread knows no conversation. -/
theorem failed_addsToDM (i : ℕ) (r : Request) (s : ChatState) (e : GoError) :
    AddsToDM () i r s (.ret (.error e)) :=
  ⟨trivial, fun _ _ _ _ => ⟨.failed e, rfl, fun c hc => absurd hc (not_adds_failed e c)⟩⟩

/-- In every run of the service the group conversations keep the participants
that they had in its first database. -/
theorem groupsAsIn_run {d₀ : ChatDb} {ls : List ServiceLabel} {p : Service}
    (hrun : run Service.step ⟨⟨d₀, []⟩, []⟩ ls = some p) : GroupsAsIn d₀ p.state := by
  have hstart : ∃ g : Unit, GroupsAsIn d₀ (⟨d₀, []⟩ : ChatState) ∧
      Pool.Each (AddsToDM g) (⟨⟨d₀, []⟩, []⟩ : Service) :=
    ⟨(), ⟨Grows.refl d₀, fun _ _ _ => rfl⟩, fun i th hi => by cases hi⟩
  obtain ⟨-, h, -⟩ := run_invariant (I := fun q : Service => ∃ g : Unit,
      GroupsAsIn d₀ q.state ∧ q.Each (AddsToDM g))
    (fun q l q' hq h => Pool.step_modular (fun (_ : Unit) => GroupsAsIn d₀) AddsToDM
      (fun _ i r s _ => body_addsToDM i r s) (fun _ i r s _ _ e _ => failed_addsToDM i r s e)
      (fun _ i r s op next t hs hl => by
        obtain ⟨hop, hown⟩ := addsToDM_turn t hl
        exact ⟨(), hs.answer t hop, hown, fun j r' q _ hq => hq.grows (answer_grows op t s)⟩)
      hq h) hstart hrun
  exact h

/-- A workspace that was not there has no member. -/
theorem members_eq_nil {t : EarlierTables} (h : t.Valid) {w : Uuid}
    (hw : ¬∃ v ∈ t.workspaces, v.id = w) : (t.members.filter fun m => m.workspaceID = w) = [] := by
  refine List.filter_eq_nil_iff.mpr fun m hmem he => hw ?_
  obtain ⟨v, hv, hvm⟩ := h.members_workspace m hmem
  exact ⟨v, hv, hvm.trans (of_decide_eq_true he)⟩

section Migrated

variable {migration : MigrationChoice} {t : EarlierTables} {d₀ : ChatDb}

/-- A migrated group conversation has as many participants as its workspace has
members. -/
theorem participantsOf_migrated (h : t.Valid) (hup : up migration t = .ok d₀.toTables)
    {c : ChatConversation} (hc : c ∈ d₀.conversations) (htype : c.type = .group) :
    (participantsOf d₀ c.id).length =
      (t.members.filter fun m => m.workspaceID = c.workspaceID).length := by
  obtain ⟨hm, hmigrated⟩ := up_ok_iff.mp hup
  have hperm := hm.participants_perm h (by rw [← hmigrated]; exact hc) htype
  rw [← hmigrated] at hperm
  have hlength := hperm.length_eq
  rw [List.length_map, List.length_map] at hlength
  exact hlength

/-- Every workspace that was there to migrate has a group conversation. -/
theorem exists_migrated_group (hup : up migration t = .ok d₀.toTables) {w : Uuid}
    (hw : ∃ v ∈ t.workspaces, v.id = w) :
    ∃ c ∈ d₀.conversations, c.type = .group ∧ c.workspaceID = w := by
  obtain ⟨v, hv, rfl⟩ := hw
  obtain ⟨-, hmigrated⟩ := up_ok_iff.mp hup
  obtain ⟨c, hc, htype, hcv⟩ := exists_mem_newGroups migration hv
  refine ⟨c, ?_, htype, hcv⟩
  rw [hmigrated]
  exact List.mem_append_right _ hc

/-- In every state after the migration a group conversation has as many
participants as its workspace had members to migrate. -/
theorem participantsOf_afterwards (h : t.Valid) (hup : up migration t = .ok d₀.toTables)
    {s : ChatState} (hs : GroupsAsIn d₀ s) {c : ChatConversation} (hc : c ∈ s.db.conversations)
    (htype : c.type = .group) :
    (participantsOf s.db c.id).length =
      (t.members.filter fun m => m.workspaceID = c.workspaceID).length := by
  rw [hs.participants c hc htype]
  by_cases hthere : ∃ v ∈ t.workspaces, v.id = c.workspaceID
  · obtain ⟨c₀, hc₀, htype₀, hw₀⟩ := exists_migrated_group hup hthere
    have hsame : c₀ = c := s.db.valid.conversations_group.eq
      (List.mem_filter.mpr ⟨hs.grows.conversations c₀ hc₀, by simp [htype₀]⟩)
      (List.mem_filter.mpr ⟨hc, by simp [htype]⟩) hw₀
    rw [← hsame, participantsOf_migrated h hup hc₀ htype₀]
  · -- the workspace is newer than the migration: neither side has a row
    rw [members_eq_nil h hthere, participantsOf_eq_nil, List.length_nil, List.length_nil]
    rintro ⟨v, hv, hid⟩
    have hvc : v = c := s.db.valid.conversations_id.eq (hs.grows.conversations v hv) hc hid
    obtain ⟨u, hu, huv⟩ := d₀.valid.conversations_workspace v hv
    have hworkspaces : d₀.workspaces = t.workspaces :=
      congrArg Tables.workspaces (up_ok_iff.mp hup).2
    rw [hworkspaces] at hu
    exact hthere ⟨u, hu, by rw [huv, hvc]⟩

end Migrated

/-- After migration 000006 and any run of the service, the list of a workspace is
exact exactly when at most one member of the workspace was there to migrate. -/
theorem listsExactly_iff {migration : MigrationChoice} {t : EarlierTables} {d₀ : ChatDb}
    {ls : List ServiceLabel} {p : Service} (h : t.Valid)
    (hup : up migration t = .ok d₀.toTables)
    (hrun : run Service.step ⟨⟨d₀, []⟩, []⟩ ls = some p) (choice : Choice) (w person : Uuid) :
    ListsExactly p.state.db choice w person ↔
      (t.members.filter fun m => m.workspaceID = w).length ≤ 1 := by
  have hgroups := groupsAsIn_run hrun
  rw [listsExactly_iff_participants]
  constructor
  · intro hall
    by_cases hthere : ∃ v ∈ t.workspaces, v.id = w
    · obtain ⟨c, hc, htype, rfl⟩ := exists_migrated_group hup hthere
      have hc' := hgroups.grows.conversations c hc
      rw [← participantsOf_afterwards h hup hgroups hc' htype]
      exact hall c hc' rfl htype
    · rw [members_eq_nil h hthere]
      exact Nat.zero_le 1
  · rintro hle c hc rfl htype
    rw [participantsOf_afterwards h hup hgroups hc htype]
    exact hle

/-- A workspace with one member. -/
def oneMember : EarlierTables := { twoMembers with members := [⟨20, 10, 1, "Admin", true, 0⟩] }

theorem oneMember_valid : oneMember.Valid := by
  constructor <;> decide

theorem up_oneMember :
    up (.counting 99 200) oneMember = .ok (migrated (.counting 99 200) oneMember) := by
  decide

/-- The database that the migration makes of it. -/
def oneMigrated : ChatDb := ⟨_, up_valid oneMember_valid up_oneMember⟩

/-- A second member is added and opens a direct conversation with the first. -/
def secondMemberLabels : List ServiceLabel :=
  [.start (Call.addMember 10 2 "Member").request, served 0 21 1,
   .start (Call.getOrCreateDMConversation 10 2 1).request, served 1 60 2, served 1 101 3,
   served 1 70 4, served 1 71 5]

/-- A member added after the migration does not take part in the group
conversation, so both conversations are listed once. -/
theorem listsExactly_secondMember :
    ∃ (d₀ : ChatDb) (p : Service), up (.counting 99 200) oneMember = .ok d₀.toTables ∧
      run Service.step ⟨⟨d₀, []⟩, []⟩ secondMemberLabels = some p ∧
      p.state.db.conversations.map (·.type) = [.group, .dm] ∧
      ListsExactly p.state.db (Choice.generating 1 0) 10 2 := by
  have hrun : (run Service.step ⟨⟨oneMigrated, []⟩, []⟩ secondMemberLabels).map
      (fun p => p.state.db.conversations.map (·.type)) = some [.group, .dm] := by
    decide
  obtain ⟨p, hp, htypes⟩ := Option.map_eq_some_iff.mp hrun
  exact ⟨oneMigrated, p, up_oneMember, hp, htypes,
    (listsExactly_iff oneMember_valid up_oneMember hp (Choice.generating 1 0) 10 2).mpr (by decide)⟩

theorem up_twoMembers :
    up (.counting 99 200) twoMembers = .ok (migrated (.counting 99 200) twoMembers) := by
  decide

/-- The database that the migration makes of two members. -/
def twoMigrated : ChatDb := ⟨_, up_valid twoMembers_valid up_twoMembers⟩

/-- With two members to migrate the group conversation is listed twice. -/
theorem listsExactly_not_always :
    ¬∀ (migration : MigrationChoice) (t : EarlierTables) (d₀ : ChatDb) (ls : List ServiceLabel)
      (p : Service), migration.Distinct → t.Valid → t.conversations = [] →
      up migration t = .ok d₀.toTables → run Service.step ⟨⟨d₀, []⟩, []⟩ ls = some p →
      ∀ (choice : Choice) (w person : Uuid), ListsExactly p.state.db choice w person := by
  intro h
  have hlist := h _ twoMembers twoMigrated [] _ (MigrationChoice.counting_distinct 99 200)
    twoMembers_valid rfl up_twoMembers rfl (Choice.generating 1 0) 10 1 ⟨100, 10, .group, 0⟩
  revert hlist
  decide

end AuraWellness.Chat.ListedOnce
