import AuraWellness.Chat.DirectMessages

/-!
# What a failed creation of a direct conversation leaves behind

`GetOrCreateDMConversation` stores the conversation before it checks the two
persons and before it adds them. Once the insert has taken effect, every later
error leaves a conversation with at most one participant in the tables.
-/

namespace AuraWellness.Chat.FailedCreation

open AuraWellness.Lib.Calls AuraWellness.Lib.Transition
open AuraWellness.Chat.Entities AuraWellness.Chat.Schema AuraWellness.Chat.Repositories
open AuraWellness.Chat.Services AuraWellness.Chat.Growth AuraWellness.Chat.DirectMessages

variable {stamps : ℕ → Stamp} {w a b : Uuid} {turns : ℕ → Turn Choice GoError} {s : ChatState}

/-- A `GetOrCreateDMConversation` that runs alone, its n-th repository call
answered by the n-th turn. -/
def runDM (stamps : ℕ → Stamp) (w a b : Uuid) (turns : ℕ → Turn Choice GoError)
    (s : ChatState) : Except GoError ChatConversation × ChatState :=
  (ConversationService.getOrCreateDMConversation stamps w a b).run chatMachine turns s

/-- If the call returns an error, the conversations and the participants are as
before. -/
def LeavesNothing (stamps : ℕ → Stamp) (w a b : Uuid) (turns : ℕ → Turn Choice GoError)
    (s : ChatState) : Prop :=
  ∀ e, (runDM stamps w a b turns s).1 = .error e →
    (runDM stamps w a b turns s).2.db.conversations = s.db.conversations ∧
      (runDM stamps w a b turns s).2.db.participants = s.db.participants

/-- The lookup gets through and finds a direct conversation of the two persons. -/
def LookupHits (w a b : Uuid) (turn : Turn Choice GoError) (s : ChatState) : Prop :=
  (∃ choice, turn = .serve choice) ∧ ConversationRepo.dmsOf s.db w a b ≠ []

/-- The insert of a direct conversation takes effect, whether or not the reply
gets back. -/
def Stores (w : Uuid) (turn : Turn Choice GoError) (s : ChatState) : Prop :=
  ∃ choice, turn.choice? = some choice ∧ (∃ v ∈ s.db.workspaces, v.id = w) ∧
    ¬∃ v ∈ s.db.conversations, v.id = choice.uuid

/-- Both persons are given and both are added: the inserts are answered and draw
unused identifiers. A second insert of the same person does nothing. -/
def BothAdded (a b : Uuid) (first second : Turn Choice GoError) (s : ChatState) : Prop :=
  a ≠ Uuid.nil ∧ b ≠ Uuid.nil ∧ ∃ c₁ c₂, first = .serve c₁ ∧ second = .serve c₂ ∧
    (¬∃ v ∈ s.db.participants, v.id = c₁.uuid) ∧
    (b = a ∨ (c₂.uuid ≠ c₁.uuid ∧ ¬∃ v ∈ s.db.participants, v.id = c₂.uuid))

/-- When the insert of a participant into a stored conversation succeeds. -/
theorem answer_add_ok_iff {p : ChatConversationParticipant} {t : Turn Choice GoError}
    (hc : ∃ c ∈ s.db.conversations, c.id = p.conversationID) :
    (chatMachine.answer (.conversationAddParticipant p) t s).1 = .ok () ↔
      ∃ choice, t = .serve choice ∧ (Participates s.db p.conversationID p.personID ∨
        ¬∃ v ∈ s.db.participants, v.id = choice.uuid) := by
  constructor
  · intro h
    obtain ⟨choice, rfl, -⟩ := Machine.answer_ok h
    refine ⟨choice, rfl, ?_⟩
    obtain ⟨u, d, hr, -⟩ | ⟨e, -, he⟩ :=
      commitWrite_cases "add participant" s (s.db.insertParticipant choice p)
    · obtain ⟨⟨v, hv, hkey⟩, -⟩ | ⟨-, hid, -, -⟩ := insertParticipant_ok_iff.mp hr
      · obtain ⟨hconv, hperson⟩ := Prod.mk.inj hkey
        exact Or.inl ⟨v, hv, hconv, hperson⟩
      · exact Or.inr hid
    · cases (congrArg Prod.fst he).symm.trans h
  · rintro ⟨choice, rfl, hok⟩
    have accepted : ∃ d, s.db.insertParticipant choice p = .ok ((), d) := by
      obtain ⟨v, hv, hconv, hperson⟩ | hid := hok
      · exact ⟨s.db, insertParticipant_ok_iff.mpr
          (Or.inl ⟨⟨v, hv, Prod.ext hconv hperson⟩, rfl⟩)⟩
      · exact insertParticipant_accepts hid hc
    obtain ⟨d, hd⟩ := accepted
    refine congrArg Prod.fst (?_ : commitWrite "add participant" s _ = (.ok (), { s with db := d }))
    rw [hd]
    rfl

/-- The participants after a new one was added. -/
theorem answer_add_participants {p : ChatConversationParticipant} {choice : Choice}
    (h : (chatMachine.answer (.conversationAddParticipant p) (.serve choice) s).1 = .ok ())
    (hnew : ¬Participates s.db p.conversationID p.personID) :
    (chatMachine.answer (.conversationAddParticipant p) (.serve choice) s).2.db.participants =
      s.db.participants ++ [{ p with id := choice.uuid, createdAt := choice.now }] := by
  obtain ⟨u, d, hr, hc⟩ | ⟨e, -, he⟩ :=
    commitWrite_cases "add participant" s (s.db.insertParticipant choice p)
  · have ha : chatMachine.answer (.conversationAddParticipant p) (.serve choice) s =
      (.ok u, { s with db := d }) := hc
    rw [ha]
    obtain ⟨⟨v, hv, hkey⟩, -⟩ | ⟨-, -, -, hd⟩ := insertParticipant_ok_iff.mp hr
    · obtain ⟨hconv, hperson⟩ := Prod.mk.inj hkey
      exact absurd ⟨v, hv, hconv, hperson⟩ hnew
    · dsimp only
      rw [hd]
  · cases (congrArg Prod.fst he).symm.trans h

/-- Running the second half of the additions from the state after the first. -/
theorem addSecond_ok_iff {created : ChatConversation} {s₁ : ChatState} {c₁ : Choice}
    (stamp : Stamp) (b : Uuid) (t : Turn Choice GoError)
    (hstored : created ∈ s₁.db.conversations) (hnone : ∀ x, ¬Participates s.db created.id x)
    (hrows : s₁.db.participants = s.db.participants ++ [⟨c₁.uuid, created.id, a, c₁.now⟩]) :
    (chatMachine.answer (.conversationAddParticipant
        ⟨stamp.id, created.id, b, stamp.now⟩) t s₁).1 = .ok () ↔
      ∃ c₂, t = .serve c₂ ∧
        (b = a ∨ (c₂.uuid ≠ c₁.uuid ∧ ¬∃ v ∈ s.db.participants, v.id = c₂.uuid)) := by
  have hmember : Participates s₁.db created.id b ↔ b = a := by
    unfold Participates
    rw [hrows]
    constructor
    · rintro ⟨v, hv, hconv, hperson⟩
      obtain hv | hv := List.mem_append.mp hv
      · exact absurd ⟨v, hv, hconv, hperson⟩ (hnone b)
      · rw [List.mem_singleton.mp hv] at hperson
        exact hperson.symm
    · rintro rfl
      exact ⟨_, List.mem_append_right _ (List.mem_singleton_self _), rfl, rfl⟩
  have hused : ∀ id : Uuid, (¬∃ v ∈ s₁.db.participants, v.id = id) ↔
      id ≠ c₁.uuid ∧ ¬∃ v ∈ s.db.participants, v.id = id := by
    intro id
    rw [hrows]
    constructor
    · intro h
      exact ⟨fun he => h ⟨_, List.mem_append_right _ (List.mem_singleton_self _), he.symm⟩,
        fun ⟨v, hv, he⟩ => h ⟨v, List.mem_append_left _ hv, he⟩⟩
    · rintro ⟨hne, hnot⟩ ⟨v, hv, he⟩
      obtain hv | hv := List.mem_append.mp hv
      · exact hnot ⟨v, hv, he⟩
      · rw [List.mem_singleton.mp hv] at he
        exact hne he.symm
  rw [answer_add_ok_iff ⟨created, hstored, rfl⟩]
  simp only [hmember, hused]

/-- When the two persons get into a stored conversation in which nobody is yet. -/
theorem addBoth_ok_iff {created : ChatConversation}
    (hstored : created ∈ s.db.conversations) (hnone : ∀ x, ¬Participates s.db created.id x) :
    (∃ c, ((ConversationService.addBothParticipants stamps created a b).run
        chatMachine turns s).1 = .ok c) ↔ BothAdded a b (turns 0) (turns 1) s := by
  have hid : created.id ≠ Uuid.nil := s.db.valid.conversations_generated _ hstored
  have hconv : ∃ c ∈ s.db.conversations, c.id = created.id := ⟨created, hstored, rfl⟩
  unfold ConversationService.addBothParticipants
  rw [newConversationParticipant_eq, if_neg hid, newConversationParticipant_eq, if_neg hid]
  by_cases ha : a = Uuid.nil
  · rw [if_pos ha]
    exact ⟨fun ⟨c, hc⟩ => (by cases hc), fun h => absurd ha h.1⟩
  rw [if_neg ha, Program.ofExcept_eq, Program.ret_ok_bind, Program.run_perform_bind]
  have hfirst := answer_add_ok_iff (t := turns 0)
    (p := ⟨(stamps 1).id, created.id, a, (stamps 1).now⟩) hconv
  cases hr : (chatMachine.answer (.conversationAddParticipant
      ⟨(stamps 1).id, created.id, a, (stamps 1).now⟩) (turns 0) s).1 with
  | error e =>
    refine ⟨fun ⟨c, hc⟩ => (by cases hc), fun h => ?_⟩
    obtain ⟨-, -, c₁, c₂, h₁, -, hfresh, -⟩ := h
    cases hr.symm.trans (hfirst.mpr ⟨c₁, h₁, Or.inr hfresh⟩)
  | ok u =>
    obtain ⟨c₁, h₁, hfresh⟩ := hfirst.mp hr
    have hunused := hfresh.resolve_left (hnone a)
    rw [h₁] at hr ⊢
    have hrows := answer_add_participants hr (hnone a)
    have hkept := (answer_grows (.conversationAddParticipant
      ⟨(stamps 1).id, created.id, a, (stamps 1).now⟩) (.serve c₁) s).conversations _ hstored
    have hsecond := addSecond_ok_iff (stamps 2) b (turns 1) hkept hnone hrows
    dsimp only
    by_cases hb : b = Uuid.nil
    · rw [if_pos hb]
      exact ⟨fun ⟨c, hc⟩ => (by cases hc), fun h => absurd hb h.2.1⟩
    rw [if_neg hb, Program.ofExcept_eq, Program.ret_ok_bind, Program.run_perform_bind]
    constructor
    · rintro ⟨c, hc⟩
      split at hc
      · rename_i hr₂
        obtain ⟨c₂, h₂, hok⟩ := hsecond.mp hr₂
        exact ⟨ha, hb, c₁, c₂, rfl, h₂, hunused, hok⟩
      · cases hc
    · rintro ⟨-, -, c₁', c₂, h₁', h₂, -, hok⟩
      cases h₁'
      rw [hsecond.mpr ⟨c₂, h₂, hok⟩]
      exact ⟨created, rfl⟩

/-- The lookup changes nothing. -/
theorem answer_lookup_state (t : Turn Choice GoError) :
    (chatMachine.answer (.conversationGetDMByParticipants w a b) t s).2 = s := by
  cases t <;> rfl

/-- The lookup succeeds exactly when it gets through and finds a row. -/
theorem answer_lookup_ok_iff {t : Turn Choice GoError} :
    (∃ c, (chatMachine.answer (.conversationGetDMByParticipants w a b) t s).1 = .ok c) ↔
      LookupHits w a b t s := by
  constructor
  · rintro ⟨c, hc⟩
    obtain ⟨choice, rfl, -⟩ := Machine.answer_ok hc
    exact ⟨⟨choice, rfl⟩, List.ne_nil_of_mem (getDMByParticipants_ok hc)⟩
  · rintro ⟨⟨choice, rfl⟩, hrows⟩
    cases hr : ConversationRepo.getDMByParticipants s.db choice w a b with
    | ok c => exact ⟨c, hr⟩
    | error e => exact absurd (getDMByParticipants_error hr) hrows

/-- A direct conversation whose insert takes effect is appended; the reply gets
back when the call is served. -/
theorem answer_create_stored (row₀ : ChatConversation) {t : Turn Choice GoError}
    (hw : row₀.workspaceID = w) (hdm : row₀.type = .dm) (h : Stores w t s) :
    ∃ row, (¬∃ v ∈ s.db.conversations, v.id = row.id) ∧
      (chatMachine.answer (.conversationCreate row₀) t s).2.db.toTables =
        { s.db.toTables with conversations := s.db.conversations ++ [row] } ∧
      ((∃ choice, t = .serve choice) →
        (chatMachine.answer (.conversationCreate row₀) t s).1 = .ok row) ∧
      ∀ c, (chatMachine.answer (.conversationCreate row₀) t s).1 = .ok c →
        ∃ choice, t = .serve choice := by
  obtain ⟨choice, ht, hworkspace, hid⟩ := h
  obtain ⟨row, d, hd⟩ := insertConversation_accepts (c := row₀) hid
    (fun hg => by cases hdm.symm.trans hg.1) (by rw [hw]; exact hworkspace)
  obtain ⟨-, -, -, hrow, htables⟩ := insertConversation_ok_iff.mp hd
  have hexec : chatMachine.exec (.conversationCreate row₀) choice s =
      (.ok row, { s with db := d }) := by
    refine (?_ : commitWrite "create conversation" s (s.db.insertConversation choice row₀) = _)
    rw [hd]
    rfl
  refine ⟨row, by rw [hrow]; exact hid, ?_, ?_, ?_⟩
  · rw [chatMachine.answer_state_some _ s ht, hexec]
    exact htables
  · rintro ⟨c, rfl⟩
    cases ht
    exact congrArg Prod.fst hexec
  · intro c hc
    obtain ⟨choice', hserve, -⟩ := Machine.answer_ok hc
    exact ⟨choice', hserve⟩

/-- A direct conversation whose insert takes no effect leaves the state. -/
theorem answer_create_refused (row₀ : ChatConversation) {t : Turn Choice GoError}
    (hw : row₀.workspaceID = w) (h : ¬Stores w t s) :
    ∃ e, chatMachine.answer (.conversationCreate row₀) t s = (.error e, s) := by
  have refused : ∀ choice, t.choice? = some choice → ∃ e,
      chatMachine.exec (.conversationCreate row₀) choice s = (.error e, s) := by
    intro choice ht
    obtain ⟨row, d, hr, -⟩ | ⟨e, -, he⟩ :=
      commitWrite_cases "create conversation" s (s.db.insertConversation choice row₀)
    · obtain ⟨hid, -, hworkspace, -, -⟩ := insertConversation_ok_iff.mp hr
      rw [hw] at hworkspace
      exact absurd ⟨choice, ht, hworkspace, hid⟩ h
    · exact ⟨_, he⟩
  cases t with
  | serve choice => exact refused choice rfl
  | drop e => exact ⟨e, rfl⟩
  | lost choice e =>
    obtain ⟨e', he⟩ := refused choice rfl
    exact ⟨e, Prod.ext rfl (by rw [chatMachine.answer_state_some _ s rfl, he])⟩

/-- A call whose lookup hits returns what it found. -/
theorem runDM_hit (stamps : ℕ → Stamp) (h : LookupHits w a b (turns 0) s) :
    ∃ c, runDM stamps w a b turns s = (.ok c, s) := by
  obtain ⟨c, hc⟩ := answer_lookup_ok_iff.mpr h
  refine ⟨c, ?_⟩
  unfold runDM ConversationService.getOrCreateDMConversation
  rw [Program.run_attempt_bind, hc, answer_lookup_state]
  rfl

/-- A call whose lookup does not hit goes on to create. -/
theorem runDM_miss (stamps : ℕ → Stamp) (h : ¬LookupHits w a b (turns 0) s) :
    runDM stamps w a b turns s =
      if w = Uuid.nil then (.error (required "workspaceID"), s)
      else ((perform (.conversationCreate ⟨(stamps 0).id, w, .dm, (stamps 0).now⟩) >>=
        fun created => ConversationService.addBothParticipants stamps created a b).run
          chatMachine (fun n => turns (n + 1)) s) := by
  cases hr : (chatMachine.answer (.conversationGetDMByParticipants w a b) (turns 0) s).1 with
  | ok c => exact absurd (answer_lookup_ok_iff.mp ⟨c, hr⟩) h
  | error e =>
    unfold runDM ConversationService.getOrCreateDMConversation
    rw [Program.run_attempt_bind, hr, answer_lookup_state, newConversation_dm]
    dsimp only
    split <;> rfl

/-- A stored conversation stays while its participants are added. -/
theorem addBoth_keeps {created c : ChatConversation} (h : c ∈ s.db.conversations) :
    c ∈ ((ConversationService.addBothParticipants stamps created a b).run
      chatMachine turns s).2.db.conversations :=
  Program.run_preserves (I := fun s' => c ∈ s'.db.conversations) (P := fun _ => True)
    (fun op choice s' _ hs' => (exec_effect op choice s').grows.conversations c hs')
    (Program.allOps_true _) turns h

/-- A call whose lookup hits cannot fail. -/
theorem leavesNothing_of_hit (stamps : ℕ → Stamp) (h : LookupHits w a b (turns 0) s) :
    LeavesNothing stamps w a b turns s := by
  intro e he
  obtain ⟨c, hc⟩ := runDM_hit stamps h
  rw [hc] at he
  cases he

/-- A call whose insert has no effect leaves the state. -/
theorem leavesNothing_of_refused (stamps : ℕ → Stamp) (hmiss : ¬LookupHits w a b (turns 0) s)
    (h : ¬Stores w (turns 1) s) : LeavesNothing stamps w a b turns s := by
  intro e _
  have hstate : (runDM stamps w a b turns s).2 = s := by
    rw [runDM_miss stamps hmiss]
    split
    · rfl
    · obtain ⟨e', he'⟩ := answer_create_refused
        ⟨(stamps 0).id, w, .dm, (stamps 0).now⟩ rfl h
      rw [Program.run_perform_bind, he']
  rw [hstate]
  exact ⟨rfl, rfl⟩

/-- A call that has stored a conversation leaves nothing behind only by succeeding. -/
theorem leavesNothing_iff_succeeds {stamps : ℕ → Stamp} {row : ChatConversation}
    (hnew : ¬∃ v ∈ s.db.conversations, v.id = row.id)
    (hkept : row ∈ (runDM stamps w a b turns s).2.db.conversations) :
    LeavesNothing stamps w a b turns s ↔ ∃ c, (runDM stamps w a b turns s).1 = .ok c := by
  constructor
  · intro h
    cases hr : (runDM stamps w a b turns s).1 with
    | ok c => exact ⟨c, rfl⟩
    | error e =>
      rw [(h e hr).1] at hkept
      exact absurd ⟨row, hkept, rfl⟩ hnew
  · rintro ⟨c, hc⟩ e he
    cases hc.symm.trans he

/-- A call whose insert takes effect leaves nothing behind exactly when the reply
gets back and both persons are added. -/
theorem leavesNothing_of_stored_iff (stamps : ℕ → Stamp) (hmiss : ¬LookupHits w a b (turns 0) s)
    (h : Stores w (turns 1) s) :
    LeavesNothing stamps w a b turns s ↔
      (∃ choice, turns 1 = .serve choice) ∧ BothAdded a b (turns 2) (turns 3) s := by
  have hnil : w ≠ Uuid.nil := by
    obtain ⟨-, -, ⟨v, hv, rfl⟩, -⟩ := h
    exact s.db.valid.workspaces_generated v hv
  obtain ⟨row, hnew, htables, hserved, hreply⟩ := answer_create_stored
    ⟨(stamps 0).id, w, .dm, (stamps 0).now⟩ rfl rfl h
  have hrun := runDM_miss stamps hmiss
  rw [if_neg hnil, Program.run_perform_bind] at hrun
  have hrow : row ∈ (chatMachine.answer (.conversationCreate
      ⟨(stamps 0).id, w, .dm, (stamps 0).now⟩) (turns 1) s).2.db.conversations := by
    rw [htables]
    exact List.mem_append_right _ (List.mem_singleton_self _)
  have hkept : row ∈ (runDM stamps w a b turns s).2.db.conversations := by
    rw [hrun]
    split
    · exact addBoth_keeps hrow
    · exact hrow
  rw [leavesNothing_iff_succeeds hnew hkept, hrun]
  by_cases hserve : ∃ choice, turns 1 = .serve choice
  · have hnone : ∀ x, ¬Participates (chatMachine.answer (.conversationCreate
        ⟨(stamps 0).id, w, .dm, (stamps 0).now⟩) (turns 1) s).2.db row.id x := by
      intro x hx
      exact hnew (participates_stored
        (participates_of_not_add (fun p hp => by cases hp) hx))
    have hparticipants := congrArg Tables.participants htables
    rw [hserved hserve]
    dsimp only
    rw [addBoth_ok_iff hrow hnone]
    unfold BothAdded
    rw [hparticipants]
    exact (and_iff_right hserve).symm
  · refine iff_of_false ?_ fun hboth => hserve hboth.1
    rintro ⟨c, hc⟩
    split at hc
    · rename_i created hr
      exact hserve (hreply created hr)
    · cases hc

/-- Exactly when a failed call has left nothing behind: the lookup hit, or the
insert of the conversation had no effect, or the call ran through. -/
theorem leavesNothing_iff (stamps : ℕ → Stamp) (w a b : Uuid) (turns : ℕ → Turn Choice GoError)
    (s : ChatState) :
    LeavesNothing stamps w a b turns s ↔
      LookupHits w a b (turns 0) s ∨ ¬Stores w (turns 1) s ∨
        ((∃ choice, turns 1 = .serve choice) ∧ BothAdded a b (turns 2) (turns 3) s) := by
  by_cases hhit : LookupHits w a b (turns 0) s
  · exact iff_of_true (leavesNothing_of_hit stamps hhit) (Or.inl hhit)
  by_cases hstores : Stores w (turns 1) s
  · rw [leavesNothing_of_stored_iff stamps hhit hstores]
    constructor
    · exact fun h => Or.inr (Or.inr h)
    · rintro (h | h | h)
      · exact absurd h hhit
      · exact absurd hstores h
      · exact h
  · exact iff_of_true (leavesNothing_of_refused stamps hhit hstores) (Or.inr (Or.inl hstores))

/-- At most one of the repository calls fails. -/
def OneFault (turns : ℕ → Turn Choice GoError) : Prop :=
  ∀ i j, (∀ choice, turns i ≠ .serve choice) → (∀ choice, turns j ≠ .serve choice) → i = j

/-- The repository calls are all answered, the n-th one at this time. -/
def allServed (n : ℕ) : Turn Choice GoError := .serve (Choice.generating (20 + n) n)

/-- A direct conversation with the nil person is refused after it was stored. -/
theorem leavesNothing_not_invariant :
    ¬∀ ls p stamps w a b turns, run Service.step Service.initial ls = some p → OneFault turns →
      LeavesNothing stamps w a b turns p.state := by
  intro h
  have hrun : ((run Service.step Service.initial
      [.start (Call.createWorkspace 9 3 "HQ").request, served 0 10 0]).map fun p =>
        ((runDM (fun _ => ⟨1, 0⟩) 10 1 Uuid.nil allServed p.state).1,
          (runDM (fun _ => ⟨1, 0⟩) 10 1 Uuid.nil allServed p.state).2.db.conversations,
          p.state.db.conversations)) =
        some (.error (required "personID"), [⟨21, 10, .dm, 1⟩], []) := by decide
  obtain ⟨p, hp, hresult⟩ := Option.map_eq_some_iff.mp hrun
  obtain ⟨herror, hresult⟩ := Prod.mk.inj hresult
  obtain ⟨hafter, hbefore⟩ := Prod.mk.inj hresult
  have hsame := (h _ p _ 10 1 Uuid.nil allServed hp
    (fun i _ hi _ => absurd rfl (hi _)) _ herror).1
  rw [hafter, hbefore] at hsame
  cases hsame

end AuraWellness.Chat.FailedCreation
