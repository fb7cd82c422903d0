import AuraWellness.Backend.Answers

/-!
# Chat calls of unauthorised callers

Two of the six chat methods check the caller's access before anything else,
two create or fetch the group conversation first, and two never check it; none
of them looks at the caller's company. A refused call leaves the chat tables
as they were exactly when the check comes first and denies the access.
-/

namespace AuraWellness.Backend.Authorization

open AuraWellness.Lib.Calls AuraWellness.Lib.Transition
open AuraWellness.Chat.Entities AuraWellness.Chat.Schema AuraWellness.Chat.Repositories
open AuraWellness.Chat.Services AuraWellness.Chat.Growth AuraWellness.Chat.Handlers
open AuraWellness.Chat.Membership
open AuraWellness.Backend.Entities AuraWellness.Backend.Schema AuraWellness.Backend.Repositories
open AuraWellness.Backend.Services AuraWellness.Backend.Runs AuraWellness.Backend.Answers

/-- The chat methods for conversations and messages, with what they are asked
for beside the caller and the business unit. -/
inductive ChatAction
  | getConversations
  | getOrCreateDM (targetPersonId : Uuid)
  | getConversationMessages (conversationId : Uuid) (limit : ℤ) (before : Option Time)
  | sendConversationMessage (conversationId : Uuid) (senderName content : String)
  | getMessages (limit : ℤ) (before : Option Time)
  | sendMessage (senderName content : String)

/-- What each method returns when it does not return null. -/
abbrev ChatAction.Reply : ChatAction → Type
  | getConversations => List ChatConversationResponse
  | getOrCreateDM _ => ChatConversationResponse
  | getConversationMessages _ _ _ => List ChatMessageDto
  | sendConversationMessage _ _ _ => ChatMessageDto
  | getMessages _ _ => List ChatMessageDto
  | sendMessage _ _ => ChatMessageDto

/-- The method as a person of a company calls it on a business unit. -/
def ChatAction.program (bu person company : Uuid) :
    (action : ChatAction) → BackendProgram (Option action.Reply)
  | getConversations => ChatAccessService.getConversations bu person company
  | getOrCreateDM target => ChatAccessService.getOrCreateDM bu person target company
  | getConversationMessages conv limit before =>
    ChatAccessService.getConversationMessages bu conv person company limit before
  | sendConversationMessage conv name content =>
    ChatAccessService.sendConversationMessage bu conv person name content company
  | getMessages limit before => ChatAccessService.getMessages bu person company limit before
  | sendMessage name content => ChatAccessService.sendMessage bu person name content company

/-- The business unit is one of the company, and the person has access to its
workspace. -/
def Authorised (s : World) (bu person company : Uuid) : Prop :=
  (∃ b ∈ s.main.businessUnits, b.id = bu ∧ b.companyId = company) ∧
    ∃ w ∈ s.chat.db.workspaces, w.buID = bu ∧ HasAccess s.chat.db w.id person

instance (s : World) (bu person company : Uuid) : Decidable (Authorised s bu person company) := by
  unfold Authorised
  infer_instance

/-- The call returned null or threw `UnauthorizedAccessException`. -/
def Refused {α : Type} (r : Except Exn (Option α)) : Prop :=
  r = .ok none ∨ ∃ message, r = .error (.unauthorizedAccess message)

/-- The call was refused and every chat table is as it was before. -/
def LeavesNoTrace (env : ℕ → Turn BackendChoice Exn) (s : World) (action : ChatAction)
    (bu person company : Uuid) : Prop :=
  let result := (action.program bu person company).run backendMachine env s
  Refused result.1 ∧ result.2.chat.db.toTables = s.chat.db.toTables

/-- Before the method checks the access it neither creates nor reads anything
but the group conversation that is there already. -/
def ChatAction.ChecksFirst (d : ChatDb) (workspaceID : Uuid) : ChatAction → Prop
  | getConversationMessages _ _ _ => True
  | sendConversationMessage _ _ _ => True
  | getMessages _ _ => GroupExists d workspaceID
  | sendMessage _ _ => GroupExists d workspaceID
  | getConversations => False
  | getOrCreateDM _ => False

/-- The workspace of the business unit, if there is one, stops the caller at a
check that comes first. -/
def Stopped (s : World) (action : ChatAction) (bu person : Uuid) : Prop :=
  ∀ w ∈ s.chat.db.workspaces, w.buID = bu →
    ¬HasAccess s.chat.db w.id person ∧ action.ChecksFirst s.chat.db w.id

/-- The result does not come from a denied access. -/
def NotDenied {α : Type} (r : Except Exn α) : Prop :=
  ∀ message, r ≠ .error (.unauthorizedAccess message)

theorem not_refused_some {α : Type} (a : α) : ¬Refused (.ok (some a)) := by
  rintro (h | ⟨message, h⟩)
  · cases h
  · cases h

theorem not_refused_error {α β : Type} {e : Exn} (h : NotDenied (.error e : Except Exn α)) :
    ¬Refused (.error e : Except Exn (Option β)) := by
  rintro (he | ⟨message, he⟩)
  · cases he
  · cases he
    exact h message rfl

/-- No call of the services is refused by the databases or the chat service as
a denied access. -/
theorem exec_notDenied (op : BackendCall) (c : BackendChoice) (s : World) :
    NotDenied (op.exec c s).1 := by
  have stored : ∀ r : Except DbError MainDb, NotDenied (storeMain s r).1 := by
    intro r message h
    cases r <;> cases h
  intro message h
  cases op with
  | chat rpc =>
    have hreply : (rpc.serve c.rpc s.chat).1.mapError Exn.rpc = .error (.unauthorizedAccess message) := h
    generalize (rpc.serve c.rpc s.chat).1 = r at hreply
    cases r <;> cases hreply
  | add row => exact stored _ message h
  | commit rows => exact stored _ message h
  | addInTransaction earlier row =>
    rw [BackendCall.exec] at h
    split at h <;> cases h
  | _ => cases h

/-- An answered call is not denied. -/
theorem answered_notDenied {env : ℕ → Turn BackendChoice Exn} (h : Answered env) (op : BackendCall)
    (n : ℕ) (s : World) : NotDenied (backendMachine.answer op (env n) s).1 := by
  obtain ⟨c, hc, -⟩ := h n
  rw [hc]
  exact exec_notDenied op c s

/-- A program that never refuses by itself is not refused. -/
theorem answered_not_refused {α : Type} {env : ℕ → Turn BackendChoice Exn} (h : Answered env)
    {p : BackendProgram (Option α)}
    (hp : p.Returns (fun _ r => NotDenied r) fun r => ¬Refused r) (s : World) :
    ¬Refused (p.run backendMachine env s).1 :=
  hp.run (answered_notDenied h) s

/-- Mapping the listed conversations denies nothing. -/
theorem toConversationResponses_returns (persons : List Person) (convs : List ChatConversation) :
    (ChatAccessService.toConversationResponses persons convs).Returns (fun _ r => NotDenied r)
      NotDenied := by
  induction convs with
  | nil => exact fun message h => (by cases h)
  | cons conv convs ih =>
    refine Program.Returns.perform_bind (fun _ _ => ?_) (fun e he message h => he message (by cases h; rfl))
    refine Program.Returns.bind ih (fun _ _ message h => (by cases h)) ?_
    exact fun e he message h => he message (by cases h; rfl)

/-- An answered look at the group conversation and the caller's conversations is
not refused. -/
theorem getConversations_not_refused {env : ℕ → Turn BackendChoice Exn} (h : Answered env)
    {bu person company : Uuid} {s : World} {w : ChatWorkspace}
    (hw : workspaceOf s.chat.db bu = some w) :
    ¬Refused ((ChatAccessService.getConversations bu person company).run backendMachine env s).1 := by
  unfold ChatAccessService.getConversations
  rw [h.run_getWorkspaceByBuId, hw]
  refine answered_not_refused h.rest ?_ s
  refine Program.Returns.perform_bind (fun _ _ => ?_) fun _ he => not_refused_error he
  refine Program.Returns.perform_bind (fun _ _ => ?_) fun _ he => not_refused_error he
  refine Program.Returns.perform_bind (fun persons _ => ?_) fun _ he => not_refused_error he
  exact Program.Returns.bind (toConversationResponses_returns persons _)
    (fun _ _ => not_refused_some _) fun _ he => not_refused_error he

/-- An answered call for a direct conversation is not refused. -/
theorem getOrCreateDM_not_refused {env : ℕ → Turn BackendChoice Exn} (h : Answered env)
    {bu person target company : Uuid} {s : World} {w : ChatWorkspace}
    (hw : workspaceOf s.chat.db bu = some w) :
    ¬Refused ((ChatAccessService.getOrCreateDM bu person target company).run
      backendMachine env s).1 := by
  unfold ChatAccessService.getOrCreateDM
  rw [h.run_getWorkspaceByBuId, hw]
  refine answered_not_refused h.rest ?_ s
  refine Program.Returns.perform_bind (fun _ _ => ?_) fun _ he => not_refused_error he
  refine Program.Returns.perform_bind (fun _ _ => ?_) fun _ he => not_refused_error he
  exact Program.Returns.perform_bind (fun _ _ => not_refused_some _) fun _ he => not_refused_error he

/-- How a call ends that checks the access of the caller first. -/
def EndsAtCheck {α : Type} (s : World) (w person : Uuid)
    (result : Except Exn (Option α) × World) : Prop :=
  (HasAccess s.chat.db w person ∧ ¬Refused result.1) ∨
    (¬HasAccess s.chat.db w person ∧ result = (.error (.unauthorizedAccess noChatAccess), s))

/-- A call ends at the check when it goes on without a refusal for those with access. -/
theorem endsAtCheck_listMembers {α : Type} {env : ℕ → Turn BackendChoice Exn} (h : Answered env)
    {w person : Uuid} {s : World} {granted : BackendProgram (Option α)}
    (hgranted : granted.Returns (fun _ r => NotDenied r) fun r => ¬Refused r) :
    EndsAtCheck s w person ((ChatServiceClient.getWorkspaceMembers w >>= fun members =>
      if memberHasAccess members person then granted else denied noChatAccess).run
        backendMachine env s) := by
  obtain ⟨choice, hrun⟩ := h.run_listMembers w (fun members =>
    if memberHasAccess members person then granted else denied noChatAccess) s
  rw [hrun]
  by_cases haccess : HasAccess s.chat.db w person
  · rw [if_pos (memberHasAccess_listByWorkspace.mpr haccess)]
    exact Or.inl ⟨haccess, answered_not_refused h.rest hgranted s⟩
  · rw [if_neg (fun hm => haccess (memberHasAccess_listByWorkspace.mp hm))]
    exact Or.inr ⟨haccess, rfl⟩

/-- Reading a conversation ends at the check of the caller's access. -/
theorem getConversationMessages_check {env : ℕ → Turn BackendChoice Exn} (h : Answered env)
    {bu conv person company : Uuid} {limit : ℤ} {before : Option Time} {s : World}
    {w : ChatWorkspace} (hw : workspaceOf s.chat.db bu = some w) :
    EndsAtCheck s w.id person
      ((ChatAccessService.getConversationMessages bu conv person company limit before).run
        backendMachine env s) := by
  unfold ChatAccessService.getConversationMessages
  rw [h.run_getWorkspaceByBuId, hw]
  exact endsAtCheck_listMembers h.rest (Program.Returns.perform_bind
    (fun _ _ => not_refused_some _) fun _ he => not_refused_error he)

/-- Writing to a conversation ends at the check of the caller's access. -/
theorem sendConversationMessage_check {env : ℕ → Turn BackendChoice Exn} (h : Answered env)
    {bu conv person company : Uuid} {name content : String} {s : World}
    {w : ChatWorkspace} (hw : workspaceOf s.chat.db bu = some w) :
    EndsAtCheck s w.id person
      ((ChatAccessService.sendConversationMessage bu conv person name content company).run
        backendMachine env s) := by
  unfold ChatAccessService.sendConversationMessage
  rw [h.run_getWorkspaceByBuId, hw]
  exact endsAtCheck_listMembers h.rest (Program.Returns.perform_bind
    (fun _ _ => not_refused_some _) fun _ he => not_refused_error he)

/-- A call that ends at the check leaves no trace exactly without the access. -/
theorem EndsAtCheck.iff {α : Type} {s : World} {w person : Uuid}
    {result : Except Exn (Option α) × World} (h : EndsAtCheck s w person result) :
    (Refused result.1 ∧ result.2.chat.db.toTables = s.chat.db.toTables) ↔
      ¬HasAccess s.chat.db w person := by
  obtain ⟨haccess, hnot⟩ | ⟨hno, rfl⟩ := h
  · exact ⟨fun hr => absurd hr.1 hnot, fun hno => absurd haccess hno⟩
  · exact ⟨fun _ => hno, fun _ => ⟨Or.inr ⟨noChatAccess, rfl⟩, rfl⟩⟩

/-- A call that fetches or creates the group conversation before the check
leaves no trace exactly when the conversation exists and the access does not. -/
theorem afterGroup_iff {α : Type} {env : ℕ → Turn BackendChoice Exn} (h : Answered env)
    {person : Uuid} {s : World} {w : ChatWorkspace} (hw : w ∈ s.chat.db.workspaces)
    {f : ChatConversation → BackendProgram (Option α)}
    (hf : ∀ c t, Grows s.chat.db t.chat.db →
      EndsAtCheck t w.id person ((f c).run backendMachine (fun n => env (n + 1)) t)) :
    (Refused ((ChatServiceClient.getGroupConversation w.id >>= f).run backendMachine env s).1 ∧
      ((ChatServiceClient.getGroupConversation w.id >>= f).run
        backendMachine env s).2.chat.db.toTables = s.chat.db.toTables) ↔
      ¬HasAccess s.chat.db w.id person ∧ GroupExists s.chat.db w.id := by
  by_cases hg : GroupExists s.chat.db w.id
  · obtain ⟨c, hrun⟩ := h.run_getGroup_stored hg f
    rw [hrun, (hf c s (Grows.refl _)).iff]
    exact ⟨fun hno => ⟨hno, hg⟩, fun hno => hno.1⟩
  · have hnil : w.id ≠ Uuid.nil := s.chat.db.valid.workspaces_generated w hw
    refine ⟨fun hr => ?_, fun hr => absurd hr.2 hg⟩
    obtain ⟨e, t, hrun⟩ | ⟨c, t, hnew, hstored, hrun⟩ := h.run_getGroup_new hnil hg f
    · rw [hrun] at hr
      exact absurd hr.1 (not_refused_error (α := Unit) fun message he => (by cases he))
    · -- the new conversation is in the tables that should be the old ones
      have hgrows := run_grows (f c) (fun n => env (n + 1)) { s with chat := t }
      rw [hrun] at hr
      have hc := hgrows.conversations c hstored
      rw [hr.2] at hc
      exact absurd hc hnew

/-- An answered call leaves no trace exactly when it is stopped. -/
theorem leavesNoTrace_iff_stopped {env : ℕ → Turn BackendChoice Exn} (h : Answered env) (s : World)
    (action : ChatAction) (bu person company : Uuid) :
    LeavesNoTrace env s action bu person company ↔ Stopped s action bu person := by
  cases hw : workspaceOf s.chat.db bu with
  | none =>
    have hstopped : Stopped s action bu person := fun v hv hbu =>
      absurd ⟨v, hv, hbu⟩ (workspaceOf_eq_none.mp hw)
    refine ⟨fun _ => hstopped, fun _ => ?_⟩
    have hrun : (action.program bu person company).run backendMachine env s = (.ok none, s) := by
      cases action <;> exact (h.run_getWorkspaceByBuId bu _ s).trans (by rw [hw]; rfl)
    unfold LeavesNoTrace
    rw [hrun]
    exact ⟨Or.inl rfl, rfl⟩
  | some w =>
    have hstored := workspaceOf_eq_some.mp hw
    have hstopped : Stopped s action bu person ↔
        ¬HasAccess s.chat.db w.id person ∧ action.ChecksFirst s.chat.db w.id := by
      constructor
      · intro hall
        exact hall w hstored.1 hstored.2
      · intro hone v hv hbu
        have he : v = w := s.chat.db.valid.workspaces_bu.eq hv hstored.1 (hbu.trans hstored.2.symm)
        rw [he]
        exact hone
    have hlater : ∀ t : World, Grows s.chat.db t.chat.db → workspaceOf t.chat.db bu = some w :=
      fun t ht => workspaceOf_eq_some.mpr ⟨ht.workspaces w hstored.1, hstored.2⟩
    rw [hstopped]
    cases action with
    | getConversations =>
      exact ⟨fun hr => absurd hr.1 (getConversations_not_refused h hw), fun hr => hr.2.elim⟩
    | getOrCreateDM target =>
      exact ⟨fun hr => absurd hr.1 (getOrCreateDM_not_refused h hw), fun hr => hr.2.elim⟩
    | getConversationMessages conv limit before =>
      have hcheck : EndsAtCheck s w.id person ((ChatAccessService.getConversationMessages bu conv
          person company limit before).run backendMachine env s) :=
        getConversationMessages_check h hw
      exact hcheck.iff.trans (and_iff_left trivial).symm
    | sendConversationMessage conv name content =>
      have hcheck : EndsAtCheck s w.id person ((ChatAccessService.sendConversationMessage bu conv
          person name content company).run backendMachine env s) :=
        sendConversationMessage_check h hw
      exact hcheck.iff.trans (and_iff_left trivial).symm
    | getMessages limit before =>
      unfold LeavesNoTrace ChatAction.program ChatAccessService.getMessages
      rw [h.run_getWorkspaceByBuId, hw]
      exact afterGroup_iff h.rest hstored.1 fun c t ht =>
        getConversationMessages_check h.rest.rest (hlater t ht)
    | sendMessage name content =>
      unfold LeavesNoTrace ChatAction.program ChatAccessService.sendMessage
      rw [h.run_getWorkspaceByBuId, hw]
      exact afterGroup_iff h.rest hstored.1 fun c t ht =>
        sendConversationMessage_check h.rest.rest (hlater t ht)

/-- An unauthorised call leaves no trace exactly when the caller is authorised,
or the workspace stops the caller at a check that comes first. -/
theorem unauthorised_leavesNoTrace_iff {env : ℕ → Turn BackendChoice Exn} (h : Answered env)
    (s : World) (action : ChatAction) (bu person company : Uuid) :
    (¬Authorised s bu person company → LeavesNoTrace env s action bu person company) ↔
      Authorised s bu person company ∨ Stopped s action bu person := by
  rw [leavesNoTrace_iff_stopped h]
  by_cases hauth : Authorised s bu person company
  · exact ⟨fun _ => Or.inl hauth, fun _ hno => absurd hauth hno⟩
  · exact ⟨fun hstop => Or.inr (hstop hauth), fun hor _ => hor.resolve_left hauth⟩

/-- The onboarding of company 100 with business unit 101 and owner 102. -/
def onboarding : Served :=
  ⟨.onboard (Draws.from 100) ⟨"Spa", none, none, "Ann", none, "ann@spa.test", "secret"⟩,
    servedFrom 10⟩

/-- The installation after that onboarding. -/
def onboarded : World :=
  ((onboarding.request.program Settings.plain).run backendMachine onboarding.env World.initial).2

/-- The equivalence for a person of another company who asks for the
conversations of the new business unit. -/
theorem unauthorised_leavesNoTrace_outsider :
    (¬Authorised onboarded 101 5 900 →
      LeavesNoTrace (servedFrom 30) onboarded .getConversations 101 5 900) ↔
        Authorised onboarded 101 5 900 ∨ Stopped onboarded .getConversations 101 5 :=
  unauthorised_leavesNoTrace_iff (answered_servedFrom 30) onboarded .getConversations 101 5 900

/-- A person of another company who asks for the conversations of a business
unit leaves its group conversation behind. -/
theorem unauthorised_leavesNoTrace_fails :
    ¬∀ settings rs s, run (World.step settings) World.initial rs = some s →
      ∀ env, Answered env → ∀ action bu person company,
        ¬Authorised s bu person company → LeavesNoTrace env s action bu person company := by
  intro h
  have hreached : run (World.step Settings.plain) World.initial [onboarding] = some onboarded := rfl
  have hno : ¬Authorised onboarded 101 5 900 := by decide
  have hchanged : ((ChatAccessService.getConversations 101 5 900).run backendMachine
      (servedFrom 30) onboarded).2.chat.db.conversations ≠ onboarded.chat.db.conversations := by
    decide
  have htrace := h Settings.plain [onboarding] onboarded hreached (servedFrom 30)
    (answered_servedFrom 30) .getConversations 101 5 900 hno
  exact hchanged (congrArg Tables.conversations htrace.2)

end AuraWellness.Backend.Authorization
