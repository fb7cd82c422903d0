import AuraWellness.Chat.Views
import AuraWellness.Backend.Answers

/-!
# What a caller learns from a conversation

`GetConversationMessagesAsync` checks the caller's access to the workspace and
then reads whatever conversation it is asked for. Its result depends only on
what the caller may see exactly when the caller is stopped at the check or
asks for a conversation that the caller sees.
-/

namespace AuraWellness.Backend.Confidentiality

open AuraWellness.Lib.Calls AuraWellness.Lib.Transition
open AuraWellness.Chat.Entities AuraWellness.Chat.Schema AuraWellness.Chat.Repositories
open AuraWellness.Chat.Services AuraWellness.Chat.Growth AuraWellness.Chat.Handlers
open AuraWellness.Chat.Membership AuraWellness.Chat.Views
open AuraWellness.Backend.Entities AuraWellness.Backend.Schema AuraWellness.Backend.Repositories
open AuraWellness.Backend.Services AuraWellness.Backend.Runs AuraWellness.Backend.Answers

/-- A request for the messages of a conversation. -/
structure MessagesQuery where
  buId : Uuid
  conversationId : Uuid
  personId : Uuid
  companyId : Uuid
  limit : ℤ
  before : Option Time

/-- The result of the request. -/
def MessagesQuery.result (q : MessagesQuery) (env : ℕ → Turn BackendChoice Exn) (s : World) :
    Except Exn (Option (List ChatMessageDto)) :=
  ((ChatAccessService.getConversationMessages q.buId q.conversationId q.personId q.companyId
    q.limit q.before).run backendMachine env s).1

/-- The caller sees the conversation in the workspace of the business unit. -/
def MessagesQuery.Sees (q : MessagesQuery) (d : ChatDb) (conversationID : Uuid) : Prop :=
  ∃ w ∈ d.workspaces, w.buID = q.buId ∧ ∃ c, Visible d w.id q.personId c ∧ c.id = conversationID

/-- The result is the same in every reachable state of the chat service that
agrees on what the caller sees, and every message it returns is one of a
conversation that the caller sees. -/
def MessagesQuery.Confidential (q : MessagesQuery) (p : Service) : Prop :=
  (∀ p', Reachable Service.step Service.initial p' →
    ViewsAgree q.buId q.personId p.state.db p'.state.db →
    ∀ env main main', q.result env ⟨main, p.state⟩ = q.result env ⟨main', p'.state⟩) ∧
  ∀ env main messages, q.result env ⟨main, p.state⟩ = .ok (some messages) →
    ∀ m ∈ messages, q.Sees p.state.db m.conversationId

/-- The workspace of the business unit, if there is one, denies the caller the
access, or the conversation asked for is nil or one that the caller sees. -/
def MessagesQuery.Shielded (q : MessagesQuery) (d : ChatDb) : Prop :=
  ∀ w ∈ d.workspaces, w.buID = q.buId → ¬HasAccess d w.id q.personId ∨
    q.conversationId = Uuid.nil ∨ ∃ c, Visible d w.id q.personId c ∧ c.id = q.conversationId

/-- A chat procedure of a single call that replies alike is answered alike. -/
theorem answer_chat_congr {rpc : Rpc} {c c' : ChatState}
    (h : ∀ env, (rpc.serve env c).1 = (rpc.serve env c').1) (main main' : MainDb)
    (t : Turn BackendChoice Exn) :
    (backendMachine.answer (.chat rpc) t ⟨main, c⟩).1 =
      (backendMachine.answer (.chat rpc) t ⟨main', c'⟩).1 := by
  refine Machine.answer_congr (fun choice => ?_) t
  refine (?_ : (rpc.serve choice.rpc c).1.mapError Exn.rpc = (rpc.serve choice.rpc c').1.mapError Exn.rpc)
  rw [h]

/-- A procedure replies alike where its program returns alike. -/
theorem serve_congr {rpc : Rpc} {c c' : ChatState}
    (h : ∀ stamps now turns, ((rpc.program stamps now).run chatMachine turns c).1 =
      ((rpc.program stamps now).run chatMachine turns c').1) (env : RpcEnv) :
    (rpc.serve env c).1 = (rpc.serve env c').1 := by
  unfold Rpc.serve
  dsimp only
  rw [h]

/-- Databases with the same workspace of a business unit answer its lookup alike. -/
theorem answer_lookup_congr {bu : Uuid} {c c' : ChatState}
    (h : ∀ w, w.buID = bu → (w ∈ c.db.workspaces ↔ w ∈ c'.db.workspaces))
    (main main' : MainDb) (t : Turn BackendChoice Exn) :
    (backendMachine.answer (.chat (.getWorkspaceByBuID bu)) t ⟨main, c⟩).1 =
      (backendMachine.answer (.chat (.getWorkspaceByBuID bu)) t ⟨main', c'⟩).1 := by
  have hexec : ∀ choice, (ServiceCall.exec (.workspaceGetByBuID bu) choice c).1 =
      (ServiceCall.exec (.workspaceGetByBuID bu) choice c').1 := fun _ => getByBuID_congr h
  refine answer_chat_congr (serve_congr fun stamps now turns => ?_) main main' t
  exact Machine.answer_congr (M := chatMachine) hexec (turns 0)

/-- Databases with the same members of a workspace list them alike. -/
theorem answer_members_congr {w : Uuid} {c c' : ChatState}
    (h : ∀ m, m.workspaceID = w → (m ∈ c.db.members ↔ m ∈ c'.db.members))
    (main main' : MainDb) (t : Turn BackendChoice Exn) :
    (backendMachine.answer (.chat (.listMembers w)) t ⟨main, c⟩).1 =
      (backendMachine.answer (.chat (.listMembers w)) t ⟨main', c'⟩).1 := by
  have hexec : ∀ choice, (ServiceCall.exec (.memberListByWorkspace w) choice c).1 =
      (ServiceCall.exec (.memberListByWorkspace w) choice c').1 :=
    fun choice => congrArg Except.ok (listByWorkspace_congr choice h)
  refine answer_chat_congr (serve_congr fun stamps now turns => ?_) main main' t
  exact Machine.answer_congr (M := chatMachine) hexec (turns 0)

/-- Databases with the same messages of a conversation page them alike. -/
theorem answer_messages_congr {conv : Uuid} (limit : ℤ) (before : Option Time) {c c' : ChatState}
    (h : ∀ m, m.conversationID = conv → (m ∈ c.db.messages ↔ m ∈ c'.db.messages))
    (main main' : MainDb) (t : Turn BackendChoice Exn) :
    (backendMachine.answer (.chat (.listMessages conv before limit)) t ⟨main, c⟩).1 =
      (backendMachine.answer (.chat (.listMessages conv before limit)) t ⟨main', c'⟩).1 := by
  have hexec : ∀ cursor size choice, (ServiceCall.exec (.messageList conv cursor size) choice c).1 =
      (ServiceCall.exec (.messageList conv cursor size) choice c').1 :=
    fun cursor size choice => list_congr choice cursor size h
  refine answer_chat_congr (serve_congr fun stamps now turns => ?_) main main' t
  exact Machine.answer_congr (M := chatMachine) (hexec _ _) (turns 0)

/-- Messages that a procedure lists are messages of the conversation. -/
theorem listed_messages {conv : Uuid} {limit : ℤ} {before : Option Time}
    {t : Turn BackendChoice Exn} {s : World} {page : List ChatMessage}
    (h : (backendMachine.answer (.chat (.listMessages conv before limit)) t s).1 = .ok page)
    {m : ChatMessage} (hm : m ∈ page) : m ∈ s.chat.db.messages ∧ m.conversationID = conv := by
  obtain ⟨c, choice, -, -, hlist⟩ := listMessages_ok h
  exact mem_list hlist hm

/-- No message has a nil conversation. -/
theorem message_conversation_ne_nil {d : ChatDb} {m : ChatMessage} (hm : m ∈ d.messages) :
    m.conversationID ≠ Uuid.nil := by
  obtain ⟨c, hc, hid⟩ := d.valid.messages_conversation m hm
  rw [← hid]
  exact d.valid.conversations_generated c hc

/-- Chat databases that agree on what the caller sees give the same result to a
shielded caller. -/
theorem result_congr {q : MessagesQuery} {c c' : ChatState}
    (hagree : ViewsAgree q.buId q.personId c.db c'.db) (hshield : q.Shielded c.db)
    (env : ℕ → Turn BackendChoice Exn) (main main' : MainDb) :
    q.result env ⟨main, c⟩ = q.result env ⟨main', c'⟩ := by
  have hlookup := answer_lookup_congr hagree.workspace main main' (env 0)
  unfold MessagesQuery.result ChatAccessService.getConversationMessages
  rw [run_lookup, run_lookup, ← hlookup]
  cases hr : (backendMachine.answer (.chat (.getWorkspaceByBuID q.buId)) (env 0) ⟨main, c⟩).1 with
  | error e =>
    obtain he | ⟨e', he⟩ := lookupResult_error e
    · rw [he]
      rfl
    · rw [he]
      rfl
  | ok w =>
    obtain ⟨hw, hbu⟩ := lookup_ok hr
    have hmembers := answer_members_congr (hagree.members w hw hbu) main main' (env 1)
    have hquery : BackendCall.Queries (.chat (.listMembers w.id)) := trivial
    have hstate := query_state hquery (env 1)
    refine (?_ : (Program.run backendMachine (call (.chat (.listMembers w.id)) >>= _)
      (fun n => env (n + 1)) _).1 = (Program.run backendMachine
        (call (.chat (.listMembers w.id)) >>= _) (fun n => env (n + 1)) _).1)
    rw [Program.run_perform_bind, Program.run_perform_bind, hstate, hstate, ← hmembers]
    cases hm : (backendMachine.answer (.chat (.listMembers w.id)) (env 1) ⟨main, c⟩).1 with
    | error e => rfl
    | ok members =>
      dsimp only
      by_cases haccess : memberHasAccess members q.personId = true
      · have hsame : ∀ m, m.conversationID = q.conversationId →
            (m ∈ c.db.messages ↔ m ∈ c'.db.messages) := by
          obtain hno | hnil | ⟨v, hv, hvid⟩ := hshield w hw hbu
          · exact absurd ((listed_access_iff hm).mp haccess) hno
          · intro m hmc
            rw [hnil] at hmc
            exact ⟨fun h => absurd hmc (message_conversation_ne_nil h),
              fun h => absurd hmc (message_conversation_ne_nil h)⟩
          · rw [← hvid]
            exact hagree.messages w hw hbu v hv
        have hmessages := answer_messages_congr q.limit q.before hsame main main' (env 2)
        rw [if_pos haccess]
        refine (?_ : (Program.run backendMachine (call (.chat _) >>= _) _ _).1 =
          (Program.run backendMachine (call (.chat _) >>= _) _ _).1)
        rw [Program.run_perform_bind, Program.run_perform_bind, ← hmessages]
        cases (backendMachine.answer (.chat (.listMessages q.conversationId q.before q.limit))
          (env 2) ⟨main, c⟩).1 with
        | error e => rfl
        | ok page => rfl
      · rw [if_neg haccess]
        rfl

/-- Messages that a request returns were read for a caller with access and are
messages of the conversation asked for. -/
theorem result_messages {q : MessagesQuery} {env : ℕ → Turn BackendChoice Exn} {s : World}
    {messages : List ChatMessageDto} (h : q.result env s = .ok (some messages)) :
    ∃ w ∈ s.chat.db.workspaces, w.buID = q.buId ∧ HasAccess s.chat.db w.id q.personId ∧
      ∀ m ∈ messages, m.conversationId = q.conversationId ∧ q.conversationId ≠ Uuid.nil := by
  unfold MessagesQuery.result ChatAccessService.getConversationMessages at h
  rw [run_lookup] at h
  cases hr : (backendMachine.answer (.chat (.getWorkspaceByBuID q.buId)) (env 0) s).1 with
  | error e =>
    rw [hr] at h
    obtain he | ⟨e', he⟩ := lookupResult_error e
    · rw [he] at h
      cases h
    · rw [he] at h
      cases h
  | ok w =>
    obtain ⟨hw, hbu⟩ := lookup_ok hr
    have hquery : BackendCall.Queries (.chat (.listMembers w.id)) := trivial
    rw [hr] at h
    replace h : (Program.run backendMachine (call (.chat (.listMembers w.id)) >>= _)
      (fun n => env (n + 1)) s).1 = _ := h
    rw [Program.run_perform_bind, query_state hquery] at h
    cases hm : (backendMachine.answer (.chat (.listMembers w.id)) (env 1) s).1 with
    | error e =>
      rw [hm] at h
      cases h
    | ok members =>
      rw [hm] at h
      dsimp only at h
      by_cases haccess : memberHasAccess members q.personId = true
      · rw [if_pos haccess] at h
        replace h : (Program.run backendMachine (call (.chat (.listMessages q.conversationId q.before
          q.limit)) >>= _) (fun n => env (n + 2)) s).1 = _ := h
        rw [Program.run_perform_bind] at h
        cases hp : (backendMachine.answer (.chat (.listMessages q.conversationId q.before q.limit))
          (env 2) s).1 with
        | error e =>
          rw [hp] at h
          cases h
        | ok page =>
          rw [hp] at h
          cases h
          refine ⟨w, hw, hbu, (listed_access_iff hm).mp haccess, fun m hmem => ?_⟩
          obtain ⟨v, hv, rfl⟩ := List.mem_map.mp hmem
          obtain ⟨hstored, hconv⟩ := listed_messages hp hv
          refine ⟨hconv, ?_⟩
          rw [← hconv]
          exact message_conversation_ne_nil hstored
      · rw [if_neg haccess] at h
        cases h

/-- A shielded caller receives messages of seen conversations only. -/
theorem result_sees {q : MessagesQuery} {s : World} (hshield : q.Shielded s.chat.db)
    {env : ℕ → Turn BackendChoice Exn} {messages : List ChatMessageDto}
    (h : q.result env s = .ok (some messages)) {m : ChatMessageDto} (hm : m ∈ messages) :
    q.Sees s.chat.db m.conversationId := by
  obtain ⟨w, hw, hbu, haccess, hall⟩ := result_messages h
  obtain ⟨hconv, hnil⟩ := hall m hm
  rw [hconv]
  obtain hno | hzero | hsees := hshield w hw hbu
  · exact absurd haccess hno
  · exact absurd hzero hnil
  · exact ⟨w, hw, hbu, hsees⟩

/-- Every call is served with these choices. -/
def always (choice : Choice) : ℕ → Turn BackendChoice Exn := fun _ =>
  .serve ⟨fun _ => 0, ⟨fun _ => ⟨1, 0⟩, 0, fun _ => .serve choice⟩⟩

theorem answered_always (choice : Choice) : Answered (always choice) :=
  fun _ => ⟨_, rfl, fun _ => ⟨choice, rfl⟩⟩

/-- A caller with access receives the page of the conversation asked for. -/
theorem result_always {q : MessagesQuery} (choice : Choice) {s : World} {w : ChatWorkspace}
    (hw : workspaceOf s.chat.db q.buId = some w) (haccess : HasAccess s.chat.db w.id q.personId) :
    ∃ page, MessageRepo.list s.chat.db choice q.conversationId (defaultBefore 0 q.before)
        (clampLimit q.limit) = .ok page ∧
      q.result (always choice) s = .ok (some (page.map toMessageDto)) := by
  have h := answered_always choice
  unfold MessagesQuery.result ChatAccessService.getConversationMessages
  rw [h.run_getWorkspaceByBuId, hw]
  obtain ⟨c, hrun⟩ := h.rest.run_listMembers w.id (fun members =>
    if memberHasAccess members q.personId then do
      let serviceMessages ← ChatServiceClient.getMessages q.conversationId q.limit q.before
      return some (serviceMessages.map toMessageDto)
    else denied noChatAccess) s
  let served : BackendChoice := ⟨fun _ => 0, ⟨fun _ => ⟨1, 0⟩, 0, fun _ => .serve choice⟩⟩
  have hserved : (fun n => always choice (n + 1 + 1)) 0 = .serve served := rfl
  have hchoice : served.rpc.turns 0 = .serve choice := rfl
  obtain ⟨page, hpage, hmessages⟩ := run_listMessages (fun n => always choice (n + 1 + 1))
    hserved hchoice q.conversationId q.limit q.before (fun page => return some (page.map toMessageDto)) s
  refine ⟨page, hpage, ?_⟩
  refine (?_ : (Program.run backendMachine (ChatServiceClient.getWorkspaceMembers w.id >>= _)
    _ s).1 = _)
  rw [hrun, if_pos (memberHasAccess_listByWorkspace.mpr haccess)]
  exact congrArg Prod.fst hmessages

/-- A new message just below the cursor is on the page when the environment prefers it to
all others of its time. -/
theorem mem_list_of_preferred {d d' : ChatDb} {choice : Choice} {conv : Uuid} {before : Time}
    {limit : ℤ} {page : List ChatMessage} {m : ChatMessage} (hlimit : 0 < limit)
    (hpage : MessageRepo.list d' choice conv before limit = .ok page)
    (hmessages : d'.messages = d.messages ++ [m]) (hfresh : ¬∃ v ∈ d.messages, v.id = m.id)
    (hconv : m.conversationID = conv) (htime : m.createdAt = before - 1)
    (hpreferred : ∀ id, id ≠ m.id → choice.tie m.id < choice.tie id) : m ∈ page := by
  have hm : m ∈ d'.messages := by
    rw [hmessages]
    exact List.mem_append_right _ (List.mem_singleton_self m)
  have hbelow : m.createdAt < before := by
    rw [htime]
    exact Int.sub_lt_self _ (by decide)
  refine mem_list_of_newest hlimit hpage hm hconv hbelow fun v hv _ hbefore hne => ?_
  rw [hmessages] at hv
  have hold : v ∈ d.messages := by
    obtain hold | hnew := List.mem_append.mp hv
    · exact hold
    · exact absurd (List.mem_singleton.mp hnew) hne
  by_cases hlt : v.createdAt < m.createdAt
  · exact Or.inl hlt
  · have hle : v.createdAt ≤ m.createdAt := by
      rw [htime]
      exact Int.le_sub_one_of_lt hbefore
    exact Or.inr ⟨le_antisymm hle (not_lt.mp hlt), hpreferred v.id fun he => hfresh ⟨v, hold, he⟩⟩

/-- A caller whose result depends only on what the caller sees is shielded: any
other conversation can receive a message that the caller would be shown. -/
theorem shielded_of_confidential {q : MessagesQuery} {p : Service}
    (hp : Reachable Service.step Service.initial p) (h : q.Confidential p) :
    q.Shielded p.state.db := by
  intro w hw hbu
  by_contra hopen
  have haccess : HasAccess p.state.db w.id q.personId := by
    by_contra hno
    exact hopen (Or.inl hno)
  have hnil : q.conversationId ≠ Uuid.nil := fun hnil => hopen (Or.inr (Or.inl hnil))
  have hhidden : ∀ c, Visible p.state.db w.id q.personId c → c.id ≠ q.conversationId :=
    fun c hc hid => hopen (Or.inr (Or.inr ⟨c, hc, hid⟩))
  obtain ⟨p', m, hp', hagree, hmconv, htime, hfresh, hmessages⟩ :=
    reachable_hidden_message hp hw hbu hnil hhidden (defaultBefore 0 q.before - 1)
  -- the environment prefers the new message among those of the same time
  let choice : Choice := ⟨1, by decide, 0, fun id => if id = m.id then 0 else 1⟩
  have hw' : w ∈ p'.state.db.workspaces := (hagree.workspace w hbu).mp hw
  have haccess' : HasAccess p'.state.db w.id q.personId := by
    obtain ⟨x, hx, hkey, hgrant⟩ := haccess
    exact ⟨x, (hagree.members w hw hbu x (Prod.mk.inj hkey).1).mp hx, hkey, hgrant⟩
  obtain ⟨page, hpage, hresult⟩ := result_always choice (s := ⟨MainDb.empty, p.state⟩)
    (workspaceOf_eq_some.mpr ⟨hw, hbu⟩) haccess
  obtain ⟨page', hpage', hresult'⟩ := result_always choice (s := ⟨MainDb.empty, p'.state⟩)
    (workspaceOf_eq_some.mpr ⟨hw', hbu⟩) haccess'
  have hlimit : 0 < clampLimit q.limit := by
    have hbounds := clampLimit_bounds q.limit
    omega
  have hpreferred : ∀ id, id ≠ m.id → choice.tie m.id < choice.tie id := by
    intro id hid
    dsimp only [choice]
    rw [if_pos rfl, if_neg hid]
    exact Nat.zero_lt_one
  have hm : m ∈ page' :=
    mem_list_of_preferred hlimit hpage' hmessages hfresh hmconv htime hpreferred
  have hpages : page.map toMessageDto = page'.map toMessageDto := by
    have hsame := h.1 p' hp' hagree (always choice) MainDb.empty MainDb.empty
    rw [hresult, hresult'] at hsame
    exact Option.some.inj (Except.ok.inj hsame)
  have hdto : toMessageDto m ∈ page.map toMessageDto := by
    rw [hpages]
    exact List.mem_map_of_mem hm
  obtain ⟨v, hv, hve⟩ := List.mem_map.mp hdto
  exact hfresh ⟨v, (mem_list hpage hv).1, congrArg ChatMessageDto.messageId hve⟩

/-- What a caller is told about a conversation depends only on what the caller
sees, exactly when the caller is shielded. -/
theorem confidential_iff_shielded (q : MessagesQuery) {p : Service}
    (hp : Reachable Service.step Service.initial p) :
    q.Confidential p ↔ q.Shielded p.state.db := by
  constructor
  · exact shielded_of_confidential hp
  · intro hshield
    exact ⟨fun p' _ hagree env main main' => result_congr hagree hshield env main main',
      fun env main messages h m hm => result_sees hshield h hm⟩

/-- The headquarters 10 with Admin 5, and the branch 11 with Admin 6 and the
group conversation 30. -/
def twoOffices : List ServiceLabel :=
  [.start (Call.createWorkspace 1 3 "HQ").request, served 0 10 0,
    .start (Call.createWorkspace 2 4 "Branch").request, served 1 11 0,
    .start (Call.addMember 10 5 "Admin").request, served 2 20 0,
    .start (Call.addMember 11 6 "Admin").request, served 3 21 0,
    .start (Call.getOrCreateGroupConversation 11).request, served 4 1 0, served 4 30 0]

/-- The branch talks among itself. -/
def branchTalk : List ServiceLabel :=
  [.start (Call.sendMessage 11 30 6 "Ben" "secret").request, served 5 1 0, served 5 50 0]

/-- The Admin of the headquarters asks for the conversation of the branch. -/
def branchQuery : MessagesQuery := ⟨1, 30, 5, 3, 50, none⟩

/-- The equivalence for the query in the two offices. -/
theorem confidential_iff_shielded_twoOffices :
    ∃ p, run Service.step Service.initial twoOffices = some p ∧
      (branchQuery.Confidential p ↔ branchQuery.Shielded p.state.db) := by
  have hrun : (run Service.step Service.initial twoOffices).isSome = true := by decide
  obtain ⟨p, hp⟩ := Option.isSome_iff_exists.mp hrun
  exact ⟨p, hp, confidential_iff_shielded branchQuery ⟨twoOffices, hp⟩⟩

/-- The query is answered with what the branch talks about, although nothing
that the caller sees has changed. -/
theorem confidential_fails :
    ¬∀ (q : MessagesQuery) p, Reachable Service.step Service.initial p → q.Confidential p := by
  intro h
  have hrun : ((run Service.step Service.initial twoOffices).bind fun p =>
      (run Service.step p branchTalk).map fun p' => decide (
        (p'.state.db.workspaces = p.state.db.workspaces ∧
          p'.state.db.members = p.state.db.members ∧
          p'.state.db.conversations = p.state.db.conversations ∧
          p'.state.db.participants = p.state.db.participants) ∧
        (∀ w ∈ p.state.db.workspaces, w.buID = 1 → ∀ c ∈ p.state.db.conversations,
          c.workspaceID ≠ w.id) ∧
        (branchQuery.result (servedFrom 1) ⟨MainDb.empty, p.state⟩).toOption ≠
          (branchQuery.result (servedFrom 1) ⟨MainDb.empty, p'.state⟩).toOption)) = some true := by
    decide
  obtain ⟨p, hp, hrest⟩ := Option.bind_eq_some_iff.mp hrun
  obtain ⟨p', hp', hall⟩ := Option.map_eq_some_iff.mp hrest
  obtain ⟨⟨hworkspaces, hmembers, hconversations, hparticipants⟩, hnone, hresult⟩ :=
    of_decide_eq_true hall
  have hreached : Reachable Service.step Service.initial p := ⟨twoOffices, hp⟩
  have hagree : ViewsAgree 1 5 p.state.db p'.state.db := by
    have hnothing : ∀ w ∈ p.state.db.workspaces, w.buID = 1 → ∀ c,
        ¬Visible p.state.db w.id 5 c := fun w hw hbu c hc => hnone w hw hbu c hc.1 hc.2.1
    constructor
    · intro w _
      rw [hworkspaces]
    · intro w _ _ m _
      rw [hmembers]
    · intro w _ _ c
      unfold Visible Participates
      rw [hconversations, hparticipants]
    · exact fun w hw hbu c hc => absurd hc (hnothing w hw hbu c)
    · exact fun w hw hbu c hc => absurd hc (hnothing w hw hbu c)
  have hsame := (h branchQuery p hreached).1 p' (hreached.trans hp') hagree (servedFrom 1)
    MainDb.empty MainDb.empty
  exact hresult (congrArg Except.toOption hsame)

end AuraWellness.Backend.Confidentiality
