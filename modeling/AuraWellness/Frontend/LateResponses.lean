import AuraWellness.Chat.Paging
import AuraWellness.Chat.Subscribed
import AuraWellness.Frontend.AccessTable
import AuraWellness.Frontend.Errands

/-!
# What a late response takes away

A response shows what the backend has read some time ago, and the store takes it over as it
is. A message that arrived in between, or a conversation that was created in between, is gone
unless the backend has read it too.
-/

namespace AuraWellness.Frontend.LateResponses

open AuraWellness.Lib.Calls AuraWellness.Lib.Transition AuraWellness.Lib.Journal
open AuraWellness.Lib.Arrival
open AuraWellness.Chat.Entities AuraWellness.Chat.Schema AuraWellness.Chat.Repositories
open AuraWellness.Chat.Handlers AuraWellness.Chat.Paging AuraWellness.Chat.Subscribed
open AuraWellness.Backend.Entities AuraWellness.Backend.Repositories AuraWellness.Backend.Services
open AuraWellness.Backend.Runs AuraWellness.Backend.Resetting
open AuraWellness.Frontend.Stores AuraWellness.Frontend.ChatWrites AuraWellness.Frontend.Serving
open AuraWellness.Frontend.AccessTable AuraWellness.Frontend.Errands

/-- The identifiers of the listed conversations of a business unit. -/
def listedIds (s : ErrandTab) (bu : Uuid) : List Uuid :=
  (conversationsIn s.tab.chat bu).map ChatConversationResponse.conversationId

/-- The answer to a request takes nothing away: a message stays unless it is older than a full
page, and a conversation that `createDM` has put into the list stays. -/
def KeepsShown (s s' : ErrandTab) : Request → Reply → Prop
  | .getConversationMessages _ c, .messages page => ∀ m ∈ messagesIn s.tab.chat c,
    m.messageId ∈ (messagesIn s'.tab.chat c).map ChatMessageDto.messageId ∨
      page.length = 50 ∧ ∀ v ∈ page, m.createdAt < v.createdAt
  | .getConversations bu, .conversations _ =>
    ∀ id ∈ listedIds s bu, (bu, id) ∈ s.put → id ∈ listedIds s' bu
  | _, _ => True

/-- The backend, its clock and its query engine when a call read a page of messages. -/
def pageRead : BackendEntry → Option (ChatDb × Time × Choice)
  | ⟨.chat (.listMessages _ before _), .serve b, world⟩ =>
    match b.rpc.turns 0 with
    | .serve choice => some (world.chat.db, defaultBefore b.rpc.now before, choice)
    | _ => none
  | _ => none

/-- The chat database when a call listed conversations, in which workspace and for whom. -/
def listingRead : BackendEntry → Option (ChatDb × Uuid × Uuid)
  | ⟨.chat (.listConversations w p), .serve _, world⟩ => some (world.chat.db, w, p)
  | _ => none

/-- The message was stored below the cursor, and fewer than 50 messages were ranked before it,
or 50 messages below the cursor were newer. -/
def StoredInTime (d : ChatDb) (c : Uuid) (before : Time) (choice : Choice) (m : ChatMessageDto) :
    Prop :=
  (∃ row ∈ rowsBelow d c before, row.id = m.messageId ∧
      ((rowsBelow d c before).filter fun v =>
        newestFirst choice v < newestFirst choice row).length < 50) ∨
    50 ≤ ((rowsBelow d c before).filter fun v => m.createdAt < v.createdAt).length

/-- When the backend read what an answer brings, all that is shown was stored. -/
def ReadInTime (s : ErrandTab) (e : Errand) : Request → Reply → Prop
  | .getConversationMessages _ c, .messages _ => ∀ x ∈ e.journal, ∀ r ∈ pageRead x,
    ∀ m ∈ messagesIn s.tab.chat c, StoredInTime r.1 c r.2.1 r.2.2 m
  | .getConversations bu, .conversations _ => ∀ x ∈ e.journal, ∀ r ∈ listingRead x,
    ∀ id ∈ listedIds s bu, (bu, id) ∈ s.put → Listed r.1 r.2.1 r.2.2 id
  | _, _ => True

section

variable (settings : Settings) (caller : Caller)

/-- The step takes nothing away that is shown. -/
def Keeps (s : ErrandTab) : ErrandLabel → Prop
  | .answer k => ∀ e ∈ s.errands[k]?, ∀ reply ∈ e.reply?,
    ∀ s' ∈ s.step settings caller (.answer k), KeepsShown s s' e.request reply
  | _ => True

/-- The answer that arrives was read in time. -/
def AnswersInTime (s : ErrandTab) : ErrandLabel → Prop
  | .answer k => ∀ e ∈ s.errands[k]?, ∀ reply ∈ e.reply?, ReadInTime s e e.request reply
  | _ => True

end

/-- The call lists messages. -/
def ListsMessages : BackendCall → Prop
  | .chat (.listMessages _ _ _) => True
  | _ => False

/-- The call lists conversations. -/
def ListsConversations : BackendCall → Prop
  | .chat (.listConversations _ _) => True
  | _ => False

/-- The page that a call was replied. -/
def PageFrom (c : Uuid) : (op : BackendCall) → Except Exn op.Reply → List ChatMessageDto → Prop
  | .chat (.listMessages conv before limit), a, page =>
    conv = c ∧ before = none ∧ limit = 50 ∧ ∃ rows, a = .ok rows ∧ page = rows.map toMessageDto
  | _, _, _ => False

/-- The conversations that a call was replied. -/
def ListingFrom : (op : BackendCall) → Except Exn op.Reply → List ChatConversationResponse → Prop
  | .chat (.listConversations _ _), a, convs => ∃ rows, a = .ok rows ∧
    convs.map ChatConversationResponse.conversationId = rows.map ChatConversation.id
  | _, _, _ => False

/-- A program that looks up the workspace first. -/
theorem withWorkspace_readsOnce {α : Type} {K : BackendCall → Prop} {N : Except Exn α → Prop}
    {Q : (op : BackendCall) → Except Exn op.Reply → Except Exn α → Prop} {bu : Uuid}
    {f : Option ChatWorkspace → BackendProgram α} (hK : ¬K (.chat (.getWorkspaceByBuID bu)))
    (hnone : ReadsOnce K N Q (f none)) (hsome : ∀ w, ReadsOnce K N Q (f (some w)))
    (he : ∀ e, N (.error e)) :
    ReadsOnce K N Q (ChatServiceClient.getWorkspaceByBuId bu >>= f) := by
  rw [getWorkspaceByBuId_eq, Program.bind_assoc]
  refine ⟨fun h => absurd h hK, fun _ r => ?_⟩
  cases r with
  | ok w => exact hsome w
  | error e =>
    refine (?_ : ReadsOnce K N Q (lookupResult (.error e) >>= f))
    obtain hfails | ⟨e', hfails⟩ := lookupResult_error e
    · rw [hfails]
      exact hnone
    · rw [hfails]
      exact he e'

/-- The messages of a conversation are read once. -/
theorem getConversationMessages_readsOnce (bu c person company : Uuid) :
    ReadsOnce ListsMessages (fun r => ∀ page, r ≠ .ok (some page))
      (fun op a r => ∀ page, r = .ok (some page) → PageFrom c op a page)
      (ChatAccessService.getConversationMessages bu c person company 50 none) := by
  refine withWorkspace_readsOnce id (fun page h => by cases h) (fun w => ?_)
    fun e page h => by cases h
  refine ReadsOnce.perform_bind id (fun members => ?_) fun e page h => by cases h
  split
  · refine readsOnce_perform_bind trivial (fun rows => ?_) fun e page h => by cases h
    intro page h
    cases h
    exact ⟨rfl, rfl, rfl, rows, rfl, rfl⟩
  · intro page h
    cases h

/-- The participants of the listed conversations are read, and no conversations. -/
theorem toConversationResponses_past (persons : List Person) (rows : List ChatConversation) :
    Past ListsConversations (fun r => ∀ convs, r = .ok convs →
        convs.map ChatConversationResponse.conversationId = rows.map ChatConversation.id)
      (ChatAccessService.toConversationResponses persons rows) := by
  induction rows with
  | nil =>
    intro convs h
    cases h
    rfl
  | cons row rows ih =>
    refine Past.perform_bind id (fun participants => ?_) fun e convs h => by cases h
    refine ih.bind (fun convs hconvs => ?_) fun e _ convs h => by cases h
    intro convs' h
    cases h
    exact congrArg _ (hconvs convs rfl)

/-- The conversations are read once. -/
theorem getConversations_readsOnce (bu person company : Uuid) :
    ReadsOnce ListsConversations (fun r => ∀ convs, r ≠ .ok (some convs))
      (fun op a r => ∀ convs, r = .ok (some convs) → ListingFrom op a convs)
      (ChatAccessService.getConversations bu person company) := by
  refine withWorkspace_readsOnce id (fun convs h => by cases h) (fun w => ?_)
    fun e convs h => by cases h
  refine ReadsOnce.perform_bind id (fun group => ?_) fun e convs h => by cases h
  refine readsOnce_perform_bind trivial (fun rows => ?_) fun e convs h => by cases h
  refine Past.perform_bind id (fun persons => ?_) fun e convs h => by cases h
  refine (toConversationResponses_past persons rows).bind (fun convs hconvs => ?_)
    fun e _ convs h => by cases h
  intro convs' h
  cases h
  exact ⟨rows, rfl, hconvs convs rfl⟩

/-- What the backend returns for a request that reads is what one of its calls was replied. -/
structure Faithful (e : Errand) : Prop where
  messages : ∀ bu c, e.request = .getConversationMessages bu c → ∀ job ∈ e.job,
    job.Reads backendMachine ListsMessages (fun r => ∀ page, r ≠ .ok (.messages (some page)))
      fun op a r => ∀ page, r = .ok (.messages (some page)) → PageFrom c op a page
  conversations : ∀ bu, e.request = .getConversations bu → ∀ job ∈ e.job,
    job.Reads backendMachine ListsConversations
      (fun r => ∀ convs, r ≠ .ok (.conversations (some convs)))
      fun op a r => ∀ convs, r = .ok (.conversations (some convs)) → ListingFrom op a convs

/-- It is so when the request is sent. -/
theorem faithful_send (settings : Settings) (caller : Caller) (r : Request) :
    Faithful (Errand.send settings caller r) := by
  constructor
  · rintro bu c rfl job ⟨⟩
    refine Job.start_reads ((getConversationMessages_readsOnce _ _ _ _).map _ ?_ ?_)
    · rintro (e | found) hnone page h
      · cases h
      · cases h
        exact hnone page rfl
    · rintro op a (e | found) hread page h
      · cases h
      · cases h
        exact hread page rfl
  · rintro bu rfl job ⟨⟩
    refine Job.start_reads ((getConversations_readsOnce _ _ _).map _ ?_ ?_)
    · rintro (e | found) hnone convs h
      · cases h
      · cases h
        exact hnone convs rfl
    · rintro op a (e | found) hread convs h
      · cases h
      · cases h
        exact hread convs rfl

/-- It stays so when the backend makes a call. -/
theorem faithful_turn {e : Errand} {job next : BackendJob} {t : Turn BackendChoice Exn}
    {s s' : World} (he : Faithful e) (hjob : e.job = some job)
    (h : job.turn backendMachine t s = some (next, s')) : Faithful { e with job := some next } := by
  constructor
  · rintro bu c hr job' ⟨⟩
    exact Job.turn_reads (he.messages bu c hr job hjob) h
  · rintro bu hr job' ⟨⟩
    exact Job.turn_reads (he.conversations bu hr job hjob) h

/-- An answer that lists messages. -/
theorem replyOf_messages {r : Except Exn BackendResponse} {page : List ChatMessageDto}
    (h : replyOf r = .messages page) : r = .ok (.messages (some page)) := by
  unfold replyOf at h
  split at h <;> cases h
  rfl

/-- An answer that lists conversations. -/
theorem replyOf_conversations {r : Except Exn BackendResponse}
    {convs : List ChatConversationResponse} (h : replyOf r = .conversations convs) :
    r = .ok (.conversations (some convs)) := by
  unfold replyOf at h
  split at h <;> cases h
  rfl

/-- A response comes from a job that has returned. -/
theorem returned_of_reply {e : Errand} {reply : Reply} (h : e.reply? = some reply) :
    ∃ job r, e.job = some job ∧ job.result? = some r ∧ replyOf r = reply ∧
      e.journal = job.journal := by
  obtain ⟨r, hr, hreply⟩ := Option.map_eq_some_iff.mp h
  obtain ⟨job, hjob, hresult⟩ := Option.bind_eq_some_iff.mp hr
  refine ⟨job, r, hjob, hresult, hreply, ?_⟩
  unfold Errand.journal
  rw [hjob]
  rfl

/-- The response with messages brings the page that one call has read. -/
theorem page_of_reply {e : Errand} (he : Faithful e) {bu c : Uuid} {page : List ChatMessageDto}
    (hr : e.request = .getConversationMessages bu c) (h : e.reply? = some (.messages page)) :
    ∃ x ∈ e.journal, ∃ d before choice rows, pageRead x = some (d, before, choice) ∧
      (∀ y ∈ e.journal, ∀ r ∈ pageRead y, r = (d, before, choice)) ∧
      MessageRepo.list d choice c before (50 : ℕ) = .ok rows ∧ page = rows.map toMessageDto := by
  obtain ⟨job, r, hjob, hresult, hreply, hjournal⟩ := returned_of_reply h
  rw [hjournal]
  obtain ⟨hnone, -⟩ | ⟨x, hx, -, honly, hpage⟩ := (he.messages bu c hr job hjob).returned hresult
  · exact absurd (replyOf_messages hreply) (hnone page)
  · have hfrom := hpage page (replyOf_messages hreply)
    obtain ⟨op, t, world⟩ := x
    cases op with
    | chat rpc =>
      cases rpc with
      | listMessages conv before limit =>
        obtain ⟨rfl, rfl, rfl, rows, hrows, rfl⟩ := hfrom
        obtain ⟨b, choice, hturn, hchoice, hlist⟩ := listMessages_ok hrows
        dsimp only at hturn
        subst hturn
        have hread : pageRead ⟨.chat (.listMessages conv none 50), .serve b, world⟩ =
            some (world.chat.db, defaultBefore b.rpc.now none, choice) := by
          simp only [pageRead, hchoice]
        refine ⟨_, hx, _, _, _, rows, hread, fun y hy r hyr => ?_, hlist, rfl⟩
        have hkind : ListsMessages y.op := by
          unfold pageRead at hyr
          split at hyr
          · trivial
          · cases hyr
        rw [honly y hy hkind, hread] at hyr
        exact (Option.some.inj hyr).symm
      | _ => exact hfrom.elim
    | _ => exact hfrom.elim

/-- The response with conversations brings the list that one call has read. -/
theorem listing_of_reply {e : Errand} (he : Faithful e) {bu : Uuid}
    {convs : List ChatConversationResponse} (hr : e.request = .getConversations bu)
    (h : e.reply? = some (.conversations convs)) :
    ∃ x ∈ e.journal, ∃ d w p choice, listingRead x = some (d, w, p) ∧
      (∀ y ∈ e.journal, ∀ r ∈ listingRead y, r = (d, w, p)) ∧
      convs.map ChatConversationResponse.conversationId =
        (ConversationRepo.listByWorkspaceAndPerson d choice w p).map ChatConversation.id := by
  obtain ⟨job, r, hjob, hresult, hreply, hjournal⟩ := returned_of_reply h
  rw [hjournal]
  obtain ⟨hnone, -⟩ | ⟨x, hx, -, honly, hlisting⟩ :=
    (he.conversations bu hr job hjob).returned hresult
  · exact absurd (replyOf_conversations hreply) (hnone convs)
  · have hfrom := hlisting convs (replyOf_conversations hreply)
    obtain ⟨op, t, world⟩ := x
    cases op with
    | chat rpc =>
      cases rpc with
      | listConversations w p =>
        obtain ⟨rows, hrows, hids⟩ := hfrom
        obtain ⟨choice, rfl⟩ := listConversations_ok hrows
        obtain ⟨b, hturn, -⟩ := answer_chat_ok hrows
        dsimp only at hturn
        subst hturn
        refine ⟨_, hx, _, _, _, choice, rfl, fun y hy r hyr => ?_, hids⟩
        have hkind : ListsConversations y.op := by
          unfold listingRead at hyr
          split at hyr
          · trivial
          · cases hyr
        rw [honly y hy hkind] at hyr
        exact (Option.some.inj hyr).symm
      | _ => exact hfrom.elim
    | _ => exact hfrom.elim

variable {settings : Settings} {caller : Caller}

/-- A response arrives: the tab takes it in. -/
theorem answer_applied {P : Errand → Prop} {s : ErrandTab} (hs : AllErrands P s) {k : ℕ}
    {e : Errand} (hk : s.errands[k]? = some e) {reply : Reply} (hreply : e.reply? = some reply)
    {tab : Tab} (h : ({ s.tab with requests := s.tab.requests.eraseIdx k } : Tab).answered e.request
      reply = some tab) :
    ∃ s', s.step settings caller (.answer k) = some s' ∧
      s.tab.step (.answer k reply) = some s'.tab ∧
      stepWrite s.tab (.answer k reply) = answerWrite e.request reply := by
  have hrequest : s.tab.requests[k]? = some e.request := by
    rw [hs.aligned, List.getElem?_map, hk, Option.map_some]
  have htab : s.tab.step (.answer k reply) = some tab := by
    simp only [Tab.step, hrequest, Option.bind_some, h]
  have hstep : s.step settings caller (.answer k) = s.answered settings caller k e reply := by
    simp only [ErrandTab.step, hk, hreply, Option.bind_some]
  have hwrite : stepWrite s.tab (.answer k reply) = answerWrite e.request reply := by
    simp only [stepWrite, hrequest, Option.bind_some]
  rw [hstep, ErrandTab.answered, htab]
  exact ⟨_, rfl, rfl, hwrite⟩

/-- A response with messages replaces what is shown. -/
theorem messages_applied {P : Errand → Prop} {s : ErrandTab} (hs : AllErrands P s) {k : ℕ}
    {e : Errand} (hk : s.errands[k]? = some e) {bu c : Uuid} {page : List ChatMessageDto}
    (hr : e.request = .getConversationMessages bu c) (hreply : e.reply? = some (.messages page)) :
    ∃ s', s.step settings caller (.answer k) = some s' ∧ messagesIn s'.tab.chat c = page := by
  have hanswered : ∃ tab, ({ s.tab with requests := s.tab.requests.eraseIdx k } : Tab).answered
      e.request (.messages page) = some tab := by
    rw [hr]
    exact ⟨_, rfl⟩
  obtain ⟨tab, htab⟩ := hanswered
  obtain ⟨s', hstep, hnext, hwrite⟩ := answer_applied hs hk hreply htab
  refine ⟨s', hstep, (messagesIn_step hnext c).trans ?_⟩
  rw [hwrite, hr]
  simp [answerWrite, messageIntake, takeIn]

/-- A response with conversations replaces what is listed. -/
theorem conversations_applied {P : Errand → Prop} {s : ErrandTab} (hs : AllErrands P s) {k : ℕ}
    {e : Errand} (hk : s.errands[k]? = some e) {bu : Uuid}
    {convs : List ChatConversationResponse} (hr : e.request = .getConversations bu)
    (hreply : e.reply? = some (.conversations convs)) :
    ∃ s', s.step settings caller (.answer k) = some s' ∧
      listedIds s' bu = convs.map ChatConversationResponse.conversationId := by
  have hanswered : ∃ tab, ({ s.tab with requests := s.tab.requests.eraseIdx k } : Tab).answered
      e.request (.conversations convs) = some tab := by
    rw [hr]
    exact ⟨_, rfl⟩
  obtain ⟨tab, htab⟩ := hanswered
  obtain ⟨s', hstep, hnext, hwrite⟩ := answer_applied hs hk hreply htab
  refine ⟨s', hstep, congrArg (List.map _) ((conversationsIn_step hnext bu).trans ?_)⟩
  rw [hwrite, hr]
  simp [answerWrite, conversationIntake, takeIn]

/-- A page keeps a message, or is full and newer, exactly if the message was stored in time. -/
theorem storedInTime_iff {d : ChatDb} {c : Uuid} {before : Time} {choice : Choice}
    {rows : List ChatMessage} (h : MessageRepo.list d choice c before (50 : ℕ) = .ok rows)
    (m : ChatMessageDto) :
    (m.messageId ∈ (rows.map toMessageDto).map ChatMessageDto.messageId ∨
      (rows.map toMessageDto).length = 50 ∧
        ∀ v ∈ rows.map toMessageDto, m.createdAt < v.createdAt) ↔
      StoredInTime d c before choice m := by
  refine or_congr ?_ ?_
  · rw [List.map_map, List.mem_map]
    constructor
    · rintro ⟨row, hrow, hid⟩
      obtain ⟨hbelow, hfew⟩ := (mem_list_iff h).mp hrow
      exact ⟨row, hbelow, hid, hfew⟩
    · rintro ⟨row, hbelow, hid, hfew⟩
      exact ⟨row, (mem_list_iff h).mpr ⟨hbelow, hfew⟩, hid⟩
  · rw [← full_and_newer_iff h, List.length_map, List.forall_mem_map]
    rfl

/-- A response takes nothing away exactly if it was read in time. -/
theorem keeps_iff {s : ErrandTab} (hs : AllErrands Faithful s) (l : ErrandLabel) :
    Keeps settings caller s l ↔ AnswersInTime s l := by
  cases l with
  | answer k =>
    refine forall_congr' fun e => forall_congr' fun hk => forall_congr' fun reply =>
      forall_congr' fun hreply => ?_
    have he : Faithful e := hs.each e (List.mem_of_getElem? hk)
    unfold KeepsShown ReadInTime
    split
    · rename_i bu c page hr
      obtain ⟨s', hstep, hpage⟩ := messages_applied hs hk hr hreply
      obtain ⟨x, hx, d, before, choice, rows, hread, honly, hlist, rfl⟩ :=
        page_of_reply he hr hreply
      constructor
      · intro hkeeps y hy r hyr m hm
        rw [honly y hy r hyr]
        have hkept := hkeeps s' hstep m hm
        rw [hpage] at hkept
        exact (storedInTime_iff hlist m).mp hkept
      · intro hin next hnext m hm
        cases hstep.symm.trans hnext
        rw [hpage]
        exact (storedInTime_iff hlist m).mpr (hin x hx _ hread m hm)
    · rename_i bu convs hr
      obtain ⟨s', hstep, hids⟩ := conversations_applied hs hk hr hreply
      obtain ⟨x, hx, d, w, p, choice, hread, honly, hlist⟩ := listing_of_reply he hr hreply
      constructor
      · intro hkeeps y hy r hyr id hid hput
        rw [honly y hy r hyr]
        have hkept := hkeeps s' hstep id hid hput
        rw [hids, hlist] at hkept
        exact (listed_iff_mem choice).mpr hkept
      · intro hin next hnext id hid hput
        cases hstep.symm.trans hnext
        rw [hids, hlist]
        exact (listed_iff_mem choice).mp (hin x hx _ hread id hid hput)
    · exact iff_of_true (fun _ _ => trivial) trivial
  | call action => exact Iff.rfl
  | turn k t => exact Iff.rfl
  | fail k => exact Iff.rfl
  | other op t => exact Iff.rfl

/-- No response of a run takes anything away exactly if every response was read in time. -/
theorem late_responses_keep_iff (settings : Settings) (caller : Caller) (world : World)
    (ls : List ErrandLabel) :
    EachStep (ErrandTab.step settings caller) (Keeps settings caller) (ErrandTab.initial world) ls ↔
      EachStep (ErrandTab.step settings caller) AnswersInTime (ErrandTab.initial world) ls :=
  eachStep_iff_of_invariant (I := AllErrands Faithful)
    (fun _ _ _ hs hstep => allErrands_step (faithful_send settings caller)
      (fun _ _ _ _ _ _ he hjob hturn => faithful_turn he hjob hturn) hs hstep)
    (fun _ l hs => keeps_iff hs l) (allErrands_initial Faithful world) ls

/-- The message that is sent to the group conversation. -/
def hello : ChatMessageDto := ⟨50, 30, InitialDataSeed.personId, "Demo Owner", "hello", 0⟩

/-- The backend has read the messages of the group conversation 30 for the owner; then a
message is saved, and its frame arrives. -/
def frameBeforeResponse : List ErrandLabel :=
  [.other (.chat (.getGroupConversation 2)) (servedWith 30 0),
    .call (.fetchConversationMessages InitialDataSeed.buId 30)] ++
    ((List.range 3).map fun n => .turn 0 (servedWith 30 n)) ++
    [.other (.chat (.sendMessage 2 30 InitialDataSeed.personId "Demo Owner" "hello"))
        (servedWith 50 0),
      .call (.appendMessage 30 hello)]

/-- The backend has read the conversations for the owner, who then creates a direct message. -/
def dmBeforeResponse : List ErrandLabel :=
  [.call (.fetchConversations InitialDataSeed.buId)] ++
    ((List.range 5).map fun n => .turn 0 (servedWith 30 n)) ++
    [.call (.createDM InitialDataSeed.buId 5)] ++
    ((List.range 4).map fun n => .turn 1 (servedFrom 40 n)) ++ [.answer 1]

/-- The responses take the message away, and the direct message. -/
theorem late_responses_lose :
    (∃ s s', run (ErrandTab.step Settings.plain owner) (ErrandTab.initial installed)
        frameBeforeResponse = some s ∧ s.step Settings.plain owner (.answer 0) = some s' ∧
      (∃ row ∈ s.world.chat.db.messages, toMessageDto row = hello) ∧
      messagesIn s.tab.chat 30 = [hello] ∧ messagesIn s'.tab.chat 30 = [] ∧
      ¬Keeps Settings.plain owner s (.answer 0)) ∧
    ∃ s s', run (ErrandTab.step Settings.plain owner) (ErrandTab.initial installed)
        dmBeforeResponse = some s ∧ s.step Settings.plain owner (.answer 0) = some s' ∧
      s.put = [(InitialDataSeed.buId, 41)] ∧ listedIds s InitialDataSeed.buId = [41] ∧
      listedIds s' InitialDataSeed.buId = [30] ∧ ¬Keeps Settings.plain owner s (.answer 0) := by
  refine ⟨⟨_, _, rfl, rfl, ⟨_, List.mem_singleton_self _, rfl⟩, rfl, rfl, fun hkeeps => ?_⟩,
    ⟨_, _, rfl, rfl, rfl, rfl, rfl, fun hkeeps => ?_⟩⟩
  · have hkept : hello.messageId ∈ [] ∨ [].length = 50 ∧ ∀ v ∈ ([] : List ChatMessageDto),
        hello.createdAt < v.createdAt := hkeeps _ rfl _ rfl _ rfl hello (List.mem_singleton_self _)
    exact absurd hkept (by decide)
  · have hkept : (41 : Uuid) ∈ [30] :=
      hkeeps _ rfl _ rfl _ rfl 41 (List.mem_singleton_self _) (List.mem_singleton_self _)
    exact absurd hkept (by decide)

end AuraWellness.Frontend.LateResponses
