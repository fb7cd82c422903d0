import AuraWellness.Chat.Paging
import AuraWellness.Frontend.Pipeline

/-!
# History and live messages on the page

The page fetches a history and is subscribed to new messages, and neither knows
of the other: Redis delivers only to confirmed subscriptions, a broken
connection takes its frames with it, and a fetched page replaces whatever has
arrived. A saved message that is neither on its way nor shown is missing. No
message that the page needs goes missing as long as none is let go, dropped by
a fetched page or cut off by its end.
-/

namespace AuraWellness.Frontend.NoGap

open AuraWellness.Lib.Calls AuraWellness.Lib.Transition
open AuraWellness.Chat.Entities AuraWellness.Chat.Schema AuraWellness.Chat.Repositories
open AuraWellness.Chat.Services AuraWellness.Chat.Handlers AuraWellness.Chat.Paging
open AuraWellness.Chat.Live AuraWellness.Chat.LiveAccess
open AuraWellness.Backend.Entities AuraWellness.Backend.Schema AuraWellness.Backend.Repositories
open AuraWellness.Backend.Services AuraWellness.Frontend.Browser AuraWellness.Frontend.Pipeline

/-- The messages that a fetch brings; none before it is answered. -/
def page (f : Fetch) : List ChatMessageDto :=
  match f.program with
  | .ret (.ok (some msgs)) => msgs
  | _ => []

/-- The conversation is active and no fetch of it is on its way. -/
def Displayed (s : Page) (c : Uuid) : Prop :=
  s.mounted = true ∧ s.activeConversationId = some c ∧ ∀ f ∈ s.fetches, f.conversationId ≠ c

/-- A list of messages has one that is not newer. -/
def ReachesBackTo (messages : List ChatMessageDto) (v : ChatMessageDto) : Prop :=
  ∃ u ∈ messages, u.createdAt ≤ v.createdAt

/-- A list of messages has one with the same `messageId`. -/
def Contains (messages : List ChatMessageDto) (v : ChatMessageDto) : Prop :=
  ∃ u ∈ messages, u.messageId = v.messageId

instance (messages : List ChatMessageDto) (v : ChatMessageDto) :
    Decidable (ReachesBackTo messages v) := by
  unfold ReachesBackTo
  infer_instance

instance (messages : List ChatMessageDto) (v : ChatMessageDto) :
    Decidable (Contains messages v) := by
  unfold Contains
  infer_instance

/-- A page on its way reaches back to the message and does not contain it. -/
def PageLacks (s : Page) (c : Uuid) (v : ChatMessageDto) : Prop :=
  ∃ f ∈ s.fetches, f.conversationId = c ∧ ReachesBackTo (page f) v ∧ ¬Contains (page f) v

/-- The page needs the message: what it displays, or a page on its way, reaches
back to it. -/
def Needs (s : Page) (c : Uuid) (v : ChatMessageDto) : Prop :=
  PageLacks s c v ∨ (Displayed s c ∧ ReachesBackTo (s.messages c) v)

/-- A saved message that is neither on its way nor shown. -/
def Missing (s : Page) (c : Uuid) (v : ChatMessageDto) : Prop :=
  v ∈ saved s.db c ∧ v ∉ onItsWay s.live s.socket c ∧ ¬Contains (s.messages c) v

instance (s : Page) (c : Uuid) : Decidable (Displayed s c) := by
  unfold Displayed
  infer_instance

instance (s : Page) (c : Uuid) (v : ChatMessageDto) : Decidable (Needs s c v) := by
  unfold Needs PageLacks
  infer_instance

instance (s : Page) (c : Uuid) (v : ChatMessageDto) : Decidable (Missing s c v) := by
  unfold Missing
  infer_instance

/-- A request has been served. -/
def Served (th : Thread serviceSignature GoError Response Request) : Prop :=
  match th.prog with
  | .ret _ => True
  | .call _ _ => False

/-- The socket is open, its subscribing loop is through, all subscriptions are
confirmed and nothing is queued or written. -/
def OpenAndConfirmed (s : Page) : Prop :=
  match s.stream? with
  | some (_, stream) =>
    stream.waiting = [] ∧ (∀ sub ∈ stream.subscriptions, sub.confirmed = true ∧ sub.events = []) ∧
      stream.frames = []
  | none => False

/-- The socket is open, all subscriptions are confirmed, and no request, publish
or frame is in flight. -/
def Quiet (s : Page) : Prop :=
  OpenAndConfirmed s ∧ (∀ th ∈ s.live.service.threads, Served th) ∧
    s.live.service.state.publishing = [] ∧ s.fetches = []

instance (th : Thread serviceSignature GoError Response Request) : Decidable (Served th) := by
  unfold Served
  split <;> infer_instance

instance (s : Page) : Decidable (OpenAndConfirmed s) := by
  unfold OpenAndConfirmed
  split <;> infer_instance

/-- In a quiet state of the page the messages of the active conversation contain
every saved one that is not older than the oldest of them. -/
def NoGapIn (c : Uuid) (s : Page) : Prop :=
  Quiet s → s.activeConversationId = some c →
    ∀ m ∈ s.db.messages, m.conversationID = c → ReachesBackTo (s.messages c) (toMessageDto m) →
      Contains (s.messages c) (toMessageDto m)

/-- The messages of the conversation that a step takes off their way or out of
the store. -/
def losing (s : Page) (c : Uuid) : PageLabel → List ChatMessageDto
  | .live l => lettingGo s.live s.socket c l
  | .mount | .unmount | .reconnect | .onclose _ => travelling s.live s.socket c
  | .fetchDone k =>
    match s.fetches[k]? with
    | some ⟨conv, .ret (.ok (some msgs))⟩ =>
      if conv = c then
        (saved s.db c).filter fun v => Contains (s.messages c) v ∧ ¬Contains msgs v
      else []
    | _ => []
  | _ => []

/-- The page of a conversation at this cursor ends in no tie with a message: the
message is not older than the newest 50 and those of its time fit in, or 50
messages are newer. -/
def CutsNoTie (d : ChatDb) (c : Uuid) (before : Time) (m : ChatMessage) : Prop :=
  m.createdAt < before ∧
    (((rowsBelow d c before).filter fun v => m.createdAt ≤ v.createdAt).length ≤ 50 ∨
      50 ≤ ((rowsBelow d c before).filter fun v => m.createdAt < v.createdAt).length)

/-- A frame that comes to a displayed conversation is not older than what is
displayed, or everything saved since is shown or on its way. -/
def FrameInOrder (s : Page) (c : Uuid) (raw : OutboundMessage) : Prop :=
  raw.conversationID = c → Displayed s c → ReachesBackTo (s.messages c) (fromFrame raw) ∨
    ∀ v ∈ saved s.db c, raw.createdAt ≤ v.createdAt →
      v ∈ onItsWay s.live s.socket c ∨ Contains (s.messages c) v

/-- The condition on a step: it lets no message go that the page needs. A page
is read when no missing message is above its cursor or in a tie with its end,
a frame arrives in order, and a fetch does not fail. -/
def LosesNothing (c : Uuid) (s : Page) (l : PageLabel) : Prop :=
  (∀ v ∈ losing s c l, ¬Needs s c v) ∧
    match l with
    | .onmessage =>
      match s.stream? with
      | some (_, stream) => ∀ raw ∈ stream.frames.head?, FrameInOrder s c raw
      | none => True
    | .fetchTurn k (.serve choice) =>
      match s.fetches[k]? with
      | some ⟨conv, .call (.chat (.listMessages _ before _)) _⟩ =>
        conv = c → ∀ m ∈ s.db.messages, m.conversationID = c → Missing s c (toMessageDto m) →
          CutsNoTie s.db c (defaultBefore choice.rpc.now before) m
      | _ => True
    | .fetchDone k =>
      match s.fetches[k]? with
      | some ⟨_, .ret (.ok (some _))⟩ => True
      | some ⟨conv, .ret _⟩ => conv ≠ c
      | _ => True
    | _ => True

instance (d : ChatDb) (c : Uuid) (before : Time) (m : ChatMessage) :
    Decidable (CutsNoTie d c before m) := by
  unfold CutsNoTie
  infer_instance

instance (s : Page) (c : Uuid) (raw : OutboundMessage) : Decidable (FrameInOrder s c raw) := by
  unfold FrameInOrder
  infer_instance

instance (c : Uuid) (s : Page) (l : PageLabel) : Decidable (LosesNothing c s l) := by
  unfold LosesNothing
  refine @instDecidableAnd _ _ inferInstance ?_
  split
  · split <;> infer_instance
  · split <;> infer_instance
  · split <;> infer_instance
  · infer_instance

/-- The program reads one page of the conversation with its last call. -/
def ReadsPage (c : Uuid) : BackendProgram (Option (List ChatMessageDto)) → Prop
  | .ret _ => True
  | .call (.chat (.listMessages conv before limit)) next =>
    conv = c ∧ limit = 50 ∧ before = none ∧
      (∀ rows, next (.ok rows) = .ret (.ok (some (rows.map toMessageDto)))) ∧
      ∀ e, next (.error e) = .ret (.error e)
  | .call op next =>
    op.Queries ∧ (∀ r msgs, next r ≠ .ret (.ok (some msgs))) ∧ ∀ r, ReadsPage c (next r)

/-- What a fetch does once it knows the members of the workspace. -/
def readWithAccess (personId c : Uuid) (members : List ChatWorkspaceMember) :
    BackendProgram (Option (List ChatMessageDto)) :=
  if memberHasAccess members personId then do
    let serviceMessages ← ChatServiceClient.getMessages c 50 none
    return some (serviceMessages.map toMessageDto)
  else denied noChatAccess

/-- A fetch reads one page with its last call. -/
theorem fetchConversationMessages_reads (user : User) (c : Uuid) :
    ReadsPage c (fetchConversationMessages user c).program := by
  have hread : ∀ members, ReadsPage c (readWithAccess user.claims.personID c members) := by
    intro members
    unfold readWithAccess
    split
    · exact ⟨rfl, rfl, rfl, fun _ => rfl, fun _ => rfl⟩
    · trivial
  have hcalls : ∀ members msgs,
      readWithAccess user.claims.personID c members ≠ .ret (.ok (some msgs)) := by
    intro members msgs h
    unfold readWithAccess at h
    split at h <;> cases h
  refine ⟨trivial, fun r msgs h => ?_, fun r => ?_⟩
  · cases r with
    | ok w => cases h
    | error e =>
      cases e with
      | rpc e =>
        obtain ⟨code, detail⟩ := e
        cases code <;> cases h
      | _ => cases h
  · cases r with
    | error e =>
      cases e with
      | rpc e =>
        obtain ⟨code, detail⟩ := e
        cases code <;> trivial
      | _ => trivial
    | ok w =>
      refine ⟨trivial, fun r msgs h => ?_, fun r => ?_⟩
      · cases r with
        | error e => cases h
        | ok members => exact hcalls members msgs h
      · cases r with
        | error e => trivial
        | ok members => exact hread members

/-- What every run keeps as long as its steps lose nothing: no message is missing
that the page needs. -/
structure Kept (c : Uuid) (s : Page) : Prop where
  announces : s.live.service.Each fun _ _ _ q => Announces q
  reads : ∀ f ∈ s.fetches, ReadsPage f.conversationId f.program
  mounted : s.socket ≠ none ∨ s.reconnectTimer = true → s.mounted = true
  complete : ∀ v, Missing s c v → ¬Needs s c v

/-- A new fetch brings nothing yet. -/
theorem page_fetchConversationMessages (user : User) (c : Uuid) :
    page (fetchConversationMessages user c) = [] := rfl

/-- The fetches after the effect on the active conversation. -/
theorem mem_fetchActive {user : User} {s : Page} {f : Fetch}
    (h : f ∈ (Page.fetchActive user s).fetches) :
    f ∈ s.fetches ∨ ∃ c, s.activeConversationId = some c ∧ f = fetchConversationMessages user c := by
  unfold Page.fetchActive at h
  split at h
  · rename_i c hactive
    obtain hold | hnew := List.mem_append.mp h
    · exact Or.inl hold
    · exact Or.inr ⟨c, hactive, List.mem_singleton.mp hnew⟩
  · exact Or.inl h

/-- The effect on the active conversation changes the fetches only. -/
theorem fetchActive_fields (user : User) (s : Page) :
    (Page.fetchActive user s).live = s.live ∧ (Page.fetchActive user s).socket = s.socket ∧
      (Page.fetchActive user s).messages = s.messages ∧
      (Page.fetchActive user s).activeConversationId = s.activeConversationId ∧
      (Page.fetchActive user s).mounted = s.mounted ∧
      (Page.fetchActive user s).reconnectTimer = s.reconnectTimer := by
  unfold Page.fetchActive
  split <;> exact ⟨rfl, rfl, rfl, rfl, rfl, rfl⟩

/-- A page that has just started to fetch its active conversation needs no more
than the pages that were on their way. -/
theorem needs_fetchActive {user : User} {s : Page} {c : Uuid} {v : ChatMessageDto}
    (h : Needs (Page.fetchActive user s) c v) : PageLacks s c v := by
  obtain ⟨f, hf, hconv, hreaches, hlacks⟩ | ⟨⟨-, hactive, hnone⟩, -⟩ := h
  · obtain hold | ⟨c', -, rfl⟩ := mem_fetchActive hf
    · exact ⟨f, hold, hconv, hreaches, hlacks⟩
    · obtain ⟨u, hu, -⟩ := hreaches
      rw [page_fetchConversationMessages] at hu
      cases hu
  · rw [(fetchActive_fields user s).2.2.2.1] at hactive
    refine absurd rfl (hnone (fetchConversationMessages user c) ?_)
    unfold Page.fetchActive
    rw [hactive]
    exact List.mem_append_right _ (List.mem_singleton_self _)

/-- Fetches of an announcing page read one page each. -/
theorem reads_fetchActive {user : User} {s : Page}
    (h : ∀ f ∈ s.fetches, ReadsPage f.conversationId f.program) :
    ∀ f ∈ (Page.fetchActive user s).fetches, ReadsPage f.conversationId f.program := by
  intro f hf
  obtain hold | ⟨c, -, rfl⟩ := mem_fetchActive hf
  · exact h f hold
  · exact fetchConversationMessages_reads user c

/-- A step that leaves the service and the store as they are and lets go of at
most what the connection carries keeps the page complete. -/
theorem complete_of_release {c : Uuid} {s s' : Page} (hs : ∀ v, Missing s c v → ¬Needs s c v)
    (hservice : s'.live.service = s.live.service) (hmessages : s'.messages = s.messages)
    (hrelease : ∀ v ∈ travelling s.live s.socket c,
      v ∈ travelling s'.live s'.socket c ∨ ¬Needs s c v)
    (hneeds : ∀ v, Needs s' c v → Needs s c v) : ∀ v, Missing s' c v → ¬Needs s' c v := by
  intro v ⟨hsaved, hway, hshown⟩ hneeded
  have hneeded' := hneeds v hneeded
  have hsaved' : v ∈ saved s.db c := by
    unfold Page.db LiveState.db at hsaved
    rw [hservice] at hsaved
    exact hsaved
  have hshown' : ¬Contains (s.messages c) v := by
    rw [hmessages] at hshown
    exact hshown
  refine hs v ⟨hsaved', fun hold => ?_, hshown'⟩ hneeded'
  obtain hannounced | hstarted | htravelling := mem_onItsWay.mp hold
  · exact hway (mem_onItsWay.mpr (Or.inl (by rw [hservice]; exact hannounced)))
  · exact hway (mem_onItsWay.mpr (Or.inr (Or.inl (by rw [hservice]; exact hstarted))))
  · obtain hkept | hunneeded := hrelease v htravelling
    · exact hway (mem_onItsWay.mpr (Or.inr (Or.inr hkept)))
    · exact hunneeded hneeded'

/-- A step of the service and its connections keeps the page complete. -/
theorem complete_live {c : Uuid} {s : Page} {l : LiveLabel} {live : LiveState} (hs : Kept c s)
    (hlosing : ∀ v ∈ lettingGo s.live s.socket c l, ¬Needs s c v)
    (h : LiveState.step s.live l = some live) :
    ∀ v, Missing { s with live } c v → ¬Needs { s with live } c v := by
  intro v ⟨hsaved, hway, hshown⟩ hneeded
  have hneeded' : Needs s c v := hneeded
  obtain hold | hnew | hlost := saved_step s.socket hs.announces h hsaved
  · refine hs.complete v ⟨hold, fun hway' => ?_, hshown⟩ hneeded'
    obtain hkept | hlost := onItsWay_step h hway'
    · exact hway hkept
    · exact hlosing v hlost hneeded'
  · exact hway hnew
  · exact hlosing v hlost hneeded'

/-- An appended message is in the list. -/
theorem contains_appendMessage (existing : List ChatMessageDto) (msg : ChatMessageDto) :
    Contains (appendMessage existing msg) msg := by
  unfold appendMessage
  split
  · rename_i hany
    obtain ⟨u, hu, hid⟩ := List.any_eq_true.mp hany
    exact ⟨u, hu, of_decide_eq_true hid⟩
  · exact ⟨msg, List.mem_append_right _ (List.mem_singleton_self _), rfl⟩

/-- Appending takes nothing out and adds at most the message. -/
theorem mem_appendMessage {existing : List ChatMessageDto} {msg u : ChatMessageDto} :
    (u ∈ existing → u ∈ appendMessage existing msg) ∧
      (u ∈ appendMessage existing msg → u ∈ existing ∨ u = msg) := by
  unfold appendMessage
  split
  · exact ⟨fun hu => hu, fun hu => Or.inl hu⟩
  · refine ⟨fun hu => List.mem_append_left _ hu, fun hu => ?_⟩
    obtain hu | hu := List.mem_append.mp hu
    · exact Or.inl hu
    · exact Or.inr (List.mem_singleton.mp hu)

/-- A frame that arrives is shown, and the others stay on their way. -/
theorem travelling_onmessage {live : LiveState} {i : ℕ} {claims : UserClaims} {stream : Stream}
    {raw : OutboundMessage} {frames : List OutboundMessage} {c : Uuid} {v : ChatMessageDto}
    (hi : live.stream? i = some (claims, stream)) (hframes : stream.frames = raw :: frames)
    (hv : v ∈ travelling live (some i) c) :
    v ∈ travelling (live.setStage i claims (.streaming { stream with frames })) (some i) c ∨
      (raw.conversationID = c ∧ v = fromFrame raw) := by
  by_cases hraw : raw.conversationID = c ∧ v = fromFrame raw
  · exact Or.inr hraw
  · refine Or.inl (travelling_setStage hv fun claims' stream' hi' _ hcarried => ⟨_, rfl, ?_⟩)
    cases hi.symm.trans hi'
    obtain hsub | ⟨raw', hraw', hconv, rfl⟩ := mem_carried.mp hcarried
    · exact mem_carried.mpr (Or.inl hsub)
    · refine mem_carried.mpr (Or.inr ⟨raw', ?_, hconv, rfl⟩)
      rw [hframes] at hraw'
      obtain rfl | hrest := List.mem_cons.mp hraw'
      · exact absurd ⟨hconv, rfl⟩ hraw
      · exact hrest

/-- A frame that arrives in order keeps the page complete. -/
theorem complete_onmessage {c : Uuid} {s : Page} {i : ℕ} {claims : UserClaims} {stream : Stream}
    {raw : OutboundMessage} {frames : List OutboundMessage} (hs : ∀ v, Missing s c v → ¬Needs s c v)
    (hsocket : s.socket = some i) (hi : s.live.stream? i = some (claims, stream))
    (hframes : stream.frames = raw :: frames) (horder : FrameInOrder s c raw) {s' : Page}
    (hs' : s' = { s with
      live := s.live.setStage i claims (.streaming { stream with frames })
      messages := Function.update s.messages raw.conversationID
        (appendMessage (s.messages raw.conversationID) (fromFrame raw)) }) :
    ∀ v, Missing s' c v → ¬Needs s' c v := by
  intro v ⟨hsaved, hway, hshown⟩ hneeded
  have hlive : s'.live = s.live.setStage i claims (.streaming { stream with frames }) := by rw [hs']
  have hservice : s'.live.service = s.live.service := by rw [hlive]; rfl
  have hsaved' : v ∈ saved s.db c := by
    unfold Page.db LiveState.db at hsaved
    rw [hservice] at hsaved
    exact hsaved
  -- the list of the conversation, before and after the frame
  have hmessages : (raw.conversationID ≠ c ∧ s'.messages c = s.messages c) ∨
      (raw.conversationID = c ∧
        s'.messages c = appendMessage (s.messages c) (fromFrame raw)) := by
    rw [hs']
    by_cases hraw : raw.conversationID = c
    · subst hraw
      exact Or.inr ⟨rfl, Function.update_self _ _ _⟩
    · exact Or.inl ⟨hraw, Function.update_of_ne (Ne.symm hraw) _ _⟩
  have hshown' : ¬Contains (s.messages c) v := by
    intro ⟨u, hu, hid⟩
    refine hshown ⟨u, ?_, hid⟩
    obtain ⟨-, hsame⟩ | ⟨-, happend⟩ := hmessages
    · rw [hsame]
      exact hu
    · rw [happend]
      exact mem_appendMessage.1 hu
  have hway' : v ∉ onItsWay s.live s.socket c := by
    intro hold
    obtain hannounced | hstarted | htravelling := mem_onItsWay.mp hold
    · exact hway (mem_onItsWay.mpr (Or.inl (by rw [hservice]; exact hannounced)))
    · exact hway (mem_onItsWay.mpr (Or.inr (Or.inl (by rw [hservice]; exact hstarted))))
    · rw [hsocket] at htravelling
      obtain hkept | ⟨hraw, rfl⟩ := travelling_onmessage hi hframes htravelling
      · refine hway (mem_onItsWay.mpr (Or.inr (Or.inr ?_)))
        have hsocket' : s'.socket = some i := by rw [hs']; exact hsocket
        rw [hlive, hsocket']
        exact hkept
      · obtain ⟨hne, -⟩ | ⟨-, happend⟩ := hmessages
        · exact absurd hraw hne
        · rw [happend] at hshown
          exact hshown (contains_appendMessage _ _)
  have hmissing : Missing s c v := ⟨hsaved', hway', hshown'⟩
  refine hs v hmissing ?_
  have hlacks : PageLacks s' c v → PageLacks s c v := fun h => by rw [hs'] at h; exact h
  have hdisplayed : Displayed s' c → Displayed s c := fun h => by rw [hs'] at h; exact h
  obtain h | ⟨h, u, hu, hle⟩ := hneeded
  · exact Or.inl (hlacks h)
  · refine Or.inr ⟨hdisplayed h, ?_⟩
    obtain ⟨-, hsame⟩ | ⟨hraw, happend⟩ := hmessages
    · rw [hsame] at hu
      exact ⟨u, hu, hle⟩
    · rw [happend] at hu
      obtain hu | rfl := mem_appendMessage.2 hu
      · exact ⟨u, hu, hle⟩
      · obtain ⟨w, hw, hle'⟩ | hrest := horder hraw (hdisplayed h)
        · exact ⟨w, hw, hle'.trans hle⟩
        · obtain hon | hcontains := hrest v hsaved' hle
          · exact absurd hon hway'
          · exact absurd hcontains hshown'

/-- Where a fetch becomes a page, its last call has read it from the repository. -/
theorem read_page {c : Uuid} {op : BackendCall}
    {next : Except Exn op.Reply → BackendProgram (Option (List ChatMessageDto))}
    (hreads : ReadsPage c (.call op next)) {t : Turn BackendChoice Exn} {main : MainDb}
    {st : ChatState} {msgs : List ChatMessageDto}
    (h : next (backendMachine.answer op t ⟨main, st⟩).1 = .ret (.ok (some msgs))) :
    ∃ choice rows tie, t = .serve choice ∧ op = .chat (.listMessages c none 50) ∧
      MessageRepo.list st.db tie c (defaultBefore choice.rpc.now none) (50 : ℕ) = .ok rows ∧
      msgs = rows.map toMessageDto := by
  cases op with
  | chat rpc =>
    cases rpc with
    | listMessages conv before limit =>
      obtain ⟨rfl, rfl, rfl, hok, herror⟩ := hreads
      cases hr : (backendMachine.answer (.chat (.listMessages conv none 50)) t ⟨main, st⟩).1 with
      | error e =>
        rw [hr, herror] at h
        cases h
      | ok rows =>
        rw [hr, hok] at h
        cases h
        obtain ⟨choice, tie, rfl, -, hlist⟩ := listMessages_ok hr
        exact ⟨choice, rows, tie, rfl, rfl, hlist, rfl⟩
    | _ => exact absurd h (hreads.2.1 _ _)
  | _ => exact absurd h (hreads.2.1 _ _)

/-- The calls of a fetch change nothing. -/
theorem ReadsPage.queries {c : Uuid} {op : BackendCall}
    {next : Except Exn op.Reply → BackendProgram (Option (List ChatMessageDto))}
    (h : ReadsPage c (.call op next)) : op.Queries := by
  cases op with
  | chat rpc =>
    cases rpc with
    | listMessages conv before limit => trivial
    | _ => exact h.1
  | _ => exact h.1

/-- What is left of a fetch reads one page. -/
theorem ReadsPage.next {c : Uuid} {op : BackendCall}
    {next : Except Exn op.Reply → BackendProgram (Option (List ChatMessageDto))}
    (h : ReadsPage c (.call op next)) (r : Except Exn op.Reply) : ReadsPage c (next r) := by
  cases op with
  | chat rpc =>
    cases rpc with
    | listMessages conv before limit =>
      obtain ⟨-, -, -, hok, herror⟩ := h
      cases r with
      | ok rows =>
        rw [hok]
        trivial
      | error e =>
        rw [herror]
        trivial
    | _ => exact h.2.2 r
  | _ => exact h.2.2 r

/-- A page that ends in no tie with a message and reaches back to it contains it. -/
theorem contains_of_cutsNoTie {d : ChatDb} {tie : Choice} {c : Uuid} {before : Time}
    {rows : List ChatMessage} (h : MessageRepo.list d tie c before (50 : ℕ) = .ok rows)
    {m : ChatMessage} (hm : m ∈ d.messages) (hconv : m.conversationID = c)
    (hcut : CutsNoTie d c before m) (hreaches : ReachesBackTo (rows.map toMessageDto) (toMessageDto m)) :
    Contains (rows.map toMessageDto) (toMessageDto m) := by
  obtain ⟨hbelow, hfew | hmany⟩ := hcut
  · have hrow := mem_list_of_few h (mem_rowsBelow.mpr ⟨hm, hconv, hbelow⟩) hfew
    exact ⟨toMessageDto m, List.mem_map_of_mem hrow, rfl⟩
  · obtain ⟨u, hu, hle⟩ := hreaches
    obtain ⟨row, hrow, rfl⟩ := List.mem_map.mp hu
    have hnewer := newer_of_mem_list h hmany hrow
    exact absurd hnewer (not_lt_of_ge hle)

/-- When every fetch on its way to the conversation was on its way before, the
conversation was displayed before as well. -/
theorem Displayed.of_fetches {s s' : Page} {c : Uuid} (hmounted : s'.mounted = s.mounted)
    (hactive : s'.activeConversationId = s.activeConversationId)
    (hfetches : ∀ f ∈ s.fetches, f.conversationId = c → ∃ f' ∈ s'.fetches, f'.conversationId = c)
    (h : Displayed s' c) : Displayed s c := by
  obtain ⟨hm, ha, hnone⟩ := h
  refine ⟨hmounted ▸ hm, hactive ▸ ha, fun f hf hconv => ?_⟩
  obtain ⟨f', hf', hconv'⟩ := hfetches f hf hconv
  exact hnone f' hf' hconv'

/-- A fetch that goes on is still a fetch of its conversation. -/
theorem Displayed.of_set {s s' : Page} {c : Uuid} {k : ℕ} {conv : Uuid}
    {p p' : BackendProgram (Option (List ChatMessageDto))} (hk : s.fetches[k]? = some ⟨conv, p⟩)
    (hs' : s' = { s with fetches := s.fetches.set k ⟨conv, p'⟩ }) (h : Displayed s' c) :
    Displayed s c := by
  have hlt : k < s.fetches.length := (List.getElem?_eq_some_iff.mp hk).1
  refine Displayed.of_fetches (by rw [hs']) (by rw [hs']) (fun f hf hconv => ?_) h
  rw [hs']
  obtain ⟨j, hj⟩ := List.mem_iff_getElem?.mp hf
  by_cases hjk : k = j
  · subst hjk
    cases hk.symm.trans hj
    exact ⟨⟨conv, p'⟩, List.mem_set hlt _, hconv⟩
  · exact ⟨f, List.mem_of_getElem? ((List.getElem?_set_ne hjk).trans hj), hconv⟩

/-- Only a fetch that has got its page reaches back. -/
theorem ret_of_reaches {conv : Uuid} {p : BackendProgram (Option (List ChatMessageDto))}
    {v : ChatMessageDto} (h : ReachesBackTo (page ⟨conv, p⟩) v) :
    ∃ msgs, p = .ret (.ok (some msgs)) := by
  obtain ⟨u, hu, -⟩ := h
  cases p with
  | call op next => cases hu
  | ret r =>
    cases r with
    | error e => cases hu
    | ok result =>
      cases result with
      | none => cases hu
      | some msgs => exact ⟨msgs, rfl⟩

/-- An answered request of a fetch keeps the page complete. -/
theorem complete_fetchTurn {c : Uuid} {s : Page} {k : ℕ} {conv : Uuid} {op : BackendCall}
    {next : Except Exn op.Reply → BackendProgram (Option (List ChatMessageDto))}
    {t : Turn BackendChoice Exn} (hs : Kept c s) (hk : s.fetches[k]? = some ⟨conv, .call op next⟩)
    (hg : LosesNothing c s (.fetchTurn k t)) {s' : Page} (hs' : s' = { s with
      fetches := s.fetches.set k
        ⟨conv, next (backendMachine.answer op t ⟨s.main, s.live.service.state⟩).1⟩ }) :
    ∀ v, Missing s' c v → ¬Needs s' c v := by
  intro v hmissing' hneeded
  have hmissing : Missing s c v := by
    rw [hs'] at hmissing'
    exact hmissing'
  obtain ⟨f, hf, hconv, hreaches, hlacks⟩ | ⟨h, hreaches⟩ := hneeded
  · rw [hs'] at hf
    obtain hold | rfl := List.mem_or_eq_of_mem_set hf
    · exact hs.complete v hmissing (Or.inl ⟨f, hold, hconv, hreaches, hlacks⟩)
    · -- the fetch has become a page, which the repository has just listed
      obtain rfl : conv = c := hconv
      obtain ⟨msgs, hnext⟩ := ret_of_reaches hreaches
      have hreads : ReadsPage conv (.call op next) := hs.reads _ (List.mem_of_getElem? hk)
      obtain ⟨choice, rows, tie, rfl, rfl, hlist, rfl⟩ := read_page hreads hnext
      rw [hnext] at hreaches hlacks
      obtain ⟨m, hm, hmconv, rfl⟩ := mem_saved.mp hmissing.1
      have hcut : CutsNoTie s.db conv (defaultBefore choice.rpc.now none) m := by
        have hread := hg.2
        simp only [hk] at hread
        exact hread trivial m hm hmconv hmissing
      exact hlacks (contains_of_cutsNoTie hlist hm hmconv hcut hreaches)
  · refine hs.complete v hmissing (Or.inr ⟨h.of_set hk hs', ?_⟩)
    rw [hs'] at hreaches
    exact hreaches

/-- The arrival of a response to another fetch changes nothing for the
conversation. -/
theorem needs_of_eraseIdx {c : Uuid} {s s' : Page} {k : ℕ} {f : Fetch} {v : ChatMessageDto}
    (h : Needs s' c v) (hk : s.fetches[k]? = some f) (hother : f.conversationId ≠ c)
    (hfetches : s'.fetches = s.fetches.eraseIdx k) (hmessages : s'.messages c = s.messages c)
    (hmounted : s'.mounted = s.mounted)
    (hactive : s'.activeConversationId = s.activeConversationId) : Needs s c v := by
  obtain ⟨g, hg, hrest⟩ | ⟨hdisplayed, hreaches⟩ := h
  · rw [hfetches] at hg
    exact Or.inl ⟨g, List.mem_of_mem_eraseIdx hg, hrest⟩
  · rw [hmessages] at hreaches
    refine Or.inr ⟨hdisplayed.of_fetches hmounted hactive fun g hg hconv => ⟨g, ?_, hconv⟩, hreaches⟩
    obtain ⟨j, hj⟩ := List.mem_iff_getElem?.mp hg
    rw [hfetches]
    refine List.mem_eraseIdx_iff_getElem?.mpr ⟨j, fun hjk => ?_, hj⟩
    subst hjk
    cases hk.symm.trans hj
    exact hother hconv

/-- A page that drops no message that is needed keeps the page complete. -/
theorem complete_fetchDone {c : Uuid} {s : Page} {k : ℕ} {msgs : List ChatMessageDto}
    (hs : ∀ v, Missing s c v → ¬Needs s c v)
    (hk : s.fetches[k]? = some ⟨c, .ret (.ok (some msgs))⟩)
    (hlosing : ∀ v ∈ losing s c (.fetchDone k), ¬Needs s c v) {s' : Page} (hs' : s' = { s with
      fetches := s.fetches.eraseIdx k, messages := Function.update s.messages c msgs }) :
    ∀ v, Missing s' c v → ¬Needs s' c v := by
  intro v ⟨hsaved, hway, hshown⟩ hneeded
  have hmessages : s'.messages c = msgs := by
    rw [hs']
    exact Function.update_self _ _ _
  rw [hmessages] at hshown
  have hunneeded : ¬Needs s c v := by
    rw [hs'] at hsaved hway
    by_cases hcontains : Contains (s.messages c) v
    · refine hlosing v ?_
      simp only [losing, hk, if_true]
      exact List.mem_filter.mpr ⟨hsaved, decide_eq_true ⟨hcontains, hshown⟩⟩
    · exact hs v ⟨hsaved, hway, hcontains⟩
  obtain ⟨f, hf, hrest⟩ | ⟨-, hreaches⟩ := hneeded
  · rw [hs'] at hf
    exact hunneeded (Or.inl ⟨f, List.mem_of_mem_eraseIdx hf, hrest⟩)
  · rw [hmessages] at hreaches
    exact hunneeded (Or.inl ⟨_, List.mem_of_getElem? hk, rfl, hreaches, hshown⟩)

/-- A new connection of a page that needs nothing of the last one. -/
theorem Kept.mount {user : User} {c : Uuid} {s : Page} (hs : Kept c s)
    (hlosing : ∀ v ∈ travelling s.live s.socket c, ¬Needs s c v) :
    Kept c ((Page.connect user { s with mounted := true }).fetchActive user) := by
  obtain ⟨hlive, hsocket, hmessages, hactive, hmounted, htimer⟩ :=
    fetchActive_fields user (Page.connect user { s with mounted := true })
  refine ⟨?_, reads_fetchActive hs.reads, fun _ => by rw [hmounted]; rfl, ?_⟩
  · rw [hlive]
    exact hs.announces
  · refine complete_of_release hs.complete (by rw [hlive]; rfl) (by rw [hmessages]; rfl)
      (fun v hv => Or.inr (hlosing v hv)) fun v hv => ?_
    have hlacks := needs_fetchActive hv
    exact Or.inl hlacks

/-- The page is left while it needs nothing of its connection. -/
theorem Kept.unmount {c : Uuid} {s : Page} (hs : Kept c s)
    (hlosing : ∀ v ∈ travelling s.live s.socket c, ¬Needs s c v) :
    Kept c { s with mounted := false, socket := none, reconnectTimer := false } := by
  refine ⟨hs.announces, hs.reads, fun hopen => ?_, ?_⟩
  · obtain hsocket | htimer := hopen
    · exact absurd rfl hsocket
    · cases htimer
  · refine complete_of_release hs.complete rfl rfl (fun v hv => Or.inr (hlosing v hv)) ?_
    intro v hv
    obtain hlacks | ⟨⟨hmounted, -⟩, -⟩ := hv
    · exact Or.inl hlacks
    · cases hmounted

/-- A mounted page fetches the conversation that becomes active. -/
theorem Kept.activate {c : Uuid} {s : Page} (hs : Kept c s) (user : User) (c' : Uuid) :
    Kept c (Page.fetchActive user { s with activeConversationId := some c' }) := by
  obtain ⟨hlive, hsocket, hmessages, hactive, hmounted, htimer⟩ :=
    fetchActive_fields user { s with activeConversationId := some c' }
  refine ⟨?_, reads_fetchActive hs.reads, ?_, ?_⟩
  · rw [hlive]
    exact hs.announces
  · rw [hsocket, htimer, hmounted]
    exact hs.mounted
  · refine complete_of_release hs.complete (by rw [hlive]) (by rw [hmessages]) ?_ fun v hv => ?_
    · rw [hlive, hsocket]
      exact fun v hv => Or.inl hv
    · have hlacks := needs_fetchActive hv
      exact Or.inl hlacks

/-- On a page that is not mounted a conversation becomes active unseen. -/
theorem Kept.activate_unmounted {c : Uuid} {s : Page} (hs : Kept c s) (c' : Uuid)
    (hunmounted : ¬s.mounted = true) : Kept c { s with activeConversationId := some c' } := by
  refine ⟨hs.announces, hs.reads, hs.mounted, ?_⟩
  refine complete_of_release hs.complete rfl rfl (fun v hv => Or.inl hv) fun v hv => ?_
  obtain hlacks | ⟨⟨hmounted, -⟩, -⟩ := hv
  · exact Or.inl hlacks
  · exact absurd hmounted hunmounted

/-- The next frame is shown. -/
theorem Kept.onmessage {c : Uuid} {s : Page} {i : ℕ} {claims : UserClaims} {stream : Stream}
    {raw : OutboundMessage} {frames : List OutboundMessage} (hs : Kept c s)
    (hg : LosesNothing c s .onmessage) (hsocket : s.socket = some i)
    (hi : s.live.stream? i = some (claims, stream)) (hframes : stream.frames = raw :: frames) :
    Kept c { s with
      live := s.live.setStage i claims (.streaming { stream with frames })
      messages := Function.update s.messages raw.conversationID
        (appendMessage (s.messages raw.conversationID) (fromFrame raw)) } := by
  have horder : FrameInOrder s c raw := by
    have hframe := hg.2
    simp only [Page.stream?, hsocket, Option.bind_some, hi, hframes, List.head?_cons] at hframe
    exact hframe raw rfl
  exact ⟨hs.announces, hs.reads, hs.mounted,
    complete_onmessage hs.complete hsocket hi hframes horder rfl⟩

/-- What is left after a response has arrived still reads one page each. -/
theorem Kept.reads_eraseIdx {c : Uuid} {s : Page} (hs : Kept c s) (k : ℕ) :
    ∀ f ∈ s.fetches.eraseIdx k, ReadsPage f.conversationId f.program :=
  fun f hf => hs.reads f (List.mem_of_mem_eraseIdx hf)

/-- The response of a fetch replaces the messages of its conversation. -/
theorem Kept.fetchDone {c conv : Uuid} {s : Page} {k : ℕ} {msgs : List ChatMessageDto}
    (hs : Kept c s) (hk : s.fetches[k]? = some ⟨conv, .ret (.ok (some msgs))⟩)
    (hlosing : ∀ v ∈ losing s c (.fetchDone k), ¬Needs s c v) :
    Kept c { s with
      fetches := s.fetches.eraseIdx k
      messages := Function.update s.messages conv msgs } := by
  refine ⟨hs.announces, hs.reads_eraseIdx k, hs.mounted, ?_⟩
  by_cases hconv : conv = c
  · subst hconv
    exact complete_fetchDone hs.complete hk hlosing rfl
  · have hsame : Function.update s.messages conv msgs c = s.messages c :=
      Function.update_of_ne (Ne.symm hconv) _ _
    intro v hmissing hneeded
    obtain ⟨hsaved, hway, hshown⟩ := hmissing
    have hshown' : ¬Contains (s.messages c) v := by
      rw [← hsame]
      exact hshown
    exact hs.complete v ⟨hsaved, hway, hshown'⟩
      (needs_of_eraseIdx hneeded hk hconv rfl hsame rfl rfl)

/-- A fetch of another conversation brings no messages. -/
theorem Kept.fetchDropped {c conv : Uuid} {s : Page} {k : ℕ}
    {r : Except Exn (Option (List ChatMessageDto))} (hs : Kept c s)
    (hk : s.fetches[k]? = some ⟨conv, .ret r⟩) (hconv : conv ≠ c) :
    Kept c { s with fetches := s.fetches.eraseIdx k } := by
  refine ⟨hs.announces, hs.reads_eraseIdx k, hs.mounted, ?_⟩
  intro v hmissing hneeded
  obtain ⟨hsaved, hway, hshown⟩ := hmissing
  exact hs.complete v ⟨hsaved, hway, hshown⟩
    (needs_of_eraseIdx hneeded hk hconv rfl rfl rfl rfl)

/-- A step that loses nothing keeps what a run keeps. -/
theorem step_kept {user : User} {c : Uuid} {s s' : Page} {l : PageLabel} (hs : Kept c s)
    (hg : LosesNothing c s l) (h : Page.step user s l = some s') : Kept c s' := by
  cases l with
  | live l =>
    obtain ⟨live, hstep, rfl⟩ := Option.map_eq_some_iff.mp h
    exact ⟨live_announces hs.announces hstep, hs.reads, hs.mounted,
      complete_live hs hg.1 hstep⟩
  | mount =>
    simp only [Page.step] at h
    split at h
    · cases h
    · cases h
      exact hs.mount hg.1
  | unmount =>
    simp only [Page.step] at h
    split at h
    · cases h
      exact hs.unmount hg.1
    · cases h
  | activate c' =>
    simp only [Page.step] at h
    split at h
    · cases h
      exact hs
    split at h
    · cases h
      exact hs.activate user c'
    · rename_i hunmounted
      cases h
      exact hs.activate_unmounted c' hunmounted
  | reconnect =>
    simp only [Page.step] at h
    split at h
    · rename_i htimer
      cases h
      refine ⟨hs.announces, hs.reads, fun _ => hs.mounted (Or.inr htimer), ?_⟩
      exact complete_of_release hs.complete rfl rfl (fun v hv => Or.inr (hg.1 v hv)) fun v hv => hv
    · cases h
  | onclose code =>
    simp only [Page.step] at h
    split at h
    · rename_i i hsocket
      cases h
      refine ⟨hs.announces, hs.reads, fun _ => hs.mounted (Or.inl ?_), ?_⟩
      · rw [hsocket]
        exact Option.some_ne_none i
      · exact complete_of_release hs.complete rfl rfl (fun v hv => Or.inr (hg.1 v hv)) fun v hv => hv
    · cases h
  | onmessage =>
    simp only [Page.step] at h
    split at h
    · rename_i i hsocket
      split at h
      · rename_i claims stream hi
        split at h
        · rename_i raw frames hframes
          cases h
          exact hs.onmessage hg hsocket hi hframes
        · cases h
      · cases h
    · cases h
  | fetchTurn k t =>
    simp only [Page.step] at h
    split at h
    · rename_i conv op next hk
      have hreads := hs.reads _ (List.mem_of_getElem? hk)
      have hstate := query_state hreads.queries t ⟨s.main, s.live.service.state⟩
      rw [hstate] at h
      cases h
      refine ⟨hs.announces, fun f hf => ?_, hs.mounted, complete_fetchTurn hs hk hg rfl⟩
      obtain hold | rfl := List.mem_or_eq_of_mem_set hf
      · exact hs.reads f hold
      · exact hreads.next _
    · cases h
  | fetchDone k =>
    simp only [Page.step] at h
    split at h
    · rename_i conv msgs hk
      cases h
      exact hs.fetchDone hk hg.1
    · rename_i conv r hfail hk
      cases h
      refine hs.fetchDropped hk ?_
      have hdone := hg.2
      simp only [hk] at hdone
      exact hdone
    · cases h

/-- The stream of an open and confirmed connection. -/
theorem OpenAndConfirmed.stream {s : Page} (h : OpenAndConfirmed s) :
    ∃ i claims stream, s.socket = some i ∧ s.live.stream? i = some (claims, stream) ∧
      (∀ sub ∈ stream.subscriptions, sub.confirmed = true ∧ sub.events = []) ∧
      stream.frames = [] := by
  unfold OpenAndConfirmed at h
  split at h
  · rename_i claims stream hstream
    obtain ⟨i, hsocket, hi⟩ := Option.bind_eq_some_iff.mp hstream
    exact ⟨i, claims, stream, hsocket, hi, h.2⟩
  · exact h.elim

/-- In every run whose steps lose nothing that the page needs, a quiet page shows
no gap in the conversation. -/
theorem noGapIn_of_losesNothing {user : User} {main : MainDb} {c : Uuid} {ls : List PageLabel}
    {s : Page} (h : run (Page.step user) (Page.initial main) ls = some s)
    (hg : EachStep (Page.step user) (LosesNothing c) (Page.initial main) ls) : NoGapIn c s := by
  have hinitial : Kept c (Page.initial main) := by
    refine ⟨fun i th hth => ?_, fun f hf => ?_, fun hopen => ?_, fun v hmissing => ?_⟩
    · cases hth
    · cases hf
    · obtain hsocket | htimer := hopen
      · exact absurd rfl hsocket
      · cases htimer
    · obtain ⟨m, hm, -⟩ := mem_saved.mp hmissing.1
      cases hm
  have hkept : Kept c s := run_guarded (fun _ _ _ hs hl hstep => step_kept hs hl hstep) hinitial hg h
  rintro ⟨hopen, hthreads, hpublishing, hfetches⟩ hactive m hm hconv hreaches
  obtain ⟨i, claims, stream, hsocket, hi, hsubs, hframes⟩ := hopen.stream
  by_contra hlacks
  have hway : toMessageDto m ∉ onItsWay s.live s.socket c := by
    intro hway
    obtain hannounced | hstarted | htravelling := mem_onItsWay.mp hway
    · obtain ⟨t, th, hth, hby⟩ := mem_announced.mp hannounced
      have hserved := hthreads th (List.mem_of_getElem? hth)
      unfold Served at hserved
      unfold announcedBy at hby
      split at hserved
      · rename_i r hr
        rw [hr] at hby
        cases hby
      · exact hserved
    · obtain ⟨p, hp, -⟩ := mem_started.mp hstarted
      rw [hpublishing] at hp
      cases hp
    · obtain ⟨j, claims', stream', hj, hj', hcarried⟩ := mem_travelling.mp htravelling
      cases hsocket.symm.trans hj
      cases hi.symm.trans hj'
      obtain ⟨sub, hsub, -, e, he, -⟩ | ⟨raw, hraw, -⟩ := mem_carried.mp hcarried
      · rw [(hsubs sub hsub).2] at he
        cases he
      · rw [hframes] at hraw
        cases hraw
  have hmissing : Missing s c (toMessageDto m) := ⟨mem_saved.mpr ⟨m, hm, hconv, rfl⟩, hway, hlacks⟩
  refine hkept.complete _ hmissing (Or.inr ⟨⟨hkept.mounted (Or.inl ?_), hactive, ?_⟩, hreaches⟩)
  · rw [hsocket]
    exact Option.some_ne_none i
  · intro f hf
    rw [hfetches] at hf
    cases hf

/-- The user of the page: the Admin 5 of business unit 1. -/
def ann : User := ⟨⟨5, 1, "Ann"⟩, 3⟩

/-- A backend call that is served at time 0. -/
def answered : Turn BackendChoice Exn :=
  .serve ⟨fun _ => 0, ⟨fun _ => ⟨1, 0⟩, 0, fun _ => .serve (Choice.generating 1 0)⟩⟩

/-- Workspace 10 with the Admins 5 and 7 and its group conversation 30. -/
def colleagues : List PageLabel :=
  (serve (.createWorkspace 1 3 "HQ") 0 [generated 10] ++
    serve (.addMember 10 5 "Admin") 1 [generated 20] ++
    serve (.addMember 10 7 "Admin") 2 [generated 21] ++
    serve (.getOrCreateGroupConversation 10) 3 [generated 1, generated 30]).map .live

/-- The colleague sends to the group and the publish runs. -/
def send (thread : ℕ) (uuid : {n : Uuid // n ≠ Uuid.nil}) : List PageLabel :=
  (serve (.sendMessage 10 30 7 "Bob" "hello") thread [generated 1, uuid, generated 1] ++
    [LiveLabel.publish 0 true]).map .live

/-- The page is opened and its connection is subscribed to the group. -/
def openPage : List PageLabel :=
  .mount :: [LiveLabel.resolve 0 lookup, .list 0 lookup, .upgrade 0 true, .subscribe 0 true].map .live

/-- The group becomes active and its history is fetched. -/
def fetchGroup : List PageLabel :=
  [.activate 30, .fetchTurn 0 answered, .fetchTurn 0 answered, .fetchTurn 0 answered, .fetchDone 0]

/-- The Redis server confirms the subscription. -/
def confirmed : PageLabel := .live (.confirm 0 0)

/-- A message that is sent after the confirmation is shown. -/
theorem noGapIn_of_losesNothing_shown :
    ∃ s, run (Page.step ann) (Page.initial MainDb.empty) (colleagues ++ send 4 ⟨50, by decide⟩ ++
      openPage ++ confirmed :: fetchGroup ++ send 5 ⟨51, by decide⟩ ++
      [.live (.write 0 0), .onmessage]) = some s ∧ NoGapIn 30 s := by
  have hrun : (run (Page.step ann) (Page.initial MainDb.empty)
      (colleagues ++ send 4 ⟨50, by decide⟩ ++ openPage ++ confirmed :: fetchGroup ++
        send 5 ⟨51, by decide⟩ ++ [.live (.write 0 0), .onmessage])).isSome = true := by decide
  obtain ⟨s, hs⟩ := Option.isSome_iff_exists.mp hrun
  exact ⟨s, hs, noGapIn_of_losesNothing hs (by decide)⟩

instance (s : Page) : Decidable (Quiet s) := by
  unfold Quiet
  infer_instance

instance (c : Uuid) (s : Page) : Decidable (NoGapIn c s) := by
  unfold NoGapIn
  infer_instance

/-- A message that is sent after the history was read and before Redis has
confirmed the subscription is never shown, though its conversation existed
before the first connection. -/
theorem noGapIn_fails :
    ¬∀ user main c before after s₀ s, run (Page.step user) (Page.initial main) before = some s₀ →
      s₀.live.sockets = [] → (∃ conv ∈ s₀.db.conversations, conv.id = c) →
      run (Page.step user) s₀ (.mount :: after) = some s → NoGapIn c s := by
  intro h
  have hgap : (run (Page.step ann) (Page.initial MainDb.empty)
      (colleagues ++ send 4 ⟨50, by decide⟩)).any (fun s₀ => decide (s₀.live.sockets = []) &&
        decide (∃ conv ∈ s₀.db.conversations, conv.id = 30) &&
        (run (Page.step ann) s₀ (openPage ++ fetchGroup ++ send 5 ⟨51, by decide⟩ ++
          [confirmed])).any fun s => decide (¬NoGapIn 30 s)) = true := by
    decide
  obtain ⟨s₀, hs₀, hrest⟩ := (Option.any_eq_true _ _).mp hgap
  obtain ⟨hbefore, hafter⟩ := (Bool.and_eq_true_iff).mp hrest
  obtain ⟨hsockets, hexists⟩ := (Bool.and_eq_true_iff).mp hbefore
  obtain ⟨s, hs, hbad⟩ := (Option.any_eq_true _ _).mp hafter
  exact of_decide_eq_true hbad (h ann MainDb.empty 30 _ _ s₀ s hs₀ (of_decide_eq_true hsockets)
    (of_decide_eq_true hexists) hs)

end AuraWellness.Frontend.NoGap
