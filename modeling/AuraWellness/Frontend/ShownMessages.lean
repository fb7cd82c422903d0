import AuraWellness.Chat.HistoryPage
import AuraWellness.Chat.Sending
import AuraWellness.Frontend.NoGap

/-!
# What the chat page shows is what was saved

Frames of a connection and responses to fetches and to sends over REST reach the
page in any order, late ones and those of earlier connections included. Whatever
the page lists under a conversation is a stored message of that conversation,
unaltered, and it lists no message twice.
-/

namespace AuraWellness.Frontend.ShownMessages

open AuraWellness.Lib.Calls AuraWellness.Lib.Transition
open AuraWellness.Chat.Entities AuraWellness.Chat.Schema AuraWellness.Chat.Repositories
open AuraWellness.Chat.Growth AuraWellness.Chat.Live AuraWellness.Chat.LiveAccess
open AuraWellness.Chat.LiveFrames AuraWellness.Chat.HistoryPage AuraWellness.Chat.Subscribed
open AuraWellness.Chat.Services AuraWellness.Chat.Handlers
open AuraWellness.Chat.Sending (Sent serve_sent saved_storedIn)
open AuraWellness.Backend.Entities AuraWellness.Backend.Schema AuraWellness.Backend.Repositories
open AuraWellness.Backend.Services AuraWellness.Frontend.Browser AuraWellness.Frontend.NoGap

/-- A browser that has not opened the page yet, in front of these two databases. -/
def Page.opened (main : MainDb) (db : ChatDb) : Page :=
  { Page.initial main with live := LiveState.started db }

/-- So is the page with nothing to send. -/
def ChatPage.opened (main : MainDb) (db : ChatDb) : ChatPage := ⟨Page.opened main db, []⟩

/-- The list shows stored messages of the conversation, none of them twice. -/
structure ShowsStored (d : ChatDb) (c : Uuid) (messages : List ChatMessageDto) : Prop where
  stored : ∀ v ∈ messages, ∃ m, StoredIn d c m ∧ v = toMessageDto m
  distinct : (messages.map ChatMessageDto.messageId).Nodup

theorem ShowsStored.nil (d : ChatDb) (c : Uuid) : ShowsStored d c [] :=
  ⟨fun v hv => (by cases hv), List.nodup_nil⟩

theorem ShowsStored.grows {d d' : ChatDb} (hg : Grows d d') {c : Uuid}
    {messages : List ChatMessageDto} (h : ShowsStored d c messages) : ShowsStored d' c messages where
  stored v hv := by
    obtain ⟨m, hm, he⟩ := h.stored v hv
    exact ⟨m, hm.grows hg, he⟩
  distinct := h.distinct

/-- A frame of the conversation is appended unless its message is there. -/
theorem ShowsStored.append {d : ChatDb} {c : Uuid} {messages : List ChatMessageDto}
    (h : ShowsStored d c messages) {m : ChatMessage} (hm : StoredIn d c m) :
    ShowsStored d c (appendMessage messages (toMessageDto m)) where
  stored v hv := by
    obtain hold | rfl := mem_appendMessage.2 hv
    · exact h.stored v hold
    · exact ⟨m, hm, rfl⟩
  distinct := by
    unfold appendMessage
    split
    · exact h.distinct
    · rename_i hnone
      rw [List.map_append]
      refine List.nodup_append.mpr ⟨h.distinct, List.nodup_singleton _, ?_⟩
      intro id hid id' hid' he
      obtain ⟨u, hu, rfl⟩ := List.mem_map.mp hid
      rw [List.map_singleton, List.mem_singleton] at hid'
      refine hnone (List.any_eq_true.mpr ⟨u, hu, decide_eq_true ?_⟩)
      exact he.trans hid'

/-- A page of the repository shows stored messages of its conversation. -/
theorem ShowsStored.of_list {d : ChatDb} {tie : Choice} {c : Uuid} {before : Time}
    {rows : List ChatMessage} (h : MessageRepo.list d tie c before (50 : ℕ) = .ok rows) :
    ShowsStored d c (rows.map toMessageDto) where
  stored v hv := by
    obtain ⟨m, hm, rfl⟩ := List.mem_map.mp hv
    obtain ⟨hstored, hconv, -⟩ := (rightWindow_of_list h).below m hm
    exact ⟨m, ⟨hstored, hconv⟩, rfl⟩
  distinct := by
    rw [List.map_map]
    exact (rightWindow_of_list h).distinct

/-- What every run keeps: the connections carry stored messages, and so do the
responses on their way and the lists of the page. -/
structure Genuine (s : Page) : Prop where
  live : OwnFrames s.live
  reads : ∀ f ∈ s.fetches, ReadsPage f.conversationId f.program
  pages : ∀ f ∈ s.fetches, ShowsStored s.db f.conversationId (page f)
  shown : ∀ c, ShowsStored s.db c (s.messages c)

theorem Genuine.opened (main : MainDb) (db : ChatDb) : Genuine (Page.opened main db) where
  live := OwnFrames.started db
  reads f hf := by cases hf
  pages f hf := by cases hf
  shown c := ShowsStored.nil db c

/-- A new connection carries nothing yet. -/
theorem Genuine.connect {user : User} {s : Page} (h : Genuine s) : Genuine (Page.connect user s) where
  live := by
    refine ⟨h.live.service, fun socket hsocket => ?_⟩
    obtain hold | hnew := List.mem_append.mp hsocket
    · exact h.live.sockets socket hold
    · rw [List.mem_singleton.mp hnew]
      trivial
  reads := h.reads
  pages := h.pages
  shown := h.shown

/-- A new fetch brings nothing yet. -/
theorem Genuine.fetchActive {user : User} {s : Page} (h : Genuine s) :
    Genuine (Page.fetchActive user s) := by
  obtain ⟨hlive, -, hmessages, -, -, -⟩ := fetchActive_fields user s
  refine ⟨by rw [hlive]; exact h.live, reads_fetchActive h.reads, fun f hf => ?_, fun c => ?_⟩
  · unfold Page.db
    rw [hlive]
    obtain hold | ⟨c, -, rfl⟩ := mem_fetchActive hf
    · exact h.pages f hold
    · exact ShowsStored.nil _ _
  · unfold Page.db
    rw [hlive, hmessages]
    exact h.shown c

/-- A stored message is appended to its conversation. -/
theorem Genuine.append {s : Page} (h : Genuine s) {c : Uuid} {m : ChatMessage}
    (hm : StoredIn s.db c m) : Genuine { s with
      messages := Function.update s.messages c
        (appendMessage (s.messages c) (toMessageDto m)) } where
  live := h.live
  reads := h.reads
  pages := h.pages
  shown c' := by
    by_cases hc : c' = c
    · subst hc
      dsimp only
      rw [Function.update_self]
      exact (h.shown _).append hm
    · dsimp only
      rw [Function.update_of_ne hc]
      exact h.shown c'

/-- A frame of the connection is shown. -/
theorem Genuine.onmessage {s : Page} (h : Genuine s) {i : ℕ} {claims : UserClaims}
    {stream : Stream} {raw : OutboundMessage} {frames : List OutboundMessage}
    (hi : s.live.stream? i = some (claims, stream)) (hframes : stream.frames = raw :: frames) :
    Genuine { s with
      live := s.live.setStage i claims (.streaming { stream with frames })
      messages := Function.update s.messages raw.conversationID
        (appendMessage (s.messages raw.conversationID) (fromFrame raw)) } := by
  have hstream := h.live.stream hi
  obtain ⟨c, m, -, hm, hraw⟩ := hstream.frames raw (by rw [hframes]; exact List.mem_cons_self)
  obtain rfl : raw.conversationID = c := by rw [hraw]; rfl
  have hdto : fromFrame raw = toMessageDto m := by
    rw [hraw, ← hm.2]
    rfl
  rw [hdto]
  refine ⟨h.live.setStage ⟨hstream.workspace, hstream.listed, hstream.events, ?_⟩, h.reads,
    h.pages, (h.append hm).shown⟩
  intro frame hframe
  refine hstream.frames frame ?_
  rw [hframes]
  exact List.mem_cons_of_mem raw hframe

/-- An answered request leaves a fetch with what the repository lists. -/
theorem Genuine.fetchTurn {s : Page} (h : Genuine s) {k : ℕ} {conv : Uuid} {op : BackendCall}
    {next : Except Exn op.Reply → BackendProgram (Option (List ChatMessageDto))}
    (hk : s.fetches[k]? = some ⟨conv, .call op next⟩) (t : Turn BackendChoice Exn) :
    Genuine { s with
      fetches := s.fetches.set k
        ⟨conv, next (backendMachine.answer op t ⟨s.main, s.live.service.state⟩).1⟩ } := by
  have hreads : ReadsPage conv (.call op next) := h.reads _ (List.mem_of_getElem? hk)
  refine ⟨h.live, fun f hf => ?_, fun f hf => ?_, h.shown⟩
  · obtain hold | rfl := List.mem_or_eq_of_mem_set hf
    · exact h.reads f hold
    · exact hreads.next _
  · obtain hold | rfl := List.mem_or_eq_of_mem_set hf
    · exact h.pages f hold
    · -- the fetch brings nothing yet, or it has become a page
      cases hnext : next (backendMachine.answer op t ⟨s.main, s.live.service.state⟩).1 with
      | call op' next' => exact ShowsStored.nil _ _
      | ret r =>
        cases r with
        | error e => exact ShowsStored.nil _ _
        | ok result =>
          cases result with
          | none => exact ShowsStored.nil _ _
          | some msgs =>
            obtain ⟨choice, rows, tie, rfl, rfl, hlist, rfl⟩ := read_page hreads hnext
            exact ShowsStored.of_list hlist

/-- A response takes the place of the messages of its conversation. -/
theorem Genuine.fetchDone {s : Page} (h : Genuine s) {k : ℕ} {conv : Uuid}
    {msgs : List ChatMessageDto} (hk : s.fetches[k]? = some ⟨conv, .ret (.ok (some msgs))⟩) :
    Genuine { s with
      fetches := s.fetches.eraseIdx k
      messages := Function.update s.messages conv msgs } := by
  refine ⟨h.live, fun f hf => h.reads f (List.mem_of_mem_eraseIdx hf),
    fun f hf => h.pages f (List.mem_of_mem_eraseIdx hf), fun c => ?_⟩
  by_cases hc : c = conv
  · subst hc
    dsimp only
    rw [Function.update_self]
    exact h.pages _ (List.mem_of_getElem? hk)
  · dsimp only
    rw [Function.update_of_ne hc]
    exact h.shown c

/-- Every step keeps the page genuine. -/
theorem Genuine.step {user : User} {s s' : Page} {l : PageLabel} (h : Genuine s)
    (hstep : Page.step user s l = some s') : Genuine s' := by
  cases l with
  | live l =>
    obtain ⟨live, hlive, rfl⟩ := Option.map_eq_some_iff.mp hstep
    have hg : Grows s.db live.db := live_step_grows hlive
    exact ⟨h.live.step hlive, h.reads, fun f hf => (h.pages f hf).grows hg,
      fun c => (h.shown c).grows hg⟩
  | mount =>
    simp only [Page.step] at hstep
    split at hstep
    · cases hstep
    · cases hstep
      have hmounted : Genuine { s with mounted := true } := ⟨h.live, h.reads, h.pages, h.shown⟩
      exact hmounted.connect.fetchActive
  | unmount =>
    simp only [Page.step] at hstep
    split at hstep
    · cases hstep
      exact ⟨h.live, h.reads, h.pages, h.shown⟩
    · cases hstep
  | activate c =>
    simp only [Page.step] at hstep
    have hactive : Genuine { s with activeConversationId := some c } :=
      ⟨h.live, h.reads, h.pages, h.shown⟩
    split at hstep
    · cases hstep
      exact h
    split at hstep
    · cases hstep
      exact hactive.fetchActive
    · cases hstep
      exact hactive
  | reconnect =>
    simp only [Page.step] at hstep
    split at hstep
    · cases hstep
      have hfired : Genuine { s with reconnectTimer := false } := ⟨h.live, h.reads, h.pages, h.shown⟩
      exact hfired.connect
    · cases hstep
  | onclose code =>
    simp only [Page.step] at hstep
    split at hstep
    · cases hstep
      exact ⟨h.live, h.reads, h.pages, h.shown⟩
    · cases hstep
  | onmessage =>
    simp only [Page.step] at hstep
    split at hstep
    · split at hstep
      · rename_i claims stream hi
        split at hstep
        · rename_i raw frames hframes
          cases hstep
          exact h.onmessage hi hframes
        · cases hstep
      · cases hstep
    · cases hstep
  | fetchTurn k t =>
    simp only [Page.step] at hstep
    split at hstep
    · rename_i conv op next hk
      have hreads : ReadsPage conv (.call op next) := h.reads _ (List.mem_of_getElem? hk)
      rw [query_state hreads.queries t ⟨s.main, s.live.service.state⟩] at hstep
      cases hstep
      exact h.fetchTurn hk t
    · cases hstep
  | fetchDone k =>
    simp only [Page.step] at hstep
    split at hstep
    · rename_i conv msgs hk
      cases hstep
      exact h.fetchDone hk
    · cases hstep
      exact ⟨h.live, fun f hf => h.reads f (List.mem_of_mem_eraseIdx hf),
        fun f hf => h.pages f (List.mem_of_mem_eraseIdx hf), h.shown⟩
    · cases hstep

/-- A step of the page leaves the rows of the chat database. -/
theorem Genuine.step_grows {user : User} {s s' : Page} {l : PageLabel} (h : Genuine s)
    (hstep : Page.step user s l = some s') : Grows s.db s'.db := by
  have same : s'.live.service = s.live.service → Grows s.db s'.db := by
    intro hservice
    unfold Page.db LiveState.db
    rw [hservice]
    exact Grows.refl _
  cases l with
  | live l =>
    obtain ⟨live, hlive, rfl⟩ := Option.map_eq_some_iff.mp hstep
    exact live_step_grows hlive
  | mount =>
    simp only [Page.step] at hstep
    split at hstep
    · cases hstep
    · cases hstep
      refine same ?_
      rw [(fetchActive_fields user _).1]
      rfl
  | unmount =>
    simp only [Page.step] at hstep
    split at hstep <;> cases hstep
    exact same rfl
  | activate c =>
    simp only [Page.step] at hstep
    split at hstep
    · cases hstep
      exact same rfl
    split at hstep
    · cases hstep
      exact same (congrArg LiveState.service (fetchActive_fields user _).1)
    · cases hstep
      exact same rfl
  | reconnect =>
    simp only [Page.step] at hstep
    split at hstep <;> cases hstep
    exact same rfl
  | onclose code =>
    simp only [Page.step] at hstep
    split at hstep <;> cases hstep
    exact same rfl
  | onmessage =>
    simp only [Page.step] at hstep
    split at hstep
    · split at hstep
      · split at hstep <;> cases hstep
        exact same rfl
      · cases hstep
    · cases hstep
  | fetchTurn k t =>
    simp only [Page.step] at hstep
    split at hstep
    · rename_i conv op next hk
      have hreads : ReadsPage conv (.call op next) := h.reads _ (List.mem_of_getElem? hk)
      rw [query_state hreads.queries t ⟨s.main, s.live.service.state⟩] at hstep
      cases hstep
      exact same rfl
    · cases hstep
  | fetchDone k =>
    simp only [Page.step] at hstep
    split at hstep <;> cases hstep <;> exact same rfl

/-- The program sends a message to the conversation with its last call. -/
def SendsOne (c : Uuid) : BackendProgram (Option ChatMessageDto) → Prop
  | .ret _ => True
  | .call (.chat (.sendMessage _ conv _ _ _)) next =>
    conv = c ∧ (∀ m, next (.ok m) = .ret (.ok (some (toMessageDto m)))) ∧
      ∀ e, next (.error e) = .ret (.error e)
  | .call op next =>
    op.Queries ∧ (∀ r v, next r ≠ .ret (.ok (some v))) ∧ ∀ r, SendsOne c (next r)

/-- What a send does once it knows the members of the workspace. -/
def sendWithAccess (user : User) (senderName : String) (c : Uuid) (content : String) (w : Uuid)
    (members : List ChatWorkspaceMember) : BackendProgram (Option ChatMessageDto) :=
  if memberHasAccess members user.claims.personID then do
    let result ← ChatServiceClient.sendMessage w c user.claims.personID senderName content
    return some (toMessageDto result)
  else denied noChatAccess

/-- A send sends one message with its last call. -/
theorem sendConversationMessage_sendsOne (user : User) (senderName : String) (c : Uuid)
    (content : String) : SendsOne c (sendConversationMessage user senderName c content).program := by
  have hsend : ∀ w members, SendsOne c (sendWithAccess user senderName c content w members) := by
    intro w members
    unfold sendWithAccess
    split
    · exact ⟨rfl, fun _ => rfl, fun _ => rfl⟩
    · trivial
  have hcalls : ∀ w members v,
      sendWithAccess user senderName c content w members ≠ .ret (.ok (some v)) := by
    intro w members v h
    unfold sendWithAccess at h
    split at h <;> cases h
  refine ⟨trivial, fun r v h => ?_, fun r => ?_⟩
  · cases r with
    | ok w => cases h
    | error e =>
      cases e with
      | rpc e =>
        obtain ⟨code, detail⟩ := e
        cases code <;> cases h
      | _ => cases h
  · cases r with
    | error e =>
      cases e with
      | rpc e =>
        obtain ⟨code, detail⟩ := e
        cases code <;> trivial
      | _ => trivial
    | ok w =>
      refine ⟨trivial, fun r v h => ?_, fun r => ?_⟩
      · cases r with
        | error e => cases h
        | ok members => exact hcalls w.id members v h
      · cases r with
        | error e => trivial
        | ok members => exact hsend w.id members

/-- A message that `SendMessage` returns is stored in its conversation. -/
theorem sendMessage_stored {w c p : Uuid} {name content : String} {t : Turn BackendChoice Exn}
    {s : World} {m : ChatMessage}
    (h : (backendMachine.answer (.chat (.sendMessage w c p name content)) t s).1 = .ok m) :
    StoredIn (backendMachine.answer (.chat (.sendMessage w c p name content)) t s).2.chat.db c m := by
  obtain ⟨choice, rfl, hrun⟩ := answer_chat_ok h
  change StoredIn ((MessagingService.sendMessage choice.rpc.stamps w c p name content).run
    chatMachine choice.rpc.turns s.chat).2.db c m
  change ((MessagingService.sendMessage choice.rpc.stamps w c p name content).run
    chatMachine choice.rpc.turns s.chat).1 = .ok m at hrun
  unfold MessagingService.sendMessage at hrun ⊢
  obtain ⟨member, -, hlooked⟩ := Program.run_perform_bind_ok hrun
  rw [hlooked] at hrun ⊢
  by_cases haccess : member.hasAccess = false
  · rw [if_pos haccess] at hrun
    cases hrun
  rw [if_neg haccess] at hrun ⊢
  cases hnew : newMessage (choice.rpc.stamps 0) w c p name content with
  | error e =>
    rw [hnew] at hrun
    cases hrun
  | ok msg =>
    rw [hnew] at hrun
    obtain ⟨-, -, -, -, hmsg⟩ := newMessage_ok.mp hnew
    have hconv : msg.conversationID = c := by rw [hmsg]
    obtain ⟨saved, hsaved, hsave⟩ := Program.run_perform_bind_ok hrun
    have hstored := saved_storedIn hsaved
    rw [hconv] at hstored
    refine (congrArg (fun r => StoredIn r.2.db c m) hsave).mpr ?_
    have hrest := (congrArg Prod.fst hsave).symm.trans hrun
    obtain ⟨-, -, hstart⟩ := Program.run_perform_bind_ok hrest
    refine (congrArg (fun r => StoredIn r.2.db c m) hstart).mpr ?_
    cases (congrArg Prod.fst hstart).symm.trans hrest
    exact hstored.grows (answer_grows _ _ _)

/-- A call of a send lets the rows of the chat database stay and starts to publish only what
is stored. -/
theorem SendsOne.leaves {c : Uuid} {op : BackendCall}
    {next : Except Exn op.Reply → BackendProgram (Option ChatMessageDto)}
    (h : SendsOne c (.call op next)) (t : Turn BackendChoice Exn) (s : World) :
    Grows s.chat.db (backendMachine.answer op t s).2.chat.db ∧
      ∀ p ∈ (backendMachine.answer op t s).2.chat.publishing, p ∈ s.chat.publishing ∨
        PublishesStored (backendMachine.answer op t s).2.chat.db p := by
  have same : ∀ {s' : World}, s' = s → Grows s.chat.db s'.chat.db ∧
      ∀ p ∈ s'.chat.publishing, p ∈ s.chat.publishing ∨ PublishesStored s'.chat.db p := by
    rintro s' rfl
    exact ⟨Grows.refl _, fun p hp => Or.inl hp⟩
  cases op with
  | chat rpc =>
    cases rpc with
    | sendMessage w conv p name content =>
      obtain hs | ⟨choice, hs⟩ :=
        backendMachine.answer_state (.chat (.sendMessage w conv p name content)) t s
      · exact same hs
      · rw [hs]
        have hsent := serve_sent (.sendMessage w conv p name content) choice.rpc s.chat
        exact ⟨hsent.grows, hsent.publishing⟩
    | _ => exact same (query_state h.1 t s)
  | _ => exact same (query_state h.1 t s)

/-- What is left of a send sends one message. -/
theorem SendsOne.next {c : Uuid} {op : BackendCall}
    {next : Except Exn op.Reply → BackendProgram (Option ChatMessageDto)}
    (h : SendsOne c (.call op next)) (r : Except Exn op.Reply) : SendsOne c (next r) := by
  cases op with
  | chat rpc =>
    cases rpc with
    | sendMessage w conv p name content =>
      obtain ⟨-, hok, herror⟩ := h
      cases r with
      | ok m =>
        rw [hok]
        trivial
      | error e =>
        rw [herror]
        trivial
    | _ => exact h.2.2 r
  | _ => exact h.2.2 r

/-- A send comes back with a stored message of its conversation. -/
theorem SendsOne.returned {c : Uuid} {op : BackendCall}
    {next : Except Exn op.Reply → BackendProgram (Option ChatMessageDto)}
    (h : SendsOne c (.call op next)) {t : Turn BackendChoice Exn} {s : World}
    {v : ChatMessageDto} (hv : next (backendMachine.answer op t s).1 = .ret (.ok (some v))) :
    ∃ m, StoredIn (backendMachine.answer op t s).2.chat.db c m ∧ v = toMessageDto m := by
  cases op with
  | chat rpc =>
    cases rpc with
    | sendMessage w conv p name content =>
      obtain ⟨rfl, hok, herror⟩ := h
      cases hr : (backendMachine.answer (.chat (.sendMessage w conv p name content)) t s).1 with
      | error e =>
        rw [hr, herror] at hv
        cases hv
      | ok m =>
        rw [hr, hok] at hv
        cases hv
        exact ⟨m, sendMessage_stored hr, rfl⟩
    | _ => exact absurd hv (h.2.1 _ _)
  | _ => exact absurd hv (h.2.1 _ _)

/-- The backend leaves the page genuine when it lets the rows stay and starts to publish only
what is stored. -/
theorem Genuine.answered {s : Page} (h : Genuine s) {w : World} (hgrows : Grows s.db w.chat.db)
    (hpublishing : ∀ p ∈ w.chat.publishing, p ∈ s.live.service.state.publishing ∨
      PublishesStored w.chat.db p) :
    Genuine { s with
      live := { s.live with service := { s.live.service with state := w.chat } }
      main := w.main } where
  live := by
    refine ⟨⟨fun th hth => (h.live.service.threads th hth).grows hgrows, fun p hp => ?_⟩,
      fun socket hsocket => (h.live.sockets socket hsocket).grows hgrows⟩
    obtain hold | hnew := hpublishing p hp
    · exact StoredIn.grows hgrows (h.live.service.publishing p hold)
    · exact hnew
  reads := h.reads
  pages f hf := (h.pages f hf).grows hgrows
  shown c := (h.shown c).grows hgrows

/-- What every run of the page with its sends keeps. -/
structure Faithful (s : ChatPage) : Prop where
  page : Genuine s.page
  sends : ∀ f ∈ s.sends, SendsOne f.conversationId f.program
  stored : ∀ f ∈ s.sends, ∀ v, f.program = .ret (.ok (some v)) →
    ∃ m, StoredIn s.page.db f.conversationId m ∧ v = toMessageDto m

theorem Faithful.opened (main : MainDb) (db : ChatDb) : Faithful (ChatPage.opened main db) where
  page := Genuine.opened main db
  sends f hf := by cases hf
  stored f hf := by cases hf

/-- Every step keeps the page with its sends faithful. -/
theorem Faithful.step {user : User} {senderName : String} {s s' : ChatPage} {l : ChatPageLabel}
    (h : Faithful s) (hstep : ChatPage.step user senderName s l = some s') : Faithful s' := by
  cases l with
  | page l =>
    obtain ⟨page, hpage, rfl⟩ := Option.map_eq_some_iff.mp hstep
    refine ⟨h.page.step hpage, h.sends, fun f hf v hv => ?_⟩
    obtain ⟨m, hm, he⟩ := h.stored f hf v hv
    exact ⟨m, hm.grows (h.page.step_grows hpage), he⟩
  | handleSend content =>
    simp only [ChatPage.step] at hstep
    split at hstep
    · rename_i c hactive
      split at hstep
      · cases hstep
        refine ⟨h.page, fun f hf => ?_, fun f hf v hv => ?_⟩
        · obtain hold | hnew := List.mem_append.mp hf
          · exact h.sends f hold
          · rw [List.mem_singleton.mp hnew]
            exact sendConversationMessage_sendsOne user senderName c content
        · obtain hold | hnew := List.mem_append.mp hf
          · exact h.stored f hold v hv
          · rw [List.mem_singleton.mp hnew] at hv
            cases hv
      · cases hstep
    · cases hstep
  | sendTurn k t =>
    simp only [ChatPage.step] at hstep
    split at hstep
    · rename_i c op next hk
      cases hstep
      have hsends : SendsOne c (.call op next) := h.sends _ (List.mem_of_getElem? hk)
      obtain ⟨hgrows, hpublishing⟩ := hsends.leaves t ⟨s.page.main, s.page.live.service.state⟩
      refine ⟨h.page.answered hgrows hpublishing, fun f hf => ?_, fun f hf v hv => ?_⟩
      · obtain hold | rfl := List.mem_or_eq_of_mem_set hf
        · exact h.sends f hold
        · exact hsends.next _
      · obtain hold | rfl := List.mem_or_eq_of_mem_set hf
        · obtain ⟨m, hm, he⟩ := h.stored f hold v hv
          exact ⟨m, hm.grows hgrows, he⟩
        · exact hsends.returned hv
    · cases hstep
  | sendDone k =>
    simp only [ChatPage.step] at hstep
    have hsends : ∀ f ∈ s.sends.eraseIdx k, SendsOne f.conversationId f.program :=
      fun f hf => h.sends f (List.mem_of_mem_eraseIdx hf)
    split at hstep
    · rename_i c msg hk
      cases hstep
      obtain ⟨m, hm, rfl⟩ := h.stored _ (List.mem_of_getElem? hk) msg rfl
      exact ⟨h.page.append hm, hsends, fun f hf => h.stored f (List.mem_of_mem_eraseIdx hf)⟩
    · cases hstep
      exact ⟨h.page, hsends, fun f hf => h.stored f (List.mem_of_mem_eraseIdx hf)⟩
    · cases hstep

/-- In every run of the page, its connections, its fetches, its sends over REST and the
service, from every pair of databases, each conversation shows stored messages of its own
only, unaltered and none of them twice. -/
theorem shows_stored_throughout (user : User) (senderName : String) (main : MainDb) (db : ChatDb)
    (ls : List ChatPageLabel) :
    Throughout (ChatPage.step user senderName)
      (fun s => ∀ c, ShowsStored s.page.db c (s.page.messages c)) (ChatPage.opened main db) ls := by
  have hfaithful : Throughout (ChatPage.step user senderName) Faithful (ChatPage.opened main db) ls :=
    throughout_invariant (fun _ _ _ h hstep => h.step hstep) ls (Faithful.opened main db)
  exact hfaithful.mono fun s h => h.page.shown

end AuraWellness.Frontend.ShownMessages
