import AuraWellness.Frontend.Browser

/-!
# Messages on their way to the page

A message of a conversation is saved, announced by its thread, published, put
into the queue of a subscription and written as a frame. Every step of the
service, of its connections and of Redis keeps it on this way to the current
connection of the page or is one of the few steps that let it go.
-/

namespace AuraWellness.Frontend.Pipeline

open AuraWellness.Lib.Calls AuraWellness.Lib.Transition
open AuraWellness.Chat.Entities AuraWellness.Chat.Schema AuraWellness.Chat.Repositories
open AuraWellness.Chat.Services AuraWellness.Chat.Growth AuraWellness.Chat.Live
open AuraWellness.Chat.LiveAccess
open AuraWellness.Backend.Services AuraWellness.Frontend.Browser

/-- What arrives at the page when an event of the conversation does. -/
def incoming (c : Uuid) (event : MessageEvent) : ChatMessageDto := fromFrame (toFrame c event.message)

/-- A saved message arrives as it is listed. -/
theorem incoming_eq (m : ChatMessage) : incoming m.conversationID ⟨m⟩ = toMessageDto m := rfl

/-- The saved messages of a conversation. -/
def saved (d : ChatDb) (c : Uuid) : List ChatMessageDto :=
  (d.messages.filter fun m => m.conversationID = c).map toMessageDto

/-- What a thread is about to publish to the conversation. -/
def announcedBy (c : Uuid) (th : Thread serviceSignature GoError Response Request) :
    Option ChatMessageDto :=
  match th.prog with
  | .call (.goPublish conv event) _ => if conv = c then some (incoming c event) else none
  | _ => none

/-- Messages that are saved and whose publish is not started. -/
def announced (service : Service) (c : Uuid) : List ChatMessageDto :=
  service.threads.filterMap (announcedBy c)

/-- Messages whose publish is started and has not run. -/
def started (st : ChatState) (c : Uuid) : List ChatMessageDto :=
  (st.publishing.filter fun p => p.conversationID = c).map fun p => incoming c p.event

/-- Messages that Redis has delivered to a connection. -/
def carried (stream : Stream) (c : Uuid) : List ChatMessageDto :=
  (stream.subscriptions.filter fun sub => sub.conversationID = c).flatMap
      (fun sub => sub.events.map (incoming c)) ++
    (stream.frames.filter fun raw => raw.conversationID = c).map fromFrame

/-- Messages that are on the current connection. -/
def travelling (live : LiveState) (socket : Option ℕ) (c : Uuid) : List ChatMessageDto :=
  match socket.bind live.stream? with
  | some (_, stream) => carried stream c
  | none => []

/-- Messages of the conversation that are on their way to the page. -/
def onItsWay (live : LiveState) (socket : Option ℕ) (c : Uuid) : List ChatMessageDto :=
  announced live.service c ++ started live.service.state c ++ travelling live socket c

/-- Redis delivers a publish of the conversation to the current connection. -/
def Listening (live : LiveState) (socket : Option ℕ) (c : Uuid) : Prop :=
  match socket.bind live.stream? with
  | some (_, stream) => Reached c stream
  | none => False

instance (live : LiveState) (socket : Option ℕ) (c : Uuid) : Decidable (Listening live socket c) := by
  unfold Listening
  split <;> infer_instance

/-- The messages that a step takes off their way: a save whose reply is lost is
never announced, a thread dies before its publish, a publish fails or finds no
confirmed subscription of the page, or the current connection breaks. -/
def lettingGo (live : LiveState) (socket : Option ℕ) (c : Uuid) : LiveLabel → List ChatMessageDto
  | .service (.turn t (.lost choice _)) =>
    match live.service.threads[t]? with
    | some ⟨_, .call (.messageSave m) _⟩ =>
      if m.conversationID = c then
        [toMessageDto { m with id := choice.uuid, createdAt := choice.now }]
      else []
    | _ => []
  | .service (.crash t _) => (live.service.threads[t]?.bind (announcedBy c)).toList
  | .publish k succeeds =>
    match live.service.state.publishing[k]? with
    | some p =>
      if p.conversationID = c ∧ ¬(succeeds = true ∧ Listening live socket c) then
        [incoming c p.event]
      else []
    | none => []
  | .disconnect i => if socket = some i then travelling live socket c else []
  | _ => []

theorem mem_saved {d : ChatDb} {c : Uuid} {v : ChatMessageDto} :
    v ∈ saved d c ↔ ∃ m ∈ d.messages, m.conversationID = c ∧ toMessageDto m = v := by
  simp [saved, and_assoc]

theorem mem_announced {service : Service} {c : Uuid} {v : ChatMessageDto} :
    v ∈ announced service c ↔ ∃ (t : ℕ) (th : _), service.threads[t]? = some th ∧ announcedBy c th = some v := by
  unfold announced
  rw [List.mem_filterMap]
  constructor
  · rintro ⟨th, hth, hv⟩
    obtain ⟨t, ht⟩ := List.mem_iff_getElem?.mp hth
    exact ⟨t, th, ht, hv⟩
  · rintro ⟨t, th, ht, hv⟩
    exact ⟨th, List.mem_of_getElem? ht, hv⟩

theorem mem_started {st : ChatState} {c : Uuid} {v : ChatMessageDto} :
    v ∈ started st c ↔ ∃ p ∈ st.publishing, p.conversationID = c ∧ incoming c p.event = v := by
  simp [started, and_assoc]

theorem mem_carried {stream : Stream} {c : Uuid} {v : ChatMessageDto} :
    v ∈ carried stream c ↔
      (∃ sub ∈ stream.subscriptions, sub.conversationID = c ∧ ∃ e ∈ sub.events, incoming c e = v) ∨
      ∃ raw ∈ stream.frames, raw.conversationID = c ∧ fromFrame raw = v := by
  simp [carried, and_assoc]

theorem mem_travelling {live : LiveState} {socket : Option ℕ} {c : Uuid} {v : ChatMessageDto} :
    v ∈ travelling live socket c ↔
      ∃ i claims stream, socket = some i ∧ live.stream? i = some (claims, stream) ∧
        v ∈ carried stream c := by
  unfold travelling
  cases socket with
  | none => simp
  | some i =>
    rw [Option.bind_some]
    split
    · rename_i claims stream hi
      constructor
      · exact fun hv => ⟨i, claims, stream, rfl, hi, hv⟩
      · rintro ⟨j, claims', stream', hj, hj', hv⟩
        cases hj
        cases hi.symm.trans hj'
        exact hv
    · rename_i hnone
      constructor
      · intro hv
        cases hv
      · rintro ⟨j, claims', stream', hj, hj', -⟩
        cases hj
        cases hnone.symm.trans hj'

theorem mem_onItsWay {live : LiveState} {socket : Option ℕ} {c : Uuid} {v : ChatMessageDto} :
    v ∈ onItsWay live socket c ↔ v ∈ announced live.service c ∨
      v ∈ started live.service.state c ∨ v ∈ travelling live socket c := by
  simp [onItsWay]

/-- What is carried to the current connection is carried on when each connection
that changes carries it on. -/
theorem travelling_setStage {live : LiveState} {socket : Option ℕ} {c : Uuid} {v : ChatMessageDto}
    {i : ℕ} {claims : UserClaims} {stage : SocketStage} (hv : v ∈ travelling live socket c)
    (hkeep : ∀ claims' stream, live.stream? i = some (claims', stream) → socket = some i →
      v ∈ carried stream c → ∃ stream', stage = .streaming stream' ∧ v ∈ carried stream' c) :
    v ∈ travelling (live.setStage i claims stage) socket c := by
  obtain ⟨j, claims', stream, rfl, hj, hcarried⟩ := mem_travelling.mp hv
  have hsocket := stream?_eq_some.mp hj
  by_cases hij : i = j
  · subst hij
    obtain ⟨stream', rfl, hv'⟩ := hkeep claims' stream hj rfl hcarried
    have hlt : i < live.sockets.length := (List.getElem?_eq_some_iff.mp hsocket).1
    have hself : (live.setStage i claims (.streaming stream')).stream? i = some (claims, stream') :=
      stream?_eq_some.mpr (List.getElem?_set_self hlt)
    exact mem_travelling.mpr ⟨i, claims, stream', rfl, hself, hv'⟩
  · have hother : (live.setStage i claims stage).stream? j = some (claims', stream) :=
      stream?_eq_some.mpr ((List.getElem?_set_ne hij).trans hsocket)
    exact mem_travelling.mpr ⟨j, claims', stream, rfl, hother, hcarried⟩

/-- A new connection changes no other. -/
theorem travelling_accept {live : LiveState} {socket : Option ℕ} {c : Uuid} {v : ChatMessageDto}
    (new : Socket) (hv : v ∈ travelling live socket c) :
    v ∈ travelling { live with sockets := live.sockets ++ [new] } socket c := by
  obtain ⟨i, claims, stream, rfl, hi, hv⟩ := mem_travelling.mp hv
  have hsocket := stream?_eq_some.mp hi
  have hlt : i < live.sockets.length := (List.getElem?_eq_some_iff.mp hsocket).1
  have hnew : LiveState.stream? { live with sockets := live.sockets ++ [new] } i =
      some (claims, stream) :=
    stream?_eq_some.mpr ((List.getElem?_append_left hlt).trans hsocket)
  exact mem_travelling.mpr ⟨i, claims, stream, rfl, hnew, hv⟩

/-- The stream of a connection after a delivery. -/
theorem stream?_deliver {live live' : LiveState} {p : Publication} {i : ℕ} {claims : UserClaims}
    {stream : Stream} (hlive : live'.sockets = live.sockets.map (Socket.deliver p))
    (hi : live.stream? i = some (claims, stream)) :
    live'.stream? i = some (claims, { stream with
      subscriptions := stream.subscriptions.map (Subscription.deliver p) }) := by
  have hsocket := stream?_eq_some.mp hi
  refine stream?_eq_some.mpr ?_
  rw [hlive, List.getElem?_map, hsocket]
  rfl

/-- A delivery takes nothing from a connection. -/
theorem carried_deliver {stream : Stream} {p : Publication} {c : Uuid} {v : ChatMessageDto}
    (hv : v ∈ carried stream c) : v ∈ carried { stream with
      subscriptions := stream.subscriptions.map (Subscription.deliver p) } c := by
  obtain ⟨sub, hsub, hconv, e, he, rfl⟩ | hframe := mem_carried.mp hv
  · refine mem_carried.mpr (Or.inl ⟨sub.deliver p, List.mem_map_of_mem hsub, ?_, e, ?_, rfl⟩)
    · unfold Subscription.deliver
      split <;> exact hconv
    · unfold Subscription.deliver
      split
      · exact List.mem_append_left _ he
      · exact he
  · exact mem_carried.mpr (Or.inr hframe)

/-- A delivery reaches a connection with a confirmed subscription. -/
theorem mem_carried_deliver {stream : Stream} {p : Publication} (h : Reached p.conversationID stream) :
    incoming p.conversationID p.event ∈ carried { stream with
      subscriptions := stream.subscriptions.map (Subscription.deliver p) } p.conversationID := by
  obtain ⟨sub, hsub, hconfirmed, hconv⟩ := h
  have hdeliver : sub.deliver p = { sub with events := sub.events ++ [p.event] } :=
    if_pos ⟨hconfirmed, hconv⟩
  refine mem_carried.mpr (Or.inl ⟨sub.deliver p, List.mem_map_of_mem hsub, ?_, p.event, ?_, rfl⟩)
  · rw [hdeliver]
    exact hconv
  · rw [hdeliver]
    exact List.mem_append_right _ List.mem_cons_self

/-- When a subscription is replaced by one that carries the same, nothing is lost. -/
theorem carried_set {stream : Stream} {c : Uuid} {v : ChatMessageDto} {j : ℕ}
    {old new : Subscription} {frames : List OutboundMessage}
    (hj : stream.subscriptions[j]? = some old) (hconv : new.conversationID = old.conversationID)
    (hevents : ∀ e ∈ old.events, e ∈ new.events ∨
      (toFrame old.conversationID e.message) ∈ frames)
    (hframes : ∀ raw ∈ stream.frames, raw ∈ frames) (hv : v ∈ carried stream c) :
    v ∈ carried { stream with subscriptions := stream.subscriptions.set j new, frames } c := by
  obtain ⟨sub, hsub, hsubconv, e, he, rfl⟩ | ⟨raw, hraw, hrawconv, rfl⟩ := mem_carried.mp hv
  · obtain ⟨i, hi⟩ := List.mem_iff_getElem?.mp hsub
    by_cases hij : j = i
    · subst hij
      cases hj.symm.trans hi
      obtain hnew | hframe := hevents e he
      · have hlt : j < stream.subscriptions.length := (List.getElem?_eq_some_iff.mp hj).1
        have hmem : new ∈ stream.subscriptions.set j new := List.mem_set hlt new
        exact mem_carried.mpr (Or.inl ⟨new, hmem, hconv.trans hsubconv, e, hnew, rfl⟩)
      · rw [hsubconv] at hframe
        exact mem_carried.mpr (Or.inr ⟨_, hframe, rfl, rfl⟩)
    · have hmem : sub ∈ stream.subscriptions.set j new :=
        List.mem_of_getElem? ((List.getElem?_set_ne hij).trans hi)
      exact mem_carried.mpr (Or.inl ⟨sub, hmem, hsubconv, e, he, rfl⟩)
  · exact mem_carried.mpr (Or.inr ⟨raw, hframes raw hraw, hrawconv, rfl⟩)

/-- The service of a pool step: what a thread announces is announced still, its
publish is started, or the thread has died. -/
theorem announced_service_step {service service' : Service} {l : ServiceLabel} {c : Uuid}
    {v : ChatMessageDto} (h : Service.step service l = some service') (hv : v ∈ announced service c) :
    v ∈ announced service' c ∨ v ∈ started service'.state c ∨
      ∃ t e, l = .crash t e ∧ v ∈ (service.threads[t]?.bind (announcedBy c)).toList := by
  obtain ⟨j, th, hj, hth⟩ := mem_announced.mp hv
  cases l with
  | start r =>
    cases h
    have hlt : j < service.threads.length := (List.getElem?_eq_some_iff.mp hj).1
    exact Or.inl (mem_announced.mpr ⟨j, th, (List.getElem?_append_left hlt).trans hj, hth⟩)
  | turn t answer =>
    obtain ⟨r, op, next, ht, hadmits, rfl⟩ := Pool.step_turn h
    by_cases htj : t = j
    · subst htj
      cases ht.symm.trans hj
      -- only a thread whose next call is the publish announces anything
      cases op with
      | goPublish conv event =>
        cases answer with
        | serve choice =>
          refine Or.inr (Or.inl (mem_started.mpr ⟨⟨conv, event⟩, ?_, ?_⟩))
          · exact List.mem_append_right _ List.mem_cons_self
          · simp only [announcedBy] at hth
            split at hth
            · rename_i hconv
              cases hth
              exact ⟨hconv, rfl⟩
            · cases hth
        | drop e => cases hadmits
        | lost choice e => cases hadmits
      | _ => cases hth
    · exact Or.inl (mem_announced.mpr ⟨j, th, (List.getElem?_set_ne htj).trans hj, hth⟩)
  | crash t e =>
    obtain ⟨r, op, next, ht, rfl⟩ := Pool.step_crash h
    by_cases htj : t = j
    · subst htj
      refine Or.inr (Or.inr ⟨t, e, rfl, ?_⟩)
      rw [hj, Option.bind_some, hth]
      exact List.mem_singleton_self v
    · exact Or.inl (mem_announced.mpr ⟨j, th, (List.getElem?_set_ne htj).trans hj, hth⟩)

/-- No call of the service takes a started publish back. -/
theorem publishing_answer (op : ServiceCall) (t : Turn Choice GoError) (s : ChatState) :
    ∀ p ∈ s.publishing, p ∈ (chatMachine.answer op t s).2.publishing := by
  have hwrite : ∀ {α : Type} (label : String) (r : Except GoError (α × ChatDb)),
      ∀ p ∈ s.publishing, p ∈ (commitWrite label s r).2.publishing := by
    intro α label r p hp
    rw [commitWrite_publishing]
    exact hp
  obtain hsame | ⟨choice, hexec⟩ := chatMachine.answer_state op t s
  · rw [hsame]
    exact fun p hp => hp
  · rw [hexec]
    refine (?_ : ∀ p ∈ s.publishing, p ∈ (op.exec choice s).2.publishing)
    cases op with
    | goPublish conv event => exact fun p hp => List.mem_append_left _ hp
    | workspaceCreate w => exact hwrite _ _
    | memberUpsert m => exact hwrite _ _
    | memberUpdateAccess w q b => exact hwrite _ _
    | messageSave m => exact hwrite _ _
    | conversationCreate conv => exact hwrite _ _
    | conversationAddParticipant q => exact hwrite _ _
    | _ => exact fun p hp => hp

/-- A started publish stays started in the steps of the service. -/
theorem started_service_step {service service' : Service} {l : ServiceLabel} {c : Uuid}
    {v : ChatMessageDto} (h : Service.step service l = some service')
    (hv : v ∈ started service.state c) : v ∈ started service'.state c := by
  obtain ⟨p, hp, hconv, rfl⟩ := mem_started.mp hv
  obtain ⟨hsame, -⟩ | ⟨t, answer, r, op, next, -, -, hstate⟩ := Pool.step_state h
  · rw [hsame]
    exact hv
  · rw [hstate]
    exact mem_started.mpr ⟨p, publishing_answer op answer service.state p hp, hconv, rfl⟩

/-- After a save the program announces the saved row. -/
def Announces {α : Type} : ServiceProgram α → Prop
  | .ret _ => True
  | .call (.messageSave m) next =>
    (∀ row, ∃ rest, next (.ok row) = .call (.goPublish m.conversationID ⟨row⟩) rest) ∧
      ∀ r, Announces (next r)
  | .call _ next => ∀ r, Announces (next r)

/-- A program that saves no message announces all it saves. -/
theorem announces_of_allOps {α : Type} {p : ServiceProgram α}
    (h : p.AllOps fun op => ∀ m, op ≠ ServiceCall.messageSave m) : Announces p := by
  induction p with
  | ret r => trivial
  | call op next ih =>
    cases op with
    | messageSave m => exact absurd rfl (h.1 m)
    | _ => exact fun r => ih r (h.2 r)

/-- Whatever is left of an announcing program announces. -/
theorem Announces.next {α : Type} {op : ServiceCall}
    {next : Except GoError op.Reply → ServiceProgram α} (h : Announces (.call op next))
    (r : Except GoError op.Reply) : Announces (next r) := by
  cases op with
  | messageSave m => exact h.2 r
  | _ => exact h r

/-- Wrapping a result announces nothing and hides nothing. -/
theorem Announces.map {α β : Type} (f : α → β) {p : ServiceProgram α} (h : Announces p) :
    Announces (f <$> p) := by
  induction p with
  | ret r => cases r <;> trivial
  | call op next ih =>
    cases op with
    | messageSave m =>
      refine ⟨fun row => ?_, fun r => ih r (h.2 r)⟩
      obtain ⟨rest, hrest⟩ := h.1 row
      refine ⟨fun r => f <$> rest r, ?_⟩
      refine (?_ : f <$> next (.ok row) = _)
      rw [hrest]
      rfl
    | _ => exact fun r => ih r (h r)

/-- `SendMessage` announces what it saves. -/
theorem announces_sendMessage (stamps : ℕ → Stamp) (w c person : Uuid) (name content : String) :
    Announces (MessagingService.sendMessage stamps w c person name content) := by
  unfold MessagingService.sendMessage
  rw [Program.perform_bind]
  refine fun member => ?_
  cases member with
  | error e => trivial
  | ok member =>
    dsimp only
    rw [Program.ret_ok_bind]
    split
    · trivial
    · rw [Program.ofExcept_eq]
      cases hm : newMessage (stamps 0) w c person name content with
      | error e => trivial
      | ok m =>
        obtain ⟨-, -, -, -, rfl⟩ := newMessage_ok.mp hm
        rw [Program.ret_ok_bind, Program.perform_bind]
        refine ⟨fun row => ⟨_, rfl⟩, fun saved => ?_⟩
        cases saved with
        | error e => trivial
        | ok saved =>
          intro published
          cases published <;> trivial

/-- Every request announces what it saves. -/
theorem body_announces (r : Request) : Announces (body r) := by
  obtain ⟨call, stamps⟩ := r
  have hmakes := body_makes ⟨call, stamps⟩
  by_cases hsend : ∃ w c person name content, call = .sendMessage w c person name content
  · obtain ⟨w, c, person, name, content, rfl⟩ := hsend
    exact (announces_sendMessage stamps w c person name content).map _
  · refine announces_of_allOps (hmakes.mono fun op hop m hm => ?_)
    subst hm
    cases hop
    exact hsend ⟨_, _, _, _, _, rfl⟩

/-- All threads announce what they save, in every step of the service. -/
theorem service_announces {service service' : Service} {l : ServiceLabel}
    (hs : service.Each fun _ _ _ q => Announces q) (h : Service.step service l = some service') :
    service'.Each fun _ _ _ q => Announces q := by
  obtain ⟨_, -, hL⟩ := Pool.step_modular (M := chatMachine)
    (fun (_ : Unit) _ => True) (fun _ _ _ _ q => Announces q) (fun _ _ r _ _ => body_announces r)
    (fun _ _ _ _ _ _ _ _ => trivial)
    (fun _ _ _ _ _ _ _ _ hq => ⟨(), trivial, hq.next _, fun _ _ _ _ hq' => hq'⟩)
    ⟨(), trivial, hs⟩ h
  exact hL

/-- A message that a step of the service saves is announced, or the reply to its
save is lost. -/
theorem saved_service_step {service service' : Service} {l : ServiceLabel} {c : Uuid}
    {v : ChatMessageDto} (hs : service.Each fun _ _ _ q => Announces q)
    (h : Service.step service l = some service') (hv : v ∈ saved service'.state.db c) :
    v ∈ saved service.state.db c ∨ v ∈ announced service' c ∨
      ∃ t choice e r m next, l = .turn t (.lost choice e) ∧
        service.threads[t]? = some ⟨r, .call (.messageSave m) next⟩ ∧ m.conversationID = c ∧
        v = toMessageDto { m with id := choice.uuid, createdAt := choice.now } := by
  obtain ⟨row, hrow, hconv, rfl⟩ := mem_saved.mp hv
  have hold : row ∈ service.state.db.messages → toMessageDto row ∈ saved service.state.db c :=
    fun hmem => mem_saved.mpr ⟨row, hmem, hconv, rfl⟩
  cases l with
  | start r =>
    cases h
    exact Or.inl (hold hrow)
  | crash t e =>
    obtain ⟨r, op, next, -, rfl⟩ := Pool.step_crash h
    exact Or.inl (hold hrow)
  | turn t answer =>
    obtain ⟨r, op, next, ht, -, rfl⟩ := Pool.step_turn h
    cases hchoice : answer.choice? with
    | none =>
      have hsame := chatMachine.answer_state_none op service.state hchoice
      rw [hsame] at hrow
      exact Or.inl (hold hrow)
    | some choice =>
      have hexec := chatMachine.answer_state_some op service.state hchoice
      rw [hexec] at hrow
      obtain hmem | ⟨m, rfl, hnew⟩ := (exec_effect op choice service.state).message_new hrow
      · exact Or.inl (hold hmem)
      by_cases hmem : row ∈ service.state.db.messages
      · exact Or.inl (hold hmem)
      have hmc : m.conversationID = c := by
        rw [hnew] at hconv
        exact hconv
      cases answer with
      | drop e => cases hchoice
      | lost choice' e =>
        cases hchoice
        refine Or.inr (Or.inr ⟨t, choice, e, r, m, next, rfl, ht, hmc, ?_⟩)
        rw [hnew]
      | serve choice' =>
        cases hchoice
        refine Or.inr (Or.inl ?_)
        -- the row is new, so the save has succeeded with it
        have hsave : ServiceCall.exec (.messageSave m) choice service.state =
            commitWrite "save message" service.state (service.state.db.insertMessage choice m) := rfl
        have hreply : (ServiceCall.exec (.messageSave m) choice service.state).1 = .ok row := by
          obtain ⟨a, d, hr, hc⟩ | ⟨e, hr, hc⟩ := commitWrite_cases "save message" service.state
            (service.state.db.insertMessage choice m)
          · obtain ⟨-, -, -, ha, -⟩ := insertMessage_ok_iff.mp hr
            rw [hsave, hc, ha, hnew]
          · have hstored : row ∈ (ServiceCall.exec (.messageSave m) choice
                service.state).2.db.messages := hrow
            rw [hsave, hc] at hstored
            exact absurd hstored hmem
        obtain ⟨rest, hrest⟩ := (hs t _ ht).1 row
        have hlt : t < service.threads.length := (List.getElem?_eq_some_iff.mp ht).1
        refine mem_announced.mpr ⟨t, _, List.getElem?_set_self hlt, ?_⟩
        refine (?_ : announcedBy c ⟨r, next (ServiceCall.exec (.messageSave m) choice
          service.state).1⟩ = some (toMessageDto row))
        rw [hreply, hrest]
        simp only [announcedBy, hmc, if_true]
        rw [← hconv, incoming_eq]

/-- The connections in a step that is not a delivery: what is carried to the
page is carried on, unless its connection breaks. -/
theorem travelling_step {live live' : LiveState} {l : LiveLabel} {socket : Option ℕ} {c : Uuid}
    {v : ChatMessageDto} (h : LiveState.step live l = some live')
    (hv : v ∈ travelling live socket c) :
    v ∈ travelling live' socket c ∨ v ∈ lettingGo live socket c l := by
  -- a connection that is not upgraded carries nothing
  have early : ∀ {i claims stage stage'}, live.sockets[i]? = some ⟨claims, stage⟩ →
      (∀ stream, stage ≠ .streaming stream) →
      v ∈ travelling (live.setStage i claims stage') socket c := by
    intro i claims stage stage' hi hstage
    refine travelling_setStage hv fun claims' stream hstream _ _ => ?_
    cases hi.symm.trans (stream?_eq_some.mp hstream)
    exact absurd rfl (hstage stream)
  cases LiveState.stepped h with
  | service hstep => exact Or.inl hv
  | accepted hbu => exact Or.inl (travelling_accept _ hv)
  | refused hbu => exact Or.inl hv
  | resolved hi => exact Or.inl (early hi (by rintro stream ⟨⟩))
  | listed hi => exact Or.inl (early hi (by rintro stream ⟨⟩))
  | upgraded hi => exact Or.inl (early hi (by rintro stream ⟨⟩))
  | subscribed hi hwaiting =>
    refine Or.inl (travelling_setStage hv fun claims' stream' hi' _ hcarried => ⟨_, rfl, ?_⟩)
    cases hi.symm.trans hi'
    obtain ⟨sub, hsub, hrest⟩ | hframe := mem_carried.mp hcarried
    · refine mem_carried.mpr (Or.inl ⟨sub, ?_, hrest⟩)
      dsimp only
      split
      · exact List.mem_append_left _ hsub
      · exact hsub
    · exact mem_carried.mpr (Or.inr hframe)
  | confirmed hi hj =>
    refine Or.inl (travelling_setStage hv fun claims' stream' hi' _ hcarried => ⟨_, rfl, ?_⟩)
    cases hi.symm.trans hi'
    exact carried_set hj rfl (fun e he => Or.inl he) (fun raw hraw => hraw) hcarried
  | @published k succeeds p hp =>
    refine Or.inl ?_
    cases succeeds with
    | false => exact hv
    | true =>
      obtain ⟨i, claims, stream, rfl, hi, hcarried⟩ := mem_travelling.mp hv
      exact mem_travelling.mpr ⟨i, claims, _, rfl, stream?_deliver rfl hi, carried_deliver hcarried⟩
  | written hi hj =>
    refine Or.inl (travelling_setStage hv fun claims' stream' hi' _ hcarried => ⟨_, rfl, ?_⟩)
    cases hi.symm.trans hi'
    refine carried_set hj rfl (fun e he => ?_) (fun raw hraw => List.mem_append_left _ hraw) hcarried
    obtain rfl | he := List.mem_cons.mp he
    · exact Or.inr (List.mem_append_right _ (List.mem_singleton_self _))
    · exact Or.inl he
  | received hi hidle hstep =>
    refine Or.inl (travelling_setStage hv fun claims' stream' hi' _ hcarried => ⟨_, rfl, ?_⟩)
    cases hi.symm.trans hi'
    exact hcarried
  | @disconnected i claims stream hi =>
    by_cases hcurrent : socket = some i
    · refine Or.inr ?_
      rw [lettingGo, if_pos hcurrent]
      exact hv
    · exact Or.inl (travelling_setStage hv fun _ _ _ hsocket _ => absurd hsocket hcurrent)

/-- Every thread announces what it saves, in every step. -/
theorem live_announces {live live' : LiveState} {l : LiveLabel}
    (hs : live.service.Each fun _ _ _ q => Announces q) (h : LiveState.step live l = some live') :
    live'.service.Each fun _ _ _ q => Announces q := by
  obtain ⟨sl, -, hstep⟩ | ⟨k, succeeds, p, -, -, hservice, -⟩ | hservice := live_step_service h
  · exact service_announces hs hstep
  · rw [hservice]
    exact hs
  · rw [hservice]
    exact hs

/-- An announced message stays announced, its publish is started, or its thread
dies. -/
theorem announced_step {live live' : LiveState} {l : LiveLabel} (socket : Option ℕ) {c : Uuid}
    {v : ChatMessageDto} (h : LiveState.step live l = some live')
    (hv : v ∈ announced live.service c) :
    v ∈ announced live'.service c ∨ v ∈ started live'.service.state c ∨
      v ∈ lettingGo live socket c l := by
  obtain ⟨sl, hl, hstep⟩ | ⟨k, succeeds, p, -, -, hservice, -⟩ | hservice := live_step_service h
  · obtain hannounced | hstarted | ⟨t, e, rfl, hcrash⟩ := announced_service_step hstep hv
    · exact Or.inl hannounced
    · exact Or.inr (Or.inl hstarted)
    · obtain rfl | ⟨r, hr⟩ := hl
      · exact Or.inr (Or.inr hcrash)
      · cases hr
  · rw [hservice]
    exact Or.inl hv
  · rw [hservice]
    exact Or.inl hv

/-- A started publish stays started, reaches the page, or is let go. -/
theorem started_step {live live' : LiveState} {l : LiveLabel} (socket : Option ℕ) {c : Uuid}
    {v : ChatMessageDto} (h : LiveState.step live l = some live')
    (hv : v ∈ started live.service.state c) :
    v ∈ started live'.service.state c ∨ v ∈ travelling live' socket c ∨
      v ∈ lettingGo live socket c l := by
  obtain ⟨sl, -, hstep⟩ | ⟨k, succeeds, p, rfl, hp, hservice, hsockets⟩ | hservice :=
    live_step_service h
  · exact Or.inl (started_service_step hstep hv)
  · obtain ⟨q, hq, hconv, rfl⟩ := mem_started.mp hv
    obtain ⟨j, hj⟩ := List.mem_iff_getElem?.mp hq
    by_cases hjk : j = k
    · subst hjk
      cases hp.symm.trans hj
      by_cases hreach : succeeds = true ∧ Listening live socket c
      · obtain ⟨rfl, hlistening⟩ := hreach
        refine Or.inr (Or.inl ?_)
        unfold Listening at hlistening
        split at hlistening
        · rename_i claims stream hi
          obtain ⟨i, rfl, hstream⟩ := Option.bind_eq_some_iff.mp hi
          subst hconv
          exact mem_travelling.mpr ⟨i, claims, _, rfl, stream?_deliver hsockets hstream,
            mem_carried_deliver hlistening⟩
        · exact hlistening.elim
      · refine Or.inr (Or.inr ?_)
        simp only [lettingGo, hp, if_pos (And.intro hconv hreach)]
        exact List.mem_singleton_self _
    · refine Or.inl (mem_started.mpr ⟨q, ?_, hconv, rfl⟩)
      rw [hservice]
      exact List.mem_eraseIdx_iff_getElem?.mpr ⟨j, hjk, hj⟩
  · rw [hservice]
    exact Or.inl hv

/-- A message that is on its way stays on its way or is let go. -/
theorem onItsWay_step {live live' : LiveState} {l : LiveLabel} {socket : Option ℕ} {c : Uuid}
    {v : ChatMessageDto} (h : LiveState.step live l = some live')
    (hv : v ∈ onItsWay live socket c) :
    v ∈ onItsWay live' socket c ∨ v ∈ lettingGo live socket c l := by
  obtain hannounced | hstarted | htravelling := mem_onItsWay.mp hv
  · obtain h₁ | h₂ | h₃ := announced_step socket h hannounced
    · exact Or.inl (mem_onItsWay.mpr (Or.inl h₁))
    · exact Or.inl (mem_onItsWay.mpr (Or.inr (Or.inl h₂)))
    · exact Or.inr h₃
  · obtain h₁ | h₂ | h₃ := started_step socket h hstarted
    · exact Or.inl (mem_onItsWay.mpr (Or.inr (Or.inl h₁)))
    · exact Or.inl (mem_onItsWay.mpr (Or.inr (Or.inr h₂)))
    · exact Or.inr h₃
  · obtain h₁ | h₂ := travelling_step h htravelling
    · exact Or.inl (mem_onItsWay.mpr (Or.inr (Or.inr h₁)))
    · exact Or.inr h₂

/-- A message that a step saves is on its way or is let go. -/
theorem saved_step {live live' : LiveState} {l : LiveLabel} (socket : Option ℕ) {c : Uuid}
    {v : ChatMessageDto} (hs : live.service.Each fun _ _ _ q => Announces q)
    (h : LiveState.step live l = some live') (hv : v ∈ saved live'.db c) :
    v ∈ saved live.db c ∨ v ∈ onItsWay live' socket c ∨ v ∈ lettingGo live socket c l := by
  obtain ⟨sl, hl, hstep⟩ | ⟨k, succeeds, p, -, -, hservice, -⟩ | hservice := live_step_service h
  · obtain hold | hannounced | ⟨t, choice, e, r, m, next, rfl, ht, hconv, rfl⟩ :=
      saved_service_step hs hstep hv
    · exact Or.inl hold
    · exact Or.inr (Or.inl (mem_onItsWay.mpr (Or.inl hannounced)))
    · obtain rfl | ⟨r', hr⟩ := hl
      · refine Or.inr (Or.inr ?_)
        simp only [lettingGo, ht, if_pos hconv]
        exact List.mem_singleton_self _
      · cases hr
  · unfold LiveState.db at hv
    rw [hservice] at hv
    exact Or.inl hv
  · unfold LiveState.db at hv
    rw [hservice] at hv
    exact Or.inl hv

end AuraWellness.Frontend.Pipeline
