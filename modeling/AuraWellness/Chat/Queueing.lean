import AuraWellness.Lib.Conduit
import AuraWellness.Chat.WindDown

/-!
# A subscription as one queue

The writer, the forwarder, the channel of events and the receiver of a subscription are
a chain of stages: Redis' payloads enter at the receiver, as the frames that belong to
their events, and the writer lets the frames out. Every goroutine may return at any time
once the context is done, and the writer when a write fails.
-/

namespace AuraWellness.Chat.Queueing

open AuraWellness.Lib.Transition AuraWellness.Lib.Conduit
open AuraWellness.Chat.Entities AuraWellness.Chat.Repositories AuraWellness.Chat.Live
open AuraWellness.Chat.Sessions AuraWellness.Chat.WindDown

/-- The frame of an event from the subscription to a conversation. -/
def eventFrame (conversationID : Uuid) (event : MessageEvent) : OutboundMessage :=
  toFrame conversationID event.message

/-- The frames in a writer. -/
def writerHeld : Writer → List OutboundMessage
  | .locking frame | .writing frame => [frame]
  | .receiving | .ended => []

/-- The frames of the message in a forwarder. -/
def forwarderHeld (conversationID : Uuid) : Forwarder → List OutboundMessage
  | .handing msg => [toFrame conversationID msg]
  | .receiving | .ended => []

/-- The frames of the event in a receiver. -/
def receiverHeld (conversationID : Uuid) : Receiver → List OutboundMessage
  | .queueing event => [eventFrame conversationID event]
  | .receiving | .ended => []

/-- The stages of a subscription, from the connection back to Redis. -/
def stages (p : Pipeline) : List (Stage OutboundMessage) :=
  [⟨p.writer ≠ .ended, writerHeld p.writer⟩,
    ⟨p.forwarder ≠ .ended, forwarderHeld p.conversationID p.forwarder⟩,
    ⟨true, p.outCh.map (eventFrame p.conversationID)⟩,
    ⟨p.receiver ≠ .ended, receiverHeld p.conversationID p.receiver⟩]

/-- The well-formed events that Redis has delivered, in order. -/
def deliveredEvents (unmarshal : String → Option MessageEvent) (p : Pipeline) :
    List MessageEvent :=
  p.delivered.filterMap unmarshal

/-- The frames of the delivered events. -/
def deliveredFrames (unmarshal : String → Option MessageEvent) (p : Pipeline) :
    List OutboundMessage :=
  (deliveredEvents unmarshal p).map (eventFrame p.conversationID)

/-- The stages behave as one queue. -/
def Queued (unmarshal : String → Option MessageEvent) (p : Pipeline) : Prop :=
  Sound (stages p) p.written (deliveredFrames unmarshal p)

/-- A subscription begins empty. -/
theorem queued_start (unmarshal : String → Option MessageEvent) (conversationID : Uuid) :
    Queued unmarshal (Pipeline.start conversationID) :=
  sound_empty (by simp [stages, Pipeline.start, writerHeld, forwarderHeld, receiverHeld])

/-- What happens behind the writer, the forwarder and the channel. -/
theorem sound_receiver {writer forwarder outCh receiver receiver' : Stage OutboundMessage}
    {out entered entered' : List OutboundMessage}
    (h : Sound [writer, forwarder, outCh, receiver] out entered) (hgrows : entered <+: entered')
    (hreceiver : ∀ out, Sound [receiver] out entered → Sound [receiver'] out entered') :
    Sound [writer, forwarder, outCh, receiver'] out entered' :=
  h.behind hgrows fun _ h => h.behind hgrows fun _ h => h.behind hgrows hreceiver

/-- A payload enters when it is well-formed, and else nothing changes. -/
theorem queued_payload {unmarshal : String → Option MessageEvent} {p : Pipeline}
    (hp : Queued unmarshal p) (hreceiving : p.receiver = .receiving) (text : String) :
    Queued unmarshal { p with
      delivered := p.delivered ++ [text]
      receiver := match unmarshal text with
        | some event => .queueing event
        | none => .receiving } := by
  have hframes : deliveredFrames unmarshal { p with
      delivered := p.delivered ++ [text]
      receiver := match unmarshal text with
        | some event => .queueing event
        | none => .receiving } = deliveredFrames unmarshal p ++
          ((unmarshal text).toList.map (eventFrame p.conversationID)) := by
    cases h : unmarshal text <;> simp [deliveredFrames, deliveredEvents, h]
  unfold Queued at hp ⊢
  rw [hframes]
  refine sound_receiver hp (List.prefix_append _ _) fun out h => ?_
  cases hevent : unmarshal text with
  | none => simpa [hreceiving, hevent] using h
  | some event =>
    have henter := h.enter (eventFrame p.conversationID event)
    simpa [hreceiving, hevent, receiverHeld] using henter

/-- The receiver sends its event. -/
theorem queued_queue {unmarshal : String → Option MessageEvent} {p : Pipeline}
    {event : MessageEvent} (hp : Queued unmarshal p) (hqueueing : p.receiver = .queueing event) :
    Queued unmarshal { p with receiver := .receiving, outCh := p.outCh ++ [event] } := by
  refine hp.behind List.prefix_rfl fun _ h => h.behind List.prefix_rfl fun out h => ?_
  have hpass : Sound [⟨true, p.outCh.map (eventFrame p.conversationID)⟩,
      ⟨true, [eventFrame p.conversationID event]⟩] out (deliveredFrames unmarshal p) := by
    simpa [hqueueing, receiverHeld] using h
  simpa [receiverHeld, deliveredFrames, deliveredEvents] using hpass.pass

/-- The forwarder takes an event. -/
theorem queued_take {unmarshal : String → Option MessageEvent} {p : Pipeline}
    {event : MessageEvent} {outCh : List MessageEvent} (hp : Queued unmarshal p)
    (hreceiving : p.forwarder = .receiving) (houtCh : p.outCh = event :: outCh) :
    Queued unmarshal { p with forwarder := .handing event.message, outCh } := by
  refine hp.behind List.prefix_rfl fun out h => ?_
  have hpass : Sound [⟨true, []⟩, ⟨true, eventFrame p.conversationID event ::
      outCh.map (eventFrame p.conversationID)⟩,
      ⟨p.receiver ≠ .ended, receiverHeld p.conversationID p.receiver⟩] out
      (deliveredFrames unmarshal p) := by
    simpa [hreceiving, houtCh, forwarderHeld] using h
  exact hpass.pass

/-- The forwarder hands its message to the writer. -/
theorem queued_hand {unmarshal : String → Option MessageEvent} {p : Pipeline} {msg : ChatMessage}
    (hp : Queued unmarshal p) (hhanding : p.forwarder = .handing msg)
    (hreceiving : p.writer = .receiving) :
    Queued unmarshal { p with
      forwarder := .receiving
      writer := .locking (toFrame p.conversationID msg) } := by
  have hpass : Sound [⟨true, []⟩, ⟨true, [toFrame p.conversationID msg]⟩,
      ⟨true, p.outCh.map (eventFrame p.conversationID)⟩,
      ⟨p.receiver ≠ .ended, receiverHeld p.conversationID p.receiver⟩] p.written
      (deliveredFrames unmarshal p) := by
    simpa [Queued, stages, hhanding, hreceiving, forwarderHeld, writerHeld] using hp
  exact hpass.pass

/-- The writer has written its frame. -/
theorem queued_written {unmarshal : String → Option MessageEvent} {p : Pipeline}
    {frame : OutboundMessage} (hp : Queued unmarshal p) (hwriting : p.writer = .writing frame) :
    Queued unmarshal { p with writer := .receiving, written := p.written ++ [frame] } := by
  have hexit : Sound (⟨true, [frame]⟩ :: (stages p).tail) p.written
      (deliveredFrames unmarshal p) := by
    simpa [Queued, stages, hwriting, writerHeld] using hp
  exact hexit.exit

/-- The receiver has returned. -/
theorem queued_receiverEnded {unmarshal : String → Option MessageEvent} {p : Pipeline}
    (hp : Queued unmarshal p) : Queued unmarshal { p with receiver := .ended } :=
  sound_receiver hp List.prefix_rfl fun _ h => h.stop (by simp)

/-- The forwarder has returned. -/
theorem queued_forwarderEnded {unmarshal : String → Option MessageEvent} {p : Pipeline}
    (hp : Queued unmarshal p) : Queued unmarshal { p with forwarder := .ended } :=
  hp.behind List.prefix_rfl fun _ h => h.stop (by simp)

/-- The writer has returned. -/
theorem queued_writerEnded {unmarshal : String → Option MessageEvent} {p : Pipeline}
    (hp : Queued unmarshal p) : Queued unmarshal { p with writer := .ended } :=
  Sound.stop hp (by simp)

/-- Every step among the goroutines of a subscription keeps the queue. -/
theorem queued_pipelineStep {unmarshal : String → Option MessageEvent} {done : Bool}
    {p p' : Pipeline} {l : PipelineLabel} (hp : Queued unmarshal p)
    (h : p.step unmarshal done l = some p') : Queued unmarshal p' := by
  cases Pipeline.stepped h with
  | payload text hreceiving => exact queued_payload hp hreceiving text
  | unsubscribed hreceiver hsubscribed => exact queued_receiverEnded hp
  | receiverDone hreceiver hdone => exact queued_receiverEnded hp
  | queue event hqueueing hroom => exact queued_queue hp hqueueing
  | take event outCh hreceiving houtCh => exact queued_take hp hreceiving houtCh
  | drained hforwarder houtCh hreceiver => exact queued_forwarderEnded hp
  | forwarderDone hforwarder hdone => exact queued_forwarderEnded hp
  | hand msg hhanding hreceiving => exact queued_hand hp hhanding hreceiving
  | finished hwriter hforwarder => exact queued_writerEnded hp

/-- What a step of the session does to the subscription at a place. -/
inductive Moved (unmarshal : String → Option MessageEvent) (s : Session) (i : ℕ)
    (p : Pipeline) : SessionLabel → Pipeline → Prop
  /-- Nothing. -/
  | stays (l : SessionLabel) : Moved unmarshal s i p l p
  | steps (l : PipelineLabel) (p' : Pipeline) (h : p.step unmarshal s.done l = some p') :
    Moved unmarshal s i p (.pipeline i l) p'
  | locks (frame : OutboundMessage) (h : p.writer = .locking frame) :
    Moved unmarshal s i p (.lock i) { p with writer := .writing frame }
  | writes (frame : OutboundMessage) (h : p.writer = .writing frame) :
    Moved unmarshal s i p (.written i)
      { p with writer := .receiving, written := p.written ++ [frame] }
  | fails (frame : OutboundMessage) (h : p.writer = .writing frame) :
    Moved unmarshal s i p (.writeFails i) { p with writer := .ended }
  | closes (closed : ℕ) (h : s.serveWS = .cleaning closed) :
    Moved unmarshal s i p .cleanup { p with subscribed := false }

/-- A step that replaces one subscription moves this one and no other. -/
theorem moved_set {unmarshal : String → Option MessageEvent} {s : Session} {l : SessionLabel}
    {i j : ℕ} {p q q' : Pipeline} (hp : s.pipelines[i]? = some p)
    (hset : (s.pipelines.set i q)[j]? = some q') (hmoved : Moved unmarshal s i p l q) :
    ∃ p, s.pipelines[j]? = some p ∧ Moved unmarshal s j p l q' := by
  by_cases he : i = j
  · subst he
    have hlt : i < s.pipelines.length := (List.getElem?_eq_some_iff.mp hp).1
    rw [List.getElem?_set_self hlt] at hset
    cases hset
    exact ⟨p, hp, hmoved⟩
  · rw [List.getElem?_set_ne he] at hset
    exact ⟨q', hset, .stays l⟩

/-- A subscription after a step is one from before it, or it has just been started. -/
theorem moved_step {unmarshal : String → Option MessageEvent} {s s' : Session}
    {l : SessionLabel} (h : s.step unmarshal l = some s') {i : ℕ} {p' : Pipeline}
    (hp' : s'.pipelines[i]? = some p') :
    (∃ p, s.pipelines[i]? = some p ∧ Moved unmarshal s i p l p') ∨
      ∃ conversationID conversations, s.serveWS = .subscribing (conversationID :: conversations) ∧
        p' = Pipeline.start conversationID := by
  cases Session.stepped h with
  | subscribe succeeds conversationID conversations hserve =>
    cases succeeds with
    | false => exact .inl ⟨p', hp', .stays _⟩
    | true =>
      have hget : (s.pipelines ++ [Pipeline.start conversationID])[i]? = some p' := hp'
      rw [List.getElem?_append] at hget
      split at hget
      · exact .inl ⟨p', hget, .stays _⟩
      · have hstart := List.mem_singleton.mp (List.mem_of_getElem? hget)
        exact .inr ⟨conversationID, conversations, hserve, hstart⟩
  | pipeline j l p q hp hstep => exact .inl (moved_set hp hp' (.steps l q hstep))
  | lock j p frame hp hwriter hfree => exact .inl (moved_set hp hp' (.locks frame hwriter))
  | written j p frame hp hwriter hconnected hreads =>
    exact .inl (moved_set hp hp' (.writes frame hwriter))
  | writeFails j p frame hp hwriter hconnected =>
    exact .inl (moved_set hp hp' (.fails frame hwriter))
  | cleanup closed p hserve hp => exact .inl (moved_set hp hp' (.closes closed hserve))
  | start hserve => exact .inl ⟨p', hp', .stays _⟩
  | writersDone hwaiter hall => exact .inl ⟨p', hp', .stays _⟩
  | tick hticker => exact .inl ⟨p', hp', .stays _⟩
  | takeTick hping htick => exact .inl ⟨p', hp', .stays _⟩
  | lockPing hping hfree => exact .inl ⟨p', hp', .stays _⟩
  | pinged hping hconnected hreads => exact .inl ⟨p', hp', .stays _⟩
  | pingFails hping hconnected => exact .inl ⟨p', hp', .stays _⟩
  | readFails hserve => exact .inl ⟨p', hp', .stays _⟩
  | writeDone hserve hwaiter => exact .inl ⟨p', hp', .stays _⟩
  | stopTicker hserve => exact .inl ⟨p', hp', .stays _⟩
  | cleaned closed hserve => exact .inl ⟨p', hp', .stays _⟩
  | cancelStream hserve => exact .inl ⟨p', hp', .stays _⟩
  | close hserve => exact .inl ⟨p', hp', .stays _⟩
  | requestDone => exact .inl ⟨p', hp', .stays _⟩
  | peer reads => exact .inl ⟨p', hp', .stays _⟩
  | connectionLost => exact .inl ⟨p', hp', .stays _⟩

/-- Every step of the session keeps every queue. -/
theorem queued_step {unmarshal : String → Option MessageEvent} {s s' : Session}
    {l : SessionLabel}
    (hs : ∀ (i : ℕ) (p : Pipeline), s.pipelines[i]? = some p → Queued unmarshal p)
    (h : s.step unmarshal l = some s') (i : ℕ) (p' : Pipeline)
    (hp' : s'.pipelines[i]? = some p') : Queued unmarshal p' := by
  obtain ⟨p, hp, hmoved⟩ | ⟨conversationID, -, -, rfl⟩ := moved_step h hp'
  · have hqueued := hs i p hp
    cases hmoved with
    | stays => exact hqueued
    | steps l p' hstep => exact queued_pipelineStep hqueued hstep
    | locks frame hlocking =>
      have hheld : Sound (⟨true, [frame]⟩ :: (stages p).tail) p.written
          (deliveredFrames unmarshal p) := by
        simpa [Queued, stages, hlocking, writerHeld] using hqueued
      exact hheld
    | writes frame hwriting => exact queued_written hqueued hwriting
    | fails frame hwriting => exact queued_writerEnded hqueued
    | closes closed hserve => exact hqueued
  · exact queued_start unmarshal conversationID

/-- All goroutines of a subscription run, and Redis' channel is open. -/
structure Running (p : Pipeline) : Prop where
  subscribed : p.subscribed = true
  receiver : p.receiver ≠ .ended
  forwarder : p.forwarder ≠ .ended
  writer : p.writer ≠ .ended

/-- Before the context is done, the goroutines among themselves never return. -/
theorem running_pipelineStep {unmarshal : String → Option MessageEvent} {p p' : Pipeline}
    {l : PipelineLabel} (hp : Running p) (h : p.step unmarshal false l = some p') :
    Running p' := by
  cases Pipeline.stepped h with
  | payload text hreceiving =>
    refine { hp with receiver := ?_ }
    cases unmarshal text <;> simp
  | unsubscribed hreceiver hsubscribed => cases hsubscribed.symm.trans hp.subscribed
  | receiverDone hreceiver hdone => cases hdone
  | queue event hqueueing hroom => exact { hp with receiver := by simp }
  | take event outCh hreceiving houtCh => exact { hp with forwarder := by simp }
  | drained hforwarder houtCh hreceiver => exact absurd hreceiver hp.receiver
  | forwarderDone hforwarder hdone => cases hdone
  | hand msg hhanding hreceiving => exact { hp with forwarder := by simp, writer := by simp }
  | finished hwriter hforwarder => exact absurd hforwarder hp.forwarder

/-- A context that is done stays so. -/
theorem done_step {unmarshal : String → Option MessageEvent} {s s' : Session} {l : SessionLabel}
    (h : s.step unmarshal l = some s') (hdone : s.done = true) : s'.done = true := by
  cases Session.stepped h <;> first | exact hdone | rfl

/-- A step before the context is done keeps the goroutines of a subscription running,
unless its write fails. -/
theorem running_step {unmarshal : String → Option MessageEvent} {s s' : Session}
    {l : SessionLabel} {i : ℕ} (hordered : Ordered s)
    (hs : s.done = false → ∀ p, s.pipelines[i]? = some p → Running p)
    (hl : l ≠ .writeFails i) (h : s.step unmarshal l = some s') (hdone' : s'.done = false)
    (p' : Pipeline) (hp' : s'.pipelines[i]? = some p') : Running p' := by
  have hdone : s.done = false := by
    refine Bool.eq_false_of_not_eq_true fun htrue => ?_
    cases hdone'.symm.trans (done_step h htrue)
  obtain ⟨p, hp, hmoved⟩ | ⟨conversationID, -, -, rfl⟩ := moved_step h hp'
  · have hrunning := hs hdone p hp
    cases hmoved with
    | stays => exact hrunning
    | steps l p' hstep => exact running_pipelineStep hrunning (hdone ▸ hstep)
    | locks frame hlocking => exact { hrunning with writer := by simp }
    | writes frame hwriting => exact { hrunning with writer := by simp }
    | fails frame hwriting => exact absurd rfl hl
    | closes closed hserve =>
      have hcancelled := hordered.cancelled (by rw [hserve]; simp [ServeWS.rank])
      cases hdone.symm.trans hcancelled
  · exact ⟨rfl, by simp [Pipeline.start], by simp [Pipeline.start], by simp [Pipeline.start]⟩

/-- What the stages of a subscription hold, from the connection back to Redis. -/
def heldFrames (p : Pipeline) : List OutboundMessage :=
  writerHeld p.writer ++ forwarderHeld p.conversationID p.forwarder ++
    p.outCh.map (eventFrame p.conversationID) ++ receiverHeld p.conversationID p.receiver

/-- While its goroutines run, every delivered event of a subscription is written or held. -/
theorem held_of_running {unmarshal : String → Option MessageEvent} {p : Pipeline}
    (hqueued : Queued unmarshal p) (hp : Running p) :
    p.written ++ heldFrames p = deliveredFrames unmarshal p := by
  have hall := hqueued.conserved (by simp [stages, hp.receiver, hp.forwarder, hp.writer])
  simpa [stages, heldFrames] using hall

/-- Whatever a step does to a subscription, it is one to the same conversation. -/
theorem Moved.conversationID {unmarshal : String → Option MessageEvent} {s : Session} {i : ℕ}
    {p p' : Pipeline} {l : SessionLabel} (h : Moved unmarshal s i p l p') :
    p'.conversationID = p.conversationID := by
  cases h with
  | steps l p' hstep => cases Pipeline.stepped hstep <;> rfl
  | stays => rfl
  | locks frame hlocking => rfl
  | writes frame hwriting => rfl
  | fails frame hwriting => rfl
  | closes closed hserve => rfl

/-- The subscriptions are to these conversations, and so are those to come. -/
structure SubscribesTo (conversations : List Uuid) (s : Session) : Prop where
  started : ∀ (i : ℕ) (p : Pipeline), s.pipelines[i]? = some p → p.conversationID ∈ conversations
  left : ∀ rest, s.serveWS = .subscribing rest → ∀ c ∈ rest, c ∈ conversations

/-- The conversations that are left to subscribe to were left before the step. -/
theorem left_step {unmarshal : String → Option MessageEvent} {s s' : Session}
    {l : SessionLabel} (h : s.step unmarshal l = some s') {rest : List Uuid}
    (hrest : s'.serveWS = .subscribing rest) :
    ∃ before, s.serveWS = .subscribing before ∧ ∀ c ∈ rest, c ∈ before := by
  cases Session.stepped h with
  | subscribe succeeds conversationID conversations hserve =>
    cases hrest
    exact ⟨_, hserve, fun c hc => List.mem_cons_of_mem _ hc⟩
  | start hserve => cases hrest
  | readFails hserve => cases hrest
  | writeDone hserve hwaiter => cases hrest
  | stopTicker hserve => cases hrest
  | cleanup closed p hserve hp => cases hrest
  | cleaned closed hserve => cases hrest
  | cancelStream hserve => cases hrest
  | close hserve => cases hrest
  | _ => exact ⟨rest, hrest, fun c hc => hc⟩

/-- Every step keeps the conversations of a session. -/
theorem subscribesTo_step {unmarshal : String → Option MessageEvent} {conversations : List Uuid}
    {s s' : Session} {l : SessionLabel} (hs : SubscribesTo conversations s)
    (h : s.step unmarshal l = some s') : SubscribesTo conversations s' where
  started i p' hp' := by
    obtain ⟨p, hp, hmoved⟩ | ⟨conversationID, rest, hserve, rfl⟩ := moved_step h hp'
    · rw [hmoved.conversationID]
      exact hs.started i p hp
    · exact hs.left _ hserve conversationID List.mem_cons_self
  left rest hrest c hc := by
    obtain ⟨before, hbefore, hsub⟩ := left_step h hrest
    exact hs.left before hbefore c (hsub c hc)

/-- What holds of a subscription in every run of a session. -/
structure Sessioned (unmarshal : String → Option MessageEvent) (conversations : List Uuid)
    (s : Session) : Prop where
  ordered : Ordered s
  queued : ∀ (i : ℕ) (p : Pipeline), s.pipelines[i]? = some p → Queued unmarshal p
  subscribes : SubscribesTo conversations s

theorem sessioned_step {unmarshal : String → Option MessageEvent} {conversations : List Uuid}
    {s s' : Session} {l : SessionLabel} (hs : Sessioned unmarshal conversations s)
    (h : s.step unmarshal l = some s') : Sessioned unmarshal conversations s' where
  ordered := ordered_step hs.ordered h
  queued := queued_step hs.queued h
  subscribes := subscribesTo_step hs.subscribes h

theorem sessioned_initial (unmarshal : String → Option MessageEvent)
    (conversations : List Uuid) :
    Sessioned unmarshal conversations (Session.initial conversations) where
  ordered := ordered_initial conversations
  queued := by simp [Session.initial]
  subscribes := ⟨by simp [Session.initial], by simp [Session.initial]⟩

/-- A subscription is one queue in every run of a session: it is to one of the conversations,
and what its writer has written is, in order, a beginning of the frames of the well-formed
events that Redis has delivered to it. As long as the context is not done and no write of it
has failed, the rest of these frames is what its stages hold, each in one place. A payload
that is an encoded event is delivered as this event, at its place, when decoding undoes
encoding. -/
theorem subscription_is_queue (unmarshal : String → Option MessageEvent)
    {conversations : List Uuid} {ls : List SessionLabel} {s : Session}
    (hr : run (Session.step unmarshal) (Session.initial conversations) ls = some s)
    {i : ℕ} {p : Pipeline} (hp : s.pipelines[i]? = some p) :
    p.conversationID ∈ conversations ∧
      p.written <+: (deliveredEvents unmarshal p).map
        (fun event => toFrame p.conversationID event.message) ∧
      (s.done = false → SessionLabel.writeFails i ∉ ls →
        p.written ++ heldFrames p = (deliveredEvents unmarshal p).map
          fun event => toFrame p.conversationID event.message) ∧
      ∀ marshal : MessageEvent → String, (∀ event, unmarshal (marshal event) = some event) →
        ∀ first event rest, p.delivered = first ++ marshal event :: rest →
          deliveredEvents unmarshal p =
            first.filterMap unmarshal ++ event :: rest.filterMap unmarshal := by
  have hinv : Sessioned unmarshal conversations s :=
    run_invariant (fun _ _ _ hs h => sessioned_step hs h)
      (sessioned_initial unmarshal conversations) hr
  have hqueued := hinv.queued i p hp
  refine ⟨hinv.subscribes.started i p hp, hqueued.isPrefix, fun hdone hfails => ?_, ?_⟩
  · have hlabels : ∀ l ∈ ls, l ≠ SessionLabel.writeFails i :=
      fun l hl => ne_of_mem_of_not_mem hl hfails
    have hrunning := run_guarded
      (I := fun s => Ordered s ∧ (s.done = false → ∀ p, s.pipelines[i]? = some p → Running p))
      (fun s l s' hs hl h => ⟨ordered_step hs.1 h, running_step hs.1 hs.2 hl h⟩)
      ⟨ordered_initial conversations, by simp [Session.initial]⟩ (eachStep_of_labels hlabels _) hr
    exact held_of_running hqueued (hrunning.2 hdone p hp)
  · intro marshal hmarshal first event rest hdelivered
    rw [deliveredEvents, hdelivered, List.filterMap_append,
      List.filterMap_cons_some (hmarshal event)]

/-- A malformed payload and an event come from Redis, and the frame of the event is written
while a second event waits in the channel. -/
def twoEvents : List SessionLabel :=
  [.subscribe true, .start, .pipeline 0 (.payload "malformed"), .pipeline 0 (.payload "first"),
    .pipeline 0 .queue, .pipeline 0 .take, .pipeline 0 .hand, .pipeline 0 (.payload "second"),
    .lock 0, .pipeline 0 .queue, .written 0]

/-- Decodes the two events of this run. -/
def decodeTwo (text : String) : Option MessageEvent :=
  if text = "first" then some ⟨⟨1, 2, 5, 3, "Ann", "Hello", 10⟩⟩
  else if text = "second" then some ⟨⟨4, 2, 5, 3, "Ann", "Bye", 11⟩⟩
  else none

theorem subscription_is_queue_twoEvents :
    ∃ s p, run (Session.step decodeTwo) (Session.initial [5]) twoEvents = some s ∧
      s.pipelines[0]? = some p ∧ p.written = [⟨1, 5, 3, "Ann", "Hello", 10⟩] ∧
      p.written ++ heldFrames p = (deliveredEvents decodeTwo p).map
        fun event => toFrame p.conversationID event.message := by
  have hrun : ((run (Session.step decodeTwo) (Session.initial [5]) twoEvents).bind
      fun s => s.pipelines[0]?.map fun p => (s.done, p.written)) =
        some (false, [⟨1, 5, 3, "Ann", "Hello", 10⟩]) := by decide
  obtain ⟨s, hs, hmap⟩ := Option.bind_eq_some_iff.mp hrun
  obtain ⟨p, hp, hvalues⟩ := Option.map_eq_some_iff.mp hmap
  obtain ⟨hdone, hwritten⟩ := Prod.mk.inj hvalues
  exact ⟨s, p, hs, hp, hwritten,
    (subscription_is_queue decodeTwo hs hp).2.2.1 hdone (by decide)⟩

end AuraWellness.Chat.Queueing
