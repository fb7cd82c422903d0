import AuraWellness.Chat.Live

/-!
# The goroutines of one WebSocket session

`ServeWS` starts a chain of goroutines for every conversation: one takes payloads from
Redis into a channel of 16 events, one hands their messages on, and one writes them to
the connection. Another goroutine waits for all writers, another one pings the peer.
Writers and pings share a mutex. A write ends when the peer reads, and fails once the
connection is lost or closed.
-/

namespace AuraWellness.Chat.Sessions

open AuraWellness.Chat.Entities AuraWellness.Chat.Repositories AuraWellness.Chat.Live

/-- The goroutine of `Subscribe`. -/
inductive Receiver
  /-- At the outer `select`. -/
  | receiving
  /-- At the inner `select`, with an event for `outCh`. -/
  | queueing (event : MessageEvent)
  /-- Returned; `outCh` is closed. -/
  | ended
  deriving DecidableEq, Repr

/-- The goroutine of `StreamMessages`. -/
inductive Forwarder
  /-- At the outer `select`. -/
  | receiving
  /-- At the inner `select`, with a message for `msgCh`. -/
  | handing (msg : ChatMessage)
  /-- Returned; `msgCh` is closed. -/
  | ended
  deriving DecidableEq, Repr

/-- The goroutine that writes the messages of a conversation. -/
inductive Writer
  /-- At the head of its loop over `msgCh`. -/
  | receiving
  /-- At `writeMu.Lock`. -/
  | locking (frame : OutboundMessage)
  /-- In `conn.WriteJSON`. -/
  | writing (frame : OutboundMessage)
  /-- Returned. -/
  | ended
  deriving DecidableEq, Repr

/-- The subscription to one conversation and its goroutines. -/
structure Pipeline where
  /-- The conversation. -/
  conversationID : Uuid
  /-- `sub` is not closed. -/
  subscribed : Bool
  /-- The payloads that the receiver has taken from Redis. -/
  delivered : List String
  receiver : Receiver
  /-- The events in `outCh`, the oldest first. -/
  outCh : List MessageEvent
  forwarder : Forwarder
  writer : Writer
  /-- The frames that are written, in order. -/
  written : List OutboundMessage
  deriving DecidableEq, Repr

/-- A subscription whose goroutines have just been started. -/
def Pipeline.start (conversationID : Uuid) : Pipeline :=
  ⟨conversationID, true, [], .receiving, [], .receiving, .receiving, []⟩

/-- What the goroutines of a subscription do among themselves. -/
inductive PipelineLabel
  /-- The receiver takes a payload. -/
  | payload (text : String)
  /-- The receiver sees that Redis' channel is closed. -/
  | unsubscribed
  /-- The receiver sees that the context is done. -/
  | receiverDone
  /-- The receiver sends its event. -/
  | queue
  /-- The forwarder takes an event. -/
  | take
  /-- The forwarder sees that `outCh` is closed. -/
  | drained
  /-- The forwarder sees that the context is done. -/
  | forwarderDone
  /-- The forwarder hands its message to the writer. -/
  | hand
  /-- The writer sees that `msgCh` is closed. -/
  | finished
  deriving DecidableEq, Repr

/-- One step among the goroutines of a subscription, with the context done or not. -/
def Pipeline.step (unmarshal : String → Option MessageEvent) (done : Bool) (p : Pipeline) :
    PipelineLabel → Option Pipeline
  | .payload text =>
    if p.receiver = .receiving then
      some { p with
        delivered := p.delivered ++ [text]
        receiver := match unmarshal text with
          | some event => .queueing event
          | none => .receiving }
    else none
  | .unsubscribed =>
    if p.receiver = .receiving ∧ p.subscribed = false then some { p with receiver := .ended }
    else none
  | .receiverDone =>
    if done = true ∧ p.receiver ≠ .ended then some { p with receiver := .ended } else none
  | .queue =>
    match p.receiver with
    | .queueing event =>
      if p.outCh.length < 16 then
        some { p with receiver := .receiving, outCh := p.outCh ++ [event] }
      else none
    | _ => none
  | .take =>
    match p.forwarder, p.outCh with
    | .receiving, event :: outCh => some { p with forwarder := .handing event.message, outCh }
    | _, _ => none
  | .drained =>
    if p.forwarder = .receiving ∧ p.outCh = [] ∧ p.receiver = .ended then
      some { p with forwarder := .ended }
    else none
  | .forwarderDone =>
    if done = true ∧ p.forwarder ≠ .ended then some { p with forwarder := .ended } else none
  | .hand =>
    match p.forwarder, p.writer with
    | .handing msg, .receiving =>
      some { p with forwarder := .receiving, writer := .locking (toFrame p.conversationID msg) }
    | _, _ => none
  | .finished =>
    if p.writer = .receiving ∧ p.forwarder = .ended then some { p with writer := .ended } else none

/-- What a step among the goroutines of a subscription has done, with what enabled it. -/
inductive Pipeline.Stepped (unmarshal : String → Option MessageEvent) (done : Bool)
    (p : Pipeline) : PipelineLabel → Pipeline → Prop
  | payload (text : String) (h : p.receiver = .receiving) :
    Stepped unmarshal done p (.payload text) { p with
      delivered := p.delivered ++ [text]
      receiver := match unmarshal text with
        | some event => .queueing event
        | none => .receiving }
  | unsubscribed (h : p.receiver = .receiving) (hsubscribed : p.subscribed = false) :
    Stepped unmarshal done p .unsubscribed { p with receiver := .ended }
  | receiverDone (h : p.receiver ≠ .ended) (hdone : done = true) :
    Stepped unmarshal done p .receiverDone { p with receiver := .ended }
  | queue (event : MessageEvent) (h : p.receiver = .queueing event)
      (hroom : p.outCh.length < 16) :
    Stepped unmarshal done p .queue
      { p with receiver := .receiving, outCh := p.outCh ++ [event] }
  | take (event : MessageEvent) (outCh : List MessageEvent) (h : p.forwarder = .receiving)
      (houtCh : p.outCh = event :: outCh) :
    Stepped unmarshal done p .take { p with forwarder := .handing event.message, outCh }
  | drained (h : p.forwarder = .receiving) (houtCh : p.outCh = [])
      (hreceiver : p.receiver = .ended) :
    Stepped unmarshal done p .drained { p with forwarder := .ended }
  | forwarderDone (h : p.forwarder ≠ .ended) (hdone : done = true) :
    Stepped unmarshal done p .forwarderDone { p with forwarder := .ended }
  | hand (msg : ChatMessage) (h : p.forwarder = .handing msg) (hwriter : p.writer = .receiving) :
    Stepped unmarshal done p .hand { p with
      forwarder := .receiving
      writer := .locking (toFrame p.conversationID msg) }
  | finished (h : p.writer = .receiving) (hforwarder : p.forwarder = .ended) :
    Stepped unmarshal done p .finished { p with writer := .ended }

/-- All that a step among the goroutines of a subscription can do. -/
theorem Pipeline.stepped {unmarshal : String → Option MessageEvent} {done : Bool}
    {p p' : Pipeline} {l : PipelineLabel} (h : p.step unmarshal done l = some p') :
    p.Stepped unmarshal done l p' := by
  cases l with
  | payload text =>
    obtain ⟨hreceiver, ⟨⟩⟩ := Option.ite_none_right_eq_some.mp h
    exact .payload text hreceiver
  | unsubscribed =>
    obtain ⟨⟨hreceiver, hsubscribed⟩, ⟨⟩⟩ := Option.ite_none_right_eq_some.mp h
    exact .unsubscribed hreceiver hsubscribed
  | receiverDone =>
    obtain ⟨⟨hdone, hreceiver⟩, ⟨⟩⟩ := Option.ite_none_right_eq_some.mp h
    exact .receiverDone hreceiver hdone
  | queue =>
    unfold Pipeline.step at h
    dsimp only at h
    split at h
    · rename_i event hreceiver
      obtain ⟨hroom, ⟨⟩⟩ := Option.ite_none_right_eq_some.mp h
      exact .queue event hreceiver hroom
    · cases h
  | take =>
    unfold Pipeline.step at h
    dsimp only at h
    split at h
    · rename_i event outCh hforwarder houtCh
      cases h
      exact .take event outCh hforwarder houtCh
    · cases h
  | drained =>
    obtain ⟨⟨hforwarder, houtCh, hreceiver⟩, ⟨⟩⟩ := Option.ite_none_right_eq_some.mp h
    exact .drained hforwarder houtCh hreceiver
  | forwarderDone =>
    obtain ⟨⟨hdone, hforwarder⟩, ⟨⟩⟩ := Option.ite_none_right_eq_some.mp h
    exact .forwarderDone hforwarder hdone
  | hand =>
    unfold Pipeline.step at h
    dsimp only at h
    split at h
    · rename_i msg hforwarder hwriter
      cases h
      exact .hand msg hforwarder hwriter
    · cases h
  | finished =>
    obtain ⟨⟨hwriter, hforwarder⟩, ⟨⟩⟩ := Option.ite_none_right_eq_some.mp h
    exact .finished hwriter hforwarder

/-- The goroutine that waits for the writers. -/
inductive Waiter
  | unstarted
  /-- At `wg.Wait`. -/
  | waiting
  /-- Returned; `writeDone` is closed. -/
  | ended
  deriving DecidableEq, Repr

/-- `pingTicker`. -/
inductive Ticker
  | unstarted
  /-- Running, with a tick in its channel or not. -/
  | running (tick : Bool)
  /-- Stopped: its channel is empty and stays open. -/
  | stopped
  deriving DecidableEq, Repr

/-- The goroutine that pings the peer. -/
inductive PingLoop
  | unstarted
  /-- At the head of its loop over `pingTicker.C`. -/
  | receiving
  /-- At `writeMu.Lock`. -/
  | locking
  /-- In `conn.WriteMessage`. -/
  | writing
  /-- Returned. -/
  | ended
  deriving DecidableEq, Repr

/-- How far `ServeWS` itself is. -/
inductive ServeWS
  /-- In the loop over the conversations, with these left. -/
  | subscribing (conversations : List Uuid)
  /-- In the read loop. -/
  | reading
  /-- At `<-writeDone`. -/
  | awaiting
  /-- Before the deferred `pingTicker.Stop`. -/
  | stopping
  /-- In the deferred loop over the cleanups, with this many done. -/
  | cleaning (closed : ℕ)
  /-- Before the deferred `cancelStream`. -/
  | cancelling
  /-- Before the deferred `conn.Close`. -/
  | closing
  | returned
  deriving DecidableEq, Repr

/-- Who holds `writeMu`. -/
inductive Holder
  /-- The writer of this subscription. -/
  | writer (i : ℕ)
  | ping
  deriving DecidableEq, Repr

/-- A session after the upgrade of its connection. -/
structure Session where
  serveWS : ServeWS
  pipelines : List Pipeline
  /-- `streamCtx` is done. -/
  done : Bool
  writeMu : Option Holder
  waiter : Waiter
  ticker : Ticker
  ping : PingLoop
  /-- The connection is neither lost nor closed. -/
  connected : Bool
  /-- The peer reads, so that a write can end. -/
  peerReads : Bool
  deriving DecidableEq, Repr

/-- Right after the upgrade, with these conversations to subscribe to. -/
def Session.initial (conversations : List Uuid) : Session :=
  ⟨.subscribing conversations, [], false, none, .unstarted, .unstarted, .unstarted, true, true⟩

/-- What happens next. -/
inductive SessionLabel
  /-- `StreamMessages` for the next conversation succeeds or fails. -/
  | subscribe (succeeds : Bool)
  /-- The waiter and the ping loop are started, and the read loop begins. -/
  | start
  /-- A step among the goroutines of a subscription. -/
  | pipeline (i : ℕ) (l : PipelineLabel)
  /-- A writer locks the mutex. -/
  | lock (i : ℕ)
  /-- A write of a frame ends, and the mutex is unlocked. -/
  | written (i : ℕ)
  /-- A write of a frame fails, and the mutex is unlocked. -/
  | writeFails (i : ℕ)
  /-- All writers have returned, and `writeDone` is closed. -/
  | writersDone
  /-- The ticker ticks. -/
  | tick
  /-- The ping loop takes a tick. -/
  | takeTick
  /-- The ping loop locks the mutex. -/
  | lockPing
  /-- A ping is written, and the mutex is unlocked. -/
  | pinged
  /-- A ping fails, and the mutex is unlocked. -/
  | pingFails
  /-- `ReadMessage` returns an error; the context is cancelled and the read loop ends. -/
  | readFails
  /-- `<-writeDone` returns. -/
  | writeDone
  /-- `pingTicker.Stop`. -/
  | stopTicker
  /-- One cleanup, or the end of the loop over them. -/
  | cleanup
  /-- `cancelStream`. -/
  | cancelStream
  /-- `conn.Close`, the last deferred call. -/
  | close
  /-- The context of the request is done. -/
  | requestDone
  /-- The peer stops reading, or reads again. -/
  | peer (reads : Bool)
  /-- The connection is lost. -/
  | connectionLost
  deriving DecidableEq, Repr

/-- The state with another subscription at a place. -/
def Session.setPipeline (s : Session) (i : ℕ) (p : Pipeline) : Session :=
  { s with pipelines := s.pipelines.set i p }

/-- One step of a goroutine, of the peer or of the network. -/
def Session.step (unmarshal : String → Option MessageEvent) (s : Session) :
    SessionLabel → Option Session
  | .subscribe succeeds =>
    match s.serveWS with
    | .subscribing (conversationID :: conversations) =>
      some { s with
        serveWS := .subscribing conversations
        pipelines := if succeeds then s.pipelines ++ [Pipeline.start conversationID]
          else s.pipelines }
    | _ => none
  | .start =>
    if s.serveWS = .subscribing [] then
      some { s with
        serveWS := .reading
        waiter := .waiting
        ticker := .running false
        ping := .receiving }
    else none
  | .pipeline i l =>
    match s.pipelines[i]? with
    | some p => (p.step unmarshal s.done l).map fun p => s.setPipeline i p
    | none => none
  | .lock i =>
    match s.pipelines[i]? with
    | some p =>
      match p.writer with
      | .locking frame =>
        if s.writeMu = none then
          some (({ s with writeMu := some (.writer i) } : Session).setPipeline i
            { p with writer := .writing frame })
        else none
      | _ => none
    | none => none
  | .written i =>
    match s.pipelines[i]? with
    | some p =>
      match p.writer with
      | .writing frame =>
        if s.connected = true ∧ s.peerReads = true then
          some (({ s with writeMu := none } : Session).setPipeline i
            { p with writer := .receiving, written := p.written ++ [frame] })
        else none
      | _ => none
    | none => none
  | .writeFails i =>
    match s.pipelines[i]? with
    | some p =>
      match p.writer with
      | .writing _ =>
        if s.connected = false then
          some (({ s with writeMu := none } : Session).setPipeline i { p with writer := .ended })
        else none
      | _ => none
    | none => none
  | .writersDone =>
    if s.waiter = .waiting ∧ ∀ p ∈ s.pipelines, p.writer = .ended then
      some { s with waiter := .ended }
    else none
  | .tick => if s.ticker = .running false then some { s with ticker := .running true } else none
  | .takeTick =>
    if s.ping = .receiving ∧ s.ticker = .running true then
      some { s with ping := .locking, ticker := .running false }
    else none
  | .lockPing =>
    if s.ping = .locking ∧ s.writeMu = none then
      some { s with ping := .writing, writeMu := some .ping }
    else none
  | .pinged =>
    if s.ping = .writing ∧ s.connected = true ∧ s.peerReads = true then
      some { s with ping := .receiving, writeMu := none }
    else none
  | .pingFails =>
    if s.ping = .writing ∧ s.connected = false then
      some { s with ping := .ended, writeMu := none }
    else none
  | .readFails =>
    if s.serveWS = .reading then some { s with serveWS := .awaiting, done := true } else none
  | .writeDone =>
    if s.serveWS = .awaiting ∧ s.waiter = .ended then some { s with serveWS := .stopping } else none
  | .stopTicker =>
    if s.serveWS = .stopping then some { s with serveWS := .cleaning 0, ticker := .stopped }
    else none
  | .cleanup =>
    match s.serveWS with
    | .cleaning closed =>
      match s.pipelines[closed]? with
      | some p =>
        some (({ s with serveWS := .cleaning (closed + 1) } : Session).setPipeline closed
          { p with subscribed := false })
      | none => some { s with serveWS := .cancelling }
    | _ => none
  | .cancelStream =>
    if s.serveWS = .cancelling then some { s with serveWS := .closing, done := true } else none
  | .close =>
    if s.serveWS = .closing then some { s with serveWS := .returned, connected := false } else none
  | .requestDone => some { s with done := true }
  | .peer reads => some { s with peerReads := reads }
  | .connectionLost => some { s with connected := false }

/-- What a step has done, with what enabled it. -/
inductive Session.Stepped (unmarshal : String → Option MessageEvent) (s : Session) :
    SessionLabel → Session → Prop
  | subscribe (succeeds : Bool) (conversationID : Uuid) (conversations : List Uuid)
      (h : s.serveWS = .subscribing (conversationID :: conversations)) :
    Stepped unmarshal s (.subscribe succeeds) { s with
      serveWS := .subscribing conversations
      pipelines := if succeeds then s.pipelines ++ [Pipeline.start conversationID]
        else s.pipelines }
  | start (h : s.serveWS = .subscribing []) :
    Stepped unmarshal s .start { s with
      serveWS := .reading
      waiter := .waiting
      ticker := .running false
      ping := .receiving }
  | pipeline (i : ℕ) (l : PipelineLabel) (p p' : Pipeline) (hp : s.pipelines[i]? = some p)
      (h : p.step unmarshal s.done l = some p') :
    Stepped unmarshal s (.pipeline i l) (s.setPipeline i p')
  | lock (i : ℕ) (p : Pipeline) (frame : OutboundMessage) (hp : s.pipelines[i]? = some p)
      (hwriter : p.writer = .locking frame) (hfree : s.writeMu = none) :
    Stepped unmarshal s (.lock i)
      (({ s with writeMu := some (.writer i) } : Session).setPipeline i
        { p with writer := .writing frame })
  | written (i : ℕ) (p : Pipeline) (frame : OutboundMessage) (hp : s.pipelines[i]? = some p)
      (hwriter : p.writer = .writing frame) (hconnected : s.connected = true)
      (hreads : s.peerReads = true) :
    Stepped unmarshal s (.written i)
      (({ s with writeMu := none } : Session).setPipeline i
        { p with writer := .receiving, written := p.written ++ [frame] })
  | writeFails (i : ℕ) (p : Pipeline) (frame : OutboundMessage) (hp : s.pipelines[i]? = some p)
      (hwriter : p.writer = .writing frame) (hconnected : s.connected = false) :
    Stepped unmarshal s (.writeFails i)
      (({ s with writeMu := none } : Session).setPipeline i { p with writer := .ended })
  | writersDone (h : s.waiter = .waiting) (hall : ∀ p ∈ s.pipelines, p.writer = .ended) :
    Stepped unmarshal s .writersDone { s with waiter := .ended }
  | tick (h : s.ticker = .running false) :
    Stepped unmarshal s .tick { s with ticker := .running true }
  | takeTick (h : s.ping = .receiving) (htick : s.ticker = .running true) :
    Stepped unmarshal s .takeTick { s with ping := .locking, ticker := .running false }
  | lockPing (h : s.ping = .locking) (hfree : s.writeMu = none) :
    Stepped unmarshal s .lockPing { s with ping := .writing, writeMu := some .ping }
  | pinged (h : s.ping = .writing) (hconnected : s.connected = true) (hreads : s.peerReads = true) :
    Stepped unmarshal s .pinged { s with ping := .receiving, writeMu := none }
  | pingFails (h : s.ping = .writing) (hconnected : s.connected = false) :
    Stepped unmarshal s .pingFails { s with ping := .ended, writeMu := none }
  | readFails (h : s.serveWS = .reading) :
    Stepped unmarshal s .readFails { s with serveWS := .awaiting, done := true }
  | writeDone (h : s.serveWS = .awaiting) (hwaiter : s.waiter = .ended) :
    Stepped unmarshal s .writeDone { s with serveWS := .stopping }
  | stopTicker (h : s.serveWS = .stopping) :
    Stepped unmarshal s .stopTicker { s with serveWS := .cleaning 0, ticker := .stopped }
  | cleanup (closed : ℕ) (p : Pipeline) (h : s.serveWS = .cleaning closed)
      (hp : s.pipelines[closed]? = some p) :
    Stepped unmarshal s .cleanup
      (({ s with serveWS := .cleaning (closed + 1) } : Session).setPipeline closed
        { p with subscribed := false })
  | cleaned (closed : ℕ) (h : s.serveWS = .cleaning closed) :
    Stepped unmarshal s .cleanup { s with serveWS := .cancelling }
  | cancelStream (h : s.serveWS = .cancelling) :
    Stepped unmarshal s .cancelStream { s with serveWS := .closing, done := true }
  | close (h : s.serveWS = .closing) :
    Stepped unmarshal s .close { s with serveWS := .returned, connected := false }
  | requestDone : Stepped unmarshal s .requestDone { s with done := true }
  | peer (reads : Bool) : Stepped unmarshal s (.peer reads) { s with peerReads := reads }
  | connectionLost : Stepped unmarshal s .connectionLost { s with connected := false }

/-- All that a step of a writer can do. -/
theorem Session.stepped_writer {unmarshal : String → Option MessageEvent} {s s' : Session}
    {l : SessionLabel} {i : ℕ} (hl : l = .lock i ∨ l = .written i ∨ l = .writeFails i)
    (h : s.step unmarshal l = some s') : s.Stepped unmarshal l s' := by
  unfold Session.step at h
  obtain rfl | rfl | rfl := hl <;> dsimp only at h <;> split at h
  all_goals first | contradiction | rename_i p hp
  all_goals split at h
  all_goals first | contradiction | rename_i frame hwriter
  · obtain ⟨hfree, ⟨⟩⟩ := Option.ite_none_right_eq_some.mp h
    exact .lock i p frame hp hwriter hfree
  · obtain ⟨⟨hconnected, hreads⟩, ⟨⟩⟩ := Option.ite_none_right_eq_some.mp h
    exact .written i p frame hp hwriter hconnected hreads
  · obtain ⟨hconnected, ⟨⟩⟩ := Option.ite_none_right_eq_some.mp h
    exact .writeFails i p frame hp hwriter hconnected

/-- All that a step can do. -/
theorem Session.stepped {unmarshal : String → Option MessageEvent} {s s' : Session}
    {l : SessionLabel} (h : s.step unmarshal l = some s') : s.Stepped unmarshal l s' := by
  cases l with
  | subscribe succeeds =>
    unfold Session.step at h
    dsimp only at h
    split at h
    · rename_i conversationID conversations hserve
      cases h
      exact .subscribe succeeds conversationID conversations hserve
    · cases h
  | start =>
    obtain ⟨hserve, ⟨⟩⟩ := Option.ite_none_right_eq_some.mp h
    exact .start hserve
  | pipeline i l =>
    unfold Session.step at h
    dsimp only at h
    split at h
    · rename_i p hp
      obtain ⟨p', hp', rfl⟩ := Option.map_eq_some_iff.mp h
      exact .pipeline i l p p' hp hp'
    · cases h
  | lock i => exact Session.stepped_writer (i := i) (by simp) h
  | written i => exact Session.stepped_writer (i := i) (by simp) h
  | writeFails i => exact Session.stepped_writer (i := i) (by simp) h
  | writersDone =>
    obtain ⟨⟨hwaiter, hall⟩, ⟨⟩⟩ := Option.ite_none_right_eq_some.mp h
    exact .writersDone hwaiter hall
  | tick =>
    obtain ⟨hticker, ⟨⟩⟩ := Option.ite_none_right_eq_some.mp h
    exact .tick hticker
  | takeTick =>
    obtain ⟨⟨hping, htick⟩, ⟨⟩⟩ := Option.ite_none_right_eq_some.mp h
    exact .takeTick hping htick
  | lockPing =>
    obtain ⟨⟨hping, hfree⟩, ⟨⟩⟩ := Option.ite_none_right_eq_some.mp h
    exact .lockPing hping hfree
  | pinged =>
    obtain ⟨⟨hping, hconnected, hreads⟩, ⟨⟩⟩ := Option.ite_none_right_eq_some.mp h
    exact .pinged hping hconnected hreads
  | pingFails =>
    obtain ⟨⟨hping, hconnected⟩, ⟨⟩⟩ := Option.ite_none_right_eq_some.mp h
    exact .pingFails hping hconnected
  | readFails =>
    obtain ⟨hserve, ⟨⟩⟩ := Option.ite_none_right_eq_some.mp h
    exact .readFails hserve
  | writeDone =>
    obtain ⟨⟨hserve, hwaiter⟩, ⟨⟩⟩ := Option.ite_none_right_eq_some.mp h
    exact .writeDone hserve hwaiter
  | stopTicker =>
    obtain ⟨hserve, ⟨⟩⟩ := Option.ite_none_right_eq_some.mp h
    exact .stopTicker hserve
  | cleanup =>
    unfold Session.step at h
    dsimp only at h
    split at h
    · rename_i closed hserve
      split at h
      · rename_i p hp
        cases h
        exact .cleanup closed p hserve hp
      · cases h
        exact .cleaned closed hserve
    · cases h
  | cancelStream =>
    obtain ⟨hserve, ⟨⟩⟩ := Option.ite_none_right_eq_some.mp h
    exact .cancelStream hserve
  | close =>
    obtain ⟨hserve, ⟨⟩⟩ := Option.ite_none_right_eq_some.mp h
    exact .close hserve
  | requestDone =>
    cases h
    exact .requestDone
  | peer reads =>
    cases h
    exact .peer reads
  | connectionLost =>
    cases h
    exact .connectionLost

end AuraWellness.Chat.Sessions
