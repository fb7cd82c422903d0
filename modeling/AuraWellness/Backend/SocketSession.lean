import AuraWellness.Lib.Transition

/-!
# The lifetime of a session of the backend

`HandleAsync` starts one loop that reads from the browser and one loop for every
conversation that writes to it, waits until the first loop or all of the others have
ended, cancels what is left, and closes the socket. The write loops swallow the errors
of their streams so that the session stays alive, but they end with them.
-/

namespace AuraWellness.Backend.SocketSession

open AuraWellness.Lib.Transition

/-- `ws.State`. -/
inductive WebSocketState
  | opened
  | closeReceived
  | closed
  | aborted
  deriving DecidableEq, Repr

/-- Where `ReadLoopAsync` is. -/
inductive ReadLoop
  /-- At the condition of its loop. -/
  | looping
  /-- In `ws.ReceiveAsync`. -/
  | receiving
  /-- In `SendConversationMessageAsync`. -/
  | handling
  /-- At `sendLock.WaitAsync`, with an echo. -/
  | locking
  /-- In `ws.SendAsync`. -/
  | sending
  /-- Its task has ended. -/
  | ended
  deriving DecidableEq, Repr

/-- Where a `WriteLoopAsync` is. -/
inductive WriteLoop
  /-- It waits for the next message of its stream. -/
  | streaming
  /-- At `sendLock.WaitAsync`, with a message. -/
  | locking
  /-- In `ws.SendAsync`. -/
  | sending
  /-- Its task has ended. -/
  | ended
  deriving DecidableEq, Repr

/-- Where `HandleAsync` is. -/
inductive HandleAsync
  /-- At `Task.WhenAny`. -/
  | waiting
  /-- After `cts.CancelAsync`. -/
  | closing
  | returned
  deriving DecidableEq, Repr

/-- Who has `sendLock`. -/
inductive Holder
  | reader
  /-- The write loop of this conversation. -/
  | writer (i : ℕ)
  deriving DecidableEq, Repr

/-- The session of an admitted member. -/
structure Session where
  state : WebSocketState
  /-- The browser has closed the socket. -/
  browserClosed : Bool
  /-- The connection is lost. -/
  lost : Bool
  /-- `context.RequestAborted`. -/
  requestAborted : Bool
  /-- `HandleAsync` has called `cts.CancelAsync`. -/
  cancelled : Bool
  /-- `HandleAsync` has called `ws.CloseAsync`. -/
  closedByServer : Bool
  sendLock : Option Holder
  readTask : ReadLoop
  writeTasks : List WriteLoop
  handler : HandleAsync
  deriving DecidableEq, Repr

/-- The session at `Task.WhenAny`, with as many conversations. -/
def Session.start (conversations : ℕ) : Session :=
  ⟨.opened, false, false, false, false, false, none, .looping,
    List.replicate conversations .streaming, .waiting⟩

/-- `ct.IsCancellationRequested`: the source is linked to the request. -/
def Session.isCancellationRequested (s : Session) : Bool := s.cancelled || s.requestAborted

/-- The state with the write loop of a conversation at another place. -/
def Session.setWriter (s : Session) (i : ℕ) (loop : WriteLoop) : Session :=
  { s with writeTasks := s.writeTasks.set i loop }

/-- The state of the socket after `ws.SendAsync` has returned or failed. -/
def Session.afterSend (s : Session) (fails : Bool) : WebSocketState :=
  if fails then .aborted else s.state

/-- A call on the socket can fail: the connection is lost, or the call is cancelled. -/
def Session.CanFail (s : Session) : Prop := s.lost = true ∨ s.isCancellationRequested = true

instance (s : Session) : Decidable s.CanFail := inferInstanceAs (Decidable (_ ∨ _))

/-- What happens next. -/
inductive SessionLabel
  /-- The read loop tests its condition. -/
  | test
  /-- `ReceiveAsync` returns a frame, which is one to send or is ignored. -/
  | receive (sends : Bool)
  /-- `ReceiveAsync` returns the browser's close frame. -/
  | receiveClose
  /-- `ReceiveAsync` throws. -/
  | receiveFails
  /-- The call returns a message, or `null`, or throws an error that is ignored. -/
  | handled (saved : Bool)
  /-- The call is cancelled. -/
  | handlingCancelled
  /-- The read loop gets `sendLock`. -/
  | readLock
  /-- The wait of the read loop for `sendLock` is cancelled. -/
  | readLockCancelled
  /-- The echo is sent, or sending it has failed. -/
  | echoed (fails : Bool)
  /-- The stream of a conversation yields a message. -/
  | message (i : ℕ)
  /-- The stream of a conversation ends or fails. -/
  | streamEnds (i : ℕ)
  /-- A write loop gets `sendLock`. -/
  | writeLock (i : ℕ)
  /-- The wait of a write loop for `sendLock` is cancelled. -/
  | writeLockCancelled (i : ℕ)
  /-- The message is sent, or sending it has failed. -/
  | written (i : ℕ) (fails : Bool)
  /-- `Task.WhenAny` returns, and `cts.CancelAsync` is called. -/
  | cancel
  /-- `ws.CloseAsync`, if the socket is still open. -/
  | close
  /-- The browser closes the socket. -/
  | browserCloses
  /-- The connection is lost. -/
  | connectionLost
  /-- The request is aborted. -/
  | abortRequest
  deriving DecidableEq, Repr

/-- One step of a loop, of the handler, of the browser or of the network. -/
def Session.step (s : Session) : SessionLabel → Option Session
  | .test =>
    if s.readTask = .looping then
      some { s with
        readTask := if s.state = .opened ∧ s.isCancellationRequested = false then .receiving
          else .ended }
    else none
  | .receive sends =>
    if s.readTask = .receiving then
      some { s with readTask := if sends then .handling else .looping }
    else none
  | .receiveClose =>
    if s.readTask = .receiving ∧ s.browserClosed = true then
      some { s with readTask := .ended, state := .closeReceived }
    else none
  | .receiveFails =>
    if s.readTask = .receiving ∧ s.CanFail then
      some { s with readTask := .ended, state := .aborted }
    else none
  | .handled saved =>
    if s.readTask = .handling then
      some { s with readTask := if saved then .locking else .looping }
    else none
  | .handlingCancelled =>
    if s.readTask = .handling ∧ s.isCancellationRequested = true then
      some { s with readTask := .ended }
    else none
  | .readLock =>
    if s.readTask = .locking ∧ s.sendLock = none then
      some { s with readTask := .sending, sendLock := some .reader }
    else none
  | .readLockCancelled =>
    if s.readTask = .locking ∧ s.isCancellationRequested = true then
      some { s with readTask := .ended }
    else none
  | .echoed fails =>
    if s.readTask = .sending ∧ (fails = true → s.state = .opened ∧ s.CanFail) then
      some { s with readTask := .looping, sendLock := none, state := s.afterSend fails }
    else none
  | .message i =>
    if s.writeTasks[i]? = some .streaming then
      some (s.setWriter i (if s.state = .opened then .locking else .ended))
    else none
  | .streamEnds i =>
    if s.writeTasks[i]? = some .streaming then some (s.setWriter i .ended) else none
  | .writeLock i =>
    if s.writeTasks[i]? = some .locking ∧ s.sendLock = none then
      some (({ s with sendLock := some (.writer i) } : Session).setWriter i .sending)
    else none
  | .writeLockCancelled i =>
    if s.writeTasks[i]? = some .locking ∧ s.isCancellationRequested = true then
      some (s.setWriter i .ended)
    else none
  | .written i fails =>
    if s.writeTasks[i]? = some .sending ∧ (fails = true → s.state = .opened ∧ s.CanFail) then
      some (({ s with sendLock := none, state := s.afterSend fails } : Session).setWriter i
        .streaming)
    else none
  | .cancel =>
    if s.handler = .waiting ∧ (s.readTask = .ended ∨ ∀ loop ∈ s.writeTasks, loop = .ended) then
      some { s with handler := .closing, cancelled := true }
    else none
  | .close =>
    if s.handler = .closing then
      if s.state = .opened ∨ s.state = .closeReceived then
        some { s with handler := .returned, closedByServer := true, state := .closed }
      else some { s with handler := .returned }
    else none
  | .browserCloses => some { s with browserClosed := true }
  | .connectionLost => some { s with lost := true }
  | .abortRequest => some { s with requestAborted := true }

/-- The browser has closed or lost the socket, or the request is aborted. -/
def Session.Gone (s : Session) : Prop :=
  s.browserClosed = true ∨ s.lost = true ∨ s.requestAborted = true

/-- The server has cancelled and closed the session only after the browser is gone. -/
def BrowserDriven (s : Session) : Prop :=
  s.cancelled = true ∨ s.closedByServer = true → s.Gone

/-- The handler goes on since all write loops, of which there may be none, have ended, while
the browser is there. -/
def EndsWithStreams (s : Session) (l : SessionLabel) : Prop :=
  l = .cancel ∧ (∀ loop ∈ s.writeTasks, loop = .ended) ∧ ¬s.Gone

/-- What the state of the session says about the browser. -/
structure Followed (s : Session) : Prop where
  /-- The socket is not open after the browser is gone or the session is cancelled. -/
  state : s.state ≠ .opened → s.Gone ∨ s.cancelled = true
  /-- So it is with the read loop. -/
  readTask : s.readTask = .ended → s.Gone ∨ s.cancelled = true
  /-- The handler cancels before it closes. -/
  handler : s.handler ≠ .waiting → s.cancelled = true

/-- A call that is cancelled, or that can fail, does so after the browser is gone or the
session is cancelled. -/
theorem Session.CanFail.gone {s : Session} (h : s.CanFail) : s.Gone ∨ s.cancelled = true := by
  unfold Session.CanFail Session.isCancellationRequested at h
  unfold Session.Gone
  rw [Bool.or_eq_true] at h
  tauto

/-- What only moves the loops on keeps what the server has done. -/
structure Onwards (s s' : Session) : Prop where
  gone : s.Gone → s'.Gone
  cancelled : s'.cancelled = s.cancelled
  closedByServer : s'.closedByServer = s.closedByServer
  handler : s'.handler = s.handler
  state : s'.state ≠ .opened → s.state ≠ .opened ∨ s.Gone ∨ s.cancelled = true
  readTask : s'.readTask = .ended → s.readTask = .ended ∨ s.Gone ∨ s.cancelled = true

/-- A step that leaves the socket and the read loop as they are. -/
theorem Onwards.same {s s' : Session} (hgone : s.Gone → s'.Gone)
    (hcancelled : s'.cancelled = s.cancelled)
    (hclosed : s'.closedByServer = s.closedByServer) (hhandler : s'.handler = s.handler)
    (hstate : s'.state = s.state) (hread : s'.readTask = s.readTask) : Onwards s s' :=
  ⟨hgone, hcancelled, hclosed, hhandler, fun h => .inl (hstate ▸ h), fun h => .inl (hread ▸ h)⟩

/-- The socket after a frame has been sent. -/
theorem afterSend_opened {s : Session} {fails : Bool}
    (hfails : fails = true → s.state = .opened ∧ s.CanFail) (h : s.afterSend fails ≠ .opened) :
    s.state ≠ .opened ∨ s.Gone ∨ s.cancelled = true := by
  unfold Session.afterSend at h
  cases fails with
  | true => exact .inr (hfails rfl).2.gone
  | false => exact .inl h

/-- Every step but the two of the handler only moves the loops on. -/
theorem onwards_step {s s' : Session} {l : SessionLabel} (hs : Followed s) (hcancel : l ≠ .cancel)
    (hclose : l ≠ .close) (h : s.step l = some s') : Onwards s s' := by
  cases l with
  | test =>
    obtain ⟨hlooping, ⟨⟩⟩ := Option.ite_none_right_eq_some.mp h
    refine ⟨id, rfl, rfl, rfl, .inl, fun hended => .inr ?_⟩
    dsimp only at hended
    split at hended
    · cases hended
    · rename_i hnot
      by_cases hopen : s.state = .opened
      · refine Session.CanFail.gone (.inr ?_)
        by_contra hcontinues
        exact hnot ⟨hopen, Bool.eq_false_iff.mpr hcontinues⟩
      · exact hs.state hopen
  | receive sends =>
    obtain ⟨hreceiving, ⟨⟩⟩ := Option.ite_none_right_eq_some.mp h
    refine ⟨id, rfl, rfl, rfl, .inl, fun hended => ?_⟩
    cases sends <;> cases hended
  | receiveClose =>
    obtain ⟨⟨hreceiving, hbrowser⟩, ⟨⟩⟩ := Option.ite_none_right_eq_some.mp h
    exact ⟨id, rfl, rfl, rfl, fun _ => .inr (.inl (.inl hbrowser)),
      fun _ => .inr (.inl (.inl hbrowser))⟩
  | receiveFails =>
    obtain ⟨⟨hreceiving, hfails⟩, ⟨⟩⟩ := Option.ite_none_right_eq_some.mp h
    exact ⟨id, rfl, rfl, rfl, fun _ => .inr hfails.gone, fun _ => .inr hfails.gone⟩
  | handled saved =>
    obtain ⟨hhandling, ⟨⟩⟩ := Option.ite_none_right_eq_some.mp h
    refine ⟨id, rfl, rfl, rfl, .inl, fun hended => ?_⟩
    cases saved <;> cases hended
  | handlingCancelled =>
    obtain ⟨⟨hhandling, hrequested⟩, ⟨⟩⟩ := Option.ite_none_right_eq_some.mp h
    exact ⟨id, rfl, rfl, rfl, .inl, fun _ => .inr (Session.CanFail.gone (.inr hrequested))⟩
  | readLock =>
    obtain ⟨-, ⟨⟩⟩ := Option.ite_none_right_eq_some.mp h
    exact ⟨id, rfl, rfl, rfl, .inl, fun hended => by cases hended⟩
  | readLockCancelled =>
    obtain ⟨⟨hlocking, hrequested⟩, ⟨⟩⟩ := Option.ite_none_right_eq_some.mp h
    exact ⟨id, rfl, rfl, rfl, .inl, fun _ => .inr (Session.CanFail.gone (.inr hrequested))⟩
  | echoed fails =>
    obtain ⟨⟨hsending, hfails⟩, ⟨⟩⟩ := Option.ite_none_right_eq_some.mp h
    exact ⟨id, rfl, rfl, rfl, afterSend_opened hfails, fun hended => by cases hended⟩
  | message i =>
    obtain ⟨-, ⟨⟩⟩ := Option.ite_none_right_eq_some.mp h
    exact .same id rfl rfl rfl rfl rfl
  | streamEnds i =>
    obtain ⟨-, ⟨⟩⟩ := Option.ite_none_right_eq_some.mp h
    exact .same id rfl rfl rfl rfl rfl
  | writeLock i =>
    obtain ⟨-, ⟨⟩⟩ := Option.ite_none_right_eq_some.mp h
    exact .same id rfl rfl rfl rfl rfl
  | writeLockCancelled i =>
    obtain ⟨-, ⟨⟩⟩ := Option.ite_none_right_eq_some.mp h
    exact .same id rfl rfl rfl rfl rfl
  | written i fails =>
    obtain ⟨⟨hsending, hfails⟩, ⟨⟩⟩ := Option.ite_none_right_eq_some.mp h
    exact ⟨id, rfl, rfl, rfl, afterSend_opened hfails, .inl⟩
  | cancel => exact absurd rfl hcancel
  | close => exact absurd rfl hclose
  | browserCloses =>
    cases h
    exact .same (fun _ => .inl rfl) rfl rfl rfl rfl rfl
  | connectionLost =>
    cases h
    exact .same (fun _ => .inr (.inl rfl)) rfl rfl rfl rfl rfl
  | abortRequest =>
    cases h
    exact .same (fun _ => .inr (.inr rfl)) rfl rfl rfl rfl rfl

/-- What only moves the loops on keeps the invariant. -/
theorem Followed.onwards {s s' : Session} (hs : Followed s) (h : Onwards s s') : Followed s' where
  state hstate := by
    rw [h.cancelled]
    exact ((h.state hstate).elim hs.state id).imp_left h.gone
  readTask hread := by
    rw [h.cancelled]
    exact ((h.readTask hread).elim hs.readTask id).imp_left h.gone
  handler hhandler := by
    rw [h.cancelled]
    exact hs.handler (h.handler ▸ hhandler)

/-- Every step keeps the invariant. -/
theorem followed_step {s s' : Session} {l : SessionLabel} (hs : Followed s)
    (h : s.step l = some s') : Followed s' := by
  by_cases hcancel : l = .cancel
  · subst hcancel
    obtain ⟨-, ⟨⟩⟩ := Option.ite_none_right_eq_some.mp h
    exact ⟨fun _ => .inr rfl, fun _ => .inr rfl, fun _ => rfl⟩
  by_cases hclose : l = .close
  · subst hclose
    obtain ⟨hclosing, hs'⟩ := Option.ite_none_right_eq_some.mp h
    have hcancelled : s.cancelled = true := hs.handler (by simp [hclosing])
    split at hs' <;> cases hs' <;>
      exact ⟨fun _ => .inr hcancelled, fun _ => .inr hcancelled, fun _ => hcancelled⟩
  exact hs.onwards (onwards_step hs hcancel hclose h)

/-- A step keeps the session with the browser exactly if the handler does not go on for the
end of the write loops. -/
theorem browserDriven_step {s s' : Session} {l : SessionLabel} (hs : Followed s)
    (hdriven : BrowserDriven s) (h : s.step l = some s') :
    BrowserDriven s' ↔ ¬EndsWithStreams s l := by
  by_cases hcancel : l = .cancel
  · subst hcancel
    obtain ⟨⟨hwaiting, hended⟩, ⟨⟩⟩ := Option.ite_none_right_eq_some.mp h
    constructor
    · exact fun hdriven' hends => hends.2.2 (hdriven' (.inl rfl))
    · intro hnot _
      by_contra hgone
      obtain hread | hwriters := hended
      · exact hgone ((hs.readTask hread).elim id fun hcancelled => hdriven (.inl hcancelled))
      · exact hnot ⟨rfl, hwriters, hgone⟩
  by_cases hclose : l = .close
  · subst hclose
    obtain ⟨hclosing, hs'⟩ := Option.ite_none_right_eq_some.mp h
    have hgone : s.Gone := hdriven (.inl (hs.handler (by simp [hclosing])))
    refine iff_of_true ?_ fun hends => by cases hends.1
    split at hs' <;> cases hs' <;> exact fun _ => hgone
  have honwards := onwards_step hs hcancel hclose h
  refine iff_of_true ?_ fun hends => hcancel hends.1
  unfold BrowserDriven
  rw [honwards.cancelled, honwards.closedByServer]
  exact fun hserver => honwards.gone (hdriven hserver)

/-- A session starts with the browser. -/
theorem followed_start (conversations : ℕ) : Followed (Session.start conversations) :=
  ⟨by simp [Session.start], by simp [Session.start], by simp [Session.start]⟩

theorem browserDriven_start (conversations : ℕ) : BrowserDriven (Session.start conversations) := by
  simp [BrowserDriven, Session.start]

/-- The browser drives the lifetime of a session exactly in the runs in which the handler
never goes on because all write loops have ended while the browser is there. -/
theorem browserDriven_iff {conversations : ℕ} {ls : List SessionLabel} {s : Session}
    (hr : run Session.step (Session.start conversations) ls = some s) :
    Throughout Session.step BrowserDriven (Session.start conversations) ls ↔
      EachStep Session.step (fun s l => ¬EndsWithStreams s l) (Session.start conversations) ls :=
  throughout_iff_eachStep (fun _ _ _ hs _ h => followed_step hs h)
    (fun _ _ _ hs hdriven h => browserDriven_step hs hdriven h) (followed_start conversations)
    (browserDriven_start conversations) hr

/-- A browser with one conversation sends a message and gets its echo, and then closes the
socket. -/
def closedByBrowser : List SessionLabel :=
  [.test, .receive true, .handled true, .readLock, .echoed false, .test, .browserCloses,
    .receiveClose, .cancel, .close]

theorem browserDriven_iff_closedByBrowser :
    ∃ s, run Session.step (Session.start 1) closedByBrowser = some s ∧
      (Throughout Session.step BrowserDriven (Session.start 1) closedByBrowser ↔
        EachStep Session.step (fun s l => ¬EndsWithStreams s l) (Session.start 1)
          closedByBrowser) := by
  have hrun : (run Session.step (Session.start 1) closedByBrowser).isSome = true := by decide
  obtain ⟨s, hs⟩ := Option.isSome_iff_exists.mp hrun
  exact ⟨s, hs, browserDriven_iff hs⟩

/-- The session of a member without conversations is cancelled and closed at once, while the
browser is there. -/
theorem not_browserDriven : ¬∀ (conversations : ℕ) (ls : List SessionLabel) (s : Session),
    run Session.step (Session.start conversations) ls = some s → BrowserDriven s := by
  intro h
  have hdriven := h 0 [.test, .cancel, .close]
    ⟨.closed, false, false, false, true, true, none, .receiving, [], .returned⟩ (by decide)
  obtain hgone | hgone | hgone := hdriven (.inl rfl) <;> cases hgone

end AuraWellness.Backend.SocketSession
