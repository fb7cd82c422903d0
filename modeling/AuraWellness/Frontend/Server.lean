import AuraWellness.Lib.Transition

/-!
# The WebSocket proxy of the frontend server

The server upgrades the browser's request first and then opens a socket to the
chat service. The listeners that pass frames and closures on are registered by
the `open` event of the second socket, the `error` listeners at once. An event
changes the state of its socket and runs the listeners that are registered at
that moment; a frame without a listener is gone.
-/

namespace AuraWellness.Frontend.Server

open AuraWellness.Lib.Transition

/-- `readyState`. -/
inductive ReadyState
  /-- `CONNECTING`. -/
  | connecting
  /-- `OPEN`. -/
  | opened
  /-- `CLOSING`. -/
  | closing
  /-- `CLOSED`. -/
  | closed
  deriving DecidableEq, Repr

/-- The arguments of `close`. -/
structure CloseFrame where
  /-- The status code. -/
  code : ℕ
  /-- The reason, empty by default. -/
  reason : String
  deriving DecidableEq, Repr

/-- One proxied connection. -/
structure Proxy where
  /-- The socket to the browser. -/
  browserWs : ReadyState
  /-- The socket to the chat service. -/
  backendWs : ReadyState
  /-- The listeners of `backendWs.on('open')` are registered. -/
  listening : Bool
  /-- The text frames that the browser has sent, in order. -/
  sent : List String
  /-- Those of them that have not been received yet. -/
  unread : List String
  /-- The frames that `backendWs.send` took, in order. -/
  forwarded : List String
  /-- The frames that `browserWs.send` took, in order. -/
  returned : List String
  /-- What `browserWs.close` has sent. -/
  browserCloseFrame : Option CloseFrame
  /-- What `backendWs.close` has sent. -/
  backendCloseFrame : Option CloseFrame
  deriving DecidableEq, Repr

/-- After `handleUpgrade`, with the socket to the chat service just created. -/
def Proxy.initial : Proxy := ⟨.opened, .connecting, false, [], [], [], [], none, none⟩

/-- `browserWs.close`, called while that socket is open. -/
def Proxy.closeBrowser (s : Proxy) (frame : CloseFrame) : Proxy :=
  { s with browserWs := .closing, browserCloseFrame := some frame }

/-- The state after `close`: a connecting socket gives up, and nothing happens to
one that is closing or closed. -/
def ReadyState.afterClose : ReadyState → ReadyState
  | .connecting => .closing
  | .opened => .closing
  | .closing => .closing
  | .closed => .closed

/-- `backendWs.close`: an open socket sends the frame. -/
def Proxy.closeBackend (s : Proxy) (frame : CloseFrame) : Proxy :=
  { s with
    backendWs := s.backendWs.afterClose
    backendCloseFrame := if s.backendWs = .opened then some frame else s.backendCloseFrame }

/-- The listener of `browserWs.on('message')`. -/
def Proxy.onBrowserMessage (s : Proxy) (data : String) : Proxy :=
  if s.backendWs = .opened then { s with forwarded := s.forwarded ++ [data] } else s

/-- The listener of `backendWs.on('message')`. -/
def Proxy.onBackendMessage (s : Proxy) (data : String) : Proxy :=
  if s.browserWs = .opened then { s with returned := s.returned ++ [data] } else s

/-- The listener of `browserWs.on('close')`. -/
def Proxy.onBrowserClose (s : Proxy) : Proxy := s.closeBackend ⟨1000, ""⟩

/-- The listener of `backendWs.on('close')`, whatever the code was. -/
def Proxy.onBackendClose (s : Proxy) : Proxy :=
  if s.browserWs = .opened then s.closeBrowser ⟨1000, ""⟩ else s

/-- The listener of `backendWs.on('error')`. -/
def Proxy.onBackendError (s : Proxy) : Proxy :=
  if s.browserWs = .opened then s.closeBrowser ⟨1011, "Backend error"⟩ else s

/-- The listener of `browserWs.on('error')`. -/
def Proxy.onBrowserError (s : Proxy) : Proxy :=
  if s.backendWs = .opened then s.closeBackend ⟨1011, ""⟩ else s

/-- A listener that `backendWs.on('open')` registers. -/
def Proxy.whenListening (s : Proxy) (listener : Proxy → Proxy) : Proxy :=
  if s.listening then listener s else s

/-- What happens next to one of the sockets. -/
inductive ProxyLabel
  /-- The browser sends a text frame. -/
  | browserSends (data : String)
  /-- `message` of `browserWs`: the next frame of the browser is received. -/
  | browserMessage
  /-- The closing handshake of the browser arrives, or its connection is lost. -/
  | browserClosing
  /-- `close` of `browserWs`. -/
  | browserClose
  /-- `error` of `browserWs`. -/
  | browserError
  /-- `open` of `backendWs`. -/
  | backendOpen
  /-- `message` of `backendWs`. -/
  | backendMessage (data : String)
  /-- The closing handshake of the chat service arrives, or its connection is lost. -/
  | backendClosing
  /-- `close` of `backendWs` with this code. -/
  | backendClose (code : ℕ)
  /-- `error` of `backendWs`: the handshake or an open connection failed. -/
  | backendError
  deriving DecidableEq, Repr

/-- One event. A socket fails before it closes when it was never open, and a
closed socket has no events. -/
def Proxy.step (s : Proxy) : ProxyLabel → Option Proxy
  | .browserSends data =>
    if s.browserWs = .closed then none
    else some { s with sent := s.sent ++ [data], unread := s.unread ++ [data] }
  | .browserMessage =>
    match s.unread with
    | data :: unread =>
      if s.browserWs = .closed then none
      else some (({ s with unread } : Proxy).whenListening fun s => s.onBrowserMessage data)
    | [] => none
  | .browserClosing =>
    if s.browserWs = .opened then some { s with browserWs := .closing } else none
  | .browserClose =>
    if s.browserWs = .closed then none
    else some (({ s with browserWs := .closed } : Proxy).whenListening Proxy.onBrowserClose)
  | .browserError =>
    if s.browserWs = .closed then none
    else some ({ s with browserWs := .closing } : Proxy).onBrowserError
  | .backendOpen =>
    if s.backendWs = .connecting then
      some { s with backendWs := .opened, listening := true }
    else none
  | .backendMessage data =>
    if s.backendWs = .opened ∨ s.backendWs = .closing then
      some (s.whenListening fun s => s.onBackendMessage data)
    else none
  | .backendClosing =>
    if s.backendWs = .opened then some { s with backendWs := .closing } else none
  | .backendClose _ =>
    if s.backendWs = .opened ∨ s.backendWs = .closing then
      some (({ s with backendWs := .closed } : Proxy).whenListening Proxy.onBackendClose)
    else none
  | .backendError =>
    if s.backendWs = .closed then none
    else some ({ s with backendWs := .closing } : Proxy).onBackendError

/-- What a step has done, with what enabled it. -/
inductive Proxy.Stepped (s : Proxy) : ProxyLabel → Proxy → Prop
  /-- The browser has sent a frame. -/
  | browserSends (data : String) (h : s.browserWs ≠ .closed) :
    Stepped s (.browserSends data) { s with sent := s.sent ++ [data], unread := s.unread ++ [data] }
  /-- A frame of the browser was passed on. -/
  | forwards (data : String) (unread : List String) (h : s.browserWs ≠ .closed)
      (hunread : s.unread = data :: unread) (hlistening : s.listening = true)
      (hopen : s.backendWs = .opened) :
    Stepped s .browserMessage { s with unread, forwarded := s.forwarded ++ [data] }
  /-- A frame of the browser was dropped. -/
  | drops (data : String) (unread : List String) (h : s.browserWs ≠ .closed)
      (hunread : s.unread = data :: unread)
      (hdeaf : ¬(s.listening = true ∧ s.backendWs = .opened)) :
    Stepped s .browserMessage { s with unread }
  /-- The browser's side has begun to close. -/
  | browserClosing (h : s.browserWs = .opened) :
    Stepped s .browserClosing { s with browserWs := .closing }
  /-- The browser's side has closed and the other side is told. -/
  | browserClose (h : s.browserWs ≠ .closed) (hlistening : s.listening = true) :
    Stepped s .browserClose (({ s with browserWs := .closed } : Proxy).closeBackend ⟨1000, ""⟩)
  /-- The browser's side has closed before anybody listens. -/
  | browserCloseUnheard (h : s.browserWs ≠ .closed) (hdeaf : s.listening = false) :
    Stepped s .browserClose { s with browserWs := .closed }
  /-- The browser's side has failed and an open other side is told. -/
  | browserError (h : s.browserWs ≠ .closed) (hopen : s.backendWs = .opened) :
    Stepped s .browserError (({ s with browserWs := .closing } : Proxy).closeBackend ⟨1011, ""⟩)
  /-- The browser's side has failed while the other side is not open. -/
  | browserErrorIgnored (h : s.browserWs ≠ .closed) (hopen : s.backendWs ≠ .opened) :
    Stepped s .browserError { s with browserWs := .closing }
  /-- The other side has opened. -/
  | backendOpen (h : s.backendWs = .connecting) :
    Stepped s .backendOpen { s with backendWs := .opened, listening := true }
  /-- A frame of the chat service was passed on. -/
  | returns (data : String) (h : s.backendWs = .opened ∨ s.backendWs = .closing)
      (hopen : s.browserWs = .opened) :
    Stepped s (.backendMessage data) { s with returned := s.returned ++ [data] }
  /-- A frame of the chat service was dropped. -/
  | returnDrops (data : String) (h : s.backendWs = .opened ∨ s.backendWs = .closing) :
    Stepped s (.backendMessage data) s
  /-- The other side has begun to close. -/
  | backendClosing (h : s.backendWs = .opened) :
    Stepped s .backendClosing { s with backendWs := .closing }
  /-- The other side has closed and an open browser is told. -/
  | backendClose (code : ℕ) (h : s.backendWs = .opened ∨ s.backendWs = .closing)
      (hlistening : s.listening = true) (hopen : s.browserWs = .opened) :
    Stepped s (.backendClose code)
      (({ s with backendWs := .closed } : Proxy).closeBrowser ⟨1000, ""⟩)
  /-- The other side has closed with nobody to tell. -/
  | backendCloseIgnored (code : ℕ) (h : s.backendWs = .opened ∨ s.backendWs = .closing)
      (hdeaf : ¬(s.listening = true ∧ s.browserWs = .opened)) :
    Stepped s (.backendClose code) { s with backendWs := .closed }
  /-- The other side has failed and an open browser is told. -/
  | backendError (h : s.backendWs ≠ .closed) (hopen : s.browserWs = .opened) :
    Stepped s .backendError
      (({ s with backendWs := .closing } : Proxy).closeBrowser ⟨1011, "Backend error"⟩)
  /-- The other side has failed while the browser's side is not open. -/
  | backendErrorIgnored (h : s.backendWs ≠ .closed) (hopen : s.browserWs ≠ .opened) :
    Stepped s .backendError { s with backendWs := .closing }

/-- A frame of the browser is passed on or dropped. -/
theorem Proxy.stepped_browserMessage {s s' : Proxy} (h : s.step .browserMessage = some s') :
    s.Stepped .browserMessage s' := by
  unfold Proxy.step at h
  dsimp only at h
  split at h
  · rename_i data unread hunread
    obtain ⟨hclosed, ⟨⟩⟩ := Option.ite_none_left_eq_some.mp h
    unfold Proxy.whenListening Proxy.onBrowserMessage
    dsimp only
    split
    · rename_i hlistening
      split
      · rename_i hopen
        exact .forwards data unread hclosed hunread hlistening hopen
      · rename_i hopen
        exact .drops data unread hclosed hunread fun hboth => hopen hboth.2
    · rename_i hdeaf
      exact .drops data unread hclosed hunread fun hboth => hdeaf hboth.1
  · cases h

/-- The listeners of the browser's socket. -/
theorem Proxy.stepped_browser {s s' : Proxy} {l : ProxyLabel}
    (hl : l = .browserClose ∨ l = .browserError) (h : s.step l = some s') : s.Stepped l s' := by
  obtain rfl | rfl := hl
  · obtain ⟨hclosed, ⟨⟩⟩ := Option.ite_none_left_eq_some.mp h
    unfold Proxy.whenListening
    split
    · rename_i hlistening
      exact .browserClose hclosed hlistening
    · rename_i hdeaf
      exact .browserCloseUnheard hclosed (Bool.eq_false_iff.mpr hdeaf)
  · obtain ⟨hclosed, ⟨⟩⟩ := Option.ite_none_left_eq_some.mp h
    unfold Proxy.onBrowserError
    split
    · rename_i hopen
      exact .browserError hclosed hopen
    · rename_i hopen
      exact .browserErrorIgnored hclosed hopen

/-- The listeners of the socket to the chat service. -/
theorem Proxy.stepped_backend {s s' : Proxy} {l : ProxyLabel}
    (hl : (∃ data, l = .backendMessage data) ∨ (∃ code, l = .backendClose code) ∨ l = .backendError)
    (h : s.step l = some s') : s.Stepped l s' := by
  obtain ⟨data, rfl⟩ | ⟨code, rfl⟩ | rfl := hl
  · obtain ⟨hlive, ⟨⟩⟩ := Option.ite_none_right_eq_some.mp h
    unfold Proxy.whenListening Proxy.onBackendMessage
    dsimp only
    split
    · split
      · rename_i hopen
        exact .returns data hlive hopen
      · exact .returnDrops data hlive
    · exact .returnDrops data hlive
  · obtain ⟨hlive, ⟨⟩⟩ := Option.ite_none_right_eq_some.mp h
    unfold Proxy.whenListening Proxy.onBackendClose
    split
    · rename_i hlistening
      split
      · rename_i hopen
        exact .backendClose code hlive hlistening hopen
      · rename_i hopen
        exact .backendCloseIgnored code hlive fun hboth => hopen hboth.2
    · rename_i hdeaf
      exact .backendCloseIgnored code hlive fun hboth => hdeaf hboth.1
  · obtain ⟨hclosed, ⟨⟩⟩ := Option.ite_none_left_eq_some.mp h
    unfold Proxy.onBackendError
    split
    · rename_i hopen
      exact .backendError hclosed hopen
    · rename_i hopen
      exact .backendErrorIgnored hclosed hopen

/-- All that a step can do. -/
theorem Proxy.stepped {s s' : Proxy} {l : ProxyLabel} (h : s.step l = some s') : s.Stepped l s' := by
  cases l with
  | browserSends data =>
    obtain ⟨hclosed, ⟨⟩⟩ := Option.ite_none_left_eq_some.mp h
    exact .browserSends data hclosed
  | browserMessage => exact Proxy.stepped_browserMessage h
  | browserClosing =>
    obtain ⟨hopen, ⟨⟩⟩ := Option.ite_none_right_eq_some.mp h
    exact .browserClosing hopen
  | browserClose => exact Proxy.stepped_browser (Or.inl rfl) h
  | browserError => exact Proxy.stepped_browser (Or.inr rfl) h
  | backendOpen =>
    obtain ⟨hconnecting, ⟨⟩⟩ := Option.ite_none_right_eq_some.mp h
    exact .backendOpen hconnecting
  | backendMessage data => exact Proxy.stepped_backend (Or.inl ⟨data, rfl⟩) h
  | backendClosing =>
    obtain ⟨hopen, ⟨⟩⟩ := Option.ite_none_right_eq_some.mp h
    exact .backendClosing hopen
  | backendClose code => exact Proxy.stepped_backend (Or.inr (Or.inl ⟨code, rfl⟩)) h
  | backendError => exact Proxy.stepped_backend (Or.inr (Or.inr rfl)) h

end AuraWellness.Frontend.Server
