import AuraWellness.Chat.Membership

/-!
# The WebSocket handler and Redis

`ServeWS` resolves the workspace, lists the conversations, upgrades the
connection and subscribes to the conversations one after the other; from then
on one goroutine for each subscription writes what Redis delivers, while the
read pump starts one send after the other. Redis delivers a publish to the
subscriptions that it has confirmed by then.
-/

namespace AuraWellness.Chat.Live

open AuraWellness.Lib.Calls AuraWellness.Lib.Transition
open AuraWellness.Chat.Entities AuraWellness.Chat.Schema AuraWellness.Chat.Repositories
open AuraWellness.Chat.Services

/-- `UserClaims`: the identity in a valid token. -/
structure UserClaims where
  /-- The person. -/
  personID : Uuid
  /-- The business unit. -/
  buID : Uuid
  /-- The name under which the person sends. -/
  senderName : String
  deriving DecidableEq, Repr

/-- `outboundMessage`: a chat frame. -/
structure OutboundMessage where
  id : Uuid
  conversationID : Uuid
  personID : Uuid
  senderName : String
  content : String
  createdAt : Time
  deriving DecidableEq, Repr

/-- The frame of a message from the subscription to a conversation. -/
def toFrame (conversationID : Uuid) (m : ChatMessage) : OutboundMessage :=
  ⟨m.id, conversationID, m.personID, m.senderName, m.content, m.createdAt⟩

/-- A subscription of a connection to the channel of a conversation. -/
structure Subscription where
  /-- The conversation. -/
  conversationID : Uuid
  /-- Redis has processed the SUBSCRIBE. -/
  confirmed : Bool
  /-- Delivered events that are not written yet. -/
  events : List MessageEvent
  deriving DecidableEq, Repr

/-- An upgraded connection. -/
structure Stream where
  /-- The workspace of the connection. -/
  workspaceID : Uuid
  /-- Conversations that the subscribing loop has not reached yet. -/
  waiting : List ChatConversation
  /-- The subscriptions so far. -/
  subscriptions : List Subscription
  /-- Frames that are written and have not arrived yet. -/
  frames : List OutboundMessage
  /-- The position of the send that the read pump has started last. -/
  sending : Option ℕ
  deriving DecidableEq, Repr

/-- How far `ServeWS` is with a connection. -/
inductive SocketStage
  /-- Before `GetByBuID`. -/
  | resolving
  /-- Before `ListConversations`. -/
  | listing (workspaceID : Uuid)
  /-- Before the upgrade. -/
  | upgrading (workspaceID : Uuid) (conversations : List ChatConversation)
  /-- Upgraded. -/
  | streaming (stream : Stream)
  /-- `ServeWS` has returned. -/
  | closed
  deriving DecidableEq, Repr

/-- A connection. -/
structure Socket where
  /-- Who connects. -/
  claims : UserClaims
  /-- How far the handler is. -/
  stage : SocketStage
  deriving DecidableEq, Repr

/-- The chat service and its connections. -/
structure LiveState where
  /-- The service behind the handlers. -/
  service : Service
  /-- All connections so far. -/
  sockets : List Socket

/-- The state after the installation. -/
def LiveState.initial : LiveState := ⟨Service.initial, []⟩

/-- The chat database. -/
abbrev LiveState.db (s : LiveState) : ChatDb := s.service.state.db

/-- What happens next. -/
inductive LiveLabel
  /-- A step of the service. -/
  | service (l : ServiceLabel)
  /-- A request with a valid token arrives for the business unit in its path. -/
  | accept (claims : UserClaims) (buID : Uuid)
  /-- `ServeWS` looks the workspace up. -/
  | resolve (i : ℕ) (answer : Turn Choice GoError)
  /-- `ServeWS` lists the conversations. -/
  | list (i : ℕ) (answer : Turn Choice GoError)
  /-- The upgrade succeeds or fails. -/
  | upgrade (i : ℕ) (succeeds : Bool)
  /-- The subscribing loop makes one round. -/
  | subscribe (i : ℕ) (succeeds : Bool)
  /-- Redis processes the SUBSCRIBE of a subscription. -/
  | confirm (i j : ℕ)
  /-- A started goroutine publishes its event, or fails to. -/
  | publish (k : ℕ) (succeeds : Bool)
  /-- The goroutine of a subscription writes its next event. -/
  | write (i j : ℕ)
  /-- The read pump receives a send. -/
  | receive (i : ℕ) (conversationID : Uuid) (content : String) (stamps : ℕ → Stamp)
  /-- `ServeWS` returns: the read pump has ended, and so have the writers. -/
  | disconnect (i : ℕ)

/-- The stream of a connection that is upgraded. -/
def LiveState.stream? (s : LiveState) (i : ℕ) : Option (UserClaims × Stream) :=
  match s.sockets[i]? with
  | some ⟨claims, .streaming stream⟩ => some (claims, stream)
  | _ => none

/-- The state with a connection at another stage. -/
def LiveState.setStage (s : LiveState) (i : ℕ) (claims : UserClaims) (stage : SocketStage) :
    LiveState :=
  { s with sockets := s.sockets.set i ⟨claims, stage⟩ }

/-- A subscription after Redis has delivered a publish. -/
def Subscription.deliver (p : Publication) (sub : Subscription) : Subscription :=
  if sub.confirmed = true ∧ sub.conversationID = p.conversationID then
    { sub with events := sub.events ++ [p.event] }
  else sub

/-- A connection after Redis has delivered a publish. -/
def Socket.deliver (p : Publication) (socket : Socket) : Socket :=
  match socket.stage with
  | .streaming stream =>
    { socket with stage := .streaming { stream with
        subscriptions := stream.subscriptions.map (Subscription.deliver p) } }
  | _ => socket

/-- The read pump waits for the send that it has started last. -/
def LiveState.idle (s : LiveState) (stream : Stream) : Bool :=
  match stream.sending with
  | none => true
  | some t =>
    match s.service.threads[t]? with
    | some ⟨_, .ret _⟩ => true
    | _ => false

/-- One step of the handlers, of Redis or of the service. -/
def LiveState.step (s : LiveState) : LiveLabel → Option LiveState
  | .service l => (Service.step s.service l).map fun service => { s with service }
  | .accept claims buID =>
    some (if claims.buID = buID then { s with sockets := s.sockets ++ [⟨claims, .resolving⟩] }
      else s)
  | .resolve i t =>
    match s.sockets[i]? with
    | some ⟨claims, .resolving⟩ =>
      some (s.setStage i claims
        (match (chatMachine.answer (.workspaceGetByBuID claims.buID) t s.service.state).1 with
          | .ok w => .listing w.id
          | .error _ => .closed))
    | _ => none
  | .list i t =>
    match s.sockets[i]? with
    | some ⟨claims, .listing w⟩ =>
      some (s.setStage i claims
        (match (chatMachine.answer (.conversationListByWorkspaceAndPerson w claims.personID) t
            s.service.state).1 with
          | .ok conversations => .upgrading w conversations
          | .error _ => .closed))
    | _ => none
  | .upgrade i succeeds =>
    match s.sockets[i]? with
    | some ⟨claims, .upgrading w conversations⟩ =>
      some (s.setStage i claims
        (if succeeds then .streaming ⟨w, conversations, [], [], none⟩ else .closed))
    | _ => none
  | .subscribe i succeeds =>
    match s.stream? i with
    | some (claims, stream) =>
      match stream.waiting with
      | [] => none
      | conv :: waiting =>
        some (s.setStage i claims (.streaming { stream with
          waiting
          subscriptions := if succeeds then stream.subscriptions ++ [⟨conv.id, false, []⟩]
            else stream.subscriptions }))
    | none => none
  | .confirm i j =>
    match s.stream? i with
    | some (claims, stream) =>
      match stream.subscriptions[j]? with
      | some sub =>
        some (s.setStage i claims (.streaming { stream with
          subscriptions := stream.subscriptions.set j { sub with confirmed := true } }))
      | none => none
    | none => none
  | .publish k succeeds =>
    match s.service.state.publishing[k]? with
    | some p =>
      some ⟨{ s.service with state := { s.service.state with
          publishing := s.service.state.publishing.eraseIdx k } },
        if succeeds then s.sockets.map (Socket.deliver p) else s.sockets⟩
    | none => none
  | .write i j =>
    match s.stream? i with
    | some (claims, stream) =>
      match stream.subscriptions[j]? with
      | some ⟨conv, confirmed, event :: events⟩ =>
        some (s.setStage i claims (.streaming { stream with
          subscriptions := stream.subscriptions.set j ⟨conv, confirmed, events⟩
          frames := stream.frames ++ [toFrame conv event.message] }))
      | _ => none
    | none => none
  | .receive i conv content stamps =>
    match s.stream? i with
    | some (claims, stream) =>
      if s.idle stream then
        (Service.step s.service (.start ⟨.sendMessage stream.workspaceID conv claims.personID
          claims.senderName content, stamps⟩)).map fun service =>
            { service
              sockets := s.sockets.set i
                ⟨claims, .streaming { stream with sending := some s.service.threads.length }⟩ }
      else none
    | none => none
  | .disconnect i =>
    match s.stream? i with
    | some (claims, _) => some (s.setStage i claims .closed)
    | none => none

/-- The outcomes of a step, each with what the step requires. -/
inductive LiveState.Stepped (s : LiveState) : LiveLabel → LiveState → Prop
  | service {l : ServiceLabel} {service : Service} (hstep : Service.step s.service l = some service) :
    Stepped s (.service l) { s with service }
  | accepted {claims : UserClaims} {buID : Uuid} (hbu : claims.buID = buID) :
    Stepped s (.accept claims buID) { s with sockets := s.sockets ++ [⟨claims, .resolving⟩] }
  | refused {claims : UserClaims} {buID : Uuid} (hbu : claims.buID ≠ buID) :
    Stepped s (.accept claims buID) s
  | resolved {i : ℕ} {t : Turn Choice GoError} {claims : UserClaims}
    (hi : s.sockets[i]? = some ⟨claims, .resolving⟩) :
    Stepped s (.resolve i t) (s.setStage i claims
      (match (chatMachine.answer (.workspaceGetByBuID claims.buID) t s.service.state).1 with
        | .ok w => .listing w.id
        | .error _ => .closed))
  | listed {i : ℕ} {t : Turn Choice GoError} {claims : UserClaims} {w : Uuid}
    (hi : s.sockets[i]? = some ⟨claims, .listing w⟩) :
    Stepped s (.list i t) (s.setStage i claims
      (match (chatMachine.answer (.conversationListByWorkspaceAndPerson w claims.personID) t
          s.service.state).1 with
        | .ok conversations => .upgrading w conversations
        | .error _ => .closed))
  | upgraded {i : ℕ} {succeeds : Bool} {claims : UserClaims} {w : Uuid}
    {conversations : List ChatConversation}
    (hi : s.sockets[i]? = some ⟨claims, .upgrading w conversations⟩) :
    Stepped s (.upgrade i succeeds) (s.setStage i claims
      (if succeeds then .streaming ⟨w, conversations, [], [], none⟩ else .closed))
  | subscribed {i : ℕ} {succeeds : Bool} {claims : UserClaims} {stream : Stream}
    {conv : ChatConversation} {waiting : List ChatConversation}
    (hi : s.stream? i = some (claims, stream)) (hwaiting : stream.waiting = conv :: waiting) :
    Stepped s (.subscribe i succeeds) (s.setStage i claims (.streaming { stream with
      waiting
      subscriptions := if succeeds then stream.subscriptions ++ [⟨conv.id, false, []⟩]
        else stream.subscriptions }))
  | confirmed {i j : ℕ} {claims : UserClaims} {stream : Stream} {sub : Subscription}
    (hi : s.stream? i = some (claims, stream)) (hj : stream.subscriptions[j]? = some sub) :
    Stepped s (.confirm i j) (s.setStage i claims (.streaming { stream with
      subscriptions := stream.subscriptions.set j { sub with confirmed := true } }))
  | published {k : ℕ} {succeeds : Bool} {p : Publication}
    (hp : s.service.state.publishing[k]? = some p) :
    Stepped s (.publish k succeeds) ⟨{ s.service with state := { s.service.state with
        publishing := s.service.state.publishing.eraseIdx k } },
      if succeeds then s.sockets.map (Socket.deliver p) else s.sockets⟩
  | written {i j : ℕ} {claims : UserClaims} {stream : Stream} {conv : Uuid} {confirmed : Bool}
    {event : MessageEvent} {events : List MessageEvent}
    (hi : s.stream? i = some (claims, stream))
    (hj : stream.subscriptions[j]? = some ⟨conv, confirmed, event :: events⟩) :
    Stepped s (.write i j) (s.setStage i claims (.streaming { stream with
      subscriptions := stream.subscriptions.set j ⟨conv, confirmed, events⟩
      frames := stream.frames ++ [toFrame conv event.message] }))
  | received {i : ℕ} {conv : Uuid} {content : String} {stamps : ℕ → Stamp} {claims : UserClaims}
    {stream : Stream} {service : Service} (hi : s.stream? i = some (claims, stream))
    (hidle : s.idle stream = true)
    (hstep : Service.step s.service (.start ⟨.sendMessage stream.workspaceID conv claims.personID
      claims.senderName content, stamps⟩) = some service) :
    Stepped s (.receive i conv content stamps) ⟨service, s.sockets.set i ⟨claims,
      .streaming { stream with sending := some s.service.threads.length }⟩⟩
  | disconnected {i : ℕ} {claims : UserClaims} {stream : Stream}
    (hi : s.stream? i = some (claims, stream)) :
    Stepped s (.disconnect i) (s.setStage i claims .closed)

/-- Every step has one of the outcomes. -/
theorem LiveState.stepped {s s' : LiveState} {l : LiveLabel} (h : s.step l = some s') :
    Stepped s l s' := by
  cases l with
  | service l =>
    obtain ⟨service, hstep, rfl⟩ := Option.map_eq_some_iff.mp h
    exact .service hstep
  | accept claims buID =>
    cases h
    split
    · rename_i hbu
      exact .accepted hbu
    · rename_i hbu
      exact .refused hbu
  | resolve i t =>
    simp only [LiveState.step] at h
    split at h
    · rename_i claims hi
      cases h
      exact .resolved hi
    · cases h
  | list i t =>
    simp only [LiveState.step] at h
    split at h
    · rename_i claims w hi
      cases h
      exact .listed hi
    · cases h
  | upgrade i succeeds =>
    simp only [LiveState.step] at h
    split at h
    · rename_i claims w conversations hi
      cases h
      exact .upgraded hi
    · cases h
  | subscribe i succeeds =>
    simp only [LiveState.step] at h
    split at h
    · rename_i claims stream hi
      split at h
      · cases h
      · rename_i conv waiting hwaiting
        cases h
        exact .subscribed hi hwaiting
    · cases h
  | confirm i j =>
    simp only [LiveState.step] at h
    split at h
    · rename_i claims stream hi
      split at h
      · rename_i sub hj
        cases h
        exact .confirmed hi hj
      · cases h
    · cases h
  | publish k succeeds =>
    simp only [LiveState.step] at h
    split at h
    · rename_i p hp
      cases h
      exact .published hp
    · cases h
  | write i j =>
    simp only [LiveState.step] at h
    split at h
    · rename_i claims stream hi
      split at h
      · rename_i conv confirmed event events hj
        cases h
        exact .written hi hj
      · cases h
    · cases h
  | receive i conv content stamps =>
    simp only [LiveState.step] at h
    split at h
    · rename_i claims stream hi
      split at h
      · rename_i hidle
        obtain ⟨service, hstep, rfl⟩ := Option.map_eq_some_iff.mp h
        exact .received hi hidle hstep
      · cases h
    · cases h
  | disconnect i =>
    simp only [LiveState.step] at h
    split at h
    · rename_i claims stream hi
      cases h
      exact .disconnected hi
    · cases h

/-- What a step of the connections does to the service behind them. -/
theorem live_step_service {live live' : LiveState} {l : LiveLabel}
    (h : LiveState.step live l = some live') :
    (∃ sl, (l = .service sl ∨ ∃ r, sl = .start r) ∧
      Service.step live.service sl = some live'.service) ∨
    (∃ k succeeds p, l = .publish k succeeds ∧ live.service.state.publishing[k]? = some p ∧
      live'.service = { live.service with state := { live.service.state with
        publishing := live.service.state.publishing.eraseIdx k } } ∧
      live'.sockets = if succeeds then live.sockets.map (Socket.deliver p) else live.sockets) ∨
    live'.service = live.service := by
  cases LiveState.stepped h with
  | service hstep => exact Or.inl ⟨_, Or.inl rfl, hstep⟩
  | received hi hidle hstep => exact Or.inl ⟨_, Or.inr ⟨_, rfl⟩, hstep⟩
  | published hp => exact Or.inr (Or.inl ⟨_, _, _, rfl, hp, rfl, rfl⟩)
  | _ => exact Or.inr (Or.inr rfl)

end AuraWellness.Chat.Live
