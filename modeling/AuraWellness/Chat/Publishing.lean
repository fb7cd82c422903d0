import AuraWellness.Lib.Attribution
import AuraWellness.Chat.Growth

/-!
# Saved messages and their publishes

`SendMessage` calls run beside each other while the goroutines they have
started publish to Redis. Redis queues a publish for the subscribers of its
channel and delivers each queue in order. The exchange remembers which call
has looked up which member, added which row and started which publish.
-/

namespace AuraWellness.Chat.Publishing

open AuraWellness.Lib.Calls AuraWellness.Lib.Transition AuraWellness.Lib.Keyed
open AuraWellness.Lib.Attribution
open AuraWellness.Chat.Entities AuraWellness.Chat.Schema AuraWellness.Chat.Repositories
open AuraWellness.Chat.Services AuraWellness.Chat.Growth

/-- `uuid.UUID.String()`: 32 hexadecimal digits in five groups. -/
def uuidText (id : Uuid) : String :=
  let digits := Nat.toDigits 16 id
  let padded := List.replicate (32 - digits.length) '0' ++ digits
  String.ofList (padded.take 8 ++ '-' :: ((padded.drop 8).take 4 ++ '-' :: ((padded.drop 12).take 4 ++
    '-' :: ((padded.drop 16).take 4 ++ '-' :: padded.drop 20))))

/-- `channelKey`. -/
def channelKey (conversationID : String) : String := "chat:" ++ conversationID

/-- What `Publish` sends: the channel and the event. -/
structure Posting where
  /-- The Redis channel. -/
  channel : String
  /-- The event. -/
  event : MessageEvent
  deriving DecidableEq, Repr

/-- What the goroutine of a publication sends. -/
def postingOf (p : Publication) : Posting :=
  ⟨channelKey (uuidText p.conversationID), p.event⟩

/-- A subscriber of a channel. -/
structure Subscriber where
  /-- The channel. -/
  channel : String
  /-- Events that Redis has queued for it, the oldest first. -/
  queue : List MessageEvent
  /-- Events that it has received, in the order of their arrival. -/
  received : List MessageEvent
  deriving DecidableEq, Repr

/-- The service, Redis, and what the calls have done so far. A call is named by
the position of its thread. A repository call here either takes effect and returns, or fails
without an effect: replies that are lost are left out. -/
structure Exchange where
  /-- The service with the goroutines that still have to publish. -/
  service : Service
  /-- The members that the lookups of the calls have returned. -/
  lookups : List (ℕ × ChatWorkspaceMember)
  /-- The rows that the calls have added to `chat_messages`. -/
  added : List (ℕ × ChatMessage)
  /-- The publishes that the calls have started. -/
  started : List (ℕ × Publication)
  /-- The events that `Publish` has sent, in the order in which Redis has taken them. One that
  Redis has not taken stands where its call has failed. -/
  published : List (Posting × Bool)
  /-- The subscribers of all channels. -/
  subscribers : List Subscriber

/-- The chat database. -/
abbrev Exchange.db (s : Exchange) : ChatDb := s.service.state.db

/-- A service that has just started on a database. -/
def Exchange.initial (db : ChatDb) : Exchange := ⟨⟨⟨db, []⟩, []⟩, [], [], [], [], []⟩

/-- What happens next. -/
inductive ExchangeLabel
  /-- A call arrives. -/
  | start (r : Request)
  /-- The next repository call of a call takes effect and returns. -/
  | serve (i : ℕ) (choice : Choice)
  /-- The next repository call of a call fails and has no effect. -/
  | fail (i : ℕ) (error : GoError)
  /-- The event of a started goroutine reaches Redis, which takes it, or its `Publish` fails. -/
  | publish (k : ℕ) (succeeds : Bool)
  /-- A subscriber joins a channel. -/
  | subscribe (channel : String)
  /-- The oldest queued event reaches a subscriber. -/
  | deliver (j : ℕ)
  /-- The oldest queued event is lost on its way to a subscriber. -/
  | discard (j : ℕ)

/-- The member that a repository call has looked up. -/
def observed : (op : ServiceCall) → Except GoError op.Reply → List ChatWorkspaceMember
  | .memberGetByWorkspaceAndPerson _ _, .ok member => [member]
  | _, _ => []

/-- The member that the next repository call of a thread looks up. -/
def lookedUp (service : Service) (i : ℕ) (t : Turn Choice GoError) : List ChatWorkspaceMember :=
  match service.threads[i]? with
  | some ⟨_, .call op _⟩ => observed op (chatMachine.answer op t service.state).1
  | _ => []

/-- The next repository call of a thread is answered. -/
def Exchange.turn (s : Exchange) (i : ℕ) (t : Turn Choice GoError) : Option Exchange :=
  (Service.step s.service (.turn i t)).map fun service =>
    { s with
      service
      lookups := s.lookups ++ tagged i (lookedUp s.service i t)
      added := s.added ++ tagged i (service.state.db.messages.drop s.db.messages.length)
      started := s.started ++
        tagged i (service.state.publishing.drop s.service.state.publishing.length) }

/-- A subscriber after Redis has taken a publish. -/
def Subscriber.enqueue (p : Posting) (sub : Subscriber) : Subscriber :=
  if sub.channel = p.channel then { sub with queue := sub.queue ++ [p.event] } else sub

/-- One step of the calls, of their goroutines or of Redis. -/
def Exchange.step (s : Exchange) : ExchangeLabel → Option Exchange
  | .start r => (Service.step s.service (.start r)).map fun service => { s with service }
  | .serve i choice => s.turn i (.serve choice)
  | .fail i error => s.turn i (.drop error)
  | .publish k succeeds =>
    match s.service.state.publishing[k]? with
    | some p =>
      some { s with
        service := { s.service with state := { s.service.state with
          publishing := s.service.state.publishing.eraseIdx k } }
        published := s.published ++ [(postingOf p, succeeds)]
        subscribers := if succeeds then s.subscribers.map (Subscriber.enqueue (postingOf p))
          else s.subscribers }
    | none => none
  | .subscribe channel => some { s with subscribers := s.subscribers ++ [⟨channel, [], []⟩] }
  | .deliver j =>
    match s.subscribers[j]? with
    | some ⟨channel, event :: queue, received⟩ =>
      some { s with subscribers := s.subscribers.set j ⟨channel, queue, received ++ [event]⟩ }
    | _ => none
  | .discard j =>
    match s.subscribers[j]? with
    | some ⟨channel, _ :: queue, received⟩ =>
      some { s with subscribers := s.subscribers.set j ⟨channel, queue, received⟩ }
    | _ => none

/-- The outcomes of a step, each with what the step requires. -/
inductive Exchange.Stepped (s : Exchange) : ExchangeLabel → Exchange → Prop
  | started {r : Request} :
    Stepped s (.start r) { s with service := ⟨s.service.state, s.service.threads ++ [⟨r, body r⟩]⟩ }
  | served {i : ℕ} {choice : Choice} {s' : Exchange} (ht : s.turn i (.serve choice) = some s') :
    Stepped s (.serve i choice) s'
  | failed {i : ℕ} {error : GoError} {s' : Exchange} (ht : s.turn i (.drop error) = some s') :
    Stepped s (.fail i error) s'
  | published {k : ℕ} {succeeds : Bool} {p : Publication}
    (hk : s.service.state.publishing[k]? = some p) :
    Stepped s (.publish k succeeds) { s with
      service := { s.service with state := { s.service.state with
        publishing := s.service.state.publishing.eraseIdx k } }
      published := s.published ++ [(postingOf p, succeeds)]
      subscribers := if succeeds then s.subscribers.map (Subscriber.enqueue (postingOf p))
        else s.subscribers }
  | subscribed {channel : String} :
    Stepped s (.subscribe channel) { s with subscribers := s.subscribers ++ [⟨channel, [], []⟩] }
  | delivered {j : ℕ} {channel : String} {event : MessageEvent} {queue received : List MessageEvent}
    (hj : s.subscribers[j]? = some ⟨channel, event :: queue, received⟩) :
    Stepped s (.deliver j)
      { s with subscribers := s.subscribers.set j ⟨channel, queue, received ++ [event]⟩ }
  | discarded {j : ℕ} {channel : String} {event : MessageEvent} {queue received : List MessageEvent}
    (hj : s.subscribers[j]? = some ⟨channel, event :: queue, received⟩) :
    Stepped s (.discard j) { s with subscribers := s.subscribers.set j ⟨channel, queue, received⟩ }

/-- Every step has one of the outcomes. -/
theorem Exchange.stepped {s s' : Exchange} {l : ExchangeLabel} (h : s.step l = some s') :
    Stepped s l s' := by
  cases l with
  | start r =>
    cases h
    exact .started
  | serve i choice => exact .served h
  | fail i error => exact .failed h
  | publish k succeeds =>
    simp only [Exchange.step] at h
    split at h
    · rename_i p hk
      cases h
      exact .published hk
    · cases h
  | subscribe channel =>
    cases h
    exact .subscribed
  | deliver j =>
    simp only [Exchange.step] at h
    split at h
    · rename_i channel event queue received hj
      cases h
      exact .delivered hj
    · cases h
  | discard j =>
    simp only [Exchange.step] at h
    split at h
    · rename_i channel event queue received hj
      cases h
      exact .discarded hj
    · cases h

/-- What a thread is about to publish. -/
def announcement (th : Thread serviceSignature GoError Response Request) : Option Posting :=
  match th.prog with
  | .call (.goPublish c event) _ => some (postingOf ⟨c, event⟩)
  | _ => none

/-- Everything that is published or about to be published: by a thread that has
not started its goroutine yet, by a started goroutine, or by a call of `Publish`
that was made. -/
def Exchange.postings (s : Exchange) : List Posting :=
  s.service.threads.filterMap announcement ++ s.service.state.publishing.map postingOf ++
    s.published.map Prod.fst

/-- Published if and only if saved, since the service started on a database. -/
structure PublishedIffSaved (db : ChatDb) (s : Exchange) : Prop where
  /-- Every event is a row of `chat_messages` on the channel of its conversation. -/
  posted : ∀ p ∈ s.postings, p.event.message ∈ s.db.messages ∧
    p.channel = "chat:" ++ uuidText p.event.message.conversationID
  /-- A row is published at most once. -/
  once : ∀ row, (s.postings.map fun p => p.event.message).count row ≤ 1
  /-- Every row was there before or was added by a call. -/
  rows : s.db.messages = db.messages ++ s.added.map Prod.snd
  /-- Every publish was started by a call. -/
  causes : (s.started.map fun e => postingOf e.2).Perm
    (s.service.state.publishing.map postingOf ++ s.published.map Prod.fst)
  /-- A call that has failed has added no row and started no publish. -/
  failed : ∀ i r e, s.service.threads[i]? = some ⟨r, .ret (.error e)⟩ →
    entriesOf i s.added = [] ∧ entriesOf i s.started = []
  /-- A send that has succeeded has returned the one row that it added, and has
  started the publish of that row. -/
  succeeded : ∀ i w c person name content stamps response,
    s.service.threads[i]? =
      some ⟨⟨.sendMessage w c person name content, stamps⟩, .ret (.ok response)⟩ →
    ∃ row, response = .message row ∧ entriesOf i s.added = [row] ∧ entriesOf i s.started = [⟨c, ⟨row⟩⟩]
  /-- Rows are added by sends that have looked up a member with access and that
  name no nil identifier and some content. -/
  checked : ∀ i row, (i, row) ∈ s.added → ∃ w c person name content stamps prog,
    s.service.threads[i]? = some ⟨⟨.sendMessage w c person name content, stamps⟩, prog⟩ ∧
    (∃ member ∈ entriesOf i s.lookups, member.hasAccess = true) ∧
    w ≠ Uuid.nil ∧ c ≠ Uuid.nil ∧ person ≠ Uuid.nil ∧ content ≠ "" ∧
    row.workspaceID = w ∧ row.conversationID = c ∧ row.personID = person ∧
    row.senderName = name ∧ row.content = content

/-- Repository calls that neither save a message nor start a publish. -/
def Silent (op : ServiceCall) : Prop :=
  (∀ m, op ≠ .messageSave m) ∧ ∀ c event, op ≠ .goPublish c event

/-- The rows and the publishes that a state has more than another. -/
structure Appends (s s' : ChatState) (rows : List ChatMessage) (ps : List Publication) : Prop where
  messages : s'.db.messages = s.db.messages ++ rows
  publishing : s'.publishing = s.publishing ++ ps

theorem Appends.refl (s : ChatState) : Appends s s [] [] :=
  ⟨(List.append_nil _).symm, (List.append_nil _).symm⟩

/-- A silent call appends nothing. -/
theorem exec_silent {op : ServiceCall} (h : Silent op) (choice : Choice) (s : ChatState) :
    Appends s (op.exec choice s).2 [] [] := by
  constructor
  · rw [List.append_nil]
    obtain he | ⟨_, _, -, -, he⟩ | ⟨_, he⟩ | ⟨_, -, he⟩ | ⟨_, _, -, -, -, he⟩ | ⟨_, _, -, -, he⟩ |
      ⟨m, _, hop, -, -⟩ := (exec_effect op choice s).tables
    · rw [he]
    · rw [he]
    · rw [he]
    · rw [he]
    · rw [he]
    · rw [he]
    · exact absurd hop (h.1 m)
  · rw [List.append_nil]
    cases op with
    | workspaceCreate w => exact commitWrite_publishing _ _ _
    | memberUpsert m => exact commitWrite_publishing _ _ _
    | memberUpdateAccess w p access => exact commitWrite_publishing _ _ _
    | messageSave m => exact absurd rfl (h.1 m)
    | conversationCreate c => exact commitWrite_publishing _ _ _
    | conversationAddParticipant p => exact commitWrite_publishing _ _ _
    | goPublish c event => exact absurd rfl (h.2 c event)
    | workspaceGetByBuID bu => rfl
    | workspaceGetByID id => rfl
    | memberListByWorkspace w => rfl
    | memberGetByWorkspaceAndPerson w p => rfl
    | messageList c before limit => rfl
    | conversationGetByID id => rfl
    | conversationGetGroupByWorkspace w => rfl
    | conversationGetDMByParticipants w a b => rfl
    | conversationListByWorkspaceAndPerson w p => rfl
    | conversationListParticipants c => rfl

/-- Whatever a silent call is answered, it appends nothing. -/
theorem answer_silent {op : ServiceCall} (h : Silent op) (t : Turn Choice GoError) (s : ChatState) :
    Appends s (chatMachine.answer op t s).2 [] [] := by
  obtain he | ⟨choice, he⟩ := chatMachine.answer_state op t s
  · rw [he]
    exact Appends.refl s
  · rw [he]
    exact exec_silent h choice s

/-- A save returns the one row that it appends, or fails and appends none. -/
theorem exec_messageSave (m : ChatMessage) (choice : Choice) (s : ChatState) :
    (∃ row, row = { m with id := choice.uuid, createdAt := choice.now } ∧
      (ServiceCall.exec (.messageSave m) choice s).1 = .ok row ∧
      Appends s (ServiceCall.exec (.messageSave m) choice s).2 [row] []) ∨
    (∃ e, (ServiceCall.exec (.messageSave m) choice s).1 = .error e ∧
      Appends s (ServiceCall.exec (.messageSave m) choice s).2 [] []) := by
  have hexec : ServiceCall.exec (.messageSave m) choice s =
      commitWrite "save message" s (s.db.insertMessage choice m) := rfl
  rw [hexec]
  obtain ⟨row, d, hr, hc⟩ | ⟨e, hr, hc⟩ :=
    commitWrite_cases "save message" s (s.db.insertMessage choice m)
  · obtain ⟨-, -, -, hrow, hd⟩ := insertMessage_ok_iff.mp hr
    rw [hc]
    refine Or.inl ⟨row, hrow, rfl, ?_, ?_⟩
    · dsimp only
      rw [hd]
    · exact (List.append_nil _).symm
  · rw [hc]
    exact Or.inr ⟨_, rfl, Appends.refl s⟩

/-- A turn of a call is an answer that the call is served or is dropped. -/
def Plain : Turn Choice GoError → Prop
  | .lost _ _ => False
  | _ => True

/-- What the program of a send still does once the row is stored. -/
def afterSave (c : Uuid) (saved : ChatMessage) : ServiceProgram Response :=
  .message <$> (do
    perform (.goPublish c ⟨saved⟩)
    return saved)

/-- What the program of a send still does once the message is built. -/
def afterCheck (c : Uuid) (msg : ChatMessage) : ServiceProgram Response :=
  .message <$> (do
    let saved ← perform (.messageSave msg)
    perform (.goPublish c ⟨saved⟩)
    return saved)

/-- What the program of a send still does once its lookup has returned. -/
def afterLookup (stamps : ℕ → Stamp) (w c person : Uuid) (name content : String) :
    Except GoError ChatWorkspaceMember → ServiceProgram Response
  | .error e => .ret (.error e)
  | .ok member =>
    if member.hasAccess = false then .ret (.error errChatAccessDenied)
    else
      match newMessage (stamps 0) w c person name content with
      | .error e => .ret (.error e)
      | .ok msg => afterCheck c msg

/-- The program of a send begins with the lookup of the member. -/
theorem body_sendMessage (w c person : Uuid) (name content : String) (stamps : ℕ → Stamp) :
    body ⟨.sendMessage w c person name content, stamps⟩ =
      .call (.memberGetByWorkspaceAndPerson w person)
        (afterLookup stamps w c person name content) := by
  have hbody : body ⟨.sendMessage w c person name content, stamps⟩ =
      .message <$> MessagingService.sendMessage stamps w c person name content := rfl
  rw [hbody]
  unfold MessagingService.sendMessage
  refine congrArg (Program.call _) (funext fun r => ?_)
  cases r with
  | error e => rfl
  | ok member =>
    have hmember : ∀ f : ChatWorkspaceMember → ServiceProgram ChatMessage,
        Program.bind (.ret (.ok member)) f = f member := fun _ => rfl
    refine (congrArg (fun p : ServiceProgram ChatMessage => Response.message <$> p)
      (hmember _)).trans ?_
    unfold afterLookup
    by_cases haccess : member.hasAccess = false
    · simp only [if_pos haccess]
      rfl
    · simp only [if_neg haccess]
      cases newMessage (stamps 0) w c person name content with
      | error e => rfl
      | ok msg => rfl

/-- Where a call stands, by what it has looked up, added and started. -/
inductive Stands : Request → ServiceProgram Response → List ChatWorkspaceMember →
    List ChatMessage → List Publication → Prop
  /-- A call that is not a send. -/
  | other {r : Request} {q : ServiceProgram Response} {members : List ChatWorkspaceMember}
      (hr : ∀ w c person name content, r.call ≠ .sendMessage w c person name content)
      (hq : q.AllOps Silent) : Stands r q members [] []
  /-- A send before its lookup. -/
  | looking {w c person : Uuid} {name content : String} {stamps : ℕ → Stamp} :
      Stands ⟨.sendMessage w c person name content, stamps⟩
        (body ⟨.sendMessage w c person name content, stamps⟩) [] [] []
  /-- A send before its save. -/
  | saving {w c person : Uuid} {name content : String} {stamps : ℕ → Stamp}
      {member : ChatWorkspaceMember} {msg : ChatMessage} (haccess : member.hasAccess = true)
      (hmsg : newMessage (stamps 0) w c person name content = .ok msg) :
      Stands ⟨.sendMessage w c person name content, stamps⟩ (afterCheck c msg) [member] [] []
  /-- A send before its publish. -/
  | announcing {w c person : Uuid} {name content : String} {stamps : ℕ → Stamp}
      {member : ChatWorkspaceMember} {msg row : ChatMessage} {choice : Choice}
      (haccess : member.hasAccess = true)
      (hmsg : newMessage (stamps 0) w c person name content = .ok msg)
      (hrow : row = { msg with id := choice.uuid, createdAt := choice.now }) :
      Stands ⟨.sendMessage w c person name content, stamps⟩ (afterSave c row) [member] [row] []
  /-- A send that has returned its row. -/
  | returned {w c person : Uuid} {name content : String} {stamps : ℕ → Stamp}
      {member : ChatWorkspaceMember} {msg row : ChatMessage} {choice : Choice}
      (haccess : member.hasAccess = true)
      (hmsg : newMessage (stamps 0) w c person name content = .ok msg)
      (hrow : row = { msg with id := choice.uuid, createdAt := choice.now }) :
      Stands ⟨.sendMessage w c person name content, stamps⟩ (.ret (.ok (.message row))) [member]
        [row] [⟨c, ⟨row⟩⟩]
  /-- A send that has failed. -/
  | failed {w c person : Uuid} {name content : String} {stamps : ℕ → Stamp} {e : GoError}
      {members : List ChatWorkspaceMember} :
      Stands ⟨.sendMessage w c person name content, stamps⟩ (.ret (.error e)) members [] []

/-- Every call stands at its beginning when it arrives. -/
theorem Stands.start (r : Request) : Stands r (body r) [] [] [] := by
  by_cases hsend : ∃ w c person name content, r.call = .sendMessage w c person name content
  · obtain ⟨call, stamps⟩ := r
    obtain ⟨w, c, person, name, content, rfl⟩ := hsend
    exact Stands.looking
  · have hother : ∀ w c person name content, r.call ≠ .sendMessage w c person name content :=
      fun w c person name content he => hsend ⟨w, c, person, name, content, he⟩
    refine Stands.other hother ((body_makes r).mono fun op hop => ⟨fun m hm => ?_, fun c event hp => ?_⟩)
    · generalize hcall : r.call = call at hop
      rw [hm] at hop
      cases hop
      exact hother _ _ _ _ _ hcall
    · generalize hcall : r.call = call at hop
      rw [hp] at hop
      cases hop
      exact hother _ _ _ _ _ hcall

/-- What one turn of a call looks up, appends and leads to. -/
def Stands.Leads (r : Request) (members : List ChatWorkspaceMember) (rows : List ChatMessage)
    (ps : List Publication) (s s' : ChatState) (seen : List ChatWorkspaceMember)
    (q : ServiceProgram Response) : Prop :=
  ∃ newRows newPs, Appends s s' newRows newPs ∧
    Stands r q (members ++ seen) (rows ++ newRows) (ps ++ newPs)

/-- The lookup of a send lets it go on when the member has access. -/
theorem Stands.turn_looking (w c person : Uuid) (name content : String) (stamps : ℕ → Stamp)
    (t : Turn Choice GoError) (s : ChatState) :
    Stands.Leads ⟨.sendMessage w c person name content, stamps⟩ [] [] [] s
      (chatMachine.answer (.memberGetByWorkspaceAndPerson w person) t s).2
      (observed (.memberGetByWorkspaceAndPerson w person)
        (chatMachine.answer (.memberGetByWorkspaceAndPerson w person) t s).1)
      (afterLookup stamps w c person name content
        (chatMachine.answer (.memberGetByWorkspaceAndPerson w person) t s).1) := by
  have hsilent : Silent (.memberGetByWorkspaceAndPerson w person) :=
    ⟨fun m hm => (by cases hm), fun c event hp => (by cases hp)⟩
  refine ⟨[], [], answer_silent hsilent t s, ?_⟩
  cases (chatMachine.answer (.memberGetByWorkspaceAndPerson w person) t s).1 with
  | error e => exact Stands.failed
  | ok member =>
    unfold afterLookup
    dsimp only [observed]
    by_cases haccess : member.hasAccess = false
    · rw [if_pos haccess]
      exact Stands.failed
    · rw [if_neg haccess]
      cases hmsg : newMessage (stamps 0) w c person name content with
      | error e => exact Stands.failed
      | ok msg => exact Stands.saving (by simpa using haccess) hmsg

/-- The save of a send returns the row that it has added. -/
theorem Stands.turn_saving {w c person : Uuid} {name content : String} {stamps : ℕ → Stamp}
    {member : ChatWorkspaceMember} {msg : ChatMessage} (haccess : member.hasAccess = true)
    (hmsg : newMessage (stamps 0) w c person name content = .ok msg) {t : Turn Choice GoError}
    (ht : Plain t) (s : ChatState) :
    ∃ next, afterCheck c msg = .call (.messageSave msg) next ∧
      Stands.Leads ⟨.sendMessage w c person name content, stamps⟩ [member] [] [] s
        (chatMachine.answer (.messageSave msg) t s).2
        (observed (.messageSave msg) (chatMachine.answer (.messageSave msg) t s).1)
        (next (chatMachine.answer (.messageSave msg) t s).1) := by
  refine ⟨_, rfl, ?_⟩
  cases t with
  | drop e => exact ⟨[], [], Appends.refl s, Stands.failed⟩
  | lost choice e => exact ht.elim
  | serve choice =>
    have hanswer : chatMachine.answer (.messageSave msg) (.serve choice) s =
        ServiceCall.exec (.messageSave msg) choice s := rfl
    rw [hanswer]
    obtain ⟨row, hrow, hreply, happends⟩ | ⟨e, hreply, happends⟩ := exec_messageSave msg choice s
    · rw [hreply]
      exact ⟨[row], [], happends, Stands.announcing haccess hmsg hrow⟩
    · rw [hreply]
      exact ⟨[], [], happends, Stands.failed⟩

/-- The last call of a send starts the goroutine and cannot fail. -/
theorem Stands.turn_announcing {w c person : Uuid} {name content : String} {stamps : ℕ → Stamp}
    {member : ChatWorkspaceMember} {msg row : ChatMessage} {choice : Choice}
    (haccess : member.hasAccess = true)
    (hmsg : newMessage (stamps 0) w c person name content = .ok msg)
    (hrow : row = { msg with id := choice.uuid, createdAt := choice.now })
    {t : Turn Choice GoError} (hadmits : chatMachine.Admits (.goPublish c ⟨row⟩) t = true)
    (s : ChatState) :
    ∃ next, afterSave c row = .call (.goPublish c ⟨row⟩) next ∧
      Stands.Leads ⟨.sendMessage w c person name content, stamps⟩ [member] [row] [] s
        (chatMachine.answer (.goPublish c ⟨row⟩) t s).2
        (observed (.goPublish c ⟨row⟩) (chatMachine.answer (.goPublish c ⟨row⟩) t s).1)
        (next (chatMachine.answer (.goPublish c ⟨row⟩) t s).1) := by
  refine ⟨_, rfl, ?_⟩
  cases t with
  | drop e => cases hadmits
  | lost choice e => cases hadmits
  | serve choice =>
    exact ⟨[], [⟨c, ⟨row⟩⟩], ⟨(List.append_nil _).symm, rfl⟩, Stands.returned haccess hmsg hrow⟩

/-- Every turn of a call leads it to where it stands next. -/
theorem Stands.turn {r : Request} {op : ServiceCall}
    {next : Except GoError op.Reply → ServiceProgram Response}
    {members : List ChatWorkspaceMember} {rows : List ChatMessage} {ps : List Publication}
    (h : Stands r (.call op next) members rows ps) {t : Turn Choice GoError}
    (hadmits : chatMachine.Admits op t = true) (ht : Plain t) (s : ChatState) :
    Stands.Leads r members rows ps s (chatMachine.answer op t s).2
      (observed op (chatMachine.answer op t s).1) (next (chatMachine.answer op t s).1) := by
  generalize hq : (Program.call op next : ServiceProgram Response) = q at h
  cases h with
  | other hr hsilent =>
    subst hq
    exact ⟨[], [], answer_silent hsilent.1 t s, Stands.other hr (hsilent.2 _)⟩
  | looking =>
    rw [body_sendMessage] at hq
    cases hq
    exact Stands.turn_looking _ _ _ _ _ _ t s
  | saving haccess hmsg =>
    obtain ⟨next', hnext, hleads⟩ := Stands.turn_saving haccess hmsg ht s
    rw [hnext] at hq
    cases hq
    exact hleads
  | announcing haccess hmsg hrow =>
    cases hq
    obtain ⟨next', hnext, hleads⟩ := Stands.turn_announcing haccess hmsg hrow hadmits s
    cases hnext
    exact hleads
  | returned haccess hmsg hrow => cases hq
  | failed => cases hq

/-- What the exchange remembers of the calls is what they have done. -/
structure Accounted (db : ChatDb) (s : Exchange) : Prop where
  rows : s.db.messages = db.messages ++ s.added.map Prod.snd
  causes : (s.started.map fun e => postingOf e.2).Perm
    (s.service.state.publishing.map postingOf ++ s.published.map Prod.fst)
  stands : ∀ i th, s.service.threads[i]? = some th → Stands th.req th.prog
    (entriesOf i s.lookups) (entriesOf i s.added) (entriesOf i s.started)
  known : ∀ i, s.service.threads.length ≤ i →
    entriesOf i s.lookups = [] ∧ entriesOf i s.added = [] ∧ entriesOf i s.started = []

theorem Accounted.initial (db : ChatDb) : Accounted db (Exchange.initial db) where
  rows := (List.append_nil _).symm
  causes := List.Perm.refl _
  stands i th hi := by cases hi
  known i _ := ⟨rfl, rfl, rfl⟩

/-- A new call has done nothing yet. -/
theorem Accounted.start {db : ChatDb} {s : Exchange} (h : Accounted db s) (r : Request) :
    Accounted db { s with service := { s.service with threads := s.service.threads ++ [⟨r, body r⟩] } } where
  rows := h.rows
  causes := h.causes
  stands i th hi := by
    obtain ⟨hlength, rfl⟩ | hi := getElem?_concat_cases hi
    · obtain ⟨hlookups, hadded, hstarted⟩ := h.known i (by omega)
      rw [hlookups, hadded, hstarted]
      exact Stands.start r
    · exact h.stands i th hi
  known i hi := by
    rw [List.length_append] at hi
    exact h.known i (by omega)

/-- Publishes that a call starts are waiting. -/
theorem perm_append_middle {α : Type*} {started waiting done : List α} (new : List α)
    (h : started.Perm (waiting ++ done)) : (started ++ new).Perm ((waiting ++ new) ++ done) := by
  have hnew : (started ++ new).Perm ((waiting ++ done) ++ new) := h.append_right new
  have hswap : (waiting ++ (done ++ new)).Perm (waiting ++ (new ++ done)) :=
    List.perm_append_comm.append_left waiting
  rw [List.append_assoc] at hnew ⊢
  exact hnew.trans hswap

/-- A turn of a call is remembered as what it has done. -/
theorem Accounted.turn {db : ChatDb} {s s' : Exchange} (h : Accounted db s) {i : ℕ}
    {t : Turn Choice GoError} (ht : Plain t) (hstep : s.turn i t = some s') : Accounted db s' := by
  obtain ⟨service, hservice, rfl⟩ := Option.map_eq_some_iff.mp hstep
  obtain ⟨r, op, next, hi, hadmits, rfl⟩ := Pool.step_turn hservice
  have hlt : i < s.service.threads.length := (List.getElem?_eq_some_iff.mp hi).1
  have hlooked : lookedUp s.service i t = observed op (chatMachine.answer op t s.service.state).1 := by
    unfold lookedUp
    rw [hi]
  obtain ⟨newRows, newPs, ⟨hmessages, hpublishing⟩, hstands⟩ :=
    (h.stands i _ hi).turn hadmits ht s.service.state
  dsimp only at hstands
  have hrows : (chatMachine.answer op t s.service.state).2.db.messages.drop s.db.messages.length =
      newRows := by
    rw [hmessages, List.drop_left]
  have hps : (chatMachine.answer op t s.service.state).2.publishing.drop
      s.service.state.publishing.length = newPs := by
    rw [hpublishing, List.drop_left]
  dsimp only
  rw [hlooked, hrows, hps]
  refine ⟨?_, ?_, fun j th hj => ?_, fun j hj => ?_⟩
  · unfold Exchange.db
    dsimp only
    rw [hmessages, List.map_append, map_snd_tagged, ← List.append_assoc]
    exact congrArg (· ++ newRows) h.rows
  · dsimp only
    have hnew : (tagged i newPs).map (fun e => postingOf e.2) = newPs.map postingOf := by
      unfold tagged
      rw [List.map_map]
      rfl
    rw [hpublishing, List.map_append, List.map_append, hnew]
    exact perm_append_middle _ h.causes
  · simp only [entriesOf_append]
    obtain ⟨rfl, rfl⟩ | ⟨hne, hj⟩ := getElem?_set_cases hj
    · simp only [entriesOf_tagged_self]
      exact hstands
    · simp only [entriesOf_tagged_other (Ne.symm hne), List.append_nil]
      exact h.stands j th hj
  · dsimp only at hj
    rw [List.length_set] at hj
    have hne : i ≠ j := by omega
    simp only [entriesOf_append, entriesOf_tagged_other hne, List.append_nil]
    exact h.known j hj

/-- A call of `Publish` is made for a started publish. -/
theorem Accounted.publish {db : ChatDb} {s : Exchange} (h : Accounted db s) {k : ℕ}
    {p : Publication} (hk : s.service.state.publishing[k]? = some p) (succeeds : Bool)
    (subscribers : List Subscriber) :
    Accounted db { s with
      service := { s.service with state := { s.service.state with
        publishing := s.service.state.publishing.eraseIdx k } }
      published := s.published ++ [(postingOf p, succeeds)]
      subscribers } where
  rows := h.rows
  stands := h.stands
  known := h.known
  causes := by
    obtain ⟨hlt, hp⟩ := List.getElem?_eq_some_iff.mp hk
    have herase : (s.service.state.publishing.map postingOf).Perm
        (postingOf p :: (s.service.state.publishing.eraseIdx k).map postingOf) := by
      rw [← List.map_cons, ← hp]
      exact (List.getElem_cons_eraseIdx_perm hlt).symm.map _
    dsimp only
    rw [List.map_append, List.map_singleton, ← List.append_assoc]
    refine h.causes.trans ((herase.append_right _).trans ?_)
    rw [List.cons_append]
    exact (List.perm_append_singleton _ _).symm

/-- Every step is accounted for. -/
theorem Accounted.step {db : ChatDb} {s s' : Exchange} {l : ExchangeLabel} (h : Accounted db s)
    (hstep : Exchange.step s l = some s') : Accounted db s' := by
  -- subscribers are no part of the account
  have listeners : ∀ subscribers, Accounted db { s with subscribers } :=
    fun subscribers => ⟨h.rows, h.causes, h.stands, h.known⟩
  cases Exchange.stepped hstep with
  | started => exact h.start _
  | @served i choice _ ht => exact h.turn (t := .serve choice) trivial ht
  | @failed i error _ ht => exact h.turn (t := .drop error) trivial ht
  | published hk => exact h.publish hk _ _
  | subscribed => exact listeners _
  | delivered hj => exact listeners _
  | discarded hj => exact listeners _

/-- The row of a send is the message of its request, stored. -/
theorem newMessage_row {stamp : Stamp} {w c person : Uuid} {name content : String}
    {msg row : ChatMessage} {choice : Choice} (hmsg : newMessage stamp w c person name content = .ok msg)
    (hrow : row = { msg with id := choice.uuid, createdAt := choice.now }) :
    w ≠ Uuid.nil ∧ c ≠ Uuid.nil ∧ person ≠ Uuid.nil ∧ content ≠ "" ∧
      row.workspaceID = w ∧ row.conversationID = c ∧ row.personID = person ∧
      row.senderName = name ∧ row.content = content := by
  obtain ⟨hw, hc, hperson, hcontent, rfl⟩ := newMessage_ok.mp hmsg
  subst hrow
  exact ⟨hw, hc, hperson, hcontent, rfl, rfl, rfl, rfl, rfl⟩

/-- What a thread is about to publish is the row that it has added. -/
theorem Stands.announced {th : Thread serviceSignature GoError Response Request}
    {members : List ChatWorkspaceMember} {rows : List ChatMessage} {ps : List Publication}
    (h : Stands th.req th.prog members rows ps) {p : Posting} (hp : announcement th = some p) :
    ∃ row, rows = [row] ∧ ps = [] ∧ p = postingOf ⟨row.conversationID, ⟨row⟩⟩ := by
  obtain ⟨r, q⟩ := th
  dsimp only at h
  cases h with
  | other hr hq =>
    unfold announcement at hp
    dsimp only at hp
    split at hp
    · exact absurd rfl (hq.1.2 _ _)
    · cases hp
  | looking =>
    rw [body_sendMessage] at hp
    cases hp
  | saving haccess hmsg => cases hp
  | announcing haccess hmsg hrow =>
    cases hp
    obtain ⟨-, -, -, -, -, hconversation, -⟩ := newMessage_row hmsg hrow
    rw [← hconversation]
    exact ⟨_, rfl, rfl, rfl⟩
  | returned haccess hmsg hrow => cases hp
  | failed => cases hp

/-- What a call has started is the publish of the row that it has added, once. -/
theorem Stands.started {r : Request} {q : ServiceProgram Response}
    {members : List ChatWorkspaceMember} {rows : List ChatMessage} {ps : List Publication}
    (h : Stands r q members rows ps) :
    ps = [] ∨ ∃ row, rows = [row] ∧ ps = [⟨row.conversationID, ⟨row⟩⟩] := by
  cases h with
  | returned haccess hmsg hrow =>
    obtain ⟨-, -, -, -, -, hconversation, -⟩ := newMessage_row hmsg hrow
    rw [← hconversation]
    exact Or.inr ⟨_, rfl, rfl⟩
  | other hr hq => exact Or.inl rfl
  | looking => exact Or.inl rfl
  | saving haccess hmsg => exact Or.inl rfl
  | announcing haccess hmsg hrow => exact Or.inl rfl
  | failed => exact Or.inl rfl

/-- A call with entries has arrived. -/
theorem Accounted.thread {db : ChatDb} {s : Exchange} (h : Accounted db s) {i : ℕ}
    (hi : entriesOf i s.added ≠ [] ∨ entriesOf i s.started ≠ []) :
    ∃ th, s.service.threads[i]? = some th := by
  by_cases hlt : i < s.service.threads.length
  · exact ⟨_, List.getElem?_eq_getElem hlt⟩
  · obtain ⟨-, hadded, hstarted⟩ := h.known i (by omega)
    obtain hi | hi := hi
    · exact absurd hadded hi
    · exact absurd hstarted hi

/-- A started publish is the publish of the one row that its call has added. -/
theorem Accounted.started_row {db : ChatDb} {s : Exchange} (h : Accounted db s) {i : ℕ}
    {p : Publication} (hp : (i, p) ∈ s.started) :
    ∃ row, entriesOf i s.added = [row] ∧ entriesOf i s.started = [p] ∧
      p = ⟨row.conversationID, ⟨row⟩⟩ := by
  have hmem : p ∈ entriesOf i s.started := mem_entriesOf.mpr hp
  obtain ⟨th, hth⟩ := h.thread (Or.inr (List.ne_nil_of_mem hmem))
  obtain hnone | ⟨row, hrows, hps⟩ := (h.stands i th hth).started
  · rw [hnone] at hmem
    cases hmem
  · rw [hps] at hmem
    have he : p = ⟨row.conversationID, ⟨row⟩⟩ := List.mem_singleton.mp hmem
    exact ⟨row, hrows, by rw [hps, he], he⟩

/-- No two calls have added the same row. -/
theorem Accounted.added_inj {db : ChatDb} {s : Exchange} (h : Accounted db s) {i j : ℕ}
    {row : ChatMessage} (hi : (i, row) ∈ s.added) (hj : (j, row) ∈ s.added) : i = j := by
  have hnodup : s.db.messages.Nodup := s.db.valid.messages_id.nodup
  rw [h.rows] at hnodup
  have hrows : (s.added.map Prod.snd).Nodup := hnodup.of_append_right
  have he : (i, row) = (j, row) := List.inj_on_of_nodup_map hrows hi hj rfl
  exact congrArg Prod.fst he

/-- An added row is stored. -/
theorem Accounted.added_stored {db : ChatDb} {s : Exchange} (h : Accounted db s) {i : ℕ}
    {row : ChatMessage} (hi : (i, row) ∈ s.added) : row ∈ s.db.messages := by
  rw [h.rows]
  exact List.mem_append_right _ (List.mem_map_of_mem hi)

/-- Everything published or about to be published is the row of a call. -/
theorem Accounted.posting_row {db : ChatDb} {s : Exchange} (h : Accounted db s) {p : Posting}
    (hp : p ∈ s.postings) :
    ∃ i row, (i, row) ∈ s.added ∧ p = postingOf ⟨row.conversationID, ⟨row⟩⟩ := by
  unfold Exchange.postings at hp
  rw [List.append_assoc] at hp
  obtain hannounced | hstarted := List.mem_append.mp hp
  · obtain ⟨th, hth, hp⟩ := List.mem_filterMap.mp hannounced
    obtain ⟨i, hi⟩ := List.mem_iff_getElem?.mp hth
    obtain ⟨row, hrows, -, rfl⟩ := (h.stands i th hi).announced hp
    have hrow : row ∈ entriesOf i s.added := by rw [hrows]; exact List.mem_singleton_self row
    exact ⟨i, row, mem_entriesOf.mp hrow, rfl⟩
  · obtain ⟨⟨i, q⟩, hq, rfl⟩ := List.mem_map.mp (h.causes.mem_iff.mpr hstarted)
    obtain ⟨row, hrows, -, rfl⟩ := h.started_row hq
    have hrow : row ∈ entriesOf i s.added := by rw [hrows]; exact List.mem_singleton_self row
    exact ⟨i, row, mem_entriesOf.mp hrow, rfl⟩

/-- The threads announce different rows. -/
theorem Accounted.announced_nodup {db : ChatDb} {s : Exchange} (h : Accounted db s) :
    (s.service.threads.filterMap fun th => (announcement th).map fun p => p.event.message).Nodup := by
  refine List.pairwise_filterMap.mpr (List.pairwise_iff_getElem.mpr fun i j hi hj hij => ?_)
  -- two threads that announce one row would both have added it
  intro row hrow row' hrow' he
  subst he
  have added : ∀ k (hk : k < s.service.threads.length),
      ((announcement s.service.threads[k]).map fun p => p.event.message) = some row →
        (k, row) ∈ s.added := by
    intro k hk hannounced
    obtain ⟨p, hp, rfl⟩ := Option.map_eq_some_iff.mp hannounced
    obtain ⟨stored, hrows, -, rfl⟩ := (h.stands k _ (List.getElem?_eq_getElem hk)).announced hp
    refine mem_entriesOf.mp ?_
    rw [hrows]
    exact List.mem_singleton_self _
  have hsame := h.added_inj (added i hi hrow) (added j hj hrow')
  omega

/-- The started publishes are of different rows. -/
theorem Accounted.started_nodup {db : ChatDb} {s : Exchange} (h : Accounted db s) :
    (s.started.map fun e => e.2.event.message).Nodup := by
  have hentries : s.started.Nodup := by
    refine nodup_of_entriesOf fun i => ?_
    cases hp : entriesOf i s.started with
    | nil => exact List.nodup_nil
    | cons p rest =>
      have hmem : p ∈ entriesOf i s.started := by rw [hp]; exact List.mem_cons_self
      obtain ⟨row, -, hone, -⟩ := h.started_row (mem_entriesOf.mp hmem)
      rw [← hp, hone]
      exact List.nodup_singleton p
  refine hentries.map_on ?_
  intro e he e' he' hsame
  obtain ⟨i, p⟩ := e
  obtain ⟨j, q⟩ := e'
  obtain ⟨row, hrows, hp, rfl⟩ := h.started_row he
  obtain ⟨row', hrows', hq, rfl⟩ := h.started_row he'
  have hrow : row = row' := hsame
  subst hrow
  have hi : (i, row) ∈ s.added := mem_entriesOf.mp (by rw [hrows]; exact List.mem_singleton_self row)
  have hj : (j, row) ∈ s.added := mem_entriesOf.mp (by rw [hrows']; exact List.mem_singleton_self row)
  rw [h.added_inj hi hj]

/-- No row is published twice. -/
theorem Accounted.postings_nodup {db : ChatDb} {s : Exchange} (h : Accounted db s) :
    (s.postings.map fun p => p.event.message).Nodup := by
  have hcauses : (s.started.map fun e => e.2.event.message).Perm
      ((s.service.state.publishing.map postingOf ++ s.published.map Prod.fst).map
        fun p => p.event.message) := by
    have hmap := h.causes.map fun p : Posting => p.event.message
    rw [List.map_map] at hmap
    exact hmap
  unfold Exchange.postings
  rw [List.append_assoc, List.map_append, List.map_filterMap]
  refine List.nodup_append.mpr ⟨h.announced_nodup, hcauses.nodup_iff.mp h.started_nodup, ?_⟩
  intro row hannounced row' hposted he
  subst he
  obtain ⟨th, hth, hmessage⟩ := List.mem_filterMap.mp hannounced
  obtain ⟨p, hp, rfl⟩ := Option.map_eq_some_iff.mp hmessage
  obtain ⟨i, hi⟩ := List.mem_iff_getElem?.mp hth
  obtain ⟨row, hrows, hstarted, rfl⟩ := (h.stands i th hi).announced hp
  obtain ⟨⟨j, q⟩, hq, hsame⟩ := List.mem_map.mp (hcauses.mem_iff.mpr hposted)
  obtain ⟨row', hrows', hone, rfl⟩ := h.started_row hq
  have hrow : row' = row := hsame
  subst hrow
  have hi' : (i, row') ∈ s.added := mem_entriesOf.mp (by rw [hrows]; exact List.mem_singleton_self row')
  have hj' : (j, row') ∈ s.added := mem_entriesOf.mp (by rw [hrows']; exact List.mem_singleton_self row')
  -- the thread that still announces the row has started nothing
  rw [← h.added_inj hi' hj', hstarted] at hone
  cases hone

/-- What the account says about the published and the saved. -/
theorem Accounted.publishedIffSaved {db : ChatDb} {s : Exchange} (h : Accounted db s) :
    PublishedIffSaved db s where
  posted p hp := by
    obtain ⟨i, row, hrow, rfl⟩ := h.posting_row hp
    exact ⟨h.added_stored hrow, rfl⟩
  once row := List.nodup_iff_count_le_one.mp h.postings_nodup row
  rows := h.rows
  causes := h.causes
  failed i r e hi := by
    have hstands := h.stands i _ hi
    generalize entriesOf i s.added = rows, entriesOf i s.started = ps at hstands
    cases hstands with
    | other hr hq => exact ⟨rfl, rfl⟩
    | failed => exact ⟨rfl, rfl⟩
  succeeded i w c person name content stamps response hi := by
    have hstands := h.stands i _ hi
    generalize entriesOf i s.lookups = members, entriesOf i s.added = rows,
      entriesOf i s.started = ps at hstands
    dsimp only at hstands
    generalize hq : (Program.ret (.ok response) : ServiceProgram Response) = q at hstands
    cases hstands with
    | other hr hsilent => exact absurd rfl (hr w c person name content)
    | looking =>
      rw [body_sendMessage] at hq
      cases hq
    | saving haccess hmsg => cases hq
    | announcing haccess hmsg hrow => cases hq
    | returned haccess hmsg hrow =>
      cases hq
      exact ⟨_, rfl, rfl, rfl⟩
    | failed => cases hq
  checked i row hrow := by
    have hmem : row ∈ entriesOf i s.added := mem_entriesOf.mpr hrow
    obtain ⟨⟨r, q⟩, hth⟩ := h.thread (Or.inl (List.ne_nil_of_mem hmem))
    have hstands := h.stands i _ hth
    generalize entriesOf i s.lookups = members, entriesOf i s.added = rows,
      entriesOf i s.started = ps at hstands hmem
    dsimp only at hstands
    cases hstands with
    | announcing haccess hmsg hstored =>
      cases List.mem_singleton.mp hmem
      exact ⟨_, _, _, _, _, _, _, hth, ⟨_, List.mem_singleton_self _, haccess⟩,
        newMessage_row hmsg hstored⟩
    | returned haccess hmsg hstored =>
      cases List.mem_singleton.mp hmem
      exact ⟨_, _, _, _, _, _, _, hth, ⟨_, List.mem_singleton_self _, haccess⟩,
        newMessage_row hmsg hstored⟩
    | other hr hq => cases hmem
    | looking => cases hmem
    | saving haccess hmsg => cases hmem
    | failed => cases hmem

/-- In every interleaving of calls and goroutines, on every database, messages
are published if and only if they are saved. -/
theorem publishedIffSaved_throughout (db : ChatDb) (ls : List ExchangeLabel) :
    Throughout Exchange.step (PublishedIffSaved db) (Exchange.initial db) ls := by
  have haccounted : Throughout Exchange.step (Accounted db) (Exchange.initial db) ls :=
    throughout_invariant (fun _ _ _ h hstep => h.step hstep) ls (Accounted.initial db)
  exact haccounted.mono fun _ h => h.publishedIffSaved

end AuraWellness.Chat.Publishing
