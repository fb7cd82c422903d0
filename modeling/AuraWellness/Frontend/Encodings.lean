import AuraWellness.Chat.Identifiers
import AuraWellness.Chat.Live
import AuraWellness.Frontend.ChatWrites

/-!
# The ways of a message to the client

A saved message reaches the client as a frame of the chat service, as an echo or a frame
of the backend's WebSocket, as the response to a send or as an element of a page. All of
them give the client the same message, and its lists have each id once.
-/

namespace AuraWellness.Frontend.Encodings

open AuraWellness.Lib.Transition AuraWellness.Lib.Keyed AuraWellness.Lib.Arrival
open AuraWellness.Chat.Entities AuraWellness.Chat.Publishing AuraWellness.Chat.Identifiers
open AuraWellness.Chat.Live AuraWellness.Backend.Services
open AuraWellness.Frontend.Stores AuraWellness.Frontend.ChatWrites

/-- A value in the JSON of a message. -/
inductive JsonValue
  | text (value : String)
  | time (value : Time)
  deriving DecidableEq, Repr

/-- A JSON object: its properties in turn. -/
abbrev JsonObject := List (String × JsonValue)

/-- A property; a missing one is undefined. -/
def JsonObject.property (o : JsonObject) (name : String) : Option JsonValue := o.lookup name

/-- The rest of a run of capitals, which ends at the last one before a small letter. -/
def lowerRun : List Char → List Char
  | [] => []
  | [c] => [c.toLower]
  | c :: d :: rest =>
    if d.isUpper then c.toLower :: lowerRun (d :: rest)
    else if d = ' ' then c.toLower :: d :: rest
    else c :: d :: rest

/-- `JsonNamingPolicy.CamelCase` on the characters of a name. -/
def camelCaseChars : List Char → List Char
  | [] => []
  | [c] => [c.toLower]
  | c :: d :: rest =>
    if c.isUpper then c.toLower :: (if d.isUpper then lowerRun (d :: rest) else d :: rest)
    else c :: d :: rest

/-- `JsonNamingPolicy.CamelCase`. -/
def camelCase (name : String) : String := String.ofList (camelCaseChars name.toList)

/-- `JsonSerializer.Serialize` with this policy, as the WebSocket handler and the
controllers use it. -/
def serialize (o : JsonObject) : JsonObject := o.map fun p => (camelCase p.1, p.2)

/-- An identifier as Go and .NET write it. -/
def uuidValue (id : Uuid) : JsonValue := .text (uuidText id)

/-- `conn.WriteJSON(frame)`, by the tags of `outboundMessage`. -/
def goFrame (frame : OutboundMessage) : JsonObject :=
  [("id", uuidValue frame.id), ("conversationId", uuidValue frame.conversationID),
    ("personId", uuidValue frame.personID), ("senderName", .text frame.senderName),
    ("content", .text frame.content), ("createdAt", .time frame.createdAt)]

/-- The echo of `ReadLoopAsync`. -/
def echo (saved : ChatMessageDto) : JsonObject :=
  serialize [("Id", uuidValue saved.messageId), ("ConversationId", uuidValue saved.conversationId),
    ("PersonId", uuidValue saved.personId), ("SenderName", .text saved.senderName),
    ("Content", .text saved.content), ("CreatedAt", .time saved.createdAt)]

/-- A frame of `WriteLoopAsync`: a `ChatMessageServiceDto`, which has the fields of the
entity. -/
def streamFrame (msg : ChatMessage) : JsonObject :=
  serialize [("Id", uuidValue msg.id), ("ConversationId", uuidValue msg.conversationID),
    ("WorkspaceId", uuidValue msg.workspaceID), ("PersonId", uuidValue msg.personID),
    ("SenderName", .text msg.senderName), ("Content", .text msg.content),
    ("CreatedAt", .time msg.createdAt)]

/-- A `ChatMessageDto` in a response of the controllers. -/
def restMessage (dto : ChatMessageDto) : JsonObject :=
  serialize [("MessageId", uuidValue dto.messageId),
    ("ConversationId", uuidValue dto.conversationId), ("PersonId", uuidValue dto.personId),
    ("SenderName", .text dto.senderName), ("Content", .text dto.content),
    ("CreatedAt", .time dto.createdAt)]

/-- `pb.ChatMessage`. -/
structure ProtoMessage where
  id : String
  workspaceId : String
  personId : String
  senderName : String
  content : String
  createdAt : Time
  conversationId : String
  deriving DecidableEq, Repr

/-- `messageToProto`. -/
def messageToProto (m : ChatMessage) : ProtoMessage :=
  ⟨uuidText m.id, uuidText m.workspaceID, uuidText m.personID, m.senderName, m.content, m.createdAt,
    uuidText m.conversationID⟩

/-- `Guid.Parse`, which is not part of the repository. -/
structure GuidParser where
  /-- The identifier of a text; none stands for the exception. -/
  parse : String → Option Uuid
  /-- It reads the canonical text. -/
  parse_canonical : ∀ id < 2 ^ 128, parse (uuidText id) = some id

/-- The `ChatMessageServiceDto` that `ChatServiceClient` makes of a message. -/
def fromProto (guids : GuidParser) (m : ProtoMessage) : Option ChatMessage := do
  let id ← guids.parse m.id
  let conversationID ← guids.parse m.conversationId
  let workspaceID ← guids.parse m.workspaceId
  let personID ← guids.parse m.personId
  return ⟨id, workspaceID, conversationID, personID, m.senderName, m.content, m.createdAt⟩

/-- A `ChatMessage` of the client, whose fields can be undefined. -/
structure ClientMessage where
  messageId : Option JsonValue
  conversationId : Option JsonValue
  personId : Option JsonValue
  senderName : Option JsonValue
  content : Option JsonValue
  createdAt : Option JsonValue
  deriving DecidableEq, Repr

/-- The mapping of `onmessage`. -/
def onmessage (raw : JsonObject) : ClientMessage :=
  ⟨raw.property "id", raw.property "conversationId", raw.property "personId",
    raw.property "senderName", raw.property "content", raw.property "createdAt"⟩

/-- A message of a response, which is used as it is. -/
def fromResponse (data : JsonObject) : ClientMessage :=
  ⟨data.property "messageId", data.property "conversationId", data.property "personId",
    data.property "senderName", data.property "content", data.property "createdAt"⟩

/-- The ways of a message to the client. -/
inductive Encoding
  | goFrame
  | echo
  | streamFrame
  | sendResponse
  | pageElement
  deriving DecidableEq, Repr

/-- What the client makes of a saved message that comes this way. -/
def Encoding.received (guids : GuidParser) (m : ChatMessage) : Encoding → Option ClientMessage
  | .goFrame => some (onmessage (Encodings.goFrame (toFrame m.conversationID m)))
  | .echo => (fromProto guids (messageToProto m)).map fun saved =>
      onmessage (Encodings.echo (toMessageDto saved))
  | .streamFrame => (fromProto guids (messageToProto m)).map fun msg =>
      onmessage (Encodings.streamFrame msg)
  | .sendResponse => (fromProto guids (messageToProto m)).map fun result =>
      fromResponse (restMessage (toMessageDto result))
  | .pageElement => (fromProto guids (messageToProto m)).map fun msg =>
      fromResponse (restMessage (toMessageDto msg))

/-- The message that the store keeps, as the client has it. -/
def clientMessage (msg : ChatMessageDto) : ClientMessage :=
  ⟨some (uuidValue msg.messageId), some (uuidValue msg.conversationId),
    some (uuidValue msg.personId), some (.text msg.senderName), some (.text msg.content),
    some (.time msg.createdAt)⟩

/-- The identifiers of a message have 128 bits. -/
structure Bits128 (m : ChatMessage) : Prop where
  id : m.id < 2 ^ 128
  workspaceID : m.workspaceID < 2 ^ 128
  conversationID : m.conversationID < 2 ^ 128
  personID : m.personID < 2 ^ 128

/-- The client of the backend gets the message that was saved. -/
theorem fromProto_messageToProto (guids : GuidParser) {m : ChatMessage} (h : Bits128 m) :
    fromProto guids (messageToProto m) = some m := by
  unfold fromProto messageToProto
  simp only [guids.parse_canonical _ h.id, guids.parse_canonical _ h.conversationID,
    guids.parse_canonical _ h.workspaceID, guids.parse_canonical _ h.personID]
  rfl

/-- The names of the fields in camel case. -/
theorem camelCase_names : camelCase "Id" = "id" ∧ camelCase "MessageId" = "messageId" ∧
    camelCase "ConversationId" = "conversationId" ∧ camelCase "WorkspaceId" = "workspaceId" ∧
    camelCase "PersonId" = "personId" ∧ camelCase "SenderName" = "senderName" ∧
    camelCase "Content" = "content" ∧ camelCase "CreatedAt" = "createdAt" := by
  decide

/-- Whichever way a message comes, the client gets the same message. -/
theorem received_eq (guids : GuidParser) {m : ChatMessage} (h : Bits128 m) (e : Encoding) :
    e.received guids m = some (clientMessage (toMessageDto m)) := by
  obtain ⟨hid, hmessage, hconversation, hworkspace, hperson, hsender, hcontent, hcreated⟩ :=
    camelCase_names
  cases e with
  | goFrame => rfl
  | echo =>
    simp only [Encoding.received, fromProto_messageToProto guids h, Encodings.echo, serialize,
      List.map_cons, List.map_nil, hid, hconversation, hperson, hsender, hcontent, hcreated]
    rfl
  | streamFrame =>
    simp only [Encoding.received, fromProto_messageToProto guids h, Encodings.streamFrame,
      serialize, List.map_cons, List.map_nil, hid, hconversation, hworkspace, hperson, hsender,
      hcontent, hcreated]
    rfl
  | sendResponse | pageElement =>
    simp only [Encoding.received, fromProto_messageToProto guids h, restMessage, serialize,
      List.map_cons, List.map_nil, hmessage, hconversation, hperson, hsender, hcontent, hcreated]
    rfl

/-- The messages that a step brings. -/
def brings : TabLabel → List ChatMessageDto
  | .call (.appendMessage _ msg) => [msg]
  | .answer _ (.messages msgs) => msgs
  | _ => []

/-- A list of the server has each id once. -/
def ListsOnce : TabLabel → Prop
  | .answer _ (.messages msgs) => (msgs.map ChatMessageDto.messageId).Nodup
  | .answer _ (.conversations convs) => (convs.map ChatConversationResponse.conversationId).Nodup
  | _ => True

/-- All messages that a step brings have come one of these ways. -/
def Delivers (guids : GuidParser) (saved : List ChatMessage) (l : TabLabel) : Prop :=
  ∀ msg ∈ brings l, ∃ m ∈ saved, msg = toMessageDto m ∧
    ∃ e : Encoding, e.received guids m = some (clientMessage msg)

/-- The lists of the store have each id once, and their messages have been saved. -/
structure ListedOnce (saved : List ChatMessage) (s : ChatStore) : Prop where
  /-- Messages by their ids. -/
  messages : ∀ c, ((messagesIn s c).map ChatMessageDto.messageId).Nodup
  /-- Conversations by theirs. -/
  conversations : ∀ bu,
    ((conversationsIn s bu).map ChatConversationResponse.conversationId).Nodup
  /-- The messages are saved ones. -/
  saved : ∀ c, ∀ msg ∈ messagesIn s c, ∃ m ∈ saved, msg = toMessageDto m

/-- Every step leaves each id once. -/
theorem listedOnce_step {guids : GuidParser} {saved : List ChatMessage} {s s' : Tab} {l : TabLabel}
    (hs : ListedOnce saved s.chat) (hl : ListsOnce l ∧ Delivers guids saved l)
    (h : s.step l = some s') : ListedOnce saved s'.chat := by
  obtain ⟨honce, hdelivers⟩ := hl
  constructor
  · intro c
    rw [messagesIn_step h]
    cases hintake : (stepWrite s l).bind (messageIntake c) with
    | none => exact hs.messages c
    | some intake =>
      refine nodup_takeIn (hs.messages c) fun snapshot heq => ?_
      obtain ⟨k, msgs, rfl, rfl⟩ | ⟨msg, -, rfl⟩ := messageIntake_step hintake
      · cases heq
        exact honce
      · cases heq
  · intro bu
    rw [conversationsIn_step h]
    cases hintake : (stepWrite s l).bind (conversationIntake bu) with
    | none => exact hs.conversations bu
    | some intake =>
      refine nodup_takeIn (hs.conversations bu) fun snapshot heq => ?_
      obtain ⟨k, convs, rfl, rfl⟩ | ⟨k, conv, -, rfl⟩ := conversationIntake_step hintake
      · cases heq
        exact honce
      · cases heq
  · intro c msg hmsg
    rw [messagesIn_step h] at hmsg
    cases hintake : (stepWrite s l).bind (messageIntake c) with
    | none =>
      rw [hintake] at hmsg
      exact hs.saved c msg hmsg
    | some intake =>
      rw [hintake] at hmsg
      obtain hold | hnew := mem_of_mem_takeIn hmsg
      · exact hs.saved c msg hold
      · have hbrings : msg ∈ brings l := by
          obtain ⟨k, msgs, rfl, rfl⟩ | ⟨msg', rfl, rfl⟩ := messageIntake_step hintake
          · exact hnew
          · exact hnew
        obtain ⟨m, hm, heq, -⟩ := hdelivers msg hbrings
        exact ⟨m, hm, heq⟩

/-- Two identifiers with one text are one. -/
theorem uuidText_inj {id id' : Uuid} (h : id < 2 ^ 128) (h' : id' < 2 ^ 128)
    (htext : uuidText id = uuidText id') : id = id' := by
  have hread := readUuid_uuidText h
  rw [htext, readUuid_uuidText h'] at hread
  exact (Option.some.inj hread).symm

/-- For every set of saved messages: all ways of a message to the client give it the same
`messageId`, different messages have different ones, and after every sequence of actions
each list of messages and of conversations has each id once, provided the lists of the
server do. -/
theorem ids_listed_once (guids : GuidParser) (saved : List ChatMessage)
    (hids : UniqueColumn ChatMessage.id saved) (hbits : ∀ m ∈ saved, Bits128 m) :
    (∀ m ∈ saved, ∀ e : Encoding, (e.received guids m).map ClientMessage.messageId =
      some (some (uuidValue m.id))) ∧
    (∀ m ∈ saved, ∀ m' ∈ saved, m ≠ m' → ∀ e e' : Encoding,
      (e.received guids m).map ClientMessage.messageId ≠
        (e'.received guids m').map ClientMessage.messageId) ∧
    ∀ (ls : List TabLabel) (s : Tab), (∀ l ∈ ls, ListsOnce l ∧ Delivers guids saved l) →
      run Tab.step Tab.initial ls = some s →
      (∀ c, ((messagesIn s.chat c).map fun msg => (clientMessage msg).messageId).Nodup) ∧
      ∀ bu, ((conversationsIn s.chat bu).map ChatConversationResponse.conversationId).Nodup := by
  have hreceived : ∀ m ∈ saved, ∀ e : Encoding,
      (e.received guids m).map ClientMessage.messageId = some (some (uuidValue m.id)) :=
    fun m hm e => by
      rw [received_eq guids (hbits m hm) e]
      rfl
  refine ⟨hreceived, fun m hm m' hm' hne e e' heq => ?_, fun ls s hls hrun => ?_⟩
  · rw [hreceived m hm, hreceived m' hm'] at heq
    have htext : uuidText m.id = uuidText m'.id := by
      injection heq with heq
      injection heq with heq
      injection heq
    exact hne (hids.eq hm hm' (uuidText_inj (hbits m hm).id (hbits m' hm').id htext))
  · have hinitial : ListedOnce saved Tab.initial.chat :=
      ⟨fun c => List.nodup_nil, fun bu => List.nodup_nil, fun c msg hmsg => by cases hmsg⟩
    have honce := run_guarded (I := fun t : Tab => ListedOnce saved t.chat)
      (fun t l t' ht hl hstep => listedOnce_step ht hl hstep) hinitial
      (eachStep_of_labels hls Tab.initial) hrun
    refine ⟨fun c => ?_, honce.conversations⟩
    have hnodup := List.Nodup.of_map _ (honce.messages c)
    refine hnodup.map_on fun msg hmsg msg' hmsg' htext => ?_
    obtain ⟨m, hm, rfl⟩ := honce.saved c msg hmsg
    obtain ⟨m', hm', rfl⟩ := honce.saved c msg' hmsg'
    have huuid : uuidText m.id = uuidText m'.id := by
      injection htext with htext
      injection htext
    rw [hids.eq hm hm' (uuidText_inj (hbits m hm).id (hbits m' hm').id huuid)]

/-- A parser that reads the canonical text and nothing else. -/
def canonicalGuids : GuidParser := ⟨readUuid, fun _ h => readUuid_uuidText h⟩

/-- A saved message. -/
def greeting : ChatMessage := ⟨10, 2, 1, 5, "Ann", "Hello", 1⟩

/-- The response to a send over REST, and the frame of the same message. -/
def sentAndStreamed : List TabLabel :=
  [.call (.appendMessage 1 (toMessageDto greeting)),
    .call (.appendMessage 1 (toMessageDto greeting))]

/-- The message that has come twice is listed once. -/
theorem ids_listed_once_twice : ∃ s, run Tab.step Tab.initial sentAndStreamed = some s ∧
    messagesIn s.chat 1 = [toMessageDto greeting] ∧
    ((messagesIn s.chat 1).map fun msg => (clientMessage msg).messageId).Nodup := by
  have hbits : ∀ m ∈ [greeting], Bits128 m := by
    intro m hm
    obtain rfl := List.mem_singleton.mp hm
    constructor <;> decide
  have hdelivers : ∀ l ∈ sentAndStreamed, ListsOnce l ∧ Delivers canonicalGuids [greeting] l := by
    intro l hl
    obtain rfl : l = .call (.appendMessage 1 (toMessageDto greeting)) := by
      simpa [sentAndStreamed] using hl
    refine ⟨trivial, fun msg hmsg => ⟨greeting, List.mem_singleton_self _, ?_⟩⟩
    obtain rfl := List.mem_singleton.mp hmsg
    exact ⟨rfl, .sendResponse, received_eq canonicalGuids (hbits _ (List.mem_singleton_self _)) _⟩
  exact ⟨_, rfl, rfl, ((ids_listed_once canonicalGuids [greeting] (List.nodup_singleton _)
    hbits).2.2 sentAndStreamed _ hdelivers rfl).1 1⟩

end AuraWellness.Frontend.Encodings
