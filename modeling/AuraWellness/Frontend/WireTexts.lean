import AuraWellness.Lib.Fields
import AuraWellness.Lib.Timestamps
import AuraWellness.Backend.InboundFrames
import AuraWellness.Frontend.Encodings

/-!
# The texts on the wire

The page sends JSON texts to the chat service, which publishes JSON texts to Redis,
reads them back and writes JSON texts to the pages; the proxy hands all of them on as
they are. What is typed is shown to every subscriber, except that a lone half of a
surrogate pair becomes U+FFFD.
-/

namespace AuraWellness.Frontend.WireTexts

open AuraWellness.Lib.Json AuraWellness.Lib.CodePoints AuraWellness.Lib.Wire
open AuraWellness.Lib.Fields
open AuraWellness.Chat.Entities AuraWellness.Chat.Repositories AuraWellness.Chat.Services
open AuraWellness.Chat.Publishing AuraWellness.Chat.Live
open AuraWellness.Backend.Services AuraWellness.Backend.InboundFrames
open AuraWellness.Frontend.Encodings

/-- The time is in one of the years 0 to 9999, which have four digits. -/
def FourDigitYear (t : Time) : Prop := -62167219200000000 ≤ t ∧ t < 253402300800000000

/-- A way of writing `time.Time` in JSON; `rfc3339Nano` is that of Go. -/
structure TimeFormat where
  /-- The time of a struct that has not been set. -/
  zero : Time
  /-- `MarshalJSON`, between the quotes. -/
  text : Time → String
  /-- `UnmarshalJSON`. -/
  parse : String → Option Time
  /-- It reads what is written for such a year. -/
  parse_text : ∀ t, FourDigitYear t → parse (text t) = some t

/-- The message can be written and read back: 128 bits in its identifiers, four digits in
its year. -/
structure Writable (m : ChatMessage) : Prop where
  bits : Bits128 m
  year : FourDigitYear m.createdAt

/-- `WhiteSpace` and `LineTerminator`, which `trim` removes. -/
def isTrimmed (u : UInt16) : Bool :=
  let n := u.toNat
  (9 ≤ n && n ≤ 13) || n = 0x20 || n = 0xA0 || n = 0x1680 || (0x2000 ≤ n && n ≤ 0x200A) ||
    n = 0x2028 || n = 0x2029 || n = 0x202F || n = 0x205F || n = 0x3000 || n = 0xFEFF

/-- `trim`. -/
def trimUnits (us : List UInt16) : List UInt16 :=
  ((us.dropWhile isTrimmed).reverse.dropWhile isTrimmed).reverse

/-- The members of a `WsOutgoing`. -/
def outgoing (conversationId content : List UInt16) : List (String × List UInt16) :=
  [("type", units "send_message"), ("conversationId", conversationId), ("content", content)]

/-- `sendMessage` of `useChatWebSocket`: the text that is sent. -/
def sendMessage (conversationId content : List UInt16) : String :=
  String.ofList ((Tree.record (texts ((outgoing conversationId content).map
    fun m => (units m.1, m.2)))).write javaScript)

/-- `handleSend` while the socket is open and nothing is being sent: the text that is
sent, if any. -/
def handleSend (activeConversationId : Option Uuid) (draft : List UInt16) : Option String :=
  let content := trimUnits draft
  match activeConversationId with
  | none => none
  | some conversationId =>
    if content = [] then none
    else some (sendMessage (units (uuidText conversationId)) content)

/-- The fields of `inboundMessage`. -/
def inboundFields (old : InboundMessage) (ms : List (List UInt16 × Value)) :
    Option InboundMessage := do
  let type ← field "type" (scalar some) old.type ms
  let conversationID ← field "conversationId" (scalar some) old.conversationID ms
  let content ← field "content" (scalar some) old.content ms
  return ⟨type, conversationID, content⟩

/-- `json.Unmarshal(rawMsg, &inbound)`. -/
def unmarshalInbound (rawMsg : String) : Option InboundMessage :=
  (parse rawMsg).bind (struct inboundFields ⟨"", "", ""⟩)

/-- What the read pump makes of a frame. -/
inductive ReadOutcome
  /-- `ReadMessage` fails, which ends the session. -/
  | ends
  /-- The frame is left out. -/
  | ignores
  /-- `SendMessage` is called. -/
  | sends (call : Call)
  deriving DecidableEq, Repr

/-- The argument of `SetReadLimit`, in bytes. -/
def readLimit : ℕ := 4096

/-- One round of the read pump of `ServeWS`. -/
def Handler.readFrame (parsers : UuidParsers) (workspaceID : Uuid) (claims : UserClaims)
    (rawMsg : String) : ReadOutcome :=
  if readLimit < rawMsg.utf8ByteSize then .ends
  else
    match unmarshalInbound rawMsg with
    | none => .ignores
    | some inbound =>
      match Handler.readPump parsers workspaceID claims inbound with
      | none => .ignores
      | some call => .sends call

/-- The members of an `entities.ChatMessage`, by its tags. -/
def messageMembers (time : TimeFormat) (m : ChatMessage) : List (String × String) :=
  [("id", uuidText m.id), ("workspace_id", uuidText m.workspaceID),
    ("conversation_id", uuidText m.conversationID), ("person_id", uuidText m.personID),
    ("sender_name", m.senderName), ("content", m.content), ("created_at", time.text m.createdAt)]

/-- `json.Marshal(event)`. -/
def marshalEvent (time : TimeFormat) (event : MessageEvent) : String :=
  String.ofList ((Tree.record (.cons "message"
    (.record (texts (messageMembers time event.message))) .nil)).write go)

/-- The fields of `entities.ChatMessage`. -/
def messageFields (parsers : UuidParsers) (time : TimeFormat) (old : ChatMessage)
    (ms : List (List UInt16 × Value)) : Option ChatMessage := do
  let id ← field "id" (scalar parsers.parse) old.id ms
  let workspaceID ← field "workspace_id" (scalar parsers.parse) old.workspaceID ms
  let conversationID ← field "conversation_id" (scalar parsers.parse) old.conversationID ms
  let personID ← field "person_id" (scalar parsers.parse) old.personID ms
  let senderName ← field "sender_name" (scalar some) old.senderName ms
  let content ← field "content" (scalar some) old.content ms
  let createdAt ← field "created_at" (scalar time.parse) old.createdAt ms
  return ⟨id, workspaceID, conversationID, personID, senderName, content, createdAt⟩

/-- The field of `MessageEvent`. -/
def eventFields (parsers : UuidParsers) (time : TimeFormat) (old : MessageEvent)
    (ms : List (List UInt16 × Value)) : Option MessageEvent := do
  let message ← field "message" (struct (messageFields parsers time)) old.message ms
  return ⟨message⟩

/-- `json.Unmarshal([]byte(msg.Payload), &event)`. -/
def unmarshalEvent (parsers : UuidParsers) (time : TimeFormat) (payload : String) :
    Option MessageEvent :=
  (parse payload).bind (struct (eventFields parsers time) ⟨⟨0, 0, 0, 0, "", "", time.zero⟩⟩)

/-- The members of an `outboundMessage`, by its tags. -/
def frameMembers (time : TimeFormat) (frame : OutboundMessage) : List (String × String) :=
  [("id", uuidText frame.id), ("conversationId", uuidText frame.conversationID),
    ("personId", uuidText frame.personID), ("senderName", frame.senderName),
    ("content", frame.content), ("createdAt", time.text frame.createdAt)]

/-- `conn.WriteJSON(frame)`: `Encode` ends the text with a newline. -/
def writeJSON (time : TimeFormat) (frame : OutboundMessage) : String :=
  String.ofList ((Tree.record (texts (frameMembers time frame))).write go ++ ['\n'])

/-- A `ChatMessage` of the client, with the values that `JSON.parse` returns. -/
structure ParsedMessage where
  messageId : Option Value
  conversationId : Option Value
  personId : Option Value
  senderName : Option Value
  content : Option Value
  createdAt : Option Value

/-- `ws.onmessage`: the message that is appended, unless the text is no JSON or null. -/
def onmessageText (data : String) : Option ParsedMessage :=
  match parse data with
  | none | some .null => none
  | some (.object ms) =>
    some ⟨property "id" ms, property "conversationId" ms, property "personId" ms,
      property "senderName" ms, property "content" ms, property "createdAt" ms⟩
  | some _ => some ⟨none, none, none, none, none, none⟩

/-- A value of the client as it has been parsed. -/
def parsedValue (time : TimeFormat) : JsonValue → Value
  | .text value => .string (units value)
  | .time value => .string (units (time.text value))

/-- A message of the client as it has been parsed. -/
def parsedMessage (time : TimeFormat) (m : ClientMessage) : ParsedMessage :=
  ⟨m.messageId.map (parsedValue time), m.conversationId.map (parsedValue time),
    m.personId.map (parsedValue time), m.senderName.map (parsedValue time),
    m.content.map (parsedValue time), m.createdAt.map (parsedValue time)⟩

/-- What a subscriber's page makes of a saved message: published to Redis, read from it,
written to the connection and parsed. -/
def received (parsers : UuidParsers) (time : TimeFormat) (m : ChatMessage) :
    Option ParsedMessage :=
  (unmarshalEvent parsers time (marshalEvent time ⟨m⟩)).bind fun event =>
    onmessageText (writeJSON time (toFrame event.message.conversationID event.message))

/-- What the page sends is the frame that the chat service reads. -/
theorem unmarshalInbound_sendMessage (conversationId content : List UInt16) :
    unmarshalInbound (sendMessage conversationId content) =
      some ⟨"send_message", decode conversationId, decode content⟩ := by
  have hparse := parse_write javaScript (Tree.record (texts ((outgoing conversationId content).map
    fun m => (units m.1, m.2)))) [] rfl
  rw [List.append_nil] at hparse
  have hnames : ((outgoing conversationId content).map fun m => foldName m.1).Nodup :=
    (by decide : (["type", "conversationId", "content"].map foldName).Nodup)
  have htype := field_javaScript hnames (m := ("type", units "send_message")) (by simp [outgoing])
    some ""
  have hconversation := field_javaScript hnames (m := ("conversationId", conversationId))
    (by simp [outgoing]) some ""
  have hcontent := field_javaScript hnames (m := ("content", content)) (by simp [outgoing]) some ""
  dsimp only at htype hconversation hcontent
  unfold unmarshalInbound sendMessage
  rw [hparse, Option.bind_some, Tree.meaning, struct, inboundFields, htype, hconversation, hcontent,
    decode_units]
  rfl

/-- The fields of a message are read back from its members. -/
theorem messageFields_messageMembers (parsers : UuidParsers) (time : TimeFormat) {m : ChatMessage}
    (h : Writable m) (old : ChatMessage) :
    messageFields parsers time old ((texts (messageMembers time m)).meaning go) = some m := by
  have hnames : ((messageMembers time m).map fun x => foldName x.1).Nodup :=
    (by decide : (["id", "workspace_id", "conversation_id", "person_id", "sender_name", "content",
      "created_at"].map foldName).Nodup)
  have hid := field_go hnames (m := ("id", uuidText m.id)) (by simp [messageMembers])
    parsers.parse old.id
  have hworkspace := field_go hnames (m := ("workspace_id", uuidText m.workspaceID))
    (by simp [messageMembers]) parsers.parse old.workspaceID
  have hconversation := field_go hnames (m := ("conversation_id", uuidText m.conversationID))
    (by simp [messageMembers]) parsers.parse old.conversationID
  have hperson := field_go hnames (m := ("person_id", uuidText m.personID))
    (by simp [messageMembers]) parsers.parse old.personID
  have hsender := field_go hnames (m := ("sender_name", m.senderName)) (by simp [messageMembers])
    some old.senderName
  have hcontent := field_go hnames (m := ("content", m.content)) (by simp [messageMembers])
    some old.content
  have hcreated := field_go hnames (m := ("created_at", time.text m.createdAt))
    (by simp [messageMembers]) time.parse old.createdAt
  dsimp only at hid hworkspace hconversation hperson hsender hcontent hcreated
  rw [parsers.parse_canonical _ h.bits.id] at hid
  rw [parsers.parse_canonical _ h.bits.workspaceID] at hworkspace
  rw [parsers.parse_canonical _ h.bits.conversationID] at hconversation
  rw [parsers.parse_canonical _ h.bits.personID] at hperson
  rw [time.parse_text _ h.year] at hcreated
  unfold messageFields
  rw [hid, hworkspace, hconversation, hperson, hsender, hcontent, hcreated]
  rfl

/-- What is published is read back. -/
theorem unmarshalEvent_marshalEvent (parsers : UuidParsers) (time : TimeFormat) {m : ChatMessage}
    (h : Writable m) : unmarshalEvent parsers time (marshalEvent time ⟨m⟩) = some ⟨m⟩ := by
  have hparse := parse_write go (Tree.record (.cons "message"
    (.record (texts (messageMembers time m))) .nil)) [] rfl
  have hmembers : (Members.cons "message" (.record (texts (messageMembers time m))) .nil).meaning go =
      [("message", Value.object ((texts (messageMembers time m)).meaning go))].map
        fun m => (units m.1, m.2) := by
    rw [Members.meaning, Members.meaning, Tree.meaning, List.map_singleton]
    rfl
  have hname : ([("message", Value.object ((texts (messageMembers time m)).meaning go))].map
      fun x => foldName x.1).Nodup := List.nodup_singleton _
  have hfield := field_eq hname (List.mem_singleton_self _) (struct (messageFields parsers time))
    ⟨0, 0, 0, 0, "", "", time.zero⟩
  rw [struct, messageFields_messageMembers parsers time h] at hfield
  rw [List.append_nil] at hparse
  unfold unmarshalEvent marshalEvent
  rw [hparse, Option.bind_some, Tree.meaning, hmembers, struct, eventFields, hfield]
  rfl

/-- The page gets the message of a frame. -/
theorem onmessageText_writeJSON (time : TimeFormat) (frame : OutboundMessage) :
    onmessageText (writeJSON time frame) =
      some (parsedMessage time (onmessage (goFrame frame))) := by
  have hparse := parse_write go (Tree.record (texts (frameMembers time frame))) ['\n'] rfl
  have hnames : ((frameMembers time frame).map Prod.fst).Nodup :=
    (by decide : ["id", "conversationId", "personId", "senderName", "content", "createdAt"].Nodup)
  have hid := property_go hnames (m := ("id", uuidText frame.id)) (by simp [frameMembers])
  have hconversation := property_go hnames
    (m := ("conversationId", uuidText frame.conversationID)) (by simp [frameMembers])
  have hperson := property_go hnames (m := ("personId", uuidText frame.personID))
    (by simp [frameMembers])
  have hsender := property_go hnames (m := ("senderName", frame.senderName))
    (by simp [frameMembers])
  have hcontent := property_go hnames (m := ("content", frame.content)) (by simp [frameMembers])
  have hcreated := property_go hnames (m := ("createdAt", time.text frame.createdAt))
    (by simp [frameMembers])
  dsimp only at hid hconversation hperson hsender hcontent hcreated
  unfold onmessageText writeJSON
  rw [hparse, Tree.meaning]
  dsimp only
  rw [hid, hconversation, hperson, hsender, hcontent, hcreated]
  rfl

/-- A saved message reaches the page of a subscriber as it is. -/
theorem received_message (parsers : UuidParsers) (time : TimeFormat) {m : ChatMessage}
    (h : Writable m) :
    received parsers time m = some (parsedMessage time (clientMessage (toMessageDto m))) := by
  unfold received
  rw [unmarshalEvent_marshalEvent parsers time h, Option.bind_some, onmessageText_writeJSON]
  rfl

/-- What becomes of a text that is sent in a conversation. -/
structure Arrives (parsers : UuidParsers) (time : TimeFormat) (workspaceID conversationID : Uuid)
    (claims : UserClaims) (typed : List UInt16) (frame : String) : Prop where
  /-- The chat service calls `SendMessage` with it, unless the frame is too long. -/
  read : Handler.readFrame parsers workspaceID claims frame =
    if readLimit < frame.utf8ByteSize then .ends
    else .sends (.sendMessage workspaceID conversationID claims.personID claims.senderName
      (decode typed))
  /-- The content is not empty, which `NewMessage` would refuse. -/
  content : decode typed ≠ ""
  /-- A saved message with this content reaches the pages of the subscribers as it is. -/
  shown : ∀ m, m.content = decode typed → Writable m →
    received parsers time m = some (parsedMessage time (clientMessage (toMessageDto m)))
  /-- They show the text that was typed exactly if it has no lone surrogate. -/
  unchanged : ∀ m, m.content = decode typed → Writable m →
    ((received parsers time m).bind ParsedMessage.content = some (.string typed) ↔
      WellFormed typed)

/-- Every draft that is sent arrives, for all names and times, and for all contents that
JSON has to escape. -/
theorem typed_text_arrives (parsers : UuidParsers) (time : TimeFormat) {conversationID : Uuid}
    (workspaceID : Uuid) (claims : UserClaims) {draft : List UInt16} {frame : String}
    (hid : conversationID < 2 ^ 128) (hsend : handleSend (some conversationID) draft = some frame) :
    Arrives parsers time workspaceID conversationID claims (trimUnits draft) frame := by
  unfold handleSend at hsend
  dsimp only at hsend
  split at hsend
  · cases hsend
  next hcontent =>
  cases hsend
  refine ⟨?_, fun hempty => hcontent (decode_eq_empty hempty),
    fun m _ hm => received_message parsers time hm, fun m hsame hm => ?_⟩
  · have hpump : Handler.readPump parsers workspaceID claims ⟨"send_message",
        uuidText conversationID, decode (trimUnits draft)⟩ = some (.sendMessage workspaceID
          conversationID claims.personID claims.senderName (decode (trimUnits draft))) := by
      unfold Handler.readPump
      rw [if_neg (fun h => h rfl), parsers.parse_canonical _ hid]
    unfold Handler.readFrame
    rw [unmarshalInbound_sendMessage, decode_units]
    dsimp only
    rw [hpump]
  · rw [received_message parsers time hm, ← units_decode, ← hsame]
    constructor
    · intro h
      exact Value.string.inj (Option.some.inj h)
    · intro h
      exact congrArg (fun us => some (Value.string us)) h

/-- `time.RFC3339Nano`, in UTC and to the microsecond, which is what the database keeps; an
unset time is the first of the year 1. -/
def rfc3339Nano : TimeFormat :=
  ⟨-62135596800000000, Lib.Timestamps.text, Lib.Timestamps.parse,
    fun _ h => Lib.Timestamps.parse_text h.1 h.2⟩

/-- A draft with white space around it, half of a surrogate pair and characters that
JSON or HTML give a meaning. -/
def draft : List UInt16 := units " a<b\x22 " ++ 0xD83D :: units " 😀 "

/-- What is sent for it. -/
def draftFrame : String :=
  "\x7b\x22type\x22:\x22send_message\x22,\x22conversationId\x22:" ++
    "\x2200000000-0000-0000-0000-00000000001e\x22,\x22content\x22:" ++
      "\x22a<b\\\x22 \\ud83d 😀\x22\x7d"

/-- The half is shown as U+FFFD, everything else as it was typed. -/
theorem typed_text_arrives_draft : handleSend (some 30) draft = some draftFrame ∧
    decode (trimUnits draft) = "a<b\x22 \uFFFD 😀" ∧
    Arrives canonicalParsers rfc3339Nano 10 30 ⟨5, 20, "Ann"⟩ (trimUnits draft) draftFrame := by
  have hsend : handleSend (some 30) draft = some draftFrame := by decide +kernel
  exact ⟨hsend, by decide +kernel,
    typed_text_arrives canonicalParsers rfc3339Nano 10 ⟨5, 20, "Ann"⟩ (by decide) hsend⟩

end AuraWellness.Frontend.WireTexts
