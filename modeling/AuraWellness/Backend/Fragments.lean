import AuraWellness.Lib.CodePoints
import AuraWellness.Lib.Delimited
import AuraWellness.Lib.Utf8
import AuraWellness.Backend.InboundFrames

/-!
# Messages that arrive in pieces

`ReceiveAsync` returns a message in pieces of at most the size of the buffer, cut where
the sender has cut it or where the buffer ends, and marks the last one. `ReadLoopAsync`
does not look at the mark and takes every piece for a message of its own: it decodes the
bytes of the piece as UTF-8 and as JSON. A piece is a frame only if it has a whole object,
so a frame is lost unless one piece has all of it.
-/

namespace AuraWellness.Backend.Fragments

open AuraWellness.Lib.Json AuraWellness.Lib.CodePoints AuraWellness.Lib.Delimited
open AuraWellness.Lib.Utf8 (after decodeFrom_append decodeFrom_append_ascii decodeFrom_pending
  after_ascii decode_cons Wide)
open AuraWellness.Chat.Entities AuraWellness.Chat.Publishing AuraWellness.Chat.Identifiers
open AuraWellness.Backend.Repositories AuraWellness.Backend.Services
open AuraWellness.Backend.InboundFrames

/-- `WebSocketMessageType`. -/
inductive WebSocketMessageType
  | text
  | binary
  | close
  deriving DecidableEq, Repr

/-- What `ReceiveAsync` returns, with the bytes that it has put into the buffer. -/
structure WebSocketReceiveResult where
  messageType : WebSocketMessageType
  bytes : List UInt8
  endOfMessage : Bool
  deriving DecidableEq, Repr

/-- `Encoding.UTF8.GetString`. -/
def getString (bytes : List UInt8) : String := String.ofList (Lib.Utf8.decode bytes)

/-- A letter from A to Z in lower case. -/
def toLower (u : UInt16) : UInt16 := if 65 ≤ u.toNat ∧ u.toNat ≤ 90 then u + 32 else u

/-- `PropertyNameCaseInsensitive`. -/
def isNamed (name : List UInt16) (property : String) : Bool :=
  name.map toLower = (units property).map toLower

/-- A member of type `string?`: anything but a string or null throws. -/
def stringOrNull : Value → Option (Option String)
  | .null => some none
  | .string us => if WellFormed us then some (some (decode us)) else none
  | _ => none

/-- A member of the object goes into the record, or is left out. -/
def readMember (incoming : WsIncomingMessage) (m : List UInt16 × Value) :
    Option WsIncomingMessage :=
  if ¬WellFormed m.1 then none
  else if isNamed m.1 "Type" then (stringOrNull m.2).map fun type => { incoming with type }
  else if isNamed m.1 "ConversationId" then
    (stringOrNull m.2).map fun conversationId => { incoming with conversationId }
  else if isNamed m.1 "Content" then
    (stringOrNull m.2).map fun content => { incoming with content }
  else some incoming

/-- `JsonSerializer.Deserialize<WsIncomingMessage>`, which throws, or returns null or a
frame. Its reader goes down 64 levels. -/
def deserialize (text : String) : Option (Option WsIncomingMessage) :=
  (parse text).bind fun v =>
    if 64 < v.depth then none
    else
      match v with
      | .null => some none
      | .object members => (members.foldlM readMember ⟨none, none, none⟩).map some
      | _ => none

/-- The values that `HandleAsync` takes from the path and the token. -/
structure Caller where
  buId : Uuid
  personId : Uuid
  senderName : String
  companyId : Uuid
  deriving DecidableEq, Repr

/-- The arguments of a call of `SendConversationMessageAsync`. -/
structure SendCall where
  buId : Uuid
  conversationId : Uuid
  personId : Uuid
  senderName : String
  content : String
  companyId : Uuid
  deriving DecidableEq, Repr

/-- The call that the read loop makes for a frame, if any. -/
def sendCall (parsers : UuidParsers) (caller : Caller) (incoming : WsIncomingMessage) :
    Option SendCall :=
  if incoming.type = some "send_message" ∧ isNullOrWhiteSpace incoming.content = false ∧
      isNullOrWhiteSpace incoming.conversationId = false then
    (parsers.tryParse (incoming.conversationId.getD "")).map fun conversationId =>
      ⟨caller.buId, conversationId, caller.personId, caller.senderName,
        incoming.content.getD "", caller.companyId⟩
  else none

/-- The call that the read loop makes for the bytes of a text frame, if any: an error of
the decoder is ignored. -/
def sends (parsers : UuidParsers) (caller : Caller) (bytes : List UInt8) : Option SendCall :=
  match deserialize (getString bytes) with
  | some (some incoming) => sendCall parsers caller incoming
  | some none | none => none

/-- `ReadLoopAsync` on what `ReceiveAsync` returns in turn: the calls it makes. -/
def readLoopAsync (parsers : UuidParsers) (caller : Caller) :
    List WebSocketReceiveResult → List SendCall
  | [] => []
  | result :: rest =>
    match result.messageType with
    | .close => []
    | .binary => readLoopAsync parsers caller rest
    | .text => (sends parsers caller result.bytes).toList ++ readLoopAsync parsers caller rest

/-- A text message that `ReceiveAsync` returns in these pieces. -/
def received : List (List UInt8) → List WebSocketReceiveResult
  | [] => []
  | [last] => [⟨.text, last, true⟩]
  | piece :: next :: rest => ⟨.text, piece, false⟩ :: received (next :: rest)

/-- What is done for a call. -/
def performSend : Option SendCall → BackendProgram (Option ChatMessageDto)
  | some call =>
    ChatAccessService.sendConversationMessage call.buId call.conversationId call.personId
      call.senderName call.content call.companyId
  | none => return none

/-- The call is the one that the handler of a decoded frame makes. -/
theorem readLoop_eq (parsers : UuidParsers) (caller : Caller) (incoming : WsIncomingMessage) :
    ChatWebSocketHandler.readLoop parsers caller.buId caller.personId caller.senderName
      caller.companyId incoming = performSend (sendCall parsers caller incoming) := by
  unfold ChatWebSocketHandler.readLoop sendCall
  split
  · split
    · rename_i conversationId hid
      rw [hid]
      rfl
    · rename_i hid
      rw [hid]
      rfl
  · rfl

/-- The bytes are the text of a frame that sends this content to this conversation. -/
def IsFrame (parsers : UuidParsers) (bytes : List UInt8) (conversationId : Uuid)
    (content : String) : Prop :=
  ∃ text, deserialize (getString bytes) =
      some (some ⟨some "send_message", some text, some content⟩) ∧
    isNullOrWhiteSpace (some content) = false ∧ isNullOrWhiteSpace (some text) = false ∧
    parsers.tryParse text = some conversationId

/-- The bytes are the text of a frame to send. -/
def ToSend (parsers : UuidParsers) (bytes : List UInt8) : Prop :=
  ∃ conversationId content, IsFrame parsers bytes conversationId content

/-- The pieces leave the loop the call of the whole message: neither it nor any of them is a
frame to send, or it is one and exactly one of them is one too, with the same conversation
and content. -/
def Harmless (parsers : UuidParsers) (pieces : List (List UInt8)) : Prop :=
  (¬ToSend parsers pieces.flatten ∧ ∀ piece ∈ pieces, ¬ToSend parsers piece) ∨
  ∃ before piece behind conversationId content, pieces = before ++ piece :: behind ∧
    IsFrame parsers pieces.flatten conversationId content ∧
    IsFrame parsers piece conversationId content ∧
    ∀ other ∈ before ++ behind, ¬ToSend parsers other

/-- The bytes are JSON white space: blanks, tabs and ends of lines. -/
def IsBlank (bytes : List UInt8) : Prop := ∀ b ∈ bytes, b = 0x20 ∨ b = 0x09 ∨ b = 0x0A ∨ b = 0x0D

instance (bytes : List UInt8) : Decidable (IsBlank bytes) :=
  inferInstanceAs (Decidable (∀ b ∈ bytes, b = 0x20 ∨ b = 0x09 ∨ b = 0x0A ∨ b = 0x0D))

/-- One piece has all of the message but white space. -/
def InOnePiece (pieces : List (List UInt8)) : Prop :=
  ∃ before piece behind, pieces = before ++ piece :: behind ∧
    ∀ other ∈ before ++ behind, IsBlank other

/-- The call for a frame to send. -/
def Caller.sends (caller : Caller) (conversationId : Uuid) (content : String) : SendCall :=
  ⟨caller.buId, conversationId, caller.personId, caller.senderName, content, caller.companyId⟩

/-- A call is made for frames to send. -/
theorem sends_eq_some {parsers : UuidParsers} {caller : Caller} {bytes : List UInt8}
    {call : SendCall} : sends parsers caller bytes = some call ↔
      ∃ conversationId content, IsFrame parsers bytes conversationId content ∧
        call = caller.sends conversationId content := by
  constructor
  · intro h
    unfold sends at h
    split at h
    · rename_i incoming hdecoded
      obtain ⟨⟨htype, hcontent, hid⟩, hcall⟩ := Option.ite_none_right_eq_some.mp h
      obtain ⟨conversationId, hparse, rfl⟩ := Option.map_eq_some_iff.mp hcall
      obtain ⟨type, idText, content⟩ := incoming
      cases content with
      | none => cases hcontent
      | some content =>
        cases idText with
        | none => cases hid
        | some idText =>
          cases htype
          exact ⟨conversationId, content, ⟨idText, hdecoded, hcontent, hid, hparse⟩, rfl⟩
    · cases h
    · cases h
  · rintro ⟨conversationId, content, ⟨text, hdecoded, hcontent, hid, hparse⟩, rfl⟩
    unfold sends
    rw [hdecoded]
    dsimp only
    unfold sendCall
    rw [if_pos ⟨rfl, hcontent, hid⟩]
    dsimp only [Option.getD_some]
    rw [hparse]
    rfl

theorem sends_eq_none {parsers : UuidParsers} {caller : Caller} {bytes : List UInt8} :
    sends parsers caller bytes = none ↔ ¬ToSend parsers bytes := by
  rw [Option.eq_none_iff_forall_ne_some]
  constructor
  · rintro h ⟨conversationId, content, hframe⟩
    exact h _ (sends_eq_some.mpr ⟨conversationId, content, hframe, rfl⟩)
  · intro h call hcall
    obtain ⟨conversationId, content, hframe, -⟩ := sends_eq_some.mp hcall
    exact h ⟨conversationId, content, hframe⟩

/-- The frame of a text is one. -/
theorem IsFrame.eq {parsers : UuidParsers} {bytes : List UInt8} {c c' : Uuid}
    {content content' : String} (h : IsFrame parsers bytes c content)
    (h' : IsFrame parsers bytes c' content') : c = c' ∧ content = content' := by
  obtain ⟨text, hdecoded, -, -, hparse⟩ := h
  obtain ⟨text', hdecoded', -, -, hparse'⟩ := h'
  cases hdecoded.symm.trans hdecoded'
  exact ⟨Option.some.inj (hparse.symm.trans hparse'), rfl⟩

/-- The loop goes on after a message as if it began there. -/
theorem readLoopAsync_received (parsers : UuidParsers) (caller : Caller)
    (pieces : List (List UInt8)) (later : List WebSocketReceiveResult) :
    readLoopAsync parsers caller (received pieces ++ later) =
      pieces.filterMap (sends parsers caller) ++ readLoopAsync parsers caller later := by
  have hpiece : ∀ (piece : List UInt8) (pieces : List (List UInt8)),
      (piece :: pieces).filterMap (sends parsers caller) =
        (sends parsers caller piece).toList ++ pieces.filterMap (sends parsers caller) := by
    intro piece pieces
    cases h : sends parsers caller piece <;> simp [h]
  induction pieces using received.induct with
  | case1 => rfl
  | case2 last =>
    rw [hpiece]
    simp [received, readLoopAsync]
  | case3 piece next rest ih =>
    rw [hpiece, List.append_assoc, ← ih]
    rfl

/-- Pieces are decoded to the calls of the whole message exactly if they are harmless. -/
theorem filterMap_sends_iff (parsers : UuidParsers) (caller : Caller)
    (pieces : List (List UInt8)) :
    pieces.filterMap (sends parsers caller) = [pieces.flatten].filterMap (sends parsers caller) ↔
      Harmless parsers pieces := by
  cases hwhole : sends parsers caller pieces.flatten with
  | none =>
    have hnot := sends_eq_none.mp hwhole
    rw [List.filterMap_cons_none hwhole, List.filterMap_nil, List.filterMap_eq_nil_iff]
    constructor
    · exact fun h => .inl ⟨hnot, fun piece hpiece => sends_eq_none.mp (h piece hpiece)⟩
    · rintro (⟨-, h⟩ | ⟨-, -, -, c, content, -, hframe, -⟩)
      · exact fun piece hpiece => sends_eq_none.mpr (h piece hpiece)
      · exact absurd ⟨c, content, hframe⟩ hnot
  | some call =>
    obtain ⟨c, content, hframe, rfl⟩ := sends_eq_some.mp hwhole
    rw [List.filterMap_cons_some hwhole, List.filterMap_nil, List.filterMap_eq_cons_iff]
    constructor
    · rintro ⟨before, piece, behind, hpieces, hbefore, hpiece, hbehind⟩
      obtain ⟨c', content', hframe', hcall⟩ := sends_eq_some.mp hpiece
      cases hcall
      refine .inr ⟨before, piece, behind, c, content, hpieces, hframe, hframe',
        fun other hother => ?_⟩
      obtain hother | hother := List.mem_append.mp hother
      · exact sends_eq_none.mp (hbefore other hother)
      · exact sends_eq_none.mp (List.filterMap_eq_nil_iff.mp hbehind other hother)
    · rintro (⟨hnone, -⟩ | ⟨before, piece, behind, c', content', hpieces, hframe', hpiece, hothers⟩)
      · exact absurd ⟨c, content, hframe⟩ hnone
      · obtain ⟨rfl, rfl⟩ := hframe.eq hframe'
        refine ⟨before, piece, behind, hpieces, fun other hother => ?_,
          sends_eq_some.mpr ⟨c, content, hpiece, rfl⟩, ?_⟩
        · exact sends_eq_none.mpr (hothers other (List.mem_append_left behind hother))
        · exact List.filterMap_eq_nil_iff.mpr fun other hother =>
            sends_eq_none.mpr (hothers other (List.mem_append_right before hother))

/-- A byte of white space is a character of white space. -/
theorem blank_byte {b : UInt8} (h : b = 0x20 ∨ b = 0x09 ∨ b = 0x0A ∨ b = 0x0D) :
    b.toNat < 0x80 ∧ isSpace (Char.ofNat b.toNat) = true := by
  obtain rfl | rfl | rfl | rfl := h <;> decide

/-- White space is decoded to white space, in front of everything. -/
theorem decode_blank {bytes : List UInt8} (h : IsBlank bytes) (rest : List UInt8) :
    Blank (Lib.Utf8.decode bytes) ∧
      Lib.Utf8.decode (bytes ++ rest) = Lib.Utf8.decode bytes ++ Lib.Utf8.decode rest := by
  refine ⟨?_, decodeFrom_append (after_ascii fun b hb => (blank_byte (h b hb)).1) rest⟩
  induction bytes with
  | nil => exact fun c hc => by cases hc
  | cons b bytes ih =>
    obtain ⟨hb, hspace⟩ := blank_byte (h b List.mem_cons_self)
    have hrest := ih fun d hd => h d (List.mem_cons_of_mem b hd)
    obtain ⟨-, hdecode⟩ | ⟨hle, -⟩ := decode_cons b bytes
    · rw [hdecode]
      exact List.forall_mem_cons.mpr ⟨hspace, hrest⟩
    · omega

/-- White space around a text leaves it what it is. -/
theorem deserialize_pad {start rear : List UInt8} (hstart : IsBlank start) (hrear : IsBlank rear)
    (bytes : List UInt8) :
    deserialize (getString (start ++ (bytes ++ rear))) = deserialize (getString bytes) := by
  have hascii : ∀ b ∈ rear.head?, b.toNat < 0x80 := fun b hb =>
    (blank_byte (hrear b (List.mem_of_head? hb))).1
  have hsplit : Lib.Utf8.decode (bytes ++ rear) =
      Lib.Utf8.decode bytes ++ Lib.Utf8.decode rear := decodeFrom_append_ascii none bytes hascii
  obtain ⟨hblank, hdecode⟩ := decode_blank hstart (bytes ++ rear)
  unfold deserialize getString
  rw [hdecode, hsplit, parse_pad hblank (decode_blank hrear []).1]

theorem isBlank_flatten {pieces : List (List UInt8)} (h : ∀ piece ∈ pieces, IsBlank piece) :
    IsBlank pieces.flatten := by
  intro b hb
  obtain ⟨piece, hpiece, hb⟩ := List.mem_flatten.mp hb
  exact h piece hpiece b hb

/-- White space is no frame to send. -/
theorem not_toSend_blank {parsers : UuidParsers} {bytes : List UInt8} (h : IsBlank bytes) :
    ¬ToSend parsers bytes := by
  rintro ⟨c, content, text, hdecoded, -⟩
  have hnil : IsBlank [] := fun b hb => absurd hb List.not_mem_nil
  have hempty := deserialize_pad h hnil []
  rw [List.append_nil, List.append_nil, hdecoded] at hempty
  have hnone : deserialize (getString []) = none := by decide +kernel
  cases hempty.trans hnone

/-- A message in one piece is taken as it is. -/
theorem harmless_inOnePiece (parsers : UuidParsers) {pieces : List (List UInt8)}
    (h : InOnePiece pieces) : Harmless parsers pieces := by
  obtain ⟨before, piece, behind, rfl, hblank⟩ := h
  have hothers : ∀ other ∈ before ++ behind, ¬ToSend parsers other := fun other hother =>
    not_toSend_blank (hblank other hother)
  have hsame : deserialize (getString (before ++ piece :: behind).flatten) =
      deserialize (getString piece) := by
    rw [List.flatten_append, List.flatten_cons]
    exact deserialize_pad
      (isBlank_flatten fun other hother => hblank other (List.mem_append_left _ hother))
      (isBlank_flatten fun other hother => hblank other (List.mem_append_right _ hother)) piece
  by_cases hpiece : ToSend parsers piece
  · obtain ⟨c, content, hframe⟩ := hpiece
    refine .inr ⟨before, piece, behind, c, content, rfl, ?_, hframe, hothers⟩
    unfold IsFrame
    rw [hsame]
    exact hframe
  · refine .inl ⟨?_, fun other hother => ?_⟩
    · unfold ToSend IsFrame
      rw [hsame]
      exact hpiece
    · obtain hother | hother := List.mem_append.mp hother
      · exact hothers other (List.mem_append_left _ hother)
      · obtain rfl | hother := List.mem_cons.mp hother
        · exact hpiece
        · exact hothers other (List.mem_append_right _ hother)

/-- The text of a frame is an object. -/
theorem object_of_isFrame {parsers : UuidParsers} {bytes : List UInt8} {c : Uuid}
    {content : String} (h : IsFrame parsers bytes c content) :
    ∃ members, parse (String.ofList (Lib.Utf8.decode bytes)) = some (.object members) := by
  obtain ⟨text, hdecoded, -⟩ := h
  obtain ⟨v, hparse, hv⟩ := Option.bind_eq_some_iff.mp hdecoded
  split at hv
  · cases hv
  · split at hv
    · cases hv
    · exact ⟨_, hparse⟩
    · cases hv

/-- A wide character is neither white space nor a brace. -/
theorem not_blank_of_wide {c : Char} (h : Wide c) : isSpace c = false ∧ c ≠ '\x7b' := by
  have hne : ∀ d : Char, 0 < d.toNat → d.toNat < 0x80 → c ≠ d := by
    rintro d hpos hlt rfl
    obtain h | h := h <;> omega
  refine ⟨?_, hne _ (by decide) (by decide)⟩
  simp [isSpace, hne ' ' (by decide) (by decide), hne '\t' (by decide) (by decide),
    hne '\n' (by decide) (by decide), hne '\r' (by decide) (by decide)]

/-- The character of a byte below 0x80 tells the byte. -/
theorem byte_of_char {b : UInt8} (h : b.toNat < 0x80) {d : Char} (hd : Char.ofNat b.toNat = d)
    {e : UInt8} (he : e.toNat = d.toNat) : b = e := by
  have hnat : (Char.ofNat b.toNat).toNat = b.toNat := toNat_ofNat (by
    unfold Nat.isValidChar
    omega)
  refine UInt8.toNat_inj.mp ?_
  rw [he, ← hd, hnat]

theorem blank_of_isSpace {b : UInt8} (h : b.toNat < 0x80)
    (hspace : isSpace (Char.ofNat b.toNat) = true) :
    b = 0x20 ∨ b = 0x09 ∨ b = 0x0A ∨ b = 0x0D := by
  have hcases : Char.ofNat b.toNat = ' ' ∨ Char.ofNat b.toNat = '\t' ∨ Char.ofNat b.toNat = '\n' ∨
      Char.ofNat b.toNat = '\r' := by simpa [isSpace, or_assoc] using hspace
  obtain hc | hc | hc | hc := hcases
  · exact .inl (byte_of_char h hc rfl)
  · exact .inr (.inl (byte_of_char h hc rfl))
  · exact .inr (.inr (.inl (byte_of_char h hc rfl)))
  · exact .inr (.inr (.inr (byte_of_char h hc rfl)))

/-- What is decoded to white space is white space. -/
theorem isBlank_of_decode {bytes : List UInt8} (h : Blank (Lib.Utf8.decode bytes)) :
    IsBlank bytes := by
  induction bytes with
  | nil => exact fun b hb => by cases hb
  | cons b bytes ih =>
    obtain ⟨hb, hdecode⟩ | ⟨-, c, cs, hdecode, hwide⟩ := decode_cons b bytes
    · rw [hdecode] at h
      obtain ⟨hspace, hrest⟩ := List.forall_mem_cons.mp h
      exact List.forall_mem_cons.mpr ⟨blank_of_isSpace hb hspace, ih hrest⟩
    · have hspace := h c (by rw [hdecode]; exact List.mem_cons_self)
      rw [(not_blank_of_wide hwide).1] at hspace
      cases hspace

/-- In front of the first brace of an object there is white space. -/
theorem isBlank_before {start rest : List UInt8} {more : List Char}
    (h : skip (Lib.Utf8.decode (start ++ rest)) = '\x7b' :: more) (hbrace : 0x7B ∉ start) :
    IsBlank start := by
  induction start with
  | nil => exact fun b hb => by cases hb
  | cons b start ih =>
    have hne : 0x7B ≠ b := fun he => hbrace (he ▸ List.mem_cons_self)
    have hrest : 0x7B ∉ start := fun hmem => hbrace (List.mem_cons_of_mem b hmem)
    obtain ⟨hb, hdecode⟩ | ⟨-, c, cs, hdecode, hwide⟩ := decode_cons b (start ++ rest)
    · rw [List.cons_append, hdecode] at h
      by_cases hspace : isSpace (Char.ofNat b.toNat) = true
      · rw [skip, List.dropWhile_cons_of_pos hspace] at h
        exact List.forall_mem_cons.mpr ⟨blank_of_isSpace hb hspace, ih h hrest⟩
      · rw [skip, List.dropWhile_cons_of_neg hspace] at h
        exact absurd (byte_of_char hb (List.cons.inj h).1 rfl).symm hne
    · obtain ⟨hspace, hnot⟩ := not_blank_of_wide hwide
      rw [List.cons_append, hdecode, skip, List.dropWhile_cons_of_neg (by simp [hspace])] at h
      exact absurd (List.cons.inj h).1 hnot

/-- The text of an object has a brace. -/
theorem brace_mem {bytes : List UInt8} {more : List Char}
    (h : skip (Lib.Utf8.decode bytes) = '\x7b' :: more) : 0x7B ∈ bytes := by
  by_contra hnot
  have happend : skip (Lib.Utf8.decode (bytes ++ [])) = '\x7b' :: more := by rwa [List.append_nil]
  have hblank := (decode_blank (isBlank_before happend hnot) []).1
  cases (skip_eq_nil.mpr hblank).symm.trans h

/-- If a piece of a frame with one brace is a frame itself, it is all of the frame. -/
theorem isBlank_others {parsers : UuidParsers} {start piece rear : List UInt8}
    (hwhole : ToSend parsers (start ++ (piece ++ rear)))
    (hbrace : (start ++ (piece ++ rear)).count 0x7B = 1) (hpiece : ToSend parsers piece) :
    IsBlank start ∧ IsBlank rear := by
  obtain ⟨c, content, hframe⟩ := hwhole
  obtain ⟨c', content', hframe'⟩ := hpiece
  obtain ⟨members, hparse⟩ := object_of_isFrame hframe
  obtain ⟨members', hparse'⟩ := object_of_isFrame hframe'
  obtain ⟨more, hmore⟩ := object_head hparse
  obtain ⟨more', hmore'⟩ := object_head hparse'
  -- the brace is in the piece, so there is none in front of it
  have hmem : 1 ≤ piece.count 0x7B := List.one_le_count_iff.mpr (brace_mem hmore')
  have hstart : IsBlank start := by
    refine isBlank_before hmore fun hmem' => ?_
    have hcount : 1 ≤ start.count 0x7B := List.one_le_count_iff.mpr hmem'
    rw [List.count_append, List.count_append] at hbrace
    omega
  refine ⟨hstart, ?_⟩
  obtain ⟨⟨init, d, hlast, hd⟩, hends⟩ := parse_object hmore' hparse'
  -- the object ends with a complete character
  have hdone : after none piece = none := by
    cases hafter : after none piece with
    | none => rfl
    | some p =>
      obtain ⟨text, htext⟩ := decodeFrom_pending hafter
      have hsame : init ++ [d] = text ++ ['\uFFFD'] := hlast.symm.trans htext
      have heq : d = '\uFFFD' := List.singleton_inj.mp (List.append_inj' hsame rfl).2
      rw [heq] at hd
      exact absurd hd (by decide)
  obtain ⟨hblank, hdecode⟩ := decode_blank hstart (piece ++ rear)
  have hsplit : Lib.Utf8.decode (piece ++ rear) =
      Lib.Utf8.decode piece ++ Lib.Utf8.decode rear := decodeFrom_append hdone rear
  rw [hdecode, hsplit] at hparse
  exact isBlank_of_decode (hends _ _ _ hblank hparse)

/-- A frame with one brace of which no piece has all is lost: none of its pieces is a frame
to send. -/
theorem not_toSend_pieces {parsers : UuidParsers} {pieces : List (List UInt8)}
    (hwhole : ToSend parsers pieces.flatten) (hbrace : pieces.flatten.count 0x7B = 1)
    (hcut : ¬InOnePiece pieces) : ∀ piece ∈ pieces, ¬ToSend parsers piece := by
  intro piece hmem hpiece
  obtain ⟨before, behind, rfl⟩ := List.append_of_mem hmem
  rw [List.flatten_append, List.flatten_cons] at hwhole hbrace
  obtain ⟨hbefore, hbehind⟩ := isBlank_others hwhole hbrace hpiece
  refine hcut ⟨before, piece, behind, rfl, fun other hother b hb => ?_⟩
  obtain hother | hother := List.mem_append.mp hother
  · exact hbefore b (List.mem_flatten_of_mem hother hb)
  · exact hbehind b (List.mem_flatten_of_mem hother hb)

/-- For every text message, every way in which `ReceiveAsync` returns it in pieces, and
whatever it returns after that: the loop makes the calls that it would make for the whole
message in one piece exactly if the pieces are harmless. They are when one piece has all of
the message but white space. A frame to send with one opening brace, of which no piece has
all, is lost: the loop makes no call for it. -/
theorem readLoopAsync_pieces_iff (parsers : UuidParsers) (caller : Caller)
    (pieces : List (List UInt8)) (later : List WebSocketReceiveResult) :
    (readLoopAsync parsers caller (received pieces ++ later) =
        readLoopAsync parsers caller (received [pieces.flatten] ++ later) ↔
      Harmless parsers pieces) ∧
    (InOnePiece pieces → Harmless parsers pieces) ∧
    (ToSend parsers pieces.flatten → pieces.flatten.count 0x7B = 1 → ¬InOnePiece pieces →
      readLoopAsync parsers caller (received pieces ++ later) =
        readLoopAsync parsers caller later) := by
  refine ⟨?_, harmless_inOnePiece parsers, fun hwhole hbrace hcut => ?_⟩
  · rw [readLoopAsync_received, readLoopAsync_received, List.append_left_inj]
    exact filterMap_sends_iff parsers caller pieces
  · have hlost : pieces.filterMap (sends parsers caller) = [] :=
      List.filterMap_eq_nil_iff.mpr fun piece hpiece =>
        sends_eq_none.mpr (not_toSend_pieces hwhole hbrace hcut piece hpiece)
    rw [readLoopAsync_received, hlost, List.nil_append]

/-- The bytes of an ASCII text. -/
def asciiBytes (text : String) : List UInt8 := text.toList.map fun c => UInt8.ofNat c.toNat

/-- A frame that sends a greeting, as the browser writes it. -/
def greeting : String :=
  "\x7b\"type\":\"send_message\",\"conversationId\":\"" ++ uuidText 5 ++ "\",\"content\":\"Hi\"\x7d"

/-- Whoever sends the greeting. -/
def ann : Caller := ⟨20, 4, "Ann Lee", 1⟩

/-- The greeting is a frame to send. -/
theorem isFrame_greeting : IsFrame canonicalParsers (asciiBytes greeting) 5 "Hi" :=
  ⟨uuidText 5, by decide +kernel, by decide +kernel, by decide +kernel,
    canonicalParsers.tryParse_canonical 5 (by decide)⟩

/-- The greeting, cut within its first member. -/
def greetingPieces : List (List UInt8) :=
  [(asciiBytes greeting).take 20, (asciiBytes greeting).drop 20]

theorem flatten_greetingPieces : greetingPieces.flatten = asciiBytes greeting := by
  unfold greetingPieces
  rw [List.flatten_cons, List.flatten_singleton, List.take_append_drop]

/-- Of two pieces that are one piece and white space, either is white space. -/
theorem isBlank_of_inOnePiece {p q : List UInt8} (h : InOnePiece [p, q]) :
    IsBlank p ∨ IsBlank q := by
  obtain ⟨before, piece, behind, hpieces, hblank⟩ := h
  cases before with
  | nil =>
    cases hpieces
    exact Or.inr (hblank q List.mem_cons_self)
  | cons first before =>
    cases (List.cons.inj hpieces).1
    exact Or.inl (hblank p List.mem_cons_self)

/-- The greeting behind a frame of white space is sent, and it is lost when it is cut. -/
theorem readLoopAsync_pieces_iff_greeting :
    readLoopAsync canonicalParsers ann (received [[0x20], asciiBytes greeting] ++ []) =
        readLoopAsync canonicalParsers ann
          (received [[[0x20], asciiBytes greeting].flatten] ++ []) ∧
      readLoopAsync canonicalParsers ann (received greetingPieces ++ []) = [] := by
  obtain ⟨hiff, hpiece, -⟩ :=
    readLoopAsync_pieces_iff canonicalParsers ann [[0x20], asciiBytes greeting] []
  have hblank : ∀ other ∈ ([[0x20]] : List (List UInt8)) ++ [], IsBlank other := by
    intro other hother
    rw [List.mem_singleton.mp hother]
    exact fun b hb => Or.inl (List.mem_singleton.mp hb)
  refine ⟨hiff.mpr (hpiece ⟨[[0x20]], asciiBytes greeting, [], rfl, hblank⟩), ?_⟩
  refine (readLoopAsync_pieces_iff canonicalParsers ann greetingPieces []).2.2 ?_ ?_ ?_
  · rw [flatten_greetingPieces]
    exact ⟨5, "Hi", isFrame_greeting⟩
  · decide +kernel
  · intro hone
    obtain hblank | hblank := isBlank_of_inOnePiece hone
    · exact absurd hblank (by decide +kernel)
    · exact absurd hblank (by decide +kernel)

/-- The greeting is sent when it arrives in one piece, and lost when the browser cuts it
into two frames. -/
theorem readLoopAsync_not_pieces : ¬∀ (parsers : UuidParsers) (caller : Caller)
    (pieces : List (List UInt8)), (∀ piece ∈ pieces, piece.length ≤ 8 * 1024) →
      readLoopAsync parsers caller (received pieces) =
        readLoopAsync parsers caller (received [pieces.flatten]) := by
  intro h
  have hsame := h canonicalParsers ann greetingPieces (by decide)
  have hwhole : sends canonicalParsers ann (asciiBytes greeting) = some (ann.sends 5 "Hi") :=
    sends_eq_some.mpr ⟨5, "Hi", isFrame_greeting, rfl⟩
  have hpieces : greetingPieces.filterMap (sends canonicalParsers ann) = [] := by
    decide +kernel
  have hleft := readLoopAsync_received canonicalParsers ann greetingPieces []
  have hright := readLoopAsync_received canonicalParsers ann [greetingPieces.flatten] []
  rw [List.append_nil] at hleft hright
  rw [hleft, hright, hpieces, flatten_greetingPieces, List.filterMap_cons_some hwhole] at hsame
  cases hsame

end AuraWellness.Backend.Fragments
