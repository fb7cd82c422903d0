import AuraWellness.Lib.Issued
import AuraWellness.Chat.Identifiers
import AuraWellness.Chat.Live
import AuraWellness.Backend.Answers

/-!
# Inbound frames of the two WebSocket endpoints

The chat service and the backend both offer a WebSocket endpoint and read the same
frames from it. The chat service sends whatever the frame contains, under a name that
is never empty; the backend looks at the content first, takes the name as it is, and
looks up the workspace and the access of the caller for every frame. A frame is taken
here as it is decoded: before that the chat service closes the connection on a message of
more than 4096 bytes, and the backend decodes a message in pieces of at most 8 KiB.
-/

namespace AuraWellness.Backend.InboundFrames

open AuraWellness.Lib.Calls AuraWellness.Lib.Keyed
open AuraWellness.Chat.Entities AuraWellness.Chat.Schema
open AuraWellness.Chat.Services AuraWellness.Chat.Handlers
open AuraWellness.Chat.Membership AuraWellness.Chat.Publishing AuraWellness.Chat.Identifiers
open AuraWellness.Chat.Live
open AuraWellness.Backend.Entities AuraWellness.Backend.Schema AuraWellness.Backend.Repositories
open AuraWellness.Backend.Services AuraWellness.Backend.Runs AuraWellness.Backend.Answers

/-- The claims of the token that the endpoints read. -/
structure TokenClaims where
  personId : Uuid
  buId : Uuid
  companyId : Uuid
  firstName : Option String
  lastName : Option String
  deriving DecidableEq, Repr

/-- `strings.TrimSpace` and `Trim()`: they agree on what white space is. -/
def trimSpace (text : String) : String := String.ofList (trim text.toList)

/-- `ParseClaims`, once the token is verified. -/
def parseClaims (claims : TokenClaims) : UserClaims :=
  let firstName := claims.firstName.getD ""
  let lastName := claims.lastName.getD ""
  let senderName := trimSpace (firstName ++ " " ++ lastName)
  ⟨claims.personId, claims.buId, if senderName = "" then "Unknown" else senderName⟩

/-- A decoded frame, as `WsIncomingMessage` has it: a field can be absent. -/
structure WsIncomingMessage where
  type : Option String
  conversationId : Option String
  content : Option String
  deriving DecidableEq, Repr

/-- `inboundMessage`. -/
structure InboundMessage where
  type : String
  conversationID : String
  content : String
  deriving DecidableEq, Repr

/-- The same frame after `json.Unmarshal`, which leaves an absent field empty. -/
def WsIncomingMessage.unmarshal (frame : WsIncomingMessage) : InboundMessage :=
  ⟨frame.type.getD "", frame.conversationId.getD "", frame.content.getD ""⟩

/-- The two parsers of identifiers, which are not part of the repository. -/
structure UuidParsers where
  /-- `uuid.Parse`. -/
  parse : String → Option Uuid
  /-- `Guid.TryParse`. -/
  tryParse : String → Option Uuid
  /-- The first one reads the canonical text. -/
  parse_canonical : ∀ id < 2 ^ 128, parse (uuidText id) = some id
  /-- So does the second one. -/
  tryParse_canonical : ∀ id < 2 ^ 128, tryParse (uuidText id) = some id

/-- The read pump of `ServeWS` on one frame: the call that it makes, if any. -/
def Handler.readPump (parsers : UuidParsers) (workspaceID : Uuid) (claims : UserClaims)
    (inbound : InboundMessage) : Option Call :=
  if inbound.type ≠ "send_message" then none
  else
    match parsers.parse inbound.conversationID with
    | none => none
    | some convID =>
      some (.sendMessage workspaceID convID claims.personID claims.senderName inbound.content)

/-- `string.IsNullOrWhiteSpace`. -/
def isNullOrWhiteSpace : Option String → Bool
  | none => true
  | some text => text.toList.all isWhiteSpace

/-- `ReadLoopAsync` on one frame. -/
def ChatWebSocketHandler.readLoop (parsers : UuidParsers) (buId personId : Uuid)
    (senderName : String) (companyId : Uuid) (incoming : WsIncomingMessage) :
    BackendProgram (Option ChatMessageDto) :=
  if incoming.type = some "send_message" ∧ isNullOrWhiteSpace incoming.content = false ∧
      isNullOrWhiteSpace incoming.conversationId = false then
    match parsers.tryParse (incoming.conversationId.getD "") with
    | some conversationId =>
      ChatAccessService.sendConversationMessage buId conversationId personId senderName
        (incoming.content.getD "") companyId
    | none => return none
  else return none

/-- `HandleAsync`, on one frame of an admitted session. -/
def ChatWebSocketHandler.handle (parsers : UuidParsers) (claims : TokenClaims)
    (incoming : WsIncomingMessage) : BackendProgram (Option ChatMessageDto) :=
  let firstName := claims.firstName.getD ""
  let lastName := claims.lastName.getD ""
  let senderName := trimSpace (firstName ++ " " ++ lastName)
  readLoop parsers claims.buId claims.personId senderName claims.companyId incoming

/-- The `SendMessage` that a call of the backend causes in the chat service. -/
def sendCaused : BackendCall → Option Call
  | .chat (.sendMessage workspaceID conversationID personID senderName content) =>
    some (.sendMessage workspaceID conversationID personID senderName content)
  | _ => none

/-- What the backend sends for a frame. -/
def backendSends (parsers : UuidParsers) (claims : TokenClaims) (env : ℕ → Turn BackendChoice Exn)
    (s : World) (frame : WsIncomingMessage) : List Call :=
  ((ChatWebSocketHandler.handle parsers claims frame).issued backendMachine env s).filterMap
    sendCaused

/-- What the chat service sends for a frame. -/
def serviceSends (parsers : UuidParsers) (claims : TokenClaims) (workspace : ChatWorkspace)
    (frame : WsIncomingMessage) : List Call :=
  (Handler.readPump parsers workspace.id (parseClaims claims) frame.unmarshal).toList

/-- Both endpoints have admitted the session: the workspace is that of the business
unit, and the caller has access to it. -/
structure Admitted (s : World) (claims : TokenClaims) (workspace : ChatWorkspace) : Prop where
  stored : workspace ∈ s.chat.db.workspaces
  unit : workspace.buID = claims.buId
  access : HasAccess s.chat.db workspace.id claims.personId

/-- The text is the canonical text of an identifier. -/
def Canonical (text : String) : Prop := ∃ id < 2 ^ 128, text = uuidText id

/-- Neither parser takes the text for an identifier. -/
def NoUuid (parsers : UuidParsers) (text : String) : Prop :=
  parsers.parse text = none ∧ parsers.tryParse text = none

/-- The lookups that the backend makes for a frame are answered. -/
def LookupsAnswered (env : ℕ → Turn BackendChoice Exn) (s : World) (claims : TokenClaims)
    (workspace : ChatWorkspace) : Prop :=
  Succeeds (.chat (.getWorkspaceByBuID claims.buId)) (env 0) s ∧
    Succeeds (.chat (.listMembers workspace.id)) (env 1) s

/-- Neither endpoint sends the frame: it is none to send, or for no conversation. -/
def Unsendable (parsers : UuidParsers) (frame : WsIncomingMessage) : Prop :=
  frame.type ≠ some "send_message" ∨ NoUuid parsers (frame.conversationId.getD "")

/-- The frame and the names of the token leave neither endpoint anything of its own to
decide. -/
structure Plain (claims : TokenClaims) (frame : WsIncomingMessage) : Prop where
  /-- The content is not blank. -/
  content : isNullOrWhiteSpace frame.content = false
  /-- The names are not both blank. -/
  name : trimSpace (claims.firstName.getD "" ++ " " ++ claims.lastName.getD "") ≠ ""

/-- The text of an identifier contains a hyphen. -/
theorem hyphen_mem_uuidText (id : Uuid) : '-' ∈ (uuidText id).toList := by
  simp [uuidText]

/-- A frame with a canonical identifier has one that is not blank. -/
theorem not_blank_of_canonical {text : Option String} (h : Canonical (text.getD "")) :
    isNullOrWhiteSpace text = false := by
  obtain ⟨id, -, htext⟩ := h
  have hmem := hyphen_mem_uuidText id
  rw [← htext] at hmem
  cases text with
  | none => simp at hmem
  | some text =>
    refine List.all_eq_false.mpr ⟨'-', hmem, ?_⟩
    decide

/-- A lookup of a workspace is one query whose reply is handed on. -/
theorem issued_lookup {α : Type} (bu : Uuid) (f : Option ChatWorkspace → BackendProgram α)
    (env : ℕ → Turn BackendChoice Exn) (s : World) :
    (ChatServiceClient.getWorkspaceByBuId bu >>= f).issued backendMachine env s =
      .chat (.getWorkspaceByBuID bu) ::
        (lookupResult (backendMachine.answer (.chat (.getWorkspaceByBuID bu)) (env 0) s).1 >>=
          f).issued backendMachine (fun n => env (n + 1)) s := by
  have hquery : BackendCall.Queries (.chat (.getWorkspaceByBuID bu)) := trivial
  rw [getWorkspaceByBuId_eq, Program.bind_assoc]
  refine (Program.issued_attempt_bind _ _ _ _ _).trans ?_
  rw [query_state hquery]

/-- A message that is handed to the chat service is sent once, whatever it answers. -/
theorem sends_sendMessage {β : Type} (workspaceId conversationId personId : Uuid)
    (senderName content : String) (f : ChatMessage → β) (env : ℕ → Turn BackendChoice Exn)
    (s : World) :
    ((f <$> ChatServiceClient.sendMessage workspaceId conversationId personId senderName
      content).issued backendMachine env s).filterMap sendCaused =
        [.sendMessage workspaceId conversationId personId senderName content] := by
  rw [Program.issued_map]
  rfl

/-- An admitted caller's message is sent to the workspace if the lookups are answered,
and is not sent otherwise. -/
theorem sends_sendConversationMessage {s : World} {claims : TokenClaims} {workspace : ChatWorkspace}
    (hadmitted : Admitted s claims workspace) (conversationId : Uuid) (senderName content : String)
    (env : ℕ → Turn BackendChoice Exn) :
    (LookupsAnswered env s claims workspace →
      ((ChatAccessService.sendConversationMessage claims.buId conversationId claims.personId
        senderName content claims.companyId).issued backendMachine env s).filterMap sendCaused =
          [.sendMessage workspace.id conversationId claims.personId senderName content]) ∧
    (¬LookupsAnswered env s claims workspace →
      ((ChatAccessService.sendConversationMessage claims.buId conversationId claims.personId
        senderName content claims.companyId).issued backendMachine env s).filterMap sendCaused =
          []) := by
  unfold ChatAccessService.sendConversationMessage
  rw [issued_lookup]
  have hmembersQuery : BackendCall.Queries (.chat (.listMembers workspace.id)) := trivial
  cases hlookup : (backendMachine.answer (.chat (.getWorkspaceByBuID claims.buId)) (env 0) s).1 with
  | error e =>
    have hunanswered : ¬LookupsAnswered env s claims workspace := by
      intro hanswered
      exact not_succeeds hlookup hanswered.1
    refine ⟨fun hanswered => absurd hanswered hunanswered, fun _ => ?_⟩
    obtain hnone | ⟨e', hthrow⟩ := lookupResult_error e
    · rw [hnone]
      rfl
    · rw [hthrow]
      rfl
  | ok found =>
    obtain ⟨hstored, hunit⟩ := lookup_ok hlookup
    obtain rfl : found = workspace :=
      s.chat.db.valid.workspaces_bu.eq hstored hadmitted.stored (hunit.trans hadmitted.unit.symm)
    cases hmembers : (backendMachine.answer (.chat (.listMembers found.id)) (env 1) s).1 with
    | error e =>
      have hunanswered : ¬LookupsAnswered env s claims found := by
        intro hanswered
        exact not_succeeds hmembers hanswered.2
      refine ⟨fun hanswered => absurd hanswered hunanswered, fun _ => ?_⟩
      refine (?_ : List.filterMap sendCaused (_ :: Program.issued backendMachine
        (call (.chat (.listMembers found.id)) >>= _) (fun n => env (n + 1)) s) = [])
      rw [Program.issued_perform_error _ hmembers]
      rfl
    | ok members =>
      have hanswered : LookupsAnswered env s claims found :=
        ⟨succeeds_of_ok hlookup, succeeds_of_ok hmembers⟩
      refine ⟨fun _ => ?_, fun hunanswered => absurd hanswered hunanswered⟩
      have haccess : memberHasAccess members claims.personId = true :=
        (listed_access_iff hmembers).mpr hadmitted.access
      refine (?_ : List.filterMap sendCaused (_ :: Program.issued backendMachine
        (call (.chat (.listMembers found.id)) >>= _) (fun n => env (n + 1)) s) = _)
      rw [Program.issued_perform_ok _ hmembers, query_state hmembersQuery, if_pos haccess]
      exact sends_sendMessage found.id conversationId claims.personId senderName content
        (fun result => some (toMessageDto result)) (fun n => env (n + 1 + 1)) s

/-- A frame that neither endpoint sends. -/
theorem sends_unsendable {parsers : UuidParsers} {frame : WsIncomingMessage}
    (h : Unsendable parsers frame) (claims : TokenClaims) (workspace : ChatWorkspace)
    (env : ℕ → Turn BackendChoice Exn) (s : World) :
    backendSends parsers claims env s frame = [] ∧
      serviceSends parsers claims workspace frame = [] := by
  unfold backendSends serviceSends ChatWebSocketHandler.handle ChatWebSocketHandler.readLoop
    Handler.readPump
  dsimp only
  obtain htype | ⟨hparse, htry⟩ := h
  · have hother : frame.unmarshal.type ≠ "send_message" := by
      unfold WsIncomingMessage.unmarshal
      cases hframe : frame.type with
      | none => simp
      | some text =>
        rw [hframe] at htype
        exact fun he => htype (congrArg some he)
    rw [if_neg fun hboth => htype hboth.1, if_pos hother]
    exact ⟨rfl, rfl⟩
  · have hid : parsers.parse frame.unmarshal.conversationID = none := hparse
    rw [hid, htry]
    constructor
    · split <;> rfl
    · split <;> rfl

/-- What the chat service sends for a frame with a canonical identifier. -/
theorem serviceSends_canonical (parsers : UuidParsers) (claims : TokenClaims)
    (workspace : ChatWorkspace) {frame : WsIncomingMessage} (htype : frame.type = some "send_message")
    {id : Uuid} (hid : id < 2 ^ 128) (htext : frame.conversationId.getD "" = uuidText id) :
    serviceSends parsers claims workspace frame =
      [.sendMessage workspace.id id claims.personId (parseClaims claims).senderName
        (frame.content.getD "")] := by
  have hsend : ¬frame.unmarshal.type ≠ "send_message" := by
    simp [WsIncomingMessage.unmarshal, htype]
  have hparse : parsers.parse frame.unmarshal.conversationID = some id := by
    refine (congrArg parsers.parse htext).trans ?_
    exact parsers.parse_canonical id hid
  unfold serviceSends Handler.readPump
  rw [if_neg hsend, hparse]
  rfl

/-- What the backend sends for a frame with a canonical identifier: nothing when the
content is blank or a lookup fails. -/
theorem backendSends_canonical (parsers : UuidParsers) {claims : TokenClaims} {s : World}
    {workspace : ChatWorkspace} (hadmitted : Admitted s claims workspace)
    {frame : WsIncomingMessage} (htype : frame.type = some "send_message")
    {id : Uuid} (hid : id < 2 ^ 128) (htext : frame.conversationId.getD "" = uuidText id)
    (env : ℕ → Turn BackendChoice Exn) :
    (isNullOrWhiteSpace frame.content = false ∧ LookupsAnswered env s claims workspace →
      backendSends parsers claims env s frame =
        [.sendMessage workspace.id id claims.personId
          (trimSpace (claims.firstName.getD "" ++ " " ++ claims.lastName.getD ""))
          (frame.content.getD "")]) ∧
    (¬(isNullOrWhiteSpace frame.content = false ∧ LookupsAnswered env s claims workspace) →
      backendSends parsers claims env s frame = []) := by
  have hnotBlank : isNullOrWhiteSpace frame.conversationId = false :=
    not_blank_of_canonical ⟨id, hid, htext⟩
  have htry : parsers.tryParse (frame.conversationId.getD "") = some id := by
    rw [htext]
    exact parsers.tryParse_canonical id hid
  unfold backendSends ChatWebSocketHandler.handle ChatWebSocketHandler.readLoop
  dsimp only
  rw [htry]
  obtain ⟨hsent, hlost⟩ := sends_sendConversationMessage hadmitted id
    (trimSpace (claims.firstName.getD "" ++ " " ++ claims.lastName.getD ""))
    (frame.content.getD "") env
  constructor
  · intro h
    rw [if_pos ⟨htype, h.1, hnotBlank⟩]
    exact hsent h.2
  · intro h
    by_cases hcontent : isNullOrWhiteSpace frame.content = false
    · rw [if_pos ⟨htype, hcontent, hnotBlank⟩]
      exact hlost fun hanswered => h ⟨hcontent, hanswered⟩
    · rw [if_neg fun hall => hcontent hall.2.1]
      rfl

/-- The two sender names are the same unless both names of the token are blank. -/
theorem senderName_eq_iff (claims : TokenClaims) :
    trimSpace (claims.firstName.getD "" ++ " " ++ claims.lastName.getD "") =
        (parseClaims claims).senderName ↔
      trimSpace (claims.firstName.getD "" ++ " " ++ claims.lastName.getD "") ≠ "" := by
  unfold parseClaims
  dsimp only
  split
  · rename_i hempty
    rw [hempty]
    simp
  · rename_i hname
    exact iff_of_true rfl hname

/-- For every session that both endpoints have admitted and every frame whose conversation
is a canonical identifier or none at all: the endpoints send the same message or both send
none exactly if neither can send the frame, or it leaves them nothing of their own to
decide and the backend's lookups are answered. -/
theorem sends_eq_iff (parsers : UuidParsers) {s : World} {claims : TokenClaims}
    {workspace : ChatWorkspace} (hadmitted : Admitted s claims workspace)
    (env : ℕ → Turn BackendChoice Exn) {frame : WsIncomingMessage}
    (hid : Canonical (frame.conversationId.getD "") ∨
      NoUuid parsers (frame.conversationId.getD "")) :
    backendSends parsers claims env s frame = serviceSends parsers claims workspace frame ↔
      Unsendable parsers frame ∨ Plain claims frame ∧ LookupsAnswered env s claims workspace := by
  by_cases hunsendable : Unsendable parsers frame
  · obtain ⟨hbackend, hservice⟩ := sends_unsendable hunsendable claims workspace env s
    rw [hbackend, hservice]
    exact iff_of_true rfl (Or.inl hunsendable)
  have htype : frame.type = some "send_message" := by
    by_contra hother
    exact hunsendable (Or.inl hother)
  obtain ⟨id, hsmall, htext⟩ : Canonical (frame.conversationId.getD "") :=
    hid.resolve_right fun hnone => hunsendable (Or.inr hnone)
  obtain ⟨hsent, hlost⟩ := backendSends_canonical parsers hadmitted htype hsmall htext env
  rw [serviceSends_canonical parsers claims workspace htype hsmall htext]
  have hplain : Plain claims frame ↔ isNullOrWhiteSpace frame.content = false ∧
      trimSpace (claims.firstName.getD "" ++ " " ++ claims.lastName.getD "") ≠ "" :=
    ⟨fun h => ⟨h.content, h.name⟩, fun h => ⟨h.1, h.2⟩⟩
  by_cases hsends : isNullOrWhiteSpace frame.content = false ∧
      LookupsAnswered env s claims workspace
  · rw [hsent hsends]
    constructor
    · intro h
      have hname : trimSpace (claims.firstName.getD "" ++ " " ++ claims.lastName.getD "") =
          (parseClaims claims).senderName := by
        injection h with hcall
        injection hcall
      exact Or.inr ⟨⟨hsends.1, (senderName_eq_iff claims).mp hname⟩, hsends.2⟩
    · intro h
      obtain ⟨hplain, -⟩ := h.resolve_left hunsendable
      rw [(senderName_eq_iff claims).mpr hplain.name]
  · rw [hlost hsends]
    refine iff_of_false (by simp) fun h => ?_
    obtain ⟨hplain, hanswered⟩ := h.resolve_left hunsendable
    exact hsends ⟨hplain.content, hanswered⟩

/-- Parsers that read the canonical text and nothing else. -/
def canonicalParsers : UuidParsers where
  parse := readUuid
  tryParse := readUuid
  parse_canonical := fun _ h => readUuid_uuidText h
  tryParse_canonical := fun _ h => readUuid_uuidText h

/-- A workspace with one member. -/
def spaChat : ChatDb where
  workspaces := [⟨2, 20, 1, "Spa HQ", 0⟩]
  members := [⟨3, 2, 4, "Admin", true, 0⟩]
  conversations := []
  participants := []
  messages := []
  valid := by constructor <;> simp [UniqueColumn, groups, Uuid.nil]

/-- The backend with that workspace. -/
def spa : World := { World.seeded with chat := ⟨spaChat, []⟩ }

/-- The token of the member. -/
def annClaims : TokenClaims := ⟨4, 20, 1, some "Ann", some "Lee"⟩

/-- A frame of the member with this content. -/
def annFrame (content : String) : WsIncomingMessage :=
  ⟨some "send_message", some (uuidText 5), some content⟩

/-- Both endpoints have admitted the member. -/
theorem admitted_ann : Admitted spa annClaims ⟨2, 20, 1, "Spa HQ", 0⟩ where
  stored := List.mem_singleton.mpr rfl
  unit := rfl
  access := ⟨⟨3, 2, 4, "Admin", true, 0⟩, List.mem_singleton.mpr rfl, rfl, rfl⟩

/-- The equivalence for a message with words in it. -/
theorem sends_eq_iff_hello :
    backendSends canonicalParsers annClaims (servedWith 0) spa (annFrame "Hello") =
        serviceSends canonicalParsers annClaims ⟨2, 20, 1, "Spa HQ", 0⟩ (annFrame "Hello") ↔
      Unsendable canonicalParsers (annFrame "Hello") ∨ Plain annClaims (annFrame "Hello") ∧
        LookupsAnswered (servedWith 0) spa annClaims ⟨2, 20, 1, "Spa HQ", 0⟩ :=
  sends_eq_iff canonicalParsers admitted_ann (servedWith 0) (Or.inl ⟨5, by decide, rfl⟩)

/-- The chat service sends a message of one blank, and the backend does not, although
its lookups are answered. -/
theorem sends_not_always_eq : ¬∀ (parsers : UuidParsers) (s : World) (claims : TokenClaims)
    (workspace : ChatWorkspace) (env : ℕ → Turn BackendChoice Exn) (frame : WsIncomingMessage),
    Admitted s claims workspace → LookupsAnswered env s claims workspace →
      (Canonical (frame.conversationId.getD "") ∨
        NoUuid parsers (frame.conversationId.getD "")) →
      backendSends parsers claims env s frame = serviceSends parsers claims workspace frame := by
  intro h
  have hanswered : LookupsAnswered (servedWith 0) spa annClaims ⟨2, 20, 1, "Spa HQ", 0⟩ :=
    ⟨rfl, rfl⟩
  have hsame := h canonicalParsers spa annClaims ⟨2, 20, 1, "Spa HQ", 0⟩ (servedWith 0)
    (annFrame " ") admitted_ann hanswered (Or.inl ⟨5, by decide, rfl⟩)
  have hsmall : (5 : Uuid) < 2 ^ 128 := by decide
  have hblank : isNullOrWhiteSpace (annFrame " ").content = true := by decide
  have hdropped := (backendSends_canonical canonicalParsers admitted_ann rfl hsmall rfl
    (servedWith 0)).2 fun hsends => Bool.false_ne_true (hsends.1.symm.trans hblank)
  rw [hdropped, serviceSends_canonical canonicalParsers annClaims _ rfl hsmall rfl] at hsame
  cases hsame

end AuraWellness.Backend.InboundFrames
