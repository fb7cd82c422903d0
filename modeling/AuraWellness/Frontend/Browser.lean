import AuraWellness.Backend.Services
import AuraWellness.Chat.LiveAccess

/-!
# The chat page of the frontend

The page keeps a store of messages by conversation. `useChatWebSocket` opens a
connection on mount, appends every frame that arrives, and reconnects after an
unexpected closure. Whenever the active conversation changes the page fetches
its newest messages over REST and puts them in place of the stored ones. The
requests of a fetch are answered one after the other while the service and its
connections go on. While the connection is not open the page sends over REST and
appends the response.
-/

namespace AuraWellness.Frontend.Browser

open AuraWellness.Lib.Calls AuraWellness.Lib.Transition
open AuraWellness.Chat.Entities AuraWellness.Chat.Schema AuraWellness.Chat.Repositories
open AuraWellness.Chat.Services AuraWellness.Chat.Live
open AuraWellness.Backend.Entities AuraWellness.Backend.Schema AuraWellness.Backend.Repositories
open AuraWellness.Backend.Services

/-- The user of the page. -/
structure User where
  /-- The identity in the cookie's token. -/
  claims : UserClaims
  /-- The company in the token. -/
  companyId : Uuid
  deriving DecidableEq, Repr

/-- The mapping of a frame in `onmessage`. The frontend's `ChatMessage` has the
fields of `ChatMessageDto`. -/
def fromFrame (raw : OutboundMessage) : ChatMessageDto :=
  ⟨raw.id, raw.conversationID, raw.personID, raw.senderName, raw.content, raw.createdAt⟩

/-- `appendMessage` on the messages of one conversation. -/
def appendMessage (existing : List ChatMessageDto) (msg : ChatMessageDto) : List ChatMessageDto :=
  if existing.any (fun m => m.messageId = msg.messageId) then existing else existing ++ [msg]

/-- A call of `fetchConversationMessages` that has not come back yet. -/
structure Fetch where
  /-- The conversation. -/
  conversationId : Uuid
  /-- What the backend still has to do for it. -/
  program : BackendProgram (Option (List ChatMessageDto))

/-- The page, the service and its connections. -/
structure Page where
  /-- The chat service with all connections. -/
  live : LiveState
  /-- The main database. -/
  main : MainDb
  /-- The chat page is mounted. -/
  mounted : Bool
  /-- `activeConversationId`. -/
  activeConversationId : Option Uuid
  /-- `messages`; a missing key is the empty list. -/
  messages : Uuid → List ChatMessageDto
  /-- The fetches on their way. -/
  fetches : List Fetch
  /-- The connection of `wsRef.current`. -/
  socket : Option ℕ
  /-- The timer of the reconnect is running. -/
  reconnectTimer : Bool

/-- The chat database. -/
abbrev Page.db (s : Page) : ChatDb := s.live.db

/-- A browser that has not opened the page yet, and a new chat service. -/
def Page.initial (main : MainDb) : Page :=
  ⟨LiveState.initial, main, false, none, fun _ => [], [], none, false⟩

/-- What happens next. -/
inductive PageLabel
  /-- A step of the service, of its connections or of Redis. -/
  | live (l : LiveLabel)
  /-- The page is mounted. -/
  | mount
  /-- The page is unmounted. -/
  | unmount
  /-- Another conversation becomes active: by selection, by `createDM`, or as the
  first one when the conversations are loaded. -/
  | activate (conversationId : Uuid)
  /-- The timer of the reconnect fires. -/
  | reconnect
  /-- `onclose` with this code. -/
  | onclose (code : ℕ)
  /-- `onmessage`: the next frame arrives. -/
  | onmessage
  /-- The next request of a fetch is answered. -/
  | fetchTurn (k : ℕ) (answer : Turn BackendChoice Exn)
  /-- The response to a fetch arrives. -/
  | fetchDone (k : ℕ)

/-- `fetchConversationMessages`: the newest 50 messages, without a cursor. -/
def fetchConversationMessages (user : User) (conversationId : Uuid) : Fetch :=
  ⟨conversationId, ChatAccessService.getConversationMessages user.claims.buID conversationId
    user.claims.personID user.companyId 50 none⟩

/-- `connect`: a new connection takes the place of the current one. The proxy
passes the user's token on. -/
def Page.connect (user : User) (s : Page) : Page :=
  { s with
    live := { s.live with sockets := s.live.sockets ++ [⟨user.claims, .resolving⟩] }
    socket := some s.live.sockets.length }

/-- The effect of `ChatPage` on the active conversation. -/
def Page.fetchActive (user : User) (s : Page) : Page :=
  match s.activeConversationId with
  | some c => { s with fetches := s.fetches ++ [fetchConversationMessages user c] }
  | none => s

/-- The stream of the current connection. -/
def Page.stream? (s : Page) : Option (UserClaims × Stream) := s.socket.bind s.live.stream?

/-- One step of the page, of the backend for it, or of the service. -/
def Page.step (user : User) (s : Page) : PageLabel → Option Page
  | .live l => (LiveState.step s.live l).map fun live => { s with live }
  | .mount =>
    if s.mounted then none
    else some ((Page.connect user { s with mounted := true }).fetchActive user)
  | .unmount =>
    if s.mounted then some { s with mounted := false, socket := none, reconnectTimer := false }
    else none
  | .activate c =>
    if s.activeConversationId = some c then some s
    else if s.mounted then
      some (Page.fetchActive user { s with activeConversationId := some c })
    else some { s with activeConversationId := some c }
  | .reconnect =>
    if s.reconnectTimer then some (Page.connect user { s with reconnectTimer := false }) else none
  | .onclose code =>
    match s.socket with
    | some _ => some { s with socket := none, reconnectTimer := decide (code ≠ 1000) }
    | none => none
  | .onmessage =>
    match s.socket with
    | some i =>
      match s.live.stream? i with
      | some (claims, stream) =>
        match stream.frames with
        | raw :: frames =>
          some { s with
            live := s.live.setStage i claims (.streaming { stream with frames })
            messages := Function.update s.messages raw.conversationID
              (appendMessage (s.messages raw.conversationID) (fromFrame raw)) }
        | [] => none
      | none => none
    | none => none
  | .fetchTurn k t =>
    match s.fetches[k]? with
    | some ⟨c, .call op next⟩ =>
      let reply := backendMachine.answer op t ⟨s.main, s.live.service.state⟩
      some { s with
        live := { s.live with service := { s.live.service with state := reply.2.chat } }
        main := reply.2.main
        fetches := s.fetches.set k ⟨c, next reply.1⟩ }
    | _ => none
  | .fetchDone k =>
    match s.fetches[k]? with
    | some ⟨c, .ret (.ok (some msgs))⟩ =>
      some { s with
        fetches := s.fetches.eraseIdx k
        messages := Function.update s.messages c msgs }
    | some ⟨_, .ret _⟩ => some { s with fetches := s.fetches.eraseIdx k }
    | _ => none

/-- A call of `sendConversationMessage` over REST that has not come back yet. -/
structure RestSend where
  /-- The conversation. -/
  conversationId : Uuid
  /-- What the backend still has to do for it. -/
  program : BackendProgram (Option ChatMessageDto)

/-- The page with what it sends over REST. -/
structure ChatPage where
  /-- The page. -/
  page : Page
  /-- The sends on their way. -/
  sends : List RestSend

/-- What happens next to the page with its sends. -/
inductive ChatPageLabel
  /-- A step of the page, or of the service and its connections. -/
  | page (l : PageLabel)
  /-- `handleSend` falls back to REST, with this trimmed draft. Whether the socket is open and
  whether another send is under way is left open here. -/
  | handleSend (content : String)
  /-- The next request of a send is answered. -/
  | sendTurn (k : ℕ) (answer : Turn BackendChoice Exn)
  /-- The response to a send arrives. -/
  | sendDone (k : ℕ)

/-- `sendConversationMessage`; the backend signs with the name in the token. -/
def sendConversationMessage (user : User) (senderName : String) (conversationId : Uuid)
    (content : String) : RestSend :=
  ⟨conversationId, ChatAccessService.sendConversationMessage user.claims.buID conversationId
    user.claims.personID senderName content user.companyId⟩

/-- One step of the page, of its sends, of the backend for them, or of the service. -/
def ChatPage.step (user : User) (senderName : String) (s : ChatPage) :
    ChatPageLabel → Option ChatPage
  | .page l => (Page.step user s.page l).map fun page => { s with page }
  | .handleSend content =>
    match s.page.activeConversationId with
    | some c =>
      if s.page.mounted = true ∧ content ≠ "" then
        some { s with sends := s.sends ++ [sendConversationMessage user senderName c content] }
      else none
    | none => none
  | .sendTurn k t =>
    match s.sends[k]? with
    | some ⟨c, .call op next⟩ =>
      let reply := backendMachine.answer op t ⟨s.page.main, s.page.live.service.state⟩
      some {
        page := { s.page with
          live := { s.page.live with
            service := { s.page.live.service with state := reply.2.chat } }
          main := reply.2.main }
        sends := s.sends.set k ⟨c, next reply.1⟩ }
    | _ => none
  | .sendDone k =>
    match s.sends[k]? with
    | some ⟨c, .ret (.ok (some msg))⟩ =>
      some {
        page := { s.page with
          messages := Function.update s.page.messages c (appendMessage (s.page.messages c) msg) }
        sends := s.sends.eraseIdx k }
    | some ⟨_, .ret _⟩ => some { s with sends := s.sends.eraseIdx k }
    | _ => none

end AuraWellness.Frontend.Browser
