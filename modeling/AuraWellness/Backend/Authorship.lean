import AuraWellness.Backend.Connecting
import AuraWellness.Backend.ChatClient
import AuraWellness.Backend.Bootstrap

/-!
# Nobody writes under another's name

A message enters the chat database in two ways: through the API, and through a
connection to the chat service. Both take the author and the name from the claims of a
token, and a token has claims of stored rows. The API writes the stored name as it is,
also when it is blank; a connection has "Unknown" in its place then. So every message,
and every frame on its way to a browser, is of the person whose token has sent it. The
session of the API's own endpoint for connections is not among its actions here.
-/

namespace AuraWellness.Backend.Authorship

open AuraWellness.Lib.Calls AuraWellness.Lib.Transition AuraWellness.Lib.RelyGuarantee
open AuraWellness.Chat.Entities AuraWellness.Chat.Schema AuraWellness.Chat.Repositories
open AuraWellness.Chat.Services (Call Request)
open AuraWellness.Chat.Growth AuraWellness.Chat.Membership AuraWellness.Chat.Handlers
open AuraWellness.Chat.Publishing (uuidText)
open AuraWellness.Chat.Live AuraWellness.Chat.LiveAccess AuraWellness.Chat.LiveFrames
open AuraWellness.Chat.Sending
open AuraWellness.Backend.Entities AuraWellness.Backend.Schema AuraWellness.Backend.Repositories
open AuraWellness.Backend.Runs AuraWellness.Backend.Tenants AuraWellness.Backend.ChatPermissions
open AuraWellness.Backend.Controllers AuraWellness.Backend.Tokens
open AuraWellness.Backend.ChatTenants AuraWellness.Backend.Connecting
open AuraWellness.Backend.InboundFrames (trimSpace)
open AuraWellness.Backend.ChatClient (canonicalUuids)
open AuraWellness.Backend.Resetting (InitialDataSeed.buId)

/-- The name under which a person writes. -/
def fullName (q : Person) : String := trimSpace (q.firstName ++ " " ++ q.lastName)

/-- The name of a person in a message: the stored one, or "Unknown" if that is blank and the
message was sent through a connection. -/
def NameOf (d : MainTables) (person : Uuid) (name : String) : Prop :=
  ∃ q ∈ d.persons, q.id = person ∧ (name = fullName q ∨ fullName q = "" ∧ name = "Unknown")

theorem NameOf.extend {d d' : MainTables} {person : Uuid} {name : String} (h : NameOf d person name)
    (hkeeps : ∀ q ∈ d.persons, q ∈ d'.persons) : NameOf d' person name := by
  obtain ⟨q, hq, hid, hname⟩ := h
  exact ⟨q, hkeeps q hq, hid, hname⟩

/-- The identity of a connection: a stored person under the stored name, and a business
unit of the person's company. -/
def Identified (d : MainTables) (claims : UserClaims) : Prop :=
  ∃ q ∈ d.persons, ∃ b ∈ d.businessUnits, q.id = claims.personID ∧ b.id = claims.buID ∧
    b.companyId = q.companyId ∧
    (claims.senderName = fullName q ∨ fullName q = "" ∧ claims.senderName = "Unknown")

theorem Identified.nameOf {d : MainTables} {claims : UserClaims} (h : Identified d claims) :
    NameOf d claims.personID claims.senderName := by
  obtain ⟨q, hq, b, hb, hid, hbu, hcompany, hname⟩ := h
  exact ⟨q, hq, hid, hname⟩

theorem Identified.extend {d d' : MainDb} {claims : UserClaims}
    (h : Identified d.toMainTables claims) (hkeeps : KeepsRows d d') :
    Identified d'.toMainTables claims := by
  obtain ⟨q, hq, b, hb, hrest⟩ := h
  exact ⟨q, hkeeps.persons q hq, b, hkeeps.businessUnits b hb, hrest⟩

/-- Every message has the name of its author. -/
def NamesAuthors (d : MainTables) (chat : ChatDb) : Prop :=
  ∀ m ∈ chat.messages, NameOf d m.personID m.senderName

/-- What a call leaves behind that sends in the name of the author. -/
theorem NamesAuthors.sent {d : MainTables} {call : Call} {s s' : ChatState}
    (h : NamesAuthors d s.db) (hcall : ∀ m, Sends call m → NameOf d m.personID m.senderName)
    (hsent : Sent call s s') : NamesAuthors d s'.db := by
  intro m hm
  obtain hold | ⟨hsends, -⟩ := hsent.messages m hm
  · exact h m hold
  · exact hcall m hsends

/-- The action sends the message: to its conversation, or to the group's. -/
def ActionSends (action : ApiAction) (m : ChatMessage) : Prop :=
  (∃ bu, action = .sendConversationMessage bu m.conversationID m.content) ∨
    ∃ bu, action = .sendMessage bu m.content

/-- A send of a request is what the request asks for. -/
theorem issues_send {settings : Services.Settings} {q : BackendRequest} {w c person : Uuid}
    {name content : String} (h : Issues settings q (.chat (.sendMessage w c person name content))) :
    ∃ bu company, q = .sendConversationMessage bu c person name content company ∨
      q = .sendMessage bu person name content company := by
  cases h with
  | query h => exact h.elim
  | send => exact ⟨_, _, Or.inl rfl⟩
  | sendToGroup => exact ⟨_, _, Or.inr rfl⟩

/-- An action that asks for a send asks for it in the name of its caller. -/
theorem request_send {user : User} {action : ApiAction} {q : BackendRequest} {m : ChatMessage}
    (h : action.request user = some q) {bu company : Uuid}
    (hq : q = .sendConversationMessage bu m.conversationID m.personID m.senderName m.content
        company ∨ q = .sendMessage bu m.personID m.senderName m.content company) :
    ActionSends action m ∧ m.personID = user.personId ∧ m.senderName = senderName user := by
  cases action with
  | sendConversationMessage bu' conv content =>
    cases h
    obtain hq | hq := hq
    · injection hq with hbu hconv hperson hname hcontent
      exact ⟨Or.inl ⟨bu', by rw [hconv, hcontent]⟩, hperson.symm, hname.symm⟩
    · cases hq
  | sendMessage bu' content =>
    cases h
    obtain hq | hq := hq
    · cases hq
    · injection hq with hbu hperson hname hcontent
      exact ⟨Or.inr ⟨bu', by rw [hcontent]⟩, hperson.symm, hname.symm⟩
  | _ => cases h <;> obtain hq | hq := hq <;> cases hq

/-- The token was generated for a stored profile, and these are its claims. -/
def TokenOf (api : Api) (d : MainTables) (token : String) (user : User) : Prop :=
  ∃ row, api.settings.generateToken row = token ∧ user = JwtTokenService.claims row ∧
    Genuine d user

/-- A caller writes under the stored name. -/
theorem nameOf_genuine {d : MainTables} {user : User} (h : Genuine d user) :
    NameOf d user.personId (senderName user) := by
  obtain ⟨-, -, q, hq, -, -, -, -, -, hid, -, hfirst, hlast, -, -⟩ := h
  refine ⟨q, hq, hid, Or.inl ?_⟩
  unfold senderName fullName
  rw [hfirst, hlast]

/-- What a procedure that a request of the API calls sends is from the holder of the
request's token. -/
theorem site_send {api : Api} {d₀ : MainTables} {p : Site} (hp : Sound api d₀ p) {i : ℕ}
    {r : ApiRequest} {rpc : Rpc}
    {next : Except Exn (BackendCall.chat rpc).Reply → BackendProgram ApiReply}
    (hi : p.threads[i]? = some ⟨r, .call (.chat rpc) next⟩) {time : Time} {m : ChatMessage}
    (hsends : Sends (rpc.call time) m) :
    ∃ now token action user, r = .bearer now token action ∧ api.validate now token = some user ∧
      TokenOf api p.state.main.toMainTables token user ∧ ActionSends action m ∧
      m.personID = user.personId ∧ m.senderName = senderName user := by
  have hsend : rpc =
      .sendMessage m.workspaceID m.conversationID m.personID m.senderName m.content := by
    cases rpc with
    | sendMessage w c person name content =>
      cases hsends
      rfl
    | _ => cases hsends
  subst hsend
  obtain hquery | ⟨q, hserves, hissues⟩ := (hp.issues i _ hi).1
  · exact hquery.elim
  obtain ⟨bu, company, hq⟩ := issues_send hissues
  cases r with
  | login request => cases hserves
  | onboard draws request =>
    cases hserves
    obtain hq | hq := hq <;> cases hq
  | bearer now token action =>
    obtain ⟨user, huser, haction⟩ := Option.bind_eq_some_iff.mp hserves
    split at haction
    · obtain hnone | ⟨row, htoken, hgenuine, -⟩ :=
        hp.bearers _ (List.mem_of_getElem? hi) now token action rfl
      · cases hnone.symm.trans huser
      · have hclaims := api.validate_claims huser htoken
        exact ⟨now, token, action, user, rfl, huser, ⟨row, htoken, hclaims, hclaims ▸ hgenuine⟩,
          request_send haction hq⟩
    · cases haction

/-- A step of the API leaves the chat as it is, or is the turn of a request and leaves what
a call of the request leaves. -/
theorem site_step_sent {api : Api} {p p' : Site} {l : SiteLabel}
    (h : Pool.step backendMachine (ApiRequest.program api) p l = some p') :
    p'.state.chat = p.state.chat ∨ ∃ i t r rpc next now, l = .turn i t ∧
      p.threads[i]? = some ⟨r, .call (.chat rpc) next⟩ ∧
      Sent (rpc.call now) p.state.chat p'.state.chat := by
  cases l with
  | start r =>
    cases h
    exact Or.inl rfl
  | crash i e =>
    obtain ⟨r, op, next, hi, rfl⟩ := Pool.step_crash h
    exact Or.inl rfl
  | turn i t =>
    obtain ⟨r, op, next, hi, -, rfl⟩ := Pool.step_turn h
    by_cases hchat : ∃ rpc, op = .chat rpc
    · obtain ⟨rpc, rfl⟩ := hchat
      obtain he | ⟨env, he⟩ := answer_chat_state rpc t p.state
      · exact Or.inl (congrArg World.chat he)
      · refine Or.inr ⟨i, t, r, rpc, next, env.now, rfl, hi, ?_⟩
        dsimp only
        rw [he]
        exact serve_sent rpc env p.state.chat
    · exact Or.inl (answer_main_chat (fun rpc he => hchat ⟨rpc, he⟩) t p.state)

/-- The known identifiers have 128 bits. -/
structure WideKnown (api : Api) (d₀ : MainTables) (p : Site) : Prop where
  units : ∀ b ∈ knownUnits api d₀ p, b.id < 2 ^ 128
  persons : ∀ q ∈ knownPersons api d₀ p, q.id < 2 ^ 128

/-- `Guid.NewGuid()` draws identifiers of 128 bits. -/
def DrawsWide (api : Api) : SiteLabel → Prop
  | .start r => (∀ b ∈ (r.serves api).bind newUnit, b.id < 2 ^ 128) ∧
      ∀ q ∈ (r.serves api).bind newPerson, q.id < 2 ^ 128
  | _ => True

instance (api : Api) (l : SiteLabel) : Decidable (DrawsWide api l) :=
  match l with
  | .start r => inferInstanceAs (Decidable
      ((∀ b ∈ (r.serves api).bind newUnit, b.id < 2 ^ 128) ∧
        ∀ q ∈ (r.serves api).bind newPerson, q.id < 2 ^ 128))
  | .turn _ _ => isTrue trivial
  | .crash _ _ => isTrue trivial

/-- A drawn row is the one of the request that a step makes. -/
theorem mem_made {α : Type} {api : Api} {l : SiteLabel} {f : BackendRequest → Option α} {a : α}
    (h : a ∈ l.made.filterMap fun r => (r.serves api).bind f) :
    ∃ r, l = .start r ∧ a ∈ (r.serves api).bind f := by
  obtain ⟨r, hr, ha⟩ := List.mem_filterMap.mp h
  cases l with
  | start r' =>
    cases List.mem_singleton.mp hr
    exact ⟨r, rfl, ha⟩
  | turn i t => cases hr
  | crash i e => cases hr

/-- They stay so when each step draws such ones. -/
theorem WideKnown.step {api : Api} {d₀ : MainTables} {p p' : Site} {l : SiteLabel}
    (hp : WideKnown api d₀ p) (hwide : DrawsWide api l)
    (h : Pool.step backendMachine (ApiRequest.program api) p l = some p') :
    WideKnown api d₀ p' := by
  refine ⟨fun b hb => ?_, fun q hq => ?_⟩
  · unfold knownUnits at hb
    rw [drawn_step h] at hb
    obtain hold | hnew := List.mem_append.mp hb
    · exact hp.units b hold
    · obtain ⟨r, rfl, hdrawn⟩ := mem_made hnew
      exact hwide.1 b hdrawn
  · unfold knownPersons at hq
    rw [drawn_step h] at hq
    obtain hold | hnew := List.mem_append.mp hq
    · exact hp.persons q hold
    · obtain ⟨r, rfl, hdrawn⟩ := mem_made hnew
      exact hwide.2 q hdrawn

/-- Every send of a connection is in the name of the connection that has received it. -/
structure Spoken (p : Platform) : Prop where
  length : p.senders.length = p.threads.length
  calls : ∀ (i : ℕ) (r : Request), (p.threads.map Thread.req)[i]? = some r →
    ∃ k claims, p.senders[i]? = some k ∧ (p.sockets.map Socket.claims)[k]? = some claims ∧
      SpeaksFor claims r.call

/-- A step of the connections keeps it so. -/
theorem Spoken.live {p : Platform} {live : LiveState} {l : LiveLabel} (hp : Spoken p)
    (hstart : ∀ r, l ≠ .service (.start r)) (h : LiveState.step p.live l = some live) :
    Spoken { p.withLive live with senders := p.senders ++ receivesAt l } := by
  have hclaims : live.sockets.map Socket.claims = p.sockets.map Socket.claims ++ letsIn l :=
    claims_step h
  -- the sends of before have the senders of before, whose identities stay
  have hold : ∀ (i : ℕ) (r : Request), (p.threads.map Thread.req)[i]? = some r → ∃ k claims,
      (p.senders ++ receivesAt l)[i]? = some k ∧
        (live.sockets.map Socket.claims)[k]? = some claims ∧ SpeaksFor claims r.call := by
    intro i r hi
    obtain ⟨k, claims, hk, hsocket, hspeaks⟩ := hp.calls i r hi
    refine ⟨k, claims, ?_, ?_, hspeaks⟩
    · rw [List.getElem?_append_left (List.getElem?_eq_some_iff.mp hk).1]
      exact hk
    · rw [hclaims, List.getElem?_append_left (List.getElem?_eq_some_iff.mp hsocket).1]
      exact hsocket
  obtain ⟨hnone, hreq⟩ | ⟨k, socket, r, hk, hsocket, hspeaks, hreq⟩ :=
    live_requests_step h hstart
  · have hlength := congrArg List.length hreq
    rw [List.length_map, List.length_map] at hlength
    refine ⟨?_, fun i r hi => hold i r (hreq ▸ hi)⟩
    dsimp only
    rw [hnone, List.append_nil]
    exact hp.length.trans hlength.symm
  · have hlength := congrArg List.length hreq
    rw [List.length_append, List.length_map, List.length_map, List.length_singleton] at hlength
    have hsenders : p.senders.length = p.threads.length := hp.length
    constructor
    · dsimp only
      rw [hk, List.length_append, List.length_singleton, hsenders]
      exact hlength.symm
    · intro i r' hi
      have hi' : (p.threads.map Thread.req ++ [r])[i]? = some r' := hreq ▸ hi
      obtain ⟨rfl, rfl⟩ | hi' := getElem?_concat_cases hi'
      · refine ⟨k, socket.claims, ?_, ?_, hspeaks⟩
        · dsimp only
          rw [hk, List.length_map, ← hsenders, List.getElem?_concat_length]
        · have hlive : p.sockets[k]? = some socket := hsocket
          have hold : (p.sockets.map Socket.claims)[k]? = some socket.claims := by
            rw [List.getElem?_map, hlive]
            rfl
          have hlt := (List.getElem?_eq_some_iff.mp hold).1
          dsimp only [Platform.withLive]
          rw [hclaims, List.getElem?_append_left hlt]
          exact hold
      · exact hold i r' hi'

/-- What holds of the platform in every state of every run. -/
structure Attributed (api : Api) (d₀ : MainTables) (p : Platform) : Prop where
  /-- Chat stays within companies. -/
  within : Within api d₀ p.site
  wide : WideKnown api d₀ p.site
  messages : NamesAuthors p.site.state.main.toMainTables p.site.state.chat.db
  /-- The connections show stored messages of their own conversations. -/
  own : OwnFrames p.live
  guarded : Guarded p.live.service
  spoken : Spoken p
  sockets : ∀ claims ∈ p.sockets.map Socket.claims,
    Identified p.site.state.main.toMainTables claims

/-- What the connections show stays their own while calls leave what they leave. -/
theorem OwnFrames.sent {live : LiveState} {call : Call} {s : ChatState} (h : OwnFrames live)
    (hsent : Sent call live.service.state s) :
    OwnFrames ⟨⟨s, live.service.threads⟩, live.sockets⟩ where
  service :=
    { threads := fun th hth => (h.service.threads th hth).grows hsent.grows
      publishing := fun p hp => by
        obtain hold | hstored := hsent.publishing p hp
        · exact StoredIn.grows hsent.grows (h.service.publishing p hold)
        · exact hstored }
  sockets := fun socket hsocket => (h.sockets socket hsocket).grows hsent.grows

/-- Every step of the API keeps it. -/
theorem Attributed.apiStep {api : Api} {d₀ : MainTables} {p : Platform} {site : Site}
    {l : SiteLabel} (hp : Attributed api d₀ p) (hfresh : DrawsFresh api d₀ p.site l)
    (hwide : DrawsWide api l) (h : Site.step api p.site l = some site) :
    Attributed api d₀ { p with site } := by
  obtain ⟨-, hstep⟩ := Site.step_iff.mp h
  obtain ⟨-, hlater⟩ := hp.within.sound.later hstep
  have hpersons := hlater.rows.persons
  have hold : NamesAuthors site.state.main.toMainTables p.site.state.chat.db := fun m hm =>
    (hp.messages m hm).extend hpersons
  -- the chat is as before, or a call of the caller has sent
  obtain ⟨call, hcall, hsent⟩ : ∃ call,
      (∀ m, Sends call m → NameOf site.state.main.toMainTables m.personID m.senderName) ∧
        Sent call p.site.state.chat site.state.chat := by
    obtain he | ⟨i, t, r, rpc, next, now, -, hi, hsent⟩ := site_step_sent hstep
    · rw [he]
      exact ⟨.getByID 0, fun m (hsends : Call.getByID 0 = _) => (by cases hsends), Sent.refl _ _⟩
    · refine ⟨rpc.call now, fun m hsends => ?_, hsent⟩
      obtain ⟨-, -, -, user, -, -, ⟨row, -, -, hgenuine⟩, -, hperson, hname⟩ :=
        site_send hp.within.sound hi hsends
      rw [hperson, hname]
      exact (nameOf_genuine hgenuine).extend hpersons
  exact ⟨hp.within.step _ _ _ hfresh h, hp.wide.step hwide hstep, hold.sent hcall hsent,
    OwnFrames.sent hp.own hsent, Governed.stable hp.guarded trivial hsent.grows,
    ⟨hp.spoken.length, hp.spoken.calls⟩,
    fun claims hclaims => (hp.sockets claims hclaims).extend hlater.rows⟩

/-- A connection that sends is one of an identified person. -/
theorem Attributed.speaker {api : Api} {d₀ : MainTables} {p : Platform} (hp : Attributed api d₀ p)
    {i : ℕ} {r : Request} (hi : (p.threads.map Thread.req)[i]? = some r) :
    ∃ k claims, p.senders[i]? = some k ∧ (p.sockets.map Socket.claims)[k]? = some claims ∧
      SpeaksFor claims r.call ∧ Identified p.site.state.main.toMainTables claims := by
  obtain ⟨k, claims, hk, hclaims, hspeaks⟩ := hp.spoken.calls i r hi
  exact ⟨k, claims, hk, hclaims, hspeaks, hp.sockets claims (List.mem_of_getElem? hclaims)⟩

/-- What a call sends in the name of a connection. -/
theorem speaksFor_sends {claims : UserClaims} {call : Call} (h : SpeaksFor claims call)
    {m : ChatMessage} (hsends : Sends call m) :
    m.personID = claims.personID ∧ m.senderName = claims.senderName := by
  obtain ⟨w, c, content, hcall⟩ := h
  injection hcall.symm.trans hsends with hw hc hperson hname
  exact ⟨hperson.symm, hname.symm⟩

/-- Every step of the connections keeps it, if it lets in only whom it has identified. -/
theorem Attributed.liveStep {api : Api} {d₀ : MainTables} {p : Platform} {live : LiveState}
    {l : LiveLabel} (hp : Attributed api d₀ p) (hstart : ∀ r, l ≠ .service (.start r))
    (haccept : ∀ claims ∈ letsIn l, Identified p.site.state.main.toMainTables claims)
    (h : LiveState.step p.live l = some live) :
    Attributed api d₀ { p.withLive live with senders := p.senders ++ receivesAt l } := by
  obtain ⟨hguarded, hstate⟩ := hp.guarded.liveStep h
  -- the database is as before, or a send of a connection has written
  obtain ⟨hwithin, hnames⟩ : Within api d₀ (p.withLive live).site ∧
      NamesAuthors p.site.state.main.toMainTables live.service.state.db := by
    obtain he | ⟨i, t, r, -, hi, hsent⟩ := hstate
    · have hdb : live.service.state.db = p.site.state.chat.db := he
      refine ⟨hp.within.onChat ?_ ?_ ?_, ?_⟩
      · rw [hdb]
        exact Grows.refl _
      · rw [hdb]
      · rw [hdb]
        exact hp.within.authors
      · rw [hdb]
        exact hp.messages
    · obtain ⟨k, claims, -, -, hspeaks, hidentified⟩ := hp.speaker hi
      obtain ⟨w, c, content, hcall⟩ := id hspeaks
      refine ⟨hp.within.onChat hsent.grows (hsent.members hcall) (hp.within.authors.sent hsent),
        NamesAuthors.sent (s := p.site.state.chat) hp.messages (fun m hsends => ?_) hsent⟩
      obtain ⟨hperson, hname⟩ := speaksFor_sends hspeaks hsends
      rw [hperson, hname]
      exact hidentified.nameOf
  refine ⟨hwithin, ⟨hp.wide.units, hp.wide.persons⟩, hnames, hp.own.step h, hguarded,
    hp.spoken.live hstart h, fun claims hclaims => ?_⟩
  have hall : live.sockets.map Socket.claims = p.sockets.map Socket.claims ++ letsIn l :=
    claims_step h
  have hmem : claims ∈ p.sockets.map Socket.claims ++ letsIn l := hall ▸ hclaims
  obtain hold | hnew := List.mem_append.mp hmem
  · exact hp.sockets claims hold
  · exact haccept claims hnew

/-- A claim that a token was generated with is read back. -/
theorem claimString_written {api : Api} (e : Endpoint api) {now : Time} {token : String}
    {claims : MapClaims} {row : BuStaffProfile × Person × BusinessUnit}
    (hparsed : e.jwtParse now token = some claims)
    (htoken : api.settings.generateToken row = token) {key text : String}
    (hentry : (key, text) ∈ claimTexts (JwtTokenService.claims row)) :
    claimString claims key = text := by
  unfold claimString
  rw [e.jwtParse_claims hparsed htoken _ hentry]

/-- The identity of a connection with these claims in its token. -/
def userClaims (user : User) : UserClaims :=
  InboundFrames.parseClaims ⟨user.personId, user.buId, user.companyId, some user.firstName,
    some user.lastName⟩

/-- Genuine claims identify a stored person. -/
theorem identified_genuine {d : MainTables} {user : User} (h : Genuine d user) :
    Identified d (userClaims user) := by
  obtain ⟨-, -, q, hq, b, hb, -, -, -, hid, hcompany, hfirst, hlast, hbid, hbcompany⟩ := h
  refine ⟨q, hq, b, hb, hid, hbid, hbcompany.trans hcompany.symm, ?_⟩
  unfold userClaims InboundFrames.parseClaims fullName
  dsimp only [Option.getD_some]
  rw [hfirst, hlast]
  split
  · rename_i hblank
    exact Or.inr ⟨hblank, rfl⟩
  · exact Or.inl rfl

/-- The claims of a token that a login has issued are read back from its texts. -/
theorem Attributed.parseClaims_eq {api : Api} {d₀ : MainTables} {p : Platform}
    (hp : Attributed api d₀ p) {e : Endpoint api} {now : Time} {authHeader token : String}
    {mapClaims : MapClaims} (hcut : cutPrefix authHeader "Bearer " = some token) (hne : token ≠ "")
    (hparsed : e.jwtParse now token = some mapClaims) (htoken : token ∈ p.site.tokens) :
    ∃ user, TokenOf api p.site.state.main.toMainTables token user ∧
      parseClaims e now authHeader = .ok (userClaims user) := by
  obtain ⟨row, hgenerated, hgenuine, -⟩ := hp.within.sound.tokens token htoken
  refine ⟨JwtTokenService.claims row, ⟨row, hgenerated, rfl, hgenuine⟩, ?_⟩
  obtain ⟨-, -, q, hq, b, hb, -, -, -, hqid, -, -, -, hbid, -⟩ := hgenuine
  generalize hu : JwtTokenService.claims row = user at hqid hbid ⊢
  have hwritten : ∀ {key text : String}, (key, text) ∈ claimTexts user →
      claimString mapClaims key = text := by
    rw [← hu]
    exact claimString_written e hparsed hgenerated
  -- the identifiers are those of stored rows, which have 128 bits
  have hpersonBits : user.personId < 2 ^ 128 := hqid ▸ hp.wide.persons q (hp.within.persons q hq)
  have hbuBits : user.buId < 2 ^ 128 := hbid ▸ hp.wide.units b (hp.within.units b hb)
  have hperson : claimString mapClaims "personId" = uuidText user.personId :=
    hwritten (by simp [claimTexts])
  have hbu : claimString mapClaims "buId" = uuidText user.buId := hwritten (by simp [claimTexts])
  have hfirst : claimString mapClaims "firstName" = user.firstName :=
    hwritten (by simp [claimTexts])
  have hlast : claimString mapClaims "lastName" = user.lastName := hwritten (by simp [claimTexts])
  unfold userClaims
  rw [← hfirst, ← hlast]
  refine Connecting.parseClaims_eq hcut hne hparsed ?_ ?_
  · rw [hperson, e.uuids.parse_canonical _ hpersonBits]
  · rw [hbu, e.uuids.parse_canonical _ hbuBits]

/-- A connection that is let in is that of the holder of its token, to the business unit of
the token. -/
theorem Attributed.admitted {api : Api} {d₀ : MainTables} {p : Platform}
    (hp : Attributed api d₀ p) {e : Endpoint api} {now : Time} {authHeader buIDStr : String}
    {claims : UserClaims} (hissued : issued e p now authHeader = true)
    (h : serveWS e now authHeader buIDStr = .ok claims) :
    ∃ token user, cutPrefix authHeader "Bearer " = some token ∧ (e.jwtParse now token).isSome ∧
      TokenOf api p.site.state.main.toMainTables token user ∧ claims = userClaims user := by
  have hclaims := parseClaims_of_serveWS h
  obtain ⟨token, mapClaims, hcut, hne, hparsed⟩ := parseClaims_ok hclaims
  have htoken : token ∈ p.site.tokens := by
    simpa [issued, hcut, hparsed] using hissued
  obtain ⟨user, htokenOf, heq⟩ := hp.parseClaims_eq hcut hne hparsed htoken
  exact ⟨token, user, hcut, by rw [hparsed]; rfl, htokenOf,
    Except.ok.inj (hclaims.symm.trans heq)⟩

/-- Each step of the API draws new identifiers, of 128 bits. -/
def Fresh (api : Api) (d₀ : MainTables) (p : Platform) : PlatformLabel → Prop
  | .api l => DrawsFresh api d₀ p.site l ∧ DrawsWide api l
  | _ => True

instance (api : Api) (d₀ : MainTables) (p : Platform) (l : PlatformLabel) :
    Decidable (Fresh api d₀ p l) :=
  match l with
  | .api l => inferInstanceAs (Decidable (DrawsFresh api d₀ p.site l ∧ DrawsWide api l))
  | .connect _ _ _ => isTrue trivial
  | .live _ => isTrue trivial

/-- Every step of the platform keeps what holds of it. -/
theorem Attributed.step {api : Api} {d₀ : MainTables} (e : Endpoint api) (p : Platform)
    (l : PlatformLabel) (p' : Platform) (hp : Attributed api d₀ p) (hfresh : Fresh api d₀ p l)
    (h : Platform.step e p l = some p') : Attributed api d₀ p' := by
  cases l with
  | api l =>
    obtain ⟨site, hsite, rfl⟩ := Option.map_eq_some_iff.mp h
    exact hp.apiStep hfresh.1 hfresh.2 hsite
  | connect now authHeader buIDStr =>
    simp only [Platform.step] at h
    split at h
    · rename_i hissued
      split at h
      · rename_i claims hserved
        obtain ⟨live, hlive, rfl⟩ := Option.map_eq_some_iff.mp h
        have hkeeps := hp.liveStep (fun r he => by cases he) (fun claims' hclaims' => ?_) hlive
        · have hnone : receivesAt (.accept claims claims.buID) = [] := rfl
          rw [hnone, List.append_nil] at hkeeps
          exact hkeeps
        · obtain ⟨token, user, -, -, ⟨row, -, -, hgenuine⟩, hclaims⟩ := hp.admitted hissued hserved
          rw [letsIn, if_pos rfl] at hclaims'
          rw [List.mem_singleton.mp hclaims', hclaims]
          exact identified_genuine hgenuine
      · cases h
        exact hp
    · cases h
  | live l =>
    simp only [Platform.step] at h
    split at h
    · rename_i hletIn
      obtain ⟨live, hlive, rfl⟩ := Option.map_eq_some_iff.mp h
      refine hp.liveStep (fun r he => ?_) (fun claims hclaims => ?_) hlive
      · subst he
        cases hletIn
      · cases l with
        | accept claims buID => cases hletIn
        | _ => cases hclaims
    · cases h

/-- By which step a message comes to be stored, and whose it is. -/
inductive WrittenBy (api : Api) (p : Platform) (m : ChatMessage) : PlatformLabel → Prop
  /-- A turn of a send of the API: the message is of the person of the request's token, under
  the stored name as it is. -/
  | api {i : ℕ} {t : Turn BackendChoice Exn} {now : Time} {token : String} {action : ApiAction}
    {user : User} (hrequest : (p.site.threads[i]?).map Thread.req = some (.bearer now token action))
    (hvalid : api.validate now token = some user)
    (htoken : TokenOf api p.site.state.main.toMainTables token user)
    (haction : ActionSends action m) (hperson : m.personID = user.personId)
    (hname : m.senderName = senderName user) : WrittenBy api p m (.api (.turn i t))
  /-- A turn of a send of the chat service: the message is of the person of the connection
  that has received it, under the name of the connection. -/
  | connection {i k : ℕ} {t : Turn Choice GoError} {claims : UserClaims}
    (hsender : p.senders[i]? = some k) (hclaims : (p.sockets.map Socket.claims)[k]? = some claims)
    (hrequest : (p.threads[i]?).map (fun th => th.req.call) =
      some (.sendMessage m.workspaceID m.conversationID m.personID m.senderName m.content))
    (hperson : m.personID = claims.personID) (hname : m.senderName = claims.senderName) :
    WrittenBy api p m (.live (.service (.turn i t)))

/-- By which step a connection comes about, and whose it is: a request with a token that
`jwt.Parse` takes, of the person of the token, under the stored name or "Unknown" if that is
blank. -/
inductive OpenedBy {api : Api} (e : Endpoint api) (p : Platform) (claims : UserClaims) :
    PlatformLabel → Prop
  | connect {now : Time} {authHeader buIDStr token : String} {user : User}
    (hcut : cutPrefix authHeader "Bearer " = some token)
    (hparsed : (e.jwtParse now token).isSome = true)
    (htoken : TokenOf api p.site.state.main.toMainTables token user)
    (hclaims : claims = userClaims user) : OpenedBy e p claims (.connect now authHeader buIDStr)

/-- The step writes and connects in the name of the holder of its token only. -/
def ActsInOwnName {api : Api} (e : Endpoint api) (p : Platform) (l : PlatformLabel) : Prop :=
  ∀ p', Platform.step e p l = some p' →
    (∀ m ∈ p'.site.state.chat.db.messages,
      m ∈ p.site.state.chat.db.messages ∨ WrittenBy api p m l) ∧
    (p'.sockets.map Socket.claims = p.sockets.map Socket.claims ∨ ∃ claims,
      p'.sockets.map Socket.claims = p.sockets.map Socket.claims ++ [claims] ∧
        OpenedBy e p claims l)

/-- A message that a step of the connections adds. -/
theorem Attributed.writtenBy_live {api : Api} {d₀ : MainTables} {p : Platform} {live : LiveState}
    {l : LiveLabel} (hp : Attributed api d₀ p) (h : LiveState.step p.live l = some live)
    {m : ChatMessage} (hm : m ∈ live.service.state.db.messages) :
    m ∈ p.site.state.chat.db.messages ∨ WrittenBy api p m (.live l) := by
  obtain ⟨-, he | ⟨i, t, r, rfl, hi, hsent⟩⟩ := hp.guarded.liveStep h
  · have hdb : live.service.state.db = p.site.state.chat.db := he
    rw [hdb] at hm
    exact Or.inl hm
  · refine (hsent.messages m hm).imp_right fun hnew => ?_
    obtain ⟨hsends, -⟩ := hnew
    obtain ⟨k, claims, hsender, hclaims, hspeaks, -⟩ := hp.speaker hi
    obtain ⟨hperson, hname⟩ := speaksFor_sends hspeaks hsends
    refine .connection hsender hclaims ?_ hperson hname
    have hmap : (p.threads[i]?).map Thread.req = some r := (List.getElem?_map ..).symm.trans hi
    have hcall := congrArg (Option.map Request.call) hmap
    rw [Option.map_map] at hcall
    exact hcall.trans (congrArg some hsends)

/-- Every step of the platform acts so. -/
theorem Attributed.actsInOwnName {api : Api} {d₀ : MainTables} (e : Endpoint api) {p : Platform}
    (hp : Attributed api d₀ p) (l : PlatformLabel) : ActsInOwnName e p l := by
  intro p' h
  cases l with
  | api l =>
    obtain ⟨site, hsite, rfl⟩ := Option.map_eq_some_iff.mp h
    refine ⟨fun m hm => ?_, Or.inl rfl⟩
    obtain he | ⟨i, t, r, rpc, next, now, rfl, hi, hsent⟩ :=
      site_step_sent (Site.step_iff.mp hsite).2
    · have hchat : m ∈ site.state.chat.db.messages := hm
      rw [he] at hchat
      exact Or.inl hchat
    · refine (hsent.messages m hm).imp_right fun hnew => ?_
      obtain ⟨now, token, action, user, rfl, hvalid, htoken, haction, hperson, hname⟩ :=
        site_send hp.within.sound hi hnew.1
      refine .api ?_ hvalid htoken haction hperson hname
      rw [hi]
      rfl
  | connect now authHeader buIDStr =>
    simp only [Platform.step] at h
    split at h
    · rename_i hissued
      split at h
      · rename_i claims hserved
        obtain ⟨live, hlive, rfl⟩ := Option.map_eq_some_iff.mp h
        obtain ⟨token, user, hcut, hparsed, htoken, hclaims⟩ := hp.admitted hissued hserved
        refine ⟨fun m hm => ?_, Or.inr ⟨claims, ?_, .connect hcut hparsed htoken hclaims⟩⟩
        · obtain hold | hnew := hp.writtenBy_live hlive hm
          · exact Or.inl hold
          · cases hnew
        · have hadded : live.sockets.map Socket.claims = p.sockets.map Socket.claims ++
              letsIn (.accept claims claims.buID) := claims_step hlive
          rw [letsIn, if_pos rfl] at hadded
          exact hadded
      · cases h
        exact ⟨fun m hm => Or.inl hm, Or.inl rfl⟩
    · cases h
  | live l =>
    simp only [Platform.step] at h
    split at h
    · rename_i hletIn
      obtain ⟨live, hlive, rfl⟩ := Option.map_eq_some_iff.mp h
      refine ⟨fun m hm => hp.writtenBy_live hlive hm, Or.inl ?_⟩
      have hadded : live.sockets.map Socket.claims = p.sockets.map Socket.claims ++ letsIn l :=
        claims_step hlive
      have hnone : letsIn l = [] := by
        cases l with
        | accept claims buID => cases hletIn
        | _ => rfl
      rw [hnone, List.append_nil] at hadded
      exact hadded
    · cases h

/-- Nobody writes under another's name. -/
structure NoImpersonation (p : Platform) : Prop where
  /-- Every message has the stored name of the stored person who is its author. -/
  messages : NamesAuthors p.site.state.main.toMainTables p.site.state.chat.db
  /-- The author is a member of the workspace, and of its company. -/
  within : ChatWithin p.site.state
  /-- Every connection is that of a stored person, in a unit of the person's company. -/
  sockets : ∀ socket ∈ p.sockets, Identified p.site.state.main.toMainTables socket.claims
  /-- What it shows are stored messages of its own conversations, under their names. -/
  frames : ∀ socket ∈ p.sockets, Streams (fun claims stream =>
    OwnStream p.site.state.chat.db claims stream ∧ ∀ frame ∈ stream.frames,
      NameOf p.site.state.main.toMainTables frame.personID frame.senderName) socket

/-- It follows from what holds of the platform. -/
theorem Attributed.noImpersonation {api : Api} {d₀ : MainTables} {p : Platform}
    (hp : Attributed api d₀ p) : NoImpersonation p where
  messages := hp.messages
  within := hp.within.chatWithin
  sockets socket hsocket := hp.sockets _ (List.mem_map_of_mem hsocket)
  frames socket hsocket := by
    have hstage := hp.own.sockets socket hsocket
    unfold Streams
    split
    · rename_i stream hstreaming
      rw [hstreaming] at hstage
      have hstream : OwnStream p.site.state.chat.db socket.claims stream := hstage
      refine ⟨hstream, fun frame hframe => ?_⟩
      obtain ⟨c, m, -, hstored, rfl⟩ := hstream.frames frame hframe
      exact hp.messages m hstored.1
    · trivial

/-- The databases with which the platform starts: as the API needs them, with messages
under the names of their authors, publishes of stored messages and identifiers of 128
bits. -/
structure PlatformStarts (s : World) : Prop where
  starts : Starts s
  messages : NamesAuthors s.main.toMainTables s.chat.db
  publishing : ∀ p ∈ s.chat.publishing, PublishesStored s.chat.db p
  units : ∀ b ∈ s.main.businessUnits, b.id < 2 ^ 128
  persons : ∀ q ∈ s.main.persons, q.id < 2 ^ 128

/-- It holds at the start. -/
theorem Attributed.initial (api : Api) {s : World} (h : PlatformStarts s) :
    Attributed api s.main.toMainTables (Platform.initial s) where
  within := Within.initial api h.starts
  wide :=
    { units := fun b hb => h.units b ((List.mem_append.mp hb).resolve_right List.not_mem_nil)
      persons := fun q hq => h.persons q ((List.mem_append.mp hq).resolve_right List.not_mem_nil) }
  messages := h.messages
  own := ⟨⟨fun th hth => (by cases hth), h.publishing⟩, fun socket hsocket => by cases hsocket⟩
  guarded := Governed.initial trivial
  spoken := ⟨rfl, fun i r hi => by cases hi⟩
  sockets claims hclaims := by cases hclaims

/-- It holds in every state of every run that draws new identifiers. -/
theorem attributed_throughout {api : Api} (e : Endpoint api) {s : World} (h : PlatformStarts s)
    {ls : List PlatformLabel}
    (hfresh : EachStep (Platform.step e) (Fresh api s.main.toMainTables) (Platform.initial s) ls) :
    Throughout (Platform.step e) (Attributed api s.main.toMainTables) (Platform.initial s) ls :=
  throughout_guarded (Attributed.step e) (Attributed.initial api h) hfresh

/-- In every run of the API and of the connections beside it, whatever tokens and frames
they are sent, however their calls interleave and wherever they fail: every step that adds a
message or a connection acts for the person of the token that it was sent with, and in every
state every message, and every frame on its way to a browser, bears the stored name of the
stored person who wrote it. -/
theorem noImpersonation_throughout {api : Api} (e : Endpoint api) {s : World}
    (h : PlatformStarts s) {ls : List PlatformLabel}
    (hfresh : EachStep (Platform.step e) (Fresh api s.main.toMainTables) (Platform.initial s) ls) :
    EachStep (Platform.step e) (ActsInOwnName e) (Platform.initial s) ls ∧
      Throughout (Platform.step e) NoImpersonation (Platform.initial s) ls := by
  refine ⟨hfresh.mono_guarded (Attributed.step e) (fun p l hp _ => hp.actsInOwnName e l)
    (Attributed.initial api h), ?_⟩
  exact (attributed_throughout e h hfresh).mono fun p hp => hp.noImpersonation

/-- An endpoint whose only valid token is that of the seeded Owner, for an hour. -/
def Endpoint.demo : Endpoint Api.demo where
  uuids := canonicalUuids
  jwtParse now token :=
    if token = "owner" ∧ now < 3600000000 then
      some fun key => ((claimTexts seedOwner).lookup key).map ClaimValue.string
    else none
  jwtParse_claims := by
    intro now token claims row hparsed htoken
    split at hparsed
    · rename_i hgood
      cases hparsed
      have hgenerated :
          (if JwtTokenService.claims row = seedOwner then "owner" else "") = "owner" :=
        htoken.trans hgood.1
      split at hgenerated
      · rename_i hclaims
        rw [hclaims]
        decide +kernel
      · exact absurd hgenerated (by decide)
    · cases hparsed

/-- The seeded databases after the first start-up. -/
def startedUp : World :=
  (Bootstrap.startUp.run backendMachine (fun n => servedWith (n + 1) 0) World.seeded).2

/-- A request to the API with its turns, whose inserts count up from this identifier. -/
def answered (i : ℕ) (r : ApiRequest) (first turns : ℕ) : List PlatformLabel :=
  .api (.start r) :: (List.range turns).map fun k => .api (.turn i (servedWith (first + k) 0))

/-- The seeded Owner signs in, connects, and writes one message through the connection
and one through the API; somebody else tries to connect with a token that is none. -/
def twoMessages : List PlatformLabel :=
  answered 0 (.login ⟨"Welcome@example.com", "P@ssw0rd", none⟩) 10 1 ++
  answered 1 (.bearer 0 "owner" (.getConversations InitialDataSeed.buId)) 20 5 ++
  [.connect 0 "Bearer mine" (uuidText InitialDataSeed.buId),
    .connect 0 "Bearer owner" (uuidText InitialDataSeed.buId), .live (.resolve 0 lookup),
    .live (.list 0 lookup), .live (.upgrade 0 true), .live (.subscribe 0 true),
    .live (.confirm 0 0), .live (.receive 0 21 "Good morning" fun _ => ⟨1, 0⟩),
    .live (.service (.turn 0 lookup)), .live (.service (.turn 0 (.serve (Choice.generating 50 0)))),
    .live (.service (.turn 0 lookup)), .live (.publish 0 true), .live (.write 0 0)] ++
  answered 2 (.bearer 1 "owner" (.sendConversationMessage InitialDataSeed.buId 21 "Welcome"))
    60 3 ++
  [.live (.publish 0 true), .live (.write 0 0)]

/-- The databases after the start-up are such as the platform starts with. -/
theorem platformStarts_startedUp : PlatformStarts startedUp where
  starts :=
    { sameTenant := sameTenant_seed
      members := by
        unfold Belongs
        decide +kernel
      authors := by
        unfold AuthorsAreMembers
        decide +kernel }
  messages m hm := by
    have hnone : startedUp.chat.db.messages = [] := by decide +kernel
    rw [hnone] at hm
    cases hm
  publishing p hp := by
    have hnone : startedUp.chat.publishing = [] := by decide +kernel
    rw [hnone] at hp
    cases hp
  units := by decide +kernel
  persons := by decide +kernel

theorem noImpersonation_throughout_twoMessages :
    (run (Platform.step Endpoint.demo) (Platform.initial startedUp) twoMessages).map (fun p =>
        (p.sockets.length, (framesOf p.live).map fun frame => (frame.senderName, frame.content))) =
      some (1, [("Demo Owner", "Good morning"), ("Demo Owner", "Welcome")]) ∧
    EachStep (Platform.step Endpoint.demo) (ActsInOwnName Endpoint.demo)
      (Platform.initial startedUp) twoMessages ∧
    Throughout (Platform.step Endpoint.demo) NoImpersonation (Platform.initial startedUp)
      twoMessages :=
  ⟨by decide +kernel, noImpersonation_throughout Endpoint.demo platformStarts_startedUp
    (by decide +kernel)⟩

/-- What a token opens, as long as it is valid: the connection to the business unit of the
profile that it was generated for, as the stored person of that profile, and no other
connection. -/
def OpensOwn {api : Api} (e : Endpoint api) (p : Platform) : Prop :=
  ∀ token ∈ p.site.tokens, token ≠ "" → ∀ now mapClaims, e.jwtParse now token = some mapClaims →
    ∃ user, TokenOf api p.site.state.main.toMainTables token user ∧ ∀ buIDStr,
      serveWS e now ("Bearer " ++ token) buIDStr =
        match e.uuids.parse buIDStr with
        | .error _ => .error ⟨400, "invalid buId"⟩
        | .ok buID =>
          if user.buId = buID then .ok (userClaims user)
          else .error ⟨403, "forbidden: buId mismatch"⟩

/-- In every state of every run, the token of a login opens the connection to its own
business unit only. -/
theorem opensOwn_throughout {api : Api} (e : Endpoint api) {s : World} (h : PlatformStarts s)
    {ls : List PlatformLabel}
    (hfresh : EachStep (Platform.step e) (Fresh api s.main.toMainTables) (Platform.initial s) ls) :
    Throughout (Platform.step e) (OpensOwn e) (Platform.initial s) ls := by
  refine (attributed_throughout e h hfresh).mono
    fun p hp token htoken hne now mapClaims hparsed => ?_
  obtain ⟨user, htokenOf, heq⟩ :=
    hp.parseClaims_eq (cutPrefix_append "Bearer " token) hne hparsed htoken
  refine ⟨user, htokenOf, fun buIDStr => ?_⟩
  have hbu : (userClaims user).buID = user.buId := rfl
  unfold serveWS
  rw [heq]
  dsimp only
  rw [hbu]
  cases e.uuids.parse buIDStr with
  | error err => rfl
  | ok buID =>
    dsimp only
    by_cases hown : user.buId = buID
    · rw [if_neg (not_not_intro hown), if_pos hown]
    · rw [if_pos hown, if_neg hown]

theorem opensOwn_throughout_twoMessages :
    (run (Platform.step Endpoint.demo) (Platform.initial startedUp) twoMessages).map (fun p =>
        p.site.tokens) = some ["owner"] ∧
    Throughout (Platform.step Endpoint.demo) (OpensOwn Endpoint.demo) (Platform.initial startedUp)
      twoMessages :=
  ⟨by decide +kernel, opensOwn_throughout Endpoint.demo platformStarts_startedUp
    (by decide +kernel)⟩

end AuraWellness.Backend.Authorship
