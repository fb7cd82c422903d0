import AuraWellness.Chat.Sending
import AuraWellness.Chat.Transport
import AuraWellness.Backend.ChatTenants

/-!
# Connections beside the API

The chat service lets a connection in by the token that a login of the API has issued:
it reads the claims as texts, and the business unit in its path has to be the one of
the token. From then on the connection and the API work on one chat database.
-/

namespace AuraWellness.Backend.Connecting

open AuraWellness.Lib.Calls
open AuraWellness.Chat.Entities AuraWellness.Chat.Publishing AuraWellness.Chat.Transport
open AuraWellness.Chat.Repositories AuraWellness.Chat.Services AuraWellness.Chat.Live
open AuraWellness.Chat.Sending (receivesAt)
open AuraWellness.Backend.Entities AuraWellness.Backend.Repositories
open AuraWellness.Backend.Controllers
open AuraWellness.Backend.InboundFrames (trimSpace)

/-- A value of `jwt.MapClaims`. -/
inductive ClaimValue
  | string (text : String)
  /-- A number, an array, an object, a truth value or null. -/
  | other
  deriving DecidableEq, Repr

/-- `jwt.MapClaims`. -/
abbrev MapClaims := String → Option ClaimValue

/-- `claimString`. -/
def claimString (c : MapClaims) (key : String) : String :=
  match c key with
  | some (.string s) => s
  | _ => ""

/-- `strings.CutPrefix`. -/
def cutPrefix (text start : String) : Option String :=
  if start.toList <+: text.toList then
    some (String.ofList (text.toList.drop start.toList.length))
  else none

/-- A header that starts so is cut behind the start. -/
theorem cutPrefix_append (start rest : String) : cutPrefix (start ++ rest) start = some rest := by
  unfold cutPrefix
  rw [String.toList_append, if_pos (List.prefix_append _ _), List.drop_left, String.ofList_toList]

/-- The claims as texts, as `JwtTokenService.GenerateToken` writes them. -/
def claimTexts (user : User) : List (String × String) :=
  [("sub", uuidText user.sub), ("companyId", uuidText user.companyId),
    ("personId", uuidText user.personId), ("buId", uuidText user.buId), ("role", user.role),
    ("firstName", user.firstName), ("lastName", user.lastName)]

/-- The packages behind the endpoint for connections. -/
structure Endpoint (api : Api) where
  /-- The parser of identifiers. -/
  uuids : GoUuid
  /-- `jwt.Parse` with the secret, the issuer and the audience, at a time. -/
  jwtParse : Time → String → Option MapClaims
  /-- It gives the claims that the token was generated with. -/
  jwtParse_claims : ∀ {now token claims row}, jwtParse now token = some claims →
    api.settings.generateToken row = token →
    ∀ entry ∈ claimTexts (JwtTokenService.claims row), claims entry.1 = some (.string entry.2)

/-- What `http.Error` answers. -/
structure HttpError where
  status : ℕ
  text : String
  deriving DecidableEq, Repr

def errMissingToken : HttpError := ⟨401, "missing authorization token"⟩

def errInvalidToken : HttpError := ⟨401, "invalid or expired token"⟩

def errInvalidClaims : HttpError := ⟨401, "token claims are malformed"⟩

variable {api : Api}

/-- `ParseClaims`. -/
def parseClaims (e : Endpoint api) (now : Time) (authHeader : String) :
    Except HttpError UserClaims :=
  if authHeader = "" then .error errMissingToken
  else
    match cutPrefix authHeader "Bearer " with
    | none => .error errMissingToken
    | some tokenStr =>
      if tokenStr = "" then .error errMissingToken
      else
        match e.jwtParse now tokenStr with
        | none => .error errInvalidToken
        | some mapClaims =>
          match e.uuids.parse (claimString mapClaims "personId"),
            e.uuids.parse (claimString mapClaims "buId") with
          | .ok personID, .ok buID =>
            let firstName := claimString mapClaims "firstName"
            let lastName := claimString mapClaims "lastName"
            let senderName := trimSpace (firstName ++ " " ++ lastName)
            .ok ⟨personID, buID, if senderName = "" then "Unknown" else senderName⟩
          | _, _ => .error errInvalidClaims

/-- `ServeWS` before its first lookup. -/
def serveWS (e : Endpoint api) (now : Time) (authHeader buIDStr : String) :
    Except HttpError UserClaims :=
  match parseClaims e now authHeader with
  | .error err => .error err
  | .ok claims =>
    match e.uuids.parse buIDStr with
    | .error _ => .error ⟨400, "invalid buId"⟩
    | .ok buID =>
      if claims.buID ≠ buID then .error ⟨403, "forbidden: buId mismatch"⟩ else .ok claims

/-- Claims come from a token behind "Bearer " that `jwt.Parse` takes. -/
theorem parseClaims_ok {e : Endpoint api} {now : Time} {authHeader : String} {claims : UserClaims}
    (h : parseClaims e now authHeader = .ok claims) :
    ∃ token mapClaims, cutPrefix authHeader "Bearer " = some token ∧ token ≠ "" ∧
      e.jwtParse now token = some mapClaims := by
  unfold parseClaims at h
  split at h
  · cases h
  split at h
  · cases h
  rename_i token htoken
  split at h
  · cases h
  rename_i hne
  split at h
  · cases h
  rename_i mapClaims hparsed
  exact ⟨token, mapClaims, htoken, hne, hparsed⟩

/-- The claims of such a token whose identifiers are the texts of identifiers. -/
theorem parseClaims_eq {e : Endpoint api} {now : Time} {authHeader token : String}
    {mapClaims : MapClaims} (hcut : cutPrefix authHeader "Bearer " = some token) (hne : token ≠ "")
    (hparsed : e.jwtParse now token = some mapClaims) {personID buID companyID : Uuid}
    (hperson : e.uuids.parse (claimString mapClaims "personId") = .ok personID)
    (hbu : e.uuids.parse (claimString mapClaims "buId") = .ok buID) :
    parseClaims e now authHeader = .ok (InboundFrames.parseClaims ⟨personID, buID, companyID,
      some (claimString mapClaims "firstName"), some (claimString mapClaims "lastName")⟩) := by
  have hheader : authHeader ≠ "" := by
    rintro rfl
    have hnone : cutPrefix "" "Bearer " = none := by decide
    cases hnone.symm.trans hcut
  unfold parseClaims
  rw [if_neg hheader, hcut]
  dsimp only
  rw [if_neg hne, hparsed]
  dsimp only
  rw [hperson, hbu]
  rfl

/-- A connection that is let in has these claims. -/
theorem parseClaims_of_serveWS {e : Endpoint api} {now : Time} {authHeader buIDStr : String}
    {claims : UserClaims} (h : serveWS e now authHeader buIDStr = .ok claims) :
    parseClaims e now authHeader = .ok claims := by
  unfold serveWS at h
  split at h
  · cases h
  rename_i parsed hparsed
  split at h
  · cases h
  split at h
  · cases h
  · cases h
    exact hparsed

/-- The API, the connections and their calls, on one chat database. -/
structure Platform where
  /-- The API with both databases. -/
  site : Site
  /-- The sends of the connections. -/
  threads : List (Thread serviceSignature GoError Response Request)
  /-- The connection that has received each of them. -/
  senders : List ℕ
  /-- All connections so far. -/
  sockets : List Socket

/-- The chat service as its connections see it. -/
def Platform.live (p : Platform) : LiveState := ⟨⟨p.site.state.chat, p.threads⟩, p.sockets⟩

/-- The platform after a step of the chat service. -/
def Platform.withLive (p : Platform) (live : LiveState) : Platform :=
  ⟨{ p.site with state := { p.site.state with chat := live.service.state } },
    live.service.threads, p.senders, live.sockets⟩

/-- The platform that has just started on the two databases. -/
def Platform.initial (s : World) : Platform := ⟨Site.initial s, [], [], []⟩

/-- A token that `jwt.Parse` takes has been issued. -/
def issued (e : Endpoint api) (p : Platform) (now : Time) (authHeader : String) : Bool :=
  (cutPrefix authHeader "Bearer ").all fun token =>
    (e.jwtParse now token).isNone || token ∈ p.site.tokens

/-- A step of a connection that is let in, or of its calls and publishes. -/
def letIn : LiveLabel → Bool
  | .service (.start _) => false
  | .accept _ _ => false
  | _ => true

/-- What happens next to the platform. -/
inductive PlatformLabel
  /-- A step of the API. -/
  | api (l : SiteLabel)
  /-- A request for a connection. -/
  | connect (now : Time) (authHeader buIDStr : String)
  /-- A step of the connections. -/
  | live (l : LiveLabel)

/-- One step of the platform. -/
def Platform.step (e : Endpoint api) (p : Platform) : PlatformLabel → Option Platform
  | .api l => (Site.step api p.site l).map fun site => { p with site }
  | .connect now authHeader buIDStr =>
    if issued e p now authHeader then
      match serveWS e now authHeader buIDStr with
      | .ok claims => (LiveState.step p.live (.accept claims claims.buID)).map p.withLive
      | .error _ => some p
    else none
  | .live l =>
    if letIn l then
      (LiveState.step p.live l).map fun live =>
        { p.withLive live with senders := p.senders ++ receivesAt l }
    else none

end AuraWellness.Backend.Connecting
