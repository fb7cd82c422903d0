import AuraWellness.Lib.Results
import AuraWellness.Backend.SignIn

/-!
# The controllers and the tokens

A login answers with a token whose claims describe the profile. The other actions
read their caller from the claims of the token that they are sent, ask for a role
and hand the caller's identifiers to the services. A token validates only if a
login has answered with it. Left out are the actions that hand nothing to these
services: `Me`, which reads the claims back, the two resets for administrators, and the
API's own endpoint for connections, whose sessions are modelled apart.
-/

namespace AuraWellness.Backend.Controllers

open AuraWellness.Lib.Calls
open AuraWellness.Chat.Entities
open AuraWellness.Backend.Entities AuraWellness.Backend.Schema AuraWellness.Backend.Repositories
open AuraWellness.Backend.Services AuraWellness.Backend.Runs
open AuraWellness.Backend.SignIn (LoginRequest LoginReply AuthController.login)
open AuraWellness.Backend.InboundFrames (trimSpace)

/-- The claims of a token, which an action reads as `User`. -/
structure User where
  sub : Uuid
  companyId : Uuid
  personId : Uuid
  buId : Uuid
  role : String
  firstName : String
  lastName : String
  deriving DecidableEq, Repr

/-- The claims that `JwtTokenService.GenerateToken` writes. -/
def JwtTokenService.claims : BuStaffProfile × Person × BusinessUnit → User
  | (profile, person, _) => ⟨profile.id, person.companyId, profile.personId, profile.buId,
      profile.role.text, person.firstName, person.lastName⟩

/-- The configuration of the API. -/
structure Api where
  /-- The configuration of the services. -/
  settings : Settings
  /-- The parser of e-mail addresses. -/
  isValidEmail : String → Bool
  /-- `JwtBearer` at a time: the claims of a token that is valid then. -/
  validate : Time → String → Option User
  /-- They are the claims that the token was generated with. -/
  validate_claims : ∀ {now token user row}, validate now token = some user →
    settings.generateToken row = token → user = JwtTokenService.claims row

/-- What an action, or the pipeline around it, answers. -/
inductive ApiReply
  /-- `Ok` or `CreatedAtAction` with a result. -/
  | ok (response : BackendResponse)
  /-- The answer of the login. -/
  | signIn (reply : LoginReply)
  /-- `Ok` with the business units. -/
  | businessUnits (units : List BusinessUnit)
  /-- `Ok` with the staff. -/
  | staffList (staff : List StaffResponse)
  /-- `Ok` with the persons. -/
  | persons (persons : List Person)
  | noContent
  | notFound
  | forbid
  /-- The token is missing or not valid. -/
  | challenge
  /-- A status code with an error message. -/
  | error (status : ℕ) (message : String)
  deriving DecidableEq, Repr

/-- What a controller makes of a result: null is `NotFound()`, and no result is
`NoContent()`. -/
def ApiReply.ofResponse : BackendResponse → ApiReply
  | .done => .noContent
  | .workspace none | .conversations none | .conversation none | .messages none
  | .message none => .notFound
  | response => .ok response

/-- An action that hands its request on to the services. -/
def serve (settings : Settings) (request : BackendRequest) : BackendProgram ApiReply :=
  ApiReply.ofResponse <$> request.program settings

/-- `catch (UnauthorizedAccessException) { return Forbid(); }` -/
def orForbid : Except Exn ApiReply → Except Exn ApiReply
  | .error (.unauthorizedAccess _) => .ok .forbid
  | r => r

/-- `catch (InvalidOperationException ex) { return BadRequest(new { error = ex.Message }); }` -/
def orBadRequest : Except Exn ApiReply → Except Exn ApiReply
  | .error (.invalidOperation message) => .ok (.error 400 message)
  | r => r

/-- `ExceptionMiddleware.InvokeAsync`. -/
def ExceptionMiddleware.invoke : Except Exn ApiReply → Except Exn ApiReply
  | .error (.unauthorizedAccess message) => .ok (.error 401 message)
  | .error (.invalidOperation message) => .ok (.error 400 message)
  | .error _ => .ok (.error 500 "An unexpected error occurred.")
  | r => r

/-- The name under which a caller sends. -/
def senderName (user : User) : String := trimSpace (user.firstName ++ " " ++ user.lastName)

/-- `CompaniesController.Onboard`. -/
def CompaniesController.onboard (settings : Settings) (draws : Draws) (request : OnboardRequest) :
    BackendProgram ApiReply :=
  serve settings (.onboard draws request)

/-- `AuthController.ChangePassword`. -/
def AuthController.changePassword (settings : Settings) (user : User) (draws : Draws)
    (currentPassword newPassword : String) : BackendProgram ApiReply :=
  serve settings (.changePassword draws user.personId user.buId currentPassword newPassword)

/-- `BusinessUnitsController.GetAll`. -/
def BusinessUnitsController.getAll (user : User) : BackendProgram ApiReply :=
  .businessUnits <$> BusinessUnitService.getAll user.companyId

/-- `BusinessUnitsController.Create`. -/
def BusinessUnitsController.create (settings : Settings) (user : User) (draws : Draws)
    (name : String) : BackendProgram ApiReply :=
  serve settings (.createBusinessUnit draws user.companyId user.personId name)

/-- `StaffController.GetAll`. -/
def StaffController.getAll (user : User) : BackendProgram ApiReply :=
  .staffList <$> StaffService.getAll user.companyId

/-- `StaffController.GetPersons`. -/
def StaffController.getPersons (user : User) : BackendProgram ApiReply :=
  .persons <$> StaffService.getPersons user.companyId

/-- `StaffController.Create`. -/
def StaffController.create (settings : Settings) (user : User) (draws : Draws)
    (request : CreateStaffRequest) : BackendProgram ApiReply :=
  serve settings (.createStaff draws user.companyId request)

/-- `StaffController.Enroll`. -/
def StaffController.enroll (settings : Settings) (user : User) (draws : Draws)
    (request : EnrollExistingStaffRequest) : BackendProgram ApiReply :=
  (serve settings (.enrollExisting draws user.companyId request)).mapResult orBadRequest

/-- `StaffController.UpdateRole`. -/
def StaffController.updateRole (settings : Settings) (user : User) (personId buId : Uuid)
    (role : String) : BackendProgram ApiReply :=
  serve settings (.updateRole personId buId user.companyId role)

/-- `ChatController.GetWorkspace`. -/
def ChatController.getWorkspace (settings : Settings) (user : User) (buId : Uuid) :
    BackendProgram ApiReply :=
  serve settings (.getWorkspace buId user.companyId)

/-- `ChatController.UpdateAccess`. -/
def ChatController.updateAccess (settings : Settings) (user : User) (buId personId : Uuid)
    (hasAccess : Bool) : BackendProgram ApiReply :=
  serve settings (.updateAccess buId personId hasAccess user.companyId)

/-- `ChatController.GetConversations`. -/
def ChatController.getConversations (settings : Settings) (user : User) (buId : Uuid) :
    BackendProgram ApiReply :=
  serve settings (.getConversations buId user.personId user.companyId)

/-- `ChatController.GetOrCreateDM`. -/
def ChatController.getOrCreateDM (settings : Settings) (user : User)
    (buId targetPersonId : Uuid) : BackendProgram ApiReply :=
  (serve settings (.getOrCreateDM buId user.personId targetPersonId user.companyId)).mapResult
    orForbid

/-- `ChatController.GetConversationMessages`. -/
def ChatController.getConversationMessages (settings : Settings) (user : User)
    (buId conversationId : Uuid) (limit : ℤ) (before : Option Time) : BackendProgram ApiReply :=
  (serve settings (.getConversationMessages buId conversationId user.personId user.companyId limit
    before)).mapResult orForbid

/-- `ChatController.SendConversationMessage`. -/
def ChatController.sendConversationMessage (settings : Settings) (user : User)
    (buId conversationId : Uuid) (content : String) : BackendProgram ApiReply :=
  (serve settings (.sendConversationMessage buId conversationId user.personId (senderName user)
    content user.companyId)).mapResult orForbid

/-- `ChatController.GetMessages`. -/
def ChatController.getMessages (settings : Settings) (user : User) (buId : Uuid) (limit : ℤ)
    (before : Option Time) : BackendProgram ApiReply :=
  (serve settings (.getMessages buId user.personId user.companyId limit before)).mapResult orForbid

/-- `ChatController.SendMessage`. -/
def ChatController.sendMessage (settings : Settings) (user : User) (buId : Uuid)
    (content : String) : BackendProgram ApiReply :=
  (serve settings (.sendMessage buId user.personId (senderName user) content
    user.companyId)).mapResult orForbid

/-- The actions that need a token and are modelled here, with what the request brings
along. -/
inductive ApiAction
  | changePassword (draws : Draws) (currentPassword newPassword : String)
  | getBusinessUnits
  | createBusinessUnit (draws : Draws) (name : String)
  | getStaff
  | getPersons
  | createStaff (draws : Draws) (request : CreateStaffRequest)
  | enroll (draws : Draws) (request : EnrollExistingStaffRequest)
  | updateRole (personId buId : Uuid) (role : String)
  | getWorkspace (buId : Uuid)
  | updateAccess (buId personId : Uuid) (hasAccess : Bool)
  | getConversations (buId : Uuid)
  | getOrCreateDM (buId targetPersonId : Uuid)
  | getConversationMessages (buId conversationId : Uuid) (limit : ℤ) (before : Option Time)
  | sendConversationMessage (buId conversationId : Uuid) (content : String)
  | getMessages (buId : Uuid) (limit : ℤ) (before : Option Time)
  | sendMessage (buId : Uuid) (content : String)

namespace ApiAction

/-- The actions with `[Authorize(Roles = "Owner")]`. -/
def ownerOnly : ApiAction → Bool
  | createBusinessUnit _ _ | getPersons | createStaff _ _ | enroll _ _ | updateRole _ _ _
  | updateAccess _ _ _ => true
  | _ => false

/-- The attribute `[Authorize]` of the action lets a caller with this role pass. -/
def allows (role : String) : ApiAction → Bool
  | getStaff => role = "Owner" || role = "Admin"
  | action => !action.ownerOnly || role = "Owner"

/-- The action of the controller. -/
def body (settings : Settings) (user : User) : ApiAction → BackendProgram ApiReply
  | changePassword draws current new =>
    AuthController.changePassword settings user draws current new
  | getBusinessUnits => BusinessUnitsController.getAll user
  | createBusinessUnit draws name => BusinessUnitsController.create settings user draws name
  | getStaff => StaffController.getAll user
  | getPersons => StaffController.getPersons user
  | createStaff draws request => StaffController.create settings user draws request
  | enroll draws request => StaffController.enroll settings user draws request
  | updateRole person bu role => StaffController.updateRole settings user person bu role
  | getWorkspace bu => ChatController.getWorkspace settings user bu
  | updateAccess bu person access => ChatController.updateAccess settings user bu person access
  | getConversations bu => ChatController.getConversations settings user bu
  | getOrCreateDM bu target => ChatController.getOrCreateDM settings user bu target
  | getConversationMessages bu conv limit before =>
    ChatController.getConversationMessages settings user bu conv limit before
  | sendConversationMessage bu conv content =>
    ChatController.sendConversationMessage settings user bu conv content
  | getMessages bu limit before => ChatController.getMessages settings user bu limit before
  | sendMessage bu content => ChatController.sendMessage settings user bu content

/-- What the action asks of the services, if it is a request of theirs. -/
def request (user : User) : ApiAction → Option BackendRequest
  | changePassword draws current new =>
    some (.changePassword draws user.personId user.buId current new)
  | getBusinessUnits | getStaff | getPersons => none
  | createBusinessUnit draws name =>
    some (.createBusinessUnit draws user.companyId user.personId name)
  | createStaff draws request => some (.createStaff draws user.companyId request)
  | enroll draws request => some (.enrollExisting draws user.companyId request)
  | updateRole person bu role => some (.updateRole person bu user.companyId role)
  | getWorkspace bu => some (.getWorkspace bu user.companyId)
  | updateAccess bu person access => some (.updateAccess bu person access user.companyId)
  | getConversations bu => some (.getConversations bu user.personId user.companyId)
  | getOrCreateDM bu target => some (.getOrCreateDM bu user.personId target user.companyId)
  | getConversationMessages bu conv limit before =>
    some (.getConversationMessages bu conv user.personId user.companyId limit before)
  | sendConversationMessage bu conv content =>
    some (.sendConversationMessage bu conv user.personId (senderName user) content user.companyId)
  | getMessages bu limit before => some (.getMessages bu user.personId user.companyId limit before)
  | sendMessage bu content =>
    some (.sendMessage bu user.personId (senderName user) content user.companyId)

end ApiAction

/-- A request to the API. -/
inductive ApiRequest
  | login (request : LoginRequest)
  | onboard (draws : Draws) (request : OnboardRequest)
  /-- An action with a bearer token, at a time. -/
  | bearer (now : Time) (token : String) (action : ApiAction)

/-- The program that answers a request: the token, the role, the action, and the
middleware around them. -/
def ApiRequest.program (api : Api) : ApiRequest → BackendProgram ApiReply
  | login request =>
    (ApiReply.signIn <$> AuthController.login api.settings api.isValidEmail request).mapResult
      ExceptionMiddleware.invoke
  | onboard draws request =>
    (CompaniesController.onboard api.settings draws request).mapResult ExceptionMiddleware.invoke
  | bearer now token action =>
    match api.validate now token with
    | none => return .challenge
    | some user =>
      if action.allows user.role then
        (action.body api.settings user).mapResult ExceptionMiddleware.invoke
      else return .forbid

/-- Requests to the API beside each other. -/
abbrev Site := Pool backendSignature World Exn ApiReply ApiRequest

/-- What happens next to the API. -/
abbrev SiteLabel := Label BackendChoice Exn ApiRequest

/-- The token that a thread has answered with. -/
def tokenOf (th : Thread backendSignature Exn ApiReply ApiRequest) : Option String :=
  match th.prog with
  | .ret (.ok (.signIn (.ok response))) => some response.token
  | _ => none

/-- The tokens that logins have answered with. -/
def Site.tokens (p : Site) : List String := p.threads.filterMap tokenOf

/-- A token that validates has been issued: its signature cannot be made up. -/
def Signed (api : Api) (p : Site) : SiteLabel → Prop
  | .start (.bearer now token _) => api.validate now token = none ∨ token ∈ p.tokens
  | _ => True

instance (api : Api) (p : Site) (l : SiteLabel) : Decidable (Signed api p l) := by
  cases l with
  | start r => cases r <;> unfold Signed <;> infer_instance
  | turn i t => exact isTrue trivial
  | crash i e => exact isTrue trivial

/-- One step of the API. -/
def Site.step (api : Api) (p : Site) (l : SiteLabel) : Option Site :=
  if Signed api p l then Pool.step backendMachine (ApiRequest.program api) p l else none

/-- The API that has just started on the two databases. -/
def Site.initial (s : World) : Site := ⟨s, []⟩

/-- A step of the API is one of its pool. -/
theorem Site.step_iff {api : Api} {p p' : Site} {l : SiteLabel} :
    Site.step api p l = some p' ↔
      Signed api p l ∧ Pool.step backendMachine (ApiRequest.program api) p l = some p' := by
  unfold Site.step
  split <;> simp [*]

/-- An action that hands its request on is the request, with a handler around it. -/
theorem serve_mapResult (settings : Settings) (r : BackendRequest)
    (f : Except Exn ApiReply → Except Exn ApiReply) :
    (serve settings r).mapResult f =
      (r.program settings).mapResult fun result => f (result.map ApiReply.ofResponse) := by
  unfold serve
  rw [Program.map_eq_mapResult, Program.mapResult_mapResult]

/-- An action that is a request of the services is that request, with a handler around
it. -/
theorem ApiAction.body_eq (settings : Settings) (user : User) {action : ApiAction}
    {r : BackendRequest} (h : action.request user = some r)
    (f : Except Exn ApiReply → Except Exn ApiReply) :
    ∃ g, (action.body settings user).mapResult f = (r.program settings).mapResult g := by
  have served : ∀ r : BackendRequest, ∃ g,
      (serve settings r).mapResult f = (r.program settings).mapResult g := fun r =>
    ⟨_, serve_mapResult settings r f⟩
  have handled : ∀ (r : BackendRequest) (f' : Except Exn ApiReply → Except Exn ApiReply),
      ∃ g, ((serve settings r).mapResult f').mapResult f = (r.program settings).mapResult g := by
    intro r f'
    rw [Program.mapResult_mapResult]
    exact ⟨_, serve_mapResult settings r _⟩
  cases action with
  | getBusinessUnits => cases h
  | getStaff => cases h
  | getPersons => cases h
  | enroll draws q => cases h; exact handled _ _
  | getOrCreateDM bu target => cases h; exact handled _ _
  | getConversationMessages bu conv limit before => cases h; exact handled _ _
  | sendConversationMessage bu conv content => cases h; exact handled _ _
  | getMessages bu limit before => cases h; exact handled _ _
  | sendMessage bu content => cases h; exact handled _ _
  | _ => cases h; exact served _

/-- The other actions are single queries, with a handler around them. -/
theorem ApiAction.body_query (settings : Settings) (user : User) {action : ApiAction}
    (h : action.request user = none) : (action.body settings user).AllOps BackendCall.Queries := by
  cases action with
  | getBusinessUnits => exact Program.AllOps.map _ (Program.allOps_perform trivial)
  | getStaff =>
    have hquery : BackendCall.Queries (.profileGetByCompany user.companyId) := trivial
    exact Program.AllOps.map _ (Program.AllOps.perform_bind hquery fun _ => trivial)
  | getPersons => exact Program.AllOps.map _ (Program.allOps_perform trivial)
  | _ => cases h

/-- The program of an action whose token is valid. -/
theorem ApiRequest.program_user {api : Api} {now : Time} {token : String} {user : User}
    (h : api.validate now token = some user) (action : ApiAction) :
    (bearer now token action).program api =
      if action.allows user.role then
        (action.body api.settings user).mapResult ExceptionMiddleware.invoke
      else pure .forbid := by
  simp only [ApiRequest.program, h]

/-- The program of an action whose token is not valid. -/
theorem ApiRequest.program_challenge {api : Api} {now : Time} {token : String}
    (h : api.validate now token = none) (action : ApiAction) :
    (bearer now token action).program api = pure .challenge := by
  simp only [ApiRequest.program, h]

/-- What a request asks of the services, if it is one of theirs. -/
def ApiRequest.serves (api : Api) : ApiRequest → Option BackendRequest
  | login _ => none
  | onboard draws request => some (.onboard draws request)
  | bearer now token action => (api.validate now token).bind fun user =>
    if action.allows user.role then action.request user else none

/-- A request that asks the services is their request, with a handler around it. -/
theorem ApiRequest.program_eq {api : Api} {r : ApiRequest} {q : BackendRequest}
    (h : r.serves api = some q) :
    ∃ f, r.program api = (q.program api.settings).mapResult f := by
  cases r with
  | login request => cases h
  | onboard draws request =>
    cases h
    exact ⟨_, serve_mapResult api.settings _ _⟩
  | bearer now token action =>
    obtain ⟨user, huser, h⟩ := Option.bind_eq_some_iff.mp h
    split at h
    · rename_i hallows
      rw [ApiRequest.program_user huser, if_pos hallows]
      exact ApiAction.body_eq api.settings user h _
    · cases h

/-- A login makes one query. -/
theorem login_query (settings : Settings) (isValidEmail : String → Bool) (request : LoginRequest) :
    (AuthController.login settings isValidEmail request).AllOps BackendCall.Queries := by
  unfold AuthController.login
  split
  · trivial
  refine Program.AllOps.bind ?_ fun result => ?_
  · have hquery : BackendCall.Queries (.profileGetByEmailMultiple request.email) := trivial
    refine Program.AllOps.perform_bind hquery fun rows => ?_
    split
    · trivial
    dsimp only
    split
    · trivial
    split
    · trivial
    split <;> trivial
  · cases result <;> trivial

/-- Other requests make queries only. -/
theorem ApiRequest.program_query {api : Api} {r : ApiRequest} (h : r.serves api = none) :
    (r.program api).AllOps BackendCall.Queries := by
  cases r with
  | login request =>
    exact ((login_query api.settings api.isValidEmail request).map _).mapResult _
  | onboard draws request => cases h
  | bearer now token action =>
    cases huser : api.validate now token with
    | none =>
      rw [ApiRequest.program_challenge huser]
      trivial
    | some user =>
      simp only [ApiRequest.serves, huser, Option.bind_some] at h
      rw [ApiRequest.program_user huser]
      split
      · rename_i hallows
        rw [if_pos hallows] at h
        exact (ApiAction.body_query api.settings user h).mapResult _
      · trivial

end AuraWellness.Backend.Controllers
