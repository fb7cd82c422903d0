import AuraWellness.Lib.Screening
import AuraWellness.Backend.Controllers

/-!
# The API in front of the services

The controllers hand an authorized action to the services and handle what comes
back; for everything else they make queries at most. So every run of the API is a
run of the services: the databases are the ones that the services' requests leave,
and each answer is the handled result of its request. What has been shown for the
services in every run thereby holds behind the API.
-/

namespace AuraWellness.Backend.Fronting

open AuraWellness.Lib.Calls AuraWellness.Lib.Transition
open AuraWellness.Backend.Schema AuraWellness.Backend.Repositories
open AuraWellness.Backend.Services AuraWellness.Backend.Runs
open AuraWellness.Backend.SignIn AuraWellness.Backend.Controllers

/-- What the action of a controller makes of the result of its request. -/
def ApiAction.handler : ApiAction → Except Exn ApiReply → Except Exn ApiReply
  | .enroll _ _ => orBadRequest
  | .getOrCreateDM _ _ | .getConversationMessages _ _ _ _ | .sendConversationMessage _ _ _
  | .getMessages _ _ _ | .sendMessage _ _ => orForbid
  | _ => id

/-- What the API makes of the result of a request that it has handed on. -/
def ApiRequest.handle : ApiRequest → Except Exn BackendResponse → Except Exn ApiReply
  | .bearer _ _ action, result =>
    ExceptionMiddleware.invoke (ApiAction.handler action (result.map ApiReply.ofResponse))
  | _, result => ExceptionMiddleware.invoke (result.map ApiReply.ofResponse)

/-- An action that is a request of the services is that request with its handler. -/
theorem body_handled (settings : Settings) (user : User) {action : ApiAction} {r : BackendRequest}
    (h : action.request user = some r) :
    action.body settings user = (r.program settings).mapResult fun result =>
      ApiAction.handler action (result.map ApiReply.ofResponse) := by
  have served : ∀ r : BackendRequest, serve settings r =
      (r.program settings).mapResult fun result => result.map ApiReply.ofResponse := fun r =>
    Program.map_eq_mapResult _ _
  cases action with
  | getBusinessUnits => cases h
  | getStaff => cases h
  | getPersons => cases h
  | enroll draws q => cases h; exact serve_mapResult settings _ _
  | getOrCreateDM bu target => cases h; exact serve_mapResult settings _ _
  | getConversationMessages bu conv limit before => cases h; exact serve_mapResult settings _ _
  | sendConversationMessage bu conv content => cases h; exact serve_mapResult settings _ _
  | getMessages bu limit before => cases h; exact serve_mapResult settings _ _
  | sendMessage bu content => cases h; exact serve_mapResult settings _ _
  | _ => cases h; exact served _

/-- A request that asks the services is their request with its handler. -/
theorem program_handled {api : Api} {r : ApiRequest} {q : BackendRequest}
    (h : r.serves api = some q) :
    r.program api = (q.program api.settings).mapResult (ApiRequest.handle r) := by
  cases r with
  | login request => cases h
  | onboard draws request =>
    cases h
    exact serve_mapResult api.settings _ _
  | bearer now token action =>
    obtain ⟨user, huser, h⟩ := Option.bind_eq_some_iff.mp h
    split at h
    · rename_i hallows
      rw [ApiRequest.program_user huser, if_pos hallows, body_handled api.settings user h,
        Program.mapResult_mapResult]
      rfl
    · cases h

/-- The API is a screen in front of the services. -/
theorem api_screen (api : Api) :
    Screen backendMachine (ApiRequest.program api) (BackendRequest.program api.settings)
      (ApiRequest.serves api) ApiRequest.handle where
  handed := program_handled
  refused h := (ApiRequest.program_query h).mono fun _ hop => query_state hop

/-- A state of the API is one that its requests to the services lead to by themselves:
they leave the databases so, and each answer of the API to one of them is its handled result
unless the request has crashed. -/
def Refines (api : Api) (s : World) (p : Site) : Prop :=
  ∃ ls u, run (BackendPool.step api.settings) (BackendPool.initial s) ls = some u ∧
    u.state = p.state ∧
    u.threads.map Thread.req = p.threads.filterMap (fun th => th.req.serves api) ∧
    ∀ (i : ℕ) (r : ApiRequest) (q : BackendRequest) (answer : Except Exn ApiReply),
      p.threads[i]? = some ⟨r, .ret answer⟩ → r.serves api = some q →
      ∃ result, u.threads[place (ApiRequest.serves api) p.threads i]? = some ⟨q, .ret result⟩ ∧
        (answer = ApiRequest.handle r result ∨ ∃ e, answer = .error e ∧ result = .error e)

end AuraWellness.Backend.Fronting
