import AuraWellness.Backend.Controllers
import AuraWellness.Backend.Tenants

/-!
# Whom a token stands for

A token names the profile that its login has opened, with the person and the
business unit of that profile. These never change, whatever runs beside the
token's requests, so its holder always acts as a stored person of the company in
the token; only the role may have changed since. Actions for Owners are served to
the person with whom the company began, and to nobody else.
-/

namespace AuraWellness.Backend.Tokens

open AuraWellness.Lib.Calls AuraWellness.Lib.Transition AuraWellness.Lib.RelyGuarantee
open AuraWellness.Lib.Keyed
open AuraWellness.Chat.Entities
open AuraWellness.Backend.Entities AuraWellness.Backend.Schema AuraWellness.Backend.Repositories
open AuraWellness.Backend.Services AuraWellness.Backend.Runs AuraWellness.Backend.Tenants
open AuraWellness.Backend.Controllers
open AuraWellness.Backend.Owners (assignableRole_ne_owner)
open AuraWellness.Backend.Login (mem_getByEmailMultiple insert_profiles insertAll_profiles
  profileRow)
open AuraWellness.Backend.SignIn (LoginRequest LoginReply AuthController.login)

/-- The claims describe a stored profile with its person and its business unit. -/
def Genuine (d : MainTables) (user : User) : Prop :=
  ∃ p ∈ d.profiles, ∃ q ∈ d.persons, ∃ b ∈ d.businessUnits,
    p.id = user.sub ∧ p.personId = user.personId ∧ p.buId = user.buId ∧
      q.id = user.personId ∧ q.companyId = user.companyId ∧
      q.firstName = user.firstName ∧ q.lastName = user.lastName ∧
      b.id = user.buId ∧ b.companyId = user.companyId

/-- Stored rows stay what the claims describe. -/
theorem Genuine.extend {d d' : MainDb} {user : User} (h : Genuine d.toMainTables user)
    (hkeeps : KeepsRows d d') : Genuine d'.toMainTables user := by
  obtain ⟨p, hp, q, hq, b, hb, hsub, hperson, hbu, hrest⟩ := h
  obtain ⟨p', hp', hid, hperson', hbu'⟩ := hkeeps.profiles p hp
  exact ⟨p', hp', q, hkeeps.persons q hq, b, hkeeps.businessUnits b hb, hid.trans hsub,
    hperson'.trans hperson, hbu'.trans hbu, hrest⟩

/-- The claims of a profile that a lookup has returned describe it. -/
theorem genuine_claims {d : MainDb} (h : SameTenant d.toMainTables) {tie : Uuid → ℕ}
    {email : String} {row : BuStaffProfile × Person × BusinessUnit}
    (hrow : row ∈ BuStaffProfileRepository.getByEmailMultiple d tie email) :
    Genuine d.toMainTables (JwtTokenService.claims row) := by
  obtain ⟨p, q, b⟩ := row
  obtain ⟨hp, -, hperson, hunit⟩ := mem_getByEmailMultiple.mp hrow
  obtain ⟨hq, hqid⟩ := (find?_eq_some_iff d.valid.persons_id).mp hperson
  obtain ⟨hb, hbid⟩ := (find?_eq_some_iff d.valid.businessUnits_id).mp hunit
  exact ⟨p, hp, q, hq, b, hb, rfl, rfl, rfl, hqid, rfl, rfl, rfl, hbid,
    (h p hp q hq hqid b hb hbid).symm⟩

/-- The identifiers of a profile, of its person and of its business unit are those of
an Owner with whom a company began: one from before the requests, or one whom a
request has onboarded. -/
def Began (d₀ : MainTables) (p : Site) (profile person bu : Uuid) : Prop :=
  (∃ old ∈ d₀.profiles, old.role = StaffRole.owner ∧ old.id = profile ∧ old.personId = person ∧
    old.buId = bu) ∨
  ∃ th ∈ p.threads, ∃ draws request, th.req = .onboard draws request ∧
    (onboardRows draws request).2.2.2.id = profile ∧ (onboardRows draws request).2.2.1.id = person ∧
    (onboardRows draws request).2.1.id = bu ∧
    (onboardRows draws request).2.2.1 ∈ p.state.main.persons

/-- The token has been generated for a stored profile, and for the Owner of a company
if the profile was one. -/
def IssuedFor (api : Api) (d₀ : MainTables) (p : Site) (token : String) : Prop :=
  ∃ row, api.settings.generateToken row = token ∧
    Genuine p.state.main.toMainTables (JwtTokenService.claims row) ∧
    (row.1.role = StaffRole.owner → Began d₀ p row.1.id row.1.personId row.1.buId)

/-- The reply is no session. -/
def NoSession : Except Exn ApiReply → Prop
  | .ok (.signIn (.ok _)) => False
  | _ => True

/-- The guarantee of a request: what the services guarantee for theirs, and queries
otherwise. -/
def ApiGuarantee (api : Api) (r : ApiRequest) (op : BackendCall) (t : Turn BackendChoice Exn)
    (s : World) : Prop :=
  match r.serves api with
  | some q => TenantGuarantee q op t s
  | none => op.Queries

/-- Every request is under its guarantee. -/
theorem apiProgram_guarantees (api : Api) (r : ApiRequest) (s : World) :
    Guarantees backendMachine tenantRely (ApiGuarantee api r) (r.program api) s := by
  unfold ApiGuarantee
  cases hserves : r.serves api with
  | some q =>
    obtain ⟨f, hf⟩ := ApiRequest.program_eq hserves
    rw [hf]
    exact mapResult_guarantees f (program_guarantees api.settings q s)
  | none =>
    refine Guarantees.of_allOps (ApiRequest.program_query hserves) (fun op t s' hop hinv => ?_) s
    rw [query_state hop]
    exact ⟨hinv, hop⟩

/-- What a guarantee allows, the other requests rely on. -/
theorem tenantRely_of_apiGuarantee (api : Api) (r : ApiRequest) (op : BackendCall)
    (t : Turn BackendChoice Exn) (s : World) (hs : tenantRely.inv s)
    (h : ApiGuarantee api r op t s) : tenantRely.steps s (backendMachine.answer op t s).2 := by
  unfold ApiGuarantee at h
  cases hserves : r.serves api with
  | some q =>
    rw [hserves] at h
    exact tenantRely_of_guarantee q op t s hs h
  | none =>
    rw [hserves] at h
    rw [query_state h]
    exact tenantRely.refl s

/-- The calls that a request to the API can make. -/
def ApiIssues (api : Api) (r : ApiRequest) (op : BackendCall) : Prop :=
  op.Queries ∨ ∃ q, r.serves api = some q ∧ Issues api.settings q op

/-- They are all it makes. -/
theorem apiProgram_issues (api : Api) (r : ApiRequest) :
    (r.program api).AllOps (ApiIssues api r) := by
  cases hserves : r.serves api with
  | some q =>
    obtain ⟨f, hf⟩ := ApiRequest.program_eq hserves
    rw [hf]
    exact ((program_issues api.settings q).mapResult f).mono fun op hop => Or.inr ⟨q, hserves, hop⟩
  | none => exact (ApiRequest.program_query hserves).mono fun op hop => Or.inl hop

/-- What follows the query of a login ends with its rows, and a session has the token
of one of them. -/
theorem login_rows (settings : Settings) (email password : String) (buId : Option Uuid) :
    ∃ answer : List (BuStaffProfile × Person × BusinessUnit) → Except Exn LoginResult,
      (AuthService.login settings email password buId =
        call (.profileGetByEmailMultiple email) >>= fun rows => .ret (answer rows)) ∧
      ∀ rows response, answer rows = .ok (.session response) →
        ∃ row ∈ rows, settings.generateToken row = response.token := by
  unfold AuthService.login
  have ends : ∀ (f : List (BuStaffProfile × Person × BusinessUnit) → BackendProgram LoginResult),
      (∀ rows, ∃ result, f rows = .ret result ∧ ∀ response, result = .ok (.session response) →
        ∃ row ∈ rows, settings.generateToken row = response.token) →
      ∃ answer : List (BuStaffProfile × Person × BusinessUnit) → Except Exn LoginResult,
        (call (.profileGetByEmailMultiple email) >>= f =
          call (.profileGetByEmailMultiple email) >>= fun rows => .ret (answer rows)) ∧
        ∀ rows response, answer rows = .ok (.session response) →
          ∃ row ∈ rows, settings.generateToken row = response.token := by
    intro f hf
    choose answer hanswer hrow using hf
    exact ⟨answer, by rw [funext hanswer], hrow⟩
  refine ends _ fun rows => ?_
  dsimp only
  split
  · exact ⟨_, rfl, fun response h => by cases h⟩
  split
  · exact ⟨_, rfl, fun response h => by cases h⟩
  split
  · exact ⟨_, rfl, fun response h => by cases h⟩
  split
  · exact ⟨_, rfl, fun response h => by cases h⟩
  · rename_i p person bu hfound
    refine ⟨_, rfl, fun response h => ?_⟩
    cases h
    refine ⟨(p, person, bu), ?_, rfl⟩
    cases buId with
    | none => exact (List.mem_filter.mp (List.mem_of_head? hfound)).1
    | some id => exact (List.mem_filter.mp (List.mem_of_find?_eq_some hfound)).1

/-- What the login action makes of the result of its service. -/
def ofLogin : Except Exn LoginResult → Except Exn ApiReply
  | .error e => .error e
  | .ok (.choices units) => .ok (.signIn (.requiresBuSelection units))
  | .ok (.session response) => .ok (.signIn (.ok response))

/-- It makes no calls for this. -/
theorem ofLogin_eq (result : Except Exn LoginResult) :
    (ApiReply.signIn <$> ((.ret result : BackendProgram LoginResult) >>= fun
      | .choices units => return .requiresBuSelection units
      | .session response => return .ok response)) = .ret (ofLogin result) := by
  cases result with
  | error e => rfl
  | ok result => cases result <;> rfl

/-- A request for a login is refused at once, or it is one query whose rows decide the
answer. -/
theorem login_program (api : Api) (request : LoginRequest) :
    (∃ reply, (ApiRequest.login request).program api = .ret reply ∧ NoSession reply) ∨
    ∃ answer : Except Exn (List (BuStaffProfile × Person × BusinessUnit)) → Except Exn ApiReply,
      (ApiRequest.login request).program api =
        .call (.profileGetByEmailMultiple request.email) (fun r => .ret (answer r)) ∧
      (∀ e, NoSession (answer (.error e))) ∧
      ∀ rows response, answer (.ok rows) = .ok (.signIn (.ok response)) →
        ∃ row ∈ rows, api.settings.generateToken row = response.token := by
  unfold ApiRequest.program
  dsimp only
  unfold AuthController.login
  split
  · exact Or.inl ⟨_, rfl, trivial⟩
  obtain ⟨answer, hlogin, hrows⟩ :=
    login_rows api.settings request.email request.password request.buId
  rw [hlogin]
  refine Or.inr ⟨fun r => match r with
    | .error e => ExceptionMiddleware.invoke (.error e)
    | .ok rows => ExceptionMiddleware.invoke (ofLogin (answer rows)), ?_, fun e => ?_, ?_⟩
  · refine congrArg (Program.call _) (funext fun r => ?_)
    cases r with
    | error e => rfl
    | ok rows => exact congrArg (Program.mapResult _) (ofLogin_eq (answer rows))
  · cases e <;> trivial
  · intro rows response h
    dsimp only at h
    cases hanswer : answer rows with
    | error e =>
      rw [hanswer] at h
      cases e <;> cases h
    | ok result =>
      rw [hanswer] at h
      cases result with
      | choices units => cases h
      | session found =>
        cases h
        exact hrows rows _ hanswer

/-- A transaction is accepted, or nothing is stored. -/
theorem committed {s : World} (r : Except DbError MainDb) :
    (∃ d, r = .ok d) ∨ (storeMain s r).2 = s := by
  cases r with
  | ok d => exact Or.inl ⟨d, rfl⟩
  | error e => exact Or.inr rfl

/-- The Owners that a call leaves were Owners before, but for the one whom an onboarding
adds. -/
theorem exec_newOwners {settings : Settings} {q : BackendRequest} {op : BackendCall}
    (hop : Issues settings q op) (c : BackendChoice) (s : World) {profile : BuStaffProfile}
    (hprofile : profile ∈ (op.exec c s).2.main.profiles) (hrole : profile.role = StaffRole.owner) :
    (∃ old ∈ s.main.profiles, old.role = StaffRole.owner ∧ old.id = profile.id ∧
      old.personId = profile.personId ∧ old.buId = profile.buId) ∨
    ∃ draws request, q = .onboard draws request ∧ profile = (onboardRows draws request).2.2.2 ∧
      (onboardRows draws request).2.2.1 ∈ (op.exec c s).2.main.persons := by
  have same : profile ∈ s.main.profiles → ∃ old ∈ s.main.profiles, old.role = StaffRole.owner ∧
      old.id = profile.id ∧ old.personId = profile.personId ∧ old.buId = profile.buId :=
    fun h => ⟨profile, h, hrole, rfl, rfl, rfl⟩
  -- an insert of one row adds its profile, and no request inserts an Owner so
  have added : ∀ {row : Insert}, op = .add row →
      (∀ new, row = .profile new → new.role ≠ StaffRole.owner) → profile ∈ s.main.profiles := by
    rintro row rfl hnew
    change profile ∈ (storeMain s (s.main.insert row)).2.main.profiles at hprofile
    cases hd : s.main.insert row with
    | error e =>
      rw [hd] at hprofile
      exact hprofile
    | ok d =>
      rw [hd] at hprofile
      change profile ∈ d.profiles at hprofile
      rw [insert_profiles hd] at hprofile
      obtain hold | hlast := List.mem_append.mp hprofile
      · exact hold
      · cases row with
        | profile new =>
          have he : profile = new := List.mem_singleton.mp hlast
          exact absurd (he ▸ hrole) (hnew new rfl)
        | _ => cases hlast
  cases hop with
  | query h =>
    rw [h.exec_state] at hprofile
    exact Or.inl (same hprofile)
  | @onboardCommit draws request =>
    rw [BackendCall.exec] at hprofile ⊢
    obtain ⟨d, hd⟩ | he := committed (s.main.insertAll _)
    · rw [hd] at hprofile ⊢
      obtain ⟨d₁, d₂, d₃, -, -, hperson, hlast⟩ := insertAll_four_ok hd
      change profile ∈ d.profiles at hprofile
      rw [insertAll_profiles hd] at hprofile
      obtain hold | hnew := List.mem_append.mp hprofile
      · exact Or.inl (same hold)
      · have hpersons : (onboardRows draws request).2.2.1 ∈ d₃.persons := by
          rw [(insertPerson_ok hperson).2.2]
          exact List.mem_append_right _ (List.mem_singleton_self _)
        exact Or.inr ⟨draws, request, rfl, List.mem_singleton.mp hnew,
          (insert_keepsRows hlast).persons _ hpersons⟩
    · rw [he] at hprofile
      exact Or.inl (same hprofile)
  | unitCommit =>
    rw [BackendCall.exec] at hprofile
    obtain ⟨d, hd⟩ | he := committed (s.main.insertAll _)
    · rw [hd] at hprofile
      change profile ∈ d.profiles at hprofile
      rw [insertAll_profiles hd] at hprofile
      exact Or.inl (same ((List.mem_append.mp hprofile).resolve_right List.not_mem_nil))
    · rw [he] at hprofile
      exact Or.inl (same hprofile)
  | staffPerson => exact Or.inl (same (added rfl fun new h => by cases h))
  | staffProfile h =>
    refine Or.inl (same (added rfl fun new hnew => ?_))
    cases hnew
    exact assignableRole_ne_owner h
  | enrollProfile h =>
    refine Or.inl (same (added rfl fun new hnew => ?_))
    cases hnew
    exact assignableRole_ne_owner h
  | saveRole h =>
    obtain ⟨old, hold, rfl⟩ := List.mem_map.mp hprofile
    split at hrole
    · exact absurd hrole (assignableRole_ne_owner h)
    · rename_i hne
      rw [if_neg hne]
      exact Or.inl ⟨old, hold, hrole, rfl, rfl, rfl⟩
  | savePassword =>
    obtain ⟨old, hold, rfl⟩ := List.mem_map.mp hprofile
    refine Or.inl ⟨old, hold, ?_⟩
    split at hrole
    · rename_i he
      rw [if_pos he]
      exact ⟨hrole, rfl, rfl, rfl⟩
    · rename_i hne
      rw [if_neg hne]
      exact ⟨hrole, rfl, rfl, rfl⟩
  | _ => exact Or.inl (same hprofile)

/-- What the rest of a request does with sessions: a login asks once and then ends, and
no other request ends with one. -/
def SessionsOf (api : Api) (r : ApiRequest) (q : BackendProgram ApiReply) : Prop :=
  match r with
  | .login _ => q = r.program api ∨ ∃ result, q = .ret result
  | _ => q.Ends NoSession

/-- What holds of the API in every state of every run. -/
structure Sound (api : Api) (d₀ : MainTables) (p : Site) : Prop where
  /-- The databases and the requests are under their guarantees. -/
  governed : Governed backendMachine tenantRely (ApiGuarantee api) p
  /-- The requests make their own calls only. -/
  issues : p.Each fun _ r _ q => q.AllOps (ApiIssues api r)
  /-- Sessions come from logins. -/
  sessions : p.Each fun _ r _ q => SessionsOf api r q
  /-- Every Owner is one with whom a company began. -/
  owners : ∀ profile ∈ p.state.main.profiles, profile.role = StaffRole.owner →
    Began d₀ p profile.id profile.personId profile.buId
  /-- The tokens are those of stored profiles. -/
  tokens : ∀ token ∈ p.tokens, IssuedFor api d₀ p token
  /-- So are those of the requests, if they are valid. -/
  bearers : ∀ th ∈ p.threads, ∀ now token action, th.req = .bearer now token action →
    api.validate now token = none ∨ IssuedFor api d₀ p token

/-- Rows and requests stay. -/
structure Later (p p' : Site) : Prop where
  rows : KeepsRows p.state.main p'.state.main
  requests : ∀ th ∈ p.threads, ∃ th' ∈ p'.threads, th'.req = th.req

theorem Began.later {d₀ : MainTables} {p p' : Site} {profile person bu : Uuid}
    (h : Began d₀ p profile person bu) (hl : Later p p') : Began d₀ p' profile person bu := by
  obtain hold | ⟨th, hth, draws, request, hreq, hid, hperson, hbu, hstored⟩ := h
  · exact Or.inl hold
  · obtain ⟨th', hth', hreq'⟩ := hl.requests th hth
    exact Or.inr ⟨th', hth', draws, request, hreq'.trans hreq, hid, hperson, hbu,
      hl.rows.persons _ hstored⟩

theorem IssuedFor.later {api : Api} {d₀ : MainTables} {p p' : Site} {token : String}
    (h : IssuedFor api d₀ p token) (hl : Later p p') : IssuedFor api d₀ p' token := by
  obtain ⟨row, htoken, hgenuine, hbegan⟩ := h
  exact ⟨row, htoken, hgenuine.extend hl.rows, fun hrole => (hbegan hrole).later hl⟩

/-- A step of the API keeps the guarantees, and rows and requests stay. -/
theorem Sound.later {api : Api} {d₀ : MainTables} {p p' : Site} {l : SiteLabel}
    (hp : Sound api d₀ p) (h : Pool.step backendMachine (ApiRequest.program api) p l = some p') :
    Governed backendMachine tenantRely (ApiGuarantee api) p' ∧ Later p p' := by
  obtain ⟨hgoverned, hrows⟩ := Governed.step hp.governed
    (fun r s _ => apiProgram_guarantees api r s) (tenantRely_of_apiGuarantee api) h
  refine ⟨hgoverned, hrows, fun th hth => ?_⟩
  obtain ⟨i, hi⟩ := List.mem_iff_getElem?.mp hth
  have hreq := Pool.step_request (i := i) (r := th.req) (by rw [hi]; rfl) h
  obtain ⟨th', hi', hth'⟩ := Option.map_eq_some_iff.mp hreq
  exact ⟨th', List.mem_of_getElem? hi', hth'⟩

/-- The handlers make no session. -/
theorem noSession_handled {r : Except Exn ApiReply} (h : NoSession r) :
    NoSession (ExceptionMiddleware.invoke r) ∧ NoSession (orForbid r) ∧
      NoSession (orBadRequest r) := by
  cases r with
  | ok reply => exact ⟨h, h, h⟩
  | error e => cases e <;> exact ⟨trivial, trivial, trivial⟩

/-- The requests of the services end with no session. -/
theorem serve_ends (settings : Settings) (r : BackendRequest) :
    (serve settings r).Ends NoSession := by
  refine Program.ends_map (fun response => ?_) (fun _ => trivial) _
  unfold ApiReply.ofResponse
  split <;> trivial

/-- The actions end with no session. -/
theorem body_ends (settings : Settings) (user : User) (action : ApiAction) :
    (action.body settings user).Ends NoSession := by
  have forbidding : ∀ r, ((serve settings r).mapResult orForbid).Ends NoSession := fun r =>
    (serve_ends settings r).mapResult fun _ h => (noSession_handled h).2.1
  cases action with
  | getBusinessUnits => exact Program.ends_map (fun _ => trivial) (fun _ => trivial) _
  | getStaff => exact Program.ends_map (fun _ => trivial) (fun _ => trivial) _
  | getPersons => exact Program.ends_map (fun _ => trivial) (fun _ => trivial) _
  | enroll draws q => exact (serve_ends settings _).mapResult fun _ h => (noSession_handled h).2.2
  | getOrCreateDM bu target => exact forbidding _
  | getConversationMessages bu conv limit before => exact forbidding _
  | sendConversationMessage bu conv content => exact forbidding _
  | getMessages bu limit before => exact forbidding _
  | sendMessage bu content => exact forbidding _
  | _ => exact serve_ends settings _

/-- Every request starts as it should with sessions. -/
theorem sessionsOf_program (api : Api) (r : ApiRequest) : SessionsOf api r (r.program api) := by
  have invoked : ∀ {q : BackendProgram ApiReply}, q.Ends NoSession →
      (q.mapResult ExceptionMiddleware.invoke).Ends NoSession := fun hq =>
    hq.mapResult fun _ h => (noSession_handled h).1
  cases r with
  | login request => exact Or.inl rfl
  | onboard draws request => exact invoked (serve_ends api.settings _)
  | bearer now token action =>
    refine (?_ : ((ApiRequest.bearer now token action).program api).Ends NoSession)
    cases huser : api.validate now token with
    | none =>
      rw [ApiRequest.program_challenge huser]
      trivial
    | some user =>
      rw [ApiRequest.program_user huser]
      split
      · exact invoked (body_ends api.settings user action)
      · trivial

/-- The next turn of a login ends it, and its session has the token of a row that is
found. -/
theorem login_turn {api : Api} {request : LoginRequest} {op : BackendCall}
    {next : Except Exn op.Reply → BackendProgram ApiReply}
    (h : (ApiRequest.login request).program api = .call op next) (t : Turn BackendChoice Exn)
    (s : World) :
    ∃ result, next (backendMachine.answer op t s).1 = .ret result ∧
      ∀ response, result = .ok (.signIn (.ok response)) → ∃ tie,
        ∃ row ∈ BuStaffProfileRepository.getByEmailMultiple s.main tie request.email,
          api.settings.generateToken row = response.token := by
  obtain ⟨reply, hret, -⟩ | ⟨answer, hcall, herror, hrows⟩ := login_program api request
  · cases hret.symm.trans h
  · cases hcall.symm.trans h
    refine ⟨_, rfl, fun response hresponse => ?_⟩
    cases hreply : (backendMachine.answer (.profileGetByEmailMultiple request.email) t s).1 with
    | error e =>
      rw [hreply] at hresponse
      have hnone := herror e
      rw [hresponse] at hnone
      exact hnone.elim
    | ok rows =>
      rw [hreply] at hresponse
      obtain ⟨c, -, ha⟩ := Machine.answer_ok hreply
      rw [ha] at hreply
      have hfound : BuStaffProfileRepository.getByEmailMultiple s.main c.tie request.email = rows :=
        Except.ok.inj hreply
      rw [← hfound] at hresponse
      exact ⟨c.tie, hrows _ response hresponse⟩

/-- What a request does with sessions, it goes on to do. -/
theorem SessionsOf.turn {api : Api} {r : ApiRequest} {op : BackendCall}
    {next : Except Exn op.Reply → BackendProgram ApiReply} (h : SessionsOf api r (.call op next))
    (t : Turn BackendChoice Exn) (s : World) :
    SessionsOf api r (next (backendMachine.answer op t s).1) := by
  cases r with
  | login request =>
    obtain hstart | ⟨result, hret⟩ := h
    · obtain ⟨result, hresult, -⟩ := login_turn hstart.symm t s
      exact Or.inr ⟨result, hresult⟩
    · cases hret
  | onboard draws request => exact h _ trivial
  | bearer now token action => exact h _ trivial

/-- Every step keeps what requests do with sessions. -/
theorem sessions_step {api : Api} {p p' : Site} {l : SiteLabel}
    (hp : p.Each fun _ r _ q => SessionsOf api r q)
    (h : Pool.step backendMachine (ApiRequest.program api) p l = some p') :
    p'.Each fun _ r _ q => SessionsOf api r q := by
  have crashed : ∀ r e, SessionsOf api r (.ret (.error e)) := by
    intro r e
    cases r with
    | login request => exact Or.inr ⟨_, rfl⟩
    | onboard draws request => trivial
    | bearer now token action => trivial
  obtain ⟨_, -, hL⟩ := Pool.step_modular (M := backendMachine) (fun (_ : Unit) _ => True)
    (fun _ _ r _ q => SessionsOf api r q) (fun _ _ r _ _ => sessionsOf_program api r)
    (fun _ _ r _ _ _ e _ => crashed r e)
    (fun _ _ _ s _ _ t _ hq => ⟨(), trivial, hq.turn t s, fun _ _ _ _ hq' => hq'⟩)
    ⟨(), trivial, hp⟩ h
  exact hL

/-- A token of the pool is one of a thread that has returned a session. -/
theorem mem_tokens {p : Site} {token : String} :
    token ∈ p.tokens ↔ ∃ (i : ℕ) (r : ApiRequest) (response : LoginResponse),
      p.threads[i]? = some ⟨r, .ret (.ok (.signIn (.ok response)))⟩ ∧ response.token = token := by
  unfold Site.tokens
  rw [List.mem_filterMap]
  constructor
  · rintro ⟨⟨r, q⟩, hth, htoken⟩
    obtain ⟨i, hi⟩ := List.mem_iff_getElem?.mp hth
    unfold tokenOf at htoken
    split at htoken
    · rename_i response hq
      cases htoken
      cases hq
      exact ⟨i, r, response, hi, rfl⟩
    · cases htoken
  · rintro ⟨i, r, response, hi, rfl⟩
    exact ⟨_, List.mem_of_getElem? hi, rfl⟩

/-- No request starts with a session. -/
theorem program_ne_session (api : Api) (r : ApiRequest) (response : LoginResponse) :
    r.program api ≠ .ret (.ok (.signIn (.ok response))) := by
  intro h
  have hends := sessionsOf_program api r
  cases r with
  | login request =>
    obtain ⟨reply, hret, hreply⟩ | ⟨answer, hcall, -⟩ := login_program api request
    · cases hret.symm.trans h
      exact hreply
    · cases hcall.symm.trans h
  | onboard draws request =>
    rw [h] at hends
    exact hends
  | bearer now token action =>
    rw [h] at hends
    exact hends

/-- A turn that ends with a session is that of a login, whose profile it has found. -/
theorem SessionsOf.found {api : Api} {r : ApiRequest} {op : BackendCall}
    {next : Except Exn op.Reply → BackendProgram ApiReply} (h : SessionsOf api r (.call op next))
    {t : Turn BackendChoice Exn} {s : World} {response : LoginResponse}
    (hnext : next (backendMachine.answer op t s).1 = .ret (.ok (.signIn (.ok response)))) :
    ∃ tie email, ∃ row ∈ BuStaffProfileRepository.getByEmailMultiple s.main tie email,
      api.settings.generateToken row = response.token := by
  cases r with
  | login request =>
    obtain hstart | ⟨result, hret⟩ := h
    · obtain ⟨result, hresult, hrow⟩ := login_turn hstart.symm t s
      cases hresult.symm.trans hnext
      obtain ⟨tie, hfound⟩ := hrow response rfl
      exact ⟨tie, request.email, hfound⟩
    · cases hret
  | onboard draws request =>
    have hends : NoSession (.ok (.signIn (.ok response))) := by
      have hq := h (backendMachine.answer op t s).1 trivial
      rw [hnext] at hq
      exact hq
    exact hends.elim
  | bearer now token action =>
    have hends : NoSession (.ok (.signIn (.ok response))) := by
      have hq := h (backendMachine.answer op t s).1 trivial
      rw [hnext] at hq
      exact hq
    exact hends.elim

/-- The tokens after a step are those of before, and the one of a login that has just
found its profile. -/
theorem Sound.newToken {api : Api} {d₀ : MainTables} {p p' : Site} {l : SiteLabel}
    (hp : Sound api d₀ p) (h : Pool.step backendMachine (ApiRequest.program api) p l = some p')
    {token : String} (htoken : token ∈ p'.tokens) :
    token ∈ p.tokens ∨ ∃ tie email,
      ∃ row ∈ BuStaffProfileRepository.getByEmailMultiple p.state.main tie email,
        api.settings.generateToken row = token := by
  obtain ⟨j, r, response, hj, rfl⟩ := mem_tokens.mp htoken
  cases l with
  | start r' =>
    cases h
    obtain ⟨-, hnew⟩ | hj := getElem?_concat_cases hj
    · have hprog : r'.program api = .ret (.ok (.signIn (.ok response))) :=
        (congrArg Thread.prog hnew).symm
      exact absurd hprog (program_ne_session api r' response)
    · exact Or.inl (mem_tokens.mpr ⟨j, r, response, hj, rfl⟩)
  | turn i t =>
    obtain ⟨r', op, next, hi, -, rfl⟩ := Pool.step_turn h
    obtain ⟨rfl, hnew⟩ | ⟨-, hj⟩ := getElem?_set_cases hj
    · have hprog : next (backendMachine.answer op t p.state).1 =
          .ret (.ok (.signIn (.ok response))) :=
        (congrArg Thread.prog hnew).symm
      exact Or.inr ((hp.sessions _ _ hi).found hprog)
    · exact Or.inl (mem_tokens.mpr ⟨j, r, response, hj, rfl⟩)
  | crash i e =>
    obtain ⟨r', op, next, hi, rfl⟩ := Pool.step_crash h
    obtain ⟨rfl, hnew⟩ | ⟨-, hj⟩ := getElem?_set_cases hj
    · cases hnew
    · exact Or.inl (mem_tokens.mpr ⟨j, r, response, hj, rfl⟩)

/-- A request that the services serve as an onboarding is one. -/
theorem serves_onboard {api : Api} {r : ApiRequest} {draws : Draws} {request : OnboardRequest}
    (h : r.serves api = some (.onboard draws request)) : r = .onboard draws request := by
  cases r with
  | login request' => cases h
  | onboard draws' request' =>
    cases h
    rfl
  | bearer now token action =>
    obtain ⟨user, -, haction⟩ := Option.bind_eq_some_iff.mp h
    split at haction
    · cases action <;> cases haction
    · cases haction

/-- Every Owner after a step is one with whom a company began. -/
theorem Sound.newOwners {api : Api} {d₀ : MainTables} {p p' : Site} {l : SiteLabel}
    (hp : Sound api d₀ p) (hl : Later p p')
    (h : Pool.step backendMachine (ApiRequest.program api) p l = some p')
    {profile : BuStaffProfile} (hprofile : profile ∈ p'.state.main.profiles)
    (hrole : profile.role = StaffRole.owner) :
    Began d₀ p' profile.id profile.personId profile.buId := by
  have old : profile ∈ p.state.main.profiles →
      Began d₀ p' profile.id profile.personId profile.buId := fun hold =>
    (hp.owners profile hold hrole).later hl
  cases l with
  | start r =>
    cases h
    exact old hprofile
  | crash i e =>
    obtain ⟨r, op, next, hi, rfl⟩ := Pool.step_crash h
    exact old hprofile
  | turn i t =>
    obtain ⟨r, op, next, hi, -, rfl⟩ := Pool.step_turn h
    obtain hquery | ⟨q, hserves, hop⟩ := (hp.issues i _ hi).1
    · refine old ?_
      rw [query_state hquery] at hprofile
      exact hprofile
    obtain hsame | ⟨c, hexec⟩ := backendMachine.answer_state op t p.state
    · refine old ?_
      rw [hsame] at hprofile
      exact hprofile
    · dsimp only at hprofile
      rw [hexec] at hprofile
      obtain ⟨x, hx, hxrole, hid, hperson, hbu⟩ | ⟨draws, request, rfl, rfl, hstored⟩ :=
        exec_newOwners hop c p.state hprofile hrole
      · rw [← hid, ← hperson, ← hbu]
        exact (hp.owners x hx hxrole).later hl
      · cases serves_onboard hserves
        obtain ⟨th, hth, hreq⟩ := hl.requests _ (List.mem_of_getElem? hi)
        refine Or.inr ⟨th, hth, draws, request, hreq, rfl, rfl, rfl, ?_⟩
        dsimp only
        rw [hexec]
        exact hstored

/-- Every step keeps what holds of the API. -/
theorem Sound.step {api : Api} {d₀ : MainTables} (p : Site) (l : SiteLabel) (p' : Site)
    (hp : Sound api d₀ p) (h : Site.step api p l = some p') : Sound api d₀ p' := by
  obtain ⟨hsigned, hstep⟩ := Site.step_iff.mp h
  obtain ⟨hgoverned, hl⟩ := hp.later hstep
  refine ⟨hgoverned, Pool.step_allOps (apiProgram_issues api) hp.issues hstep,
    sessions_step hp.sessions hstep, fun profile => hp.newOwners hl hstep, fun token htoken => ?_,
    fun th hth now token action hreq => ?_⟩
  · obtain hold | ⟨tie, email, row, hrow, rfl⟩ := hp.newToken hstep htoken
    · exact (hp.tokens token hold).later hl
    · have hprofile := (mem_getByEmailMultiple (q := row.2.1) (b := row.2.2)).mp hrow
      exact IssuedFor.later ⟨row, rfl, genuine_claims hp.governed.inv hrow,
        fun hrole => hp.owners row.1 hprofile.1 hrole⟩ hl
  · have old : ∀ x ∈ p.threads, x.req = .bearer now token action →
        api.validate now token = none ∨ IssuedFor api d₀ p' token := fun x hx hxreq =>
      (hp.bearers x hx now token action hxreq).imp_right fun hissued => hissued.later hl
    have replaced : ∀ {i : ℕ} {r : ApiRequest} {q q' : BackendProgram ApiReply},
        p.threads[i]? = some ⟨r, q⟩ → th ∈ p.threads.set i ⟨r, q'⟩ →
          api.validate now token = none ∨ IssuedFor api d₀ p' token := by
      intro i r q q' hi hmem
      obtain hold | rfl := List.mem_or_eq_of_mem_set hmem
      · exact old th hold hreq
      · exact old _ (List.mem_of_getElem? hi) hreq
    cases l with
    | start r =>
      cases hstep
      obtain hold | hnew := List.mem_append.mp hth
      · exact old th hold hreq
      · rw [List.mem_singleton.mp hnew] at hreq
        cases hreq
        exact hsigned.imp_right fun hmem => (hp.tokens token hmem).later hl
    | turn i t =>
      obtain ⟨r, op, next, hi, -, rfl⟩ := Pool.step_turn hstep
      exact replaced hi hth
    | crash i e =>
      obtain ⟨r, op, next, hi, rfl⟩ := Pool.step_crash hstep
      exact replaced hi hth

/-- It holds at the start, when no profile crosses companies. -/
theorem Sound.initial (api : Api) {s : World} (h : SameTenant s.main.toMainTables) :
    Sound api s.main.toMainTables (Site.initial s) where
  governed := Governed.initial h
  issues i th hi := by cases hi
  sessions i th hi := by cases hi
  owners profile hprofile hrole := Or.inl ⟨profile, hprofile, hrole, rfl, rfl, rfl⟩
  tokens token htoken := by cases htoken
  bearers th hth := by cases hth

/-- Only the role Owner has this text. -/
theorem eq_owner_of_text {role : StaffRole} (h : role.text = "Owner") : role = StaffRole.owner := by
  unfold StaffRole.text at h
  split at h
  · rename_i n hn
    have hmem := List.mem_of_find?_eq_some hn
    have hrole : n.2 = role := by simpa using List.find?_some hn
    simp only [StaffRole.names, List.mem_cons, List.not_mem_nil, or_false] at hmem
    obtain rfl | rfl | rfl := hmem
    · exact hrole.symm
    · exact absurd h (by decide)
    · exact absurd h (by decide)
  · -- the text of any other value is that of a number
    cases role with
    | ofNat n =>
      have hrepr : n.repr = "Owner" := h
      have hletter : 'O' ∈ n.repr.toList := by
        rw [hrepr]
        decide
      rw [Nat.toList_repr] at hletter
      exact absurd (Nat.isDigit_of_mem_toDigits (by decide) (by decide) hletter) (by decide)
    | negSucc n =>
      have hrepr : "-" ++ (n + 1).repr = "Owner" := h
      have hlist := congrArg String.toList hrepr
      simp at hlist

/-- The caller of the action has a valid token, and its role passes. -/
def Acts (api : Api) (p : Site) (user : User) (action : ApiAction) : Prop :=
  ∃ th ∈ p.threads, ∃ now token, th.req = .bearer now token action ∧
    api.validate now token = some user ∧ action.allows user.role = true

/-- The caller is the Owner with whom its company began: one from before the requests, or
the owner whom a request has onboarded and stored. -/
def Founder (d₀ : MainTables) (p : Site) (user : User) : Prop :=
  (∃ old ∈ d₀.profiles, old.role = StaffRole.owner ∧ old.id = user.sub ∧
    old.personId = user.personId ∧ old.buId = user.buId) ∨
  ∃ th ∈ p.threads, ∃ draws request, th.req = .onboard draws request ∧
    (onboardRows draws request).1.id = user.companyId ∧
    (onboardRows draws request).2.1.id = user.buId ∧
    (onboardRows draws request).2.2.1.id = user.personId ∧
    (onboardRows draws request).2.2.2.id = user.sub ∧
    (onboardRows draws request).2.2.1 ∈ p.state.main.persons

/-- The token of a caller has been issued for the profile that its claims describe. -/
theorem Sound.acts {api : Api} {d₀ : MainTables} {p : Site} (hp : Sound api d₀ p) {user : User}
    {action : ApiAction} (h : Acts api p user action) :
    Genuine p.state.main.toMainTables user ∧
      (user.role = "Owner" → Began d₀ p user.sub user.personId user.buId) := by
  obtain ⟨th, hth, now, token, hreq, huser, -⟩ := h
  obtain hnone | ⟨row, htoken, hgenuine, hbegan⟩ := hp.bearers th hth now token action hreq
  · cases hnone.symm.trans huser
  · rw [api.validate_claims huser htoken]
    exact ⟨hgenuine, fun hrole => hbegan (eq_owner_of_text hrole)⟩

/-- An action for Owners lets only the role Owner pass. -/
theorem role_of_ownerOnly {action : ApiAction} {role : String} (h : action.ownerOnly = true)
    (hallows : action.allows role = true) : role = "Owner" := by
  unfold ApiAction.allows at hallows
  split at hallows
  · cases h
  · rw [h] at hallows
    simpa using hallows

/-- A caller with the role Owner is the one with whom its company began. -/
theorem Sound.founder {api : Api} {d₀ : MainTables} {p : Site} (hp : Sound api d₀ p) {user : User}
    {action : ApiAction} (h : Acts api p user action) (hrole : user.role = "Owner") :
    Founder d₀ p user := by
  obtain ⟨⟨-, -, q, hq, -, -, -, -, -, hqid, hcompany, -⟩, hbegan⟩ := hp.acts h
  obtain hold | ⟨th, hth, draws, request, hreq, hid, hperson, hbu, hstored⟩ := hbegan hrole
  · exact Or.inl hold
  · have he : (onboardRows draws request).2.2.1 = q :=
      p.state.main.valid.persons_id.eq hstored hq (hperson.trans hqid.symm)
    refine Or.inr ⟨th, hth, draws, request, hreq, ?_, hbu, hperson, hid, hstored⟩
    rw [← hcompany, ← he]
    rfl

/-- Whoever acts with a token is, in every state of every run, a stored person of the
company in the token with the stored profile of the token, whatever has happened since
the token was issued; only the role may be another one by then. -/
theorem callers_genuine_throughout (api : Api) {s : World} (h : SameTenant s.main.toMainTables)
    (ls : List SiteLabel) :
    Throughout (Site.step api)
      (fun p => ∀ user action, Acts api p user action → Genuine p.state.main.toMainTables user)
      (Site.initial s) ls := by
  have hsound := throughout_invariant Sound.step ls (Sound.initial api h)
  exact hsound.mono fun p hp user action hacts => (hp.acts hacts).1

/-- The claims of the seeded Owner. -/
def seedOwner : User :=
  ⟨0x40000000000000000000000000000001, 0x10000000000000000000000000000001,
    0x30000000000000000000000000000001, 0x20000000000000000000000000000001, "Owner", "Demo",
    "Owner"⟩

/-- A configuration whose only valid token is that of the seeded Owner, for an hour. -/
def Api.demo : Api where
  settings := ⟨none, fun password _ => password = "P@ssw0rd",
    fun row => if JwtTokenService.claims row = seedOwner then "owner" else ""⟩
  isValidEmail email := email = "Welcome@example.com"
  validate now token := if token = "owner" ∧ now < 3600000000 then some seedOwner else none
  validate_claims := by
    intro now token user row hvalid htoken
    dsimp only at htoken
    split at hvalid
    · rename_i hgood
      split at htoken
      · rename_i hclaims
        cases hvalid
        exact hclaims.symm
      · rw [hgood.1] at htoken
        exact absurd htoken (by decide)
    · cases hvalid

/-- The seeded Owner signs in and creates a business unit; another caller makes a token
up. -/
def ownerVisit : List SiteLabel :=
  [.start (.login ⟨"Welcome@example.com", "P@ssw0rd", none⟩), .turn 0 (servedWith 1 0),
    .start (.bearer 0 "owner" (.createBusinessUnit (Draws.from 1) "Clinic")),
    .start (.bearer 0 "mine" .getPersons), .turn 1 (servedWith 1 0)]

theorem callers_genuine_throughout_seed :
    (run (Site.step Api.demo) (Site.initial World.seeded) ownerVisit).map Site.tokens =
        some ["owner"] ∧
      Throughout (Site.step Api.demo)
        (fun p => ∀ user action, Acts Api.demo p user action →
          Genuine p.state.main.toMainTables user)
        (Site.initial World.seeded) ownerVisit :=
  ⟨by decide +kernel, callers_genuine_throughout Api.demo sameTenant_seed ownerVisit⟩

/-- Whoever gets past the check of an action for Owners is the person with whom its
company began: nobody else can ever create staff, business units, roles or chat access
there. -/
theorem ownerActions_byFounder_throughout (api : Api) {s : World}
    (h : SameTenant s.main.toMainTables) (ls : List SiteLabel) :
    Throughout (Site.step api)
      (fun p => ∀ user action, Acts api p user action → action.ownerOnly = true →
        Founder s.main.toMainTables p user)
      (Site.initial s) ls := by
  have hsound := throughout_invariant Sound.step ls (Sound.initial api h)
  refine hsound.mono fun p hp user action hacts howner => hp.founder hacts ?_
  obtain ⟨-, -, -, -, -, -, hallows⟩ := hacts
  exact role_of_ownerOnly howner hallows

theorem ownerActions_byFounder_throughout_seed :
    (run (Site.step Api.demo) (Site.initial World.seeded) ownerVisit).map Site.tokens =
        some ["owner"] ∧
      Throughout (Site.step Api.demo)
        (fun p => ∀ user action, Acts Api.demo p user action → action.ownerOnly = true →
          Founder World.seeded.main.toMainTables p user)
        (Site.initial World.seeded) ownerVisit :=
  ⟨by decide +kernel, ownerActions_byFounder_throughout Api.demo sameTenant_seed ownerVisit⟩

end AuraWellness.Backend.Tokens
