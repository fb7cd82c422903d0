import AuraWellness.Backend.TwoPhaseLogin
import AuraWellness.Backend.InboundFrames

/-!
# Credentials from their creation to the login

The services store whatever e-mail address a request has, and the login action
refuses addresses that are blank or that it cannot parse. A profile whose password
has not been changed can sign in exactly if the action takes its address, however
many other profiles there are and whatever has happened since its creation.
-/

namespace AuraWellness.Backend.SignIn

open AuraWellness.Lib.Calls AuraWellness.Lib.Transition
open AuraWellness.Chat.Entities AuraWellness.Chat.Schema
open AuraWellness.Backend.Entities AuraWellness.Backend.Schema AuraWellness.Backend.Repositories
open AuraWellness.Backend.Services AuraWellness.Backend.Runs AuraWellness.Backend.TwoPhaseLogin
open AuraWellness.Backend.Login (profileRow insert_profiles insertAll_profiles)
open AuraWellness.Backend.InboundFrames (isNullOrWhiteSpace)

/-- `LoginRequest`. -/
structure LoginRequest where
  email : String
  password : String
  buId : Option Uuid
  deriving DecidableEq, Repr

/-- What `POST /api/auth/login` answers. -/
inductive LoginReply
  /-- `BadRequest`. -/
  | badRequest (error : String)
  /-- `Ok` with `requiresBuSelection` and the choices. -/
  | requiresBuSelection (choices : List BuChoiceResponse)
  /-- `Ok` with the session. -/
  | ok (result : LoginResponse)
  deriving DecidableEq, Repr

/-- `AuthController.Login`; `isValidEmail` is the parser of e-mail addresses. -/
def AuthController.login (settings : Settings) (isValidEmail : String → Bool)
    (request : LoginRequest) : BackendProgram LoginReply :=
  if isNullOrWhiteSpace (some request.email) = true ∨ isValidEmail request.email = false then
    return .badRequest "Valid email required."
  else do
    match ← AuthService.login settings request.email request.password request.buId with
    | .choices units => return .requiresBuSelection units
    | .session response => return .ok response

/-- The action takes the e-mail address. -/
def TakesEmail (isValidEmail : String → Bool) (email : String) : Prop :=
  isNullOrWhiteSpace (some email) = false ∧ isValidEmail email = true

instance (isValidEmail : String → Bool) (email : String) :
    Decidable (TakesEmail isValidEmail email) := by
  unfold TakesEmail
  infer_instance

/-- The answer to a login request whose lookup the database serves. -/
def loginReply (settings : Settings) (isValidEmail : String → Bool) (s : World) (c : BackendChoice)
    (request : LoginRequest) : Except Exn LoginReply :=
  ((AuthController.login settings isValidEmail request).run backendMachine (fun _ => .serve c) s).1

/-- What a request that creates a profile hands out, and what it stores for it. -/
structure Credentials where
  /-- The new profile. -/
  profileId : Uuid
  /-- Its e-mail address. -/
  email : String
  /-- The password that its person is told to use. -/
  password : String
  /-- `Hash` of this password. -/
  passwordHash : String
  deriving DecidableEq, Repr

/-- The credentials of the three requests that create a profile: the owner chooses
a password, and staff get the default one. -/
def credentials (settings : Settings) : BackendRequest → Option Credentials
  | .onboard draws request => some ⟨(draws.stamps 3).id, request.ownerEmail, request.ownerPassword,
      draws.hash request.ownerPassword⟩
  | .createStaff draws _ request => some ⟨(draws.stamps 1).id, request.email,
      settings.defaultPassword, draws.hash settings.defaultPassword⟩
  | .enrollExisting draws _ request => some ⟨(draws.stamps 0).id, request.email,
      settings.defaultPassword, draws.hash settings.defaultPassword⟩
  | _ => none

/-- The row is the profile of the credentials. -/
def Credentials.OfRow (k : Credentials) (row : BuStaffProfile) : Prop :=
  row.id = k.profileId ∧ row.email = k.email

/-- The row is the profile of the credentials, and its password is still theirs. -/
def Credentials.Unchanged (k : Credentials) (row : BuStaffProfile) : Prop :=
  k.OfRow row ∧ row.passwordHash = k.passwordHash

/-- The call inserts the profile of the credentials. -/
def Credentials.InsertedBy (k : Credentials) (op : BackendCall) : Prop :=
  ∃ row, k.Unchanged row ∧
    (op = .add (.profile row) ∨ ∃ rows, op = .commit rows ∧ .profile row ∈ rows)

/-- The call does not change the password of this profile. -/
def LeavesPassword (id : Uuid) : BackendCall → Prop
  | .profileSavePasswordHash id' _ => id' ≠ id
  | _ => True

instance (id : Uuid) : DecidablePred (LeavesPassword id) := fun op => by
  unfold LeavesPassword
  split <;> infer_instance

/-- The step does not change the password of this profile. -/
def KeepsPassword (id : Uuid) (p : BackendPool) (l : BackendLabel) : Prop :=
  p.Makes (LeavesPassword id) l

instance (id : Uuid) (p : BackendPool) (l : BackendLabel) : Decidable (KeepsPassword id p l) := by
  unfold KeepsPassword
  infer_instance

/-- The requests that hand out credentials succeed only after their profile has been
inserted. -/
theorem awaits_program {settings : Settings} {r : BackendRequest} {k : Credentials}
    (hr : credentials settings r = some k) : (r.program settings).Awaits k.InsertedBy := by
  have added : ∀ {person : Person} {bu : BusinessUnit} {row : BuStaffProfile}, k.Unchanged row →
      (StaffService.addProfile person bu row).Awaits k.InsertedBy := fun hrow =>
    Program.Awaits.bind (Program.awaits_perform ⟨_, hrow, Or.inl rfl⟩) _
  cases r with
  | onboard draws request =>
    cases hr
    refine Program.Awaits.bind ?_ _
    refine Program.Awaits.of_bind fun _ => Program.Awaits.of_bind fun _ =>
      Program.Awaits.of_bind fun _ => Program.Awaits.of_bind fun _ =>
      Program.Awaits.of_bind fun _ => Program.Awaits.of_bind fun _ => ?_
    refine Program.Awaits.bind (Program.awaits_perform ⟨(onboardRows draws request).2.2.2,
      ⟨⟨rfl, rfl⟩, rfl⟩, Or.inr ⟨_, rfl, ?_⟩⟩) _
    simp [onboardRows]
  | createStaff draws company request =>
    cases hr
    refine Program.Awaits.bind (Program.Awaits.of_bind fun bu => ?_) _
    cases bu with
    | none => trivial
    | some bu =>
      dsimp only
      cases assignableRole request.role with
      | none => trivial
      | some role => exact Program.Awaits.of_bind fun _ => added ⟨⟨rfl, rfl⟩, rfl⟩
  | enrollExisting draws company request =>
    cases hr
    refine Program.Awaits.bind (Program.Awaits.of_bind fun bu => ?_) _
    cases bu with
    | none => trivial
    | some bu =>
      refine Program.Awaits.of_bind fun person => ?_
      cases person with
      | none => trivial
      | some person =>
        refine Program.Awaits.of_bind fun existing => ?_
        cases existing with
        | some row => trivial
        | none =>
          dsimp only
          cases assignableRole request.role with
          | none => trivial
          | some role => exact added ⟨⟨rfl, rfl⟩, rfl⟩
  | _ => cases hr

/-- An insert that succeeds has stored the profile. -/
theorem Credentials.InsertedBy.stored {k : Credentials} {op : BackendCall} (hop : k.InsertedBy op)
    {t : Turn BackendChoice Exn} {s : World} {a : op.Reply}
    (h : (backendMachine.answer op t s).1 = .ok a) :
    ∃ row ∈ (backendMachine.answer op t s).2.main.profiles, k.Unchanged row := by
  obtain ⟨row, hrow, rfl | ⟨rows, rfl, hmem⟩⟩ := hop
  · obtain ⟨d, hd, hstate⟩ := answer_add_ok h
    refine ⟨row, ?_, hrow⟩
    rw [hstate]
    dsimp only
    rw [insert_profiles hd]
    exact List.mem_append_right _ (List.mem_singleton_self _)
  · obtain ⟨d, hd, hstate⟩ := answer_commit_ok h
    refine ⟨row, ?_, hrow⟩
    rw [hstate]
    dsimp only
    rw [insertAll_profiles hd]
    exact List.mem_append_right _ (List.mem_filterMap.mpr ⟨_, hmem, rfl⟩)

/-- Whatever a call is answered, a profile stays with its e-mail address, and with
its password unless the call changes that. -/
theorem answer_keeps_profile (op : BackendCall) (t : Turn BackendChoice Exn) {s : World}
    {row : BuStaffProfile} (hmem : row ∈ s.main.profiles) :
    ∃ v ∈ (backendMachine.answer op t s).2.main.profiles, v.id = row.id ∧ v.email = row.email ∧
      (LeavesPassword row.id op → v.passwordHash = row.passwordHash) := by
  have same : ∀ {s' : World}, row ∈ s'.main.profiles → ∃ v ∈ s'.main.profiles,
      v.id = row.id ∧ v.email = row.email ∧
        (LeavesPassword row.id op → v.passwordHash = row.passwordHash) :=
    fun h => ⟨row, h, rfl, rfl, fun _ => rfl⟩
  have stored : ∀ r : Except DbError MainDb, (∀ d, r = .ok d → row ∈ d.profiles) →
      row ∈ (storeMain s r).2.main.profiles := by
    intro r hr
    cases r with
    | ok d => exact hr d rfl
    | error e => exact hmem
  by_cases hquery : op.Queries
  · rw [query_state hquery]
    exact same hmem
  obtain he | ⟨c, he⟩ := backendMachine.answer_state op t s
  · rw [he]
    exact same hmem
  · rw [he]
    cases op with
    | add row' =>
      refine same (stored _ fun d hd => ?_)
      rw [insert_profiles hd]
      exact List.mem_append_left _ hmem
    | commit rows =>
      refine same (stored _ fun d hd => ?_)
      rw [insertAll_profiles hd]
      exact List.mem_append_left _ hmem
    | profileSaveRole id role =>
      refine ⟨_, List.mem_map_of_mem hmem, ?_⟩
      split <;> exact ⟨rfl, rfl, fun _ => rfl⟩
    | profileSavePasswordHash id passwordHash =>
      refine ⟨_, List.mem_map_of_mem hmem, ?_⟩
      split
      · rename_i hid
        exact ⟨rfl, rfl, fun h => absurd hid.symm h⟩
      · exact ⟨rfl, rfl, fun _ => rfl⟩
    | chat rpc => exact same hmem
    | _ => exact absurd trivial hquery

/-- The profile of the credentials of an accepted request is stored in every later
state. -/
theorem exists_profile {settings : Settings} {s : World} {ls : List BackendLabel} {p : BackendPool}
    {i : ℕ} {r : BackendRequest} {response : BackendResponse} {k : Credentials}
    (hrun : run (BackendPool.step settings) (BackendPool.initial s) ls = some p)
    (hi : p.threads[i]? = some ⟨r, .ret (.ok response)⟩) (hk : credentials settings r = some k) :
    ∃ row ∈ p.state.main.profiles, k.OfRow row := by
  refine Pool.run_awaits (C := fun r => credentials settings r = some k) (R := k.InsertedBy)
    (A := fun _ => True) (D := fun s => ∃ row ∈ s.main.profiles, k.OfRow row)
    (fun _ hr => awaits_program hr) (fun _ _ _ _ hop h => ?_) (fun op t _ _ hs => ?_)
    ?_ hrun hi hk
  · obtain ⟨row, hmem, hrow⟩ := hop.stored h
    exact ⟨row, hmem, hrow.1⟩
  · obtain ⟨row, hmem, hid, hemail⟩ := hs
    obtain ⟨v, hv, hvid, hvemail, -⟩ := answer_keeps_profile op t hmem
    exact ⟨v, hv, hvid.trans hid, hvemail.trans hemail⟩
  · exact eachStep_of_forall Pool.makes_true _ _

/-- In a run without a change of its password the profile still has the password of
the credentials. -/
theorem exists_unchanged {settings : Settings} {s : World} {ls : List BackendLabel}
    {p : BackendPool}
    {i : ℕ} {r : BackendRequest} {response : BackendResponse} {k : Credentials}
    (hrun : run (BackendPool.step settings) (BackendPool.initial s) ls = some p)
    (hi : p.threads[i]? = some ⟨r, .ret (.ok response)⟩) (hk : credentials settings r = some k)
    (hkeeps : EachStep (BackendPool.step settings) (KeepsPassword k.profileId)
      (BackendPool.initial s) ls) :
    ∃ row ∈ p.state.main.profiles, k.Unchanged row := by
  refine Pool.run_awaits (C := fun r => credentials settings r = some k) (R := k.InsertedBy)
    (D := fun s => ∃ row ∈ s.main.profiles, k.Unchanged row)
    (fun _ hr => awaits_program hr) (fun _ _ _ _ hop h => hop.stored h)
    (fun op t _ hop hs => ?_) hkeeps hrun hi hk
  obtain ⟨row, hmem, ⟨hid, hemail⟩, hhash⟩ := hs
  obtain ⟨v, hv, hvid, hvemail, hvhash⟩ := answer_keeps_profile op t hmem
  refine ⟨v, hv, ⟨hvid.trans hid, hvemail.trans hemail⟩, (hvhash ?_).trans hhash⟩
  rw [hid]
  exact hop

variable {settings : Settings} {isValidEmail : String → Bool} {s : World} {c : BackendChoice}

/-- The login action refuses the other addresses. -/
theorem loginReply_of_not_takes {request : LoginRequest}
    (h : ¬TakesEmail isValidEmail request.email) :
    loginReply settings isValidEmail s c request = .ok (.badRequest "Valid email required.") := by
  have hbad : isNullOrWhiteSpace (some request.email) = true ∨
      isValidEmail request.email = false := by
    unfold TakesEmail at h
    rwa [not_and_or, Bool.not_eq_false, Bool.not_eq_true] at h
  unfold loginReply AuthController.login
  rw [if_pos hbad]
  rfl

/-- On an address that it takes, the login action answers as the service does. -/
theorem loginReply_of_takes {request : LoginRequest} (h : TakesEmail isValidEmail request.email) :
    loginReply settings isValidEmail s c request =
      (loginOutcome settings s c request.email request.password request.buId).map fun
        | .choices units => .requiresBuSelection units
        | .session response => .ok response := by
  have hgood : ¬(isNullOrWhiteSpace (some request.email) = true ∨
      isValidEmail request.email = false) := by
    rw [h.1, h.2]
    decide
  unfold loginReply AuthController.login loginOutcome
  rw [if_neg hgood]
  have hmap : ∀ q : BackendProgram LoginResult, (q >>= fun
      | .choices units => pure (.requiresBuSelection units)
      | .session response => pure (.ok response) : BackendProgram LoginReply) =
      (fun
        | .choices units => .requiresBuSelection units
        | .session response => .ok response) <$> q := by
    intro q
    rw [Program.map_eq_bind]
    congr 1
    funext result
    cases result <;> rfl
  rw [hmap, Program.run_map]

/-- The answer is the token of exactly this profile. -/
def TokenFor (settings : Settings) (d : MainDb) (row : BuStaffProfile)
    (reply : Except Exn LoginReply) : Prop :=
  ∃ q b, personOf d row = some q ∧ businessUnitOf d row = some b ∧
    reply = .ok (.ok (sessionOf settings (row, q, b)))

/-- With its e-mail address, a password that its hash verifies and its business unit
a profile signs in exactly if the login action takes the address, whatever the
other profiles are. -/
theorem tokenFor_iff {row : BuStaffProfile} {password : String} (hmem : row ∈ s.main.profiles)
    (hverify : settings.verify password row.passwordHash = true) :
    TokenFor settings s.main row
        (loginReply settings isValidEmail s c ⟨row.email, password, some row.buId⟩) ↔
      TakesEmail isValidEmail row.email := by
  constructor
  · rintro ⟨q, b, -, -, hreply⟩
    by_contra hnot
    have hrefused : loginReply settings isValidEmail s c ⟨row.email, password, some row.buId⟩ =
        .ok (.badRequest "Valid email required.") := loginReply_of_not_takes hnot
    cases hrefused.symm.trans hreply
  · intro htakes
    have htwo := login_twoPhase settings s row.email password
    obtain ⟨response, hsession⟩ := (htwo.session c (some row.buId)).mpr
      ⟨⟨row, ⟨hmem, rfl, hverify⟩, fun id hid => Option.some.inj hid⟩,
        fun hundecided => Option.some_ne_none _ hundecided.1⟩
    obtain ⟨v, ⟨⟨hv, hemail, -⟩, q, b, hq, hb, rfl⟩, hmatch⟩ := htwo.sound c _ _ hsession
    -- the unique index leaves one profile for the business unit and the address
    obtain rfl : v = row := s.main.valid.profiles_login.eq hv hmem
      (Prod.ext (hmatch row.buId rfl) hemail)
    refine ⟨q, b, hq, hb, ?_⟩
    rw [loginReply_of_takes htakes, hsession]
    rfl

/-- What becomes of the credentials that an accepted request has handed out, in a
state of any run after that, whatever requests run beside each other and whatever
fails: their profile is stored; it has their password, unless a call of the run
has changed that; and while it has, it signs in with them exactly if the login action
takes its e-mail address. -/
theorem signsIn_iff_takesEmail (settings : Settings) (isValidEmail : String → Bool) {s : World}
    {ls : List BackendLabel} {p : BackendPool} {i : ℕ} {r : BackendRequest}
    {response : BackendResponse}
    {k : Credentials} (hrun : run (BackendPool.step settings) (BackendPool.initial s) ls = some p)
    (hi : p.threads[i]? = some ⟨r, .ret (.ok response)⟩) (hk : credentials settings r = some k)
    (hverify : settings.verify k.password k.passwordHash = true) :
    ∃ row ∈ p.state.main.profiles, k.OfRow row ∧
      (EachStep (BackendPool.step settings) (KeepsPassword k.profileId) (BackendPool.initial s) ls →
        row.passwordHash = k.passwordHash) ∧
      (row.passwordHash = k.passwordHash → ∀ c,
        (TokenFor settings p.state.main row
            (loginReply settings isValidEmail p.state c ⟨k.email, k.password, some row.buId⟩) ↔
          TakesEmail isValidEmail k.email)) := by
  obtain ⟨row, hmem, hid, hemail⟩ := exists_profile hrun hi hk
  refine ⟨row, hmem, ⟨hid, hemail⟩, fun hkeeps => ?_, fun hhash c => ?_⟩
  · obtain ⟨v, hv, ⟨hvid, -⟩, hvhash⟩ := exists_unchanged hrun hi hk hkeeps
    obtain rfl : v = row := p.state.main.valid.profiles_id.eq hv hmem (hvid.trans hid.symm)
    exact hvhash
  · rw [← hemail]
    exact tokenFor_iff hmem (by rw [hhash]; exact hverify)

/-- Addresses with an at sign. -/
def hasAtSign (email : String) : Bool := email.toList.contains '@'

/-- A company onboards, and its owner has this e-mail address. -/
def onboarding (email : String) : BackendRequest :=
  .onboard (Draws.from 100) ⟨"Spa", none, none, "Ann", none, email, "secret"⟩

/-- The onboarding is served to its end. -/
def onboards (email : String) : List BackendLabel :=
  .start (onboarding email) :: List.replicate 7 (.turn 0 (servedWith 10 0))

/-- An owner whose e-mail address has an at sign signs in. -/
theorem signsIn_atSign :
    ∃ p, run (BackendPool.step Settings.plain) (BackendPool.initial World.seeded)
        (onboards "ann@spa.test") = some p ∧
      ∃ row ∈ p.state.main.profiles, row.id = 103 ∧
        ∀ c, TokenFor Settings.plain p.state.main row (loginReply Settings.plain hasAtSign p.state c
          ⟨"ann@spa.test", "secret", some row.buId⟩) := by
  have hserved : (run (BackendPool.step Settings.plain) (BackendPool.initial World.seeded)
      (onboards "ann@spa.test")).map (fun p => p.threads[0]?) = some (some
        ⟨onboarding "ann@spa.test", .ret (.ok (.onboarded ⟨100, 101, 102⟩))⟩) := rfl
  obtain ⟨p, hp, hi⟩ := Option.map_eq_some_iff.mp hserved
  obtain ⟨row, hmem, hrow, hhash, htoken⟩ :=
    signsIn_iff_takesEmail Settings.plain hasAtSign hp hi rfl (by decide)
  exact ⟨p, hp, row, hmem, hrow.1, fun c => (htoken (hhash (by decide)) c).mpr (by decide)⟩

/-- An owner without one has onboarded and cannot sign in. -/
theorem signsIn_not_always :
    ¬∀ (settings : Settings) (isValidEmail : String → Bool) (ls : List BackendLabel)
      (p : BackendPool)
        (i : ℕ) (r : BackendRequest) (response : BackendResponse) (k : Credentials),
      run (BackendPool.step settings) (BackendPool.initial World.seeded) ls = some p →
      p.threads[i]? = some ⟨r, .ret (.ok response)⟩ → credentials settings r = some k →
      settings.verify k.password k.passwordHash = true →
      ∃ row ∈ p.state.main.profiles, k.OfRow row ∧ (row.passwordHash = k.passwordHash → ∀ c,
        TokenFor settings p.state.main row
          (loginReply settings isValidEmail p.state c ⟨k.email, k.password, some row.buId⟩)) := by
  intro h
  have hserved : (run (BackendPool.step Settings.plain) (BackendPool.initial World.seeded)
      (onboards "ann")).map (fun p => p.threads[0]?) = some (some
        ⟨onboarding "ann", .ret (.ok (.onboarded ⟨100, 101, 102⟩))⟩) := rfl
  obtain ⟨p, hp, hi⟩ := Option.map_eq_some_iff.mp hserved
  obtain ⟨v, hv, ⟨hvid, hemail⟩, hhash⟩ := exists_unchanged hp hi rfl (by decide)
  obtain ⟨row, hmem, ⟨hid, -⟩, htoken⟩ :=
    h Settings.plain hasAtSign _ p 0 _ _ ⟨103, "ann", "secret", "secret"⟩ hp hi rfl (by decide)
  obtain rfl : v = row := p.state.main.valid.profiles_id.eq hv hmem (hvid.trans hid.symm)
  have htakes := htoken hhash
    ⟨fun _ => 0, ⟨fun _ => ⟨1, 0⟩, 0, fun _ => .serve (Choice.generating 10 0)⟩⟩
  rw [← hemail] at htakes
  have hverify : Settings.plain.verify "secret" v.passwordHash = true := by
    rw [hhash]
    decide
  have hbad := (tokenFor_iff hmem hverify).mp htakes
  rw [hemail] at hbad
  exact absurd hbad (by decide)

end AuraWellness.Backend.SignIn
