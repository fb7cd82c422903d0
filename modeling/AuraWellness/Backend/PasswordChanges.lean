import AuraWellness.Backend.Tokens
import AuraWellness.Backend.ChatPermissions

/-!
# Password changes

A request to change a password looks the caller's profile up, checks the current
password and saves the hash of the new one. Nothing else changes a password, so
whoever does has a token for the profile's person and unit and has shown a password
of the profile. From the turn that answers such a request the profile signs in with
the new password, and with no other, until the next save.
-/

namespace AuraWellness.Backend.PasswordChanges

open AuraWellness.Lib.Calls AuraWellness.Lib.Transition AuraWellness.Lib.Keyed
open AuraWellness.Lib.Ranked (mem_sortOn)
open AuraWellness.Chat.Entities
open AuraWellness.Backend.Entities AuraWellness.Backend.Schema AuraWellness.Backend.Repositories
open AuraWellness.Backend.Services AuraWellness.Backend.Runs AuraWellness.Backend.Tenants
open AuraWellness.Backend.ChatPermissions (insertAll_keepsRows)
open AuraWellness.Backend.TwoPhaseLogin AuraWellness.Backend.SignIn
open AuraWellness.Backend.Controllers AuraWellness.Backend.Tokens

/-- Whatever a call is answered, rows stay. -/
theorem answer_keepsRows (op : BackendCall) (t : Turn BackendChoice Exn) (s : World) :
    KeepsRows s.main (backendMachine.answer op t s).2.main := by
  have rewritten : ∀ (f : BuStaffProfile → BuStaffProfile) (hf : ∀ p, (f p).id = p.id ∧
      (f p).personId = p.personId ∧ loginKey (f p) = loginKey p),
      KeepsRows s.main (s.main.updateProfiles f hf) := fun f hf =>
    ⟨fun _ hb => hb, fun _ hq => hq, fun p hp =>
      ⟨f p, List.mem_map_of_mem hp, (hf p).1, (hf p).2.1, (Prod.mk.inj (hf p).2.2).1⟩⟩
  have stored : ∀ r : Except DbError MainDb, (∀ d, r = .ok d → KeepsRows s.main d) →
      KeepsRows s.main (storeMain s r).2.main := by
    intro r hr
    cases r with
    | ok d => exact hr d rfl
    | error e => exact KeepsRows.refl s.main
  by_cases hquery : op.Queries
  · rw [query_state hquery]
    exact KeepsRows.refl s.main
  obtain h | ⟨c, h⟩ := backendMachine.answer_state op t s
  · rw [h]
    exact KeepsRows.refl s.main
  · rw [h]
    cases op with
    | add row => exact stored _ fun d hd => insert_keepsRows hd
    | commit rows => exact stored _ fun d hd => insertAll_keepsRows hd
    | profileSaveRole id role => exact rewritten _ (setRole_fields id role)
    | profileSavePasswordHash id hash => exact rewritten _ (setPasswordHash_fields id hash)
    | chat rpc => exact KeepsRows.refl s.main
    | _ => exact absurd trivial hquery

/-- Whatever a call is answered, a profile stays with its person, its unit and its
address, and with its password unless the call saves another. -/
theorem answer_profile (op : BackendCall) (t : Turn BackendChoice Exn) {s : World}
    {row : BuStaffProfile} (hmem : row ∈ s.main.profiles) :
    ∃ v ∈ (backendMachine.answer op t s).2.main.profiles, v.id = row.id ∧
      v.personId = row.personId ∧ loginKey v = loginKey row ∧
      (LeavesPassword row.id op → v.passwordHash = row.passwordHash) := by
  obtain ⟨v, hv, hid, hemail, hhash⟩ := answer_keeps_profile op t hmem
  obtain ⟨v', hv', hid', hperson, hbu⟩ := (answer_keepsRows op t s).profiles row hmem
  obtain rfl : v' = v :=
    (backendMachine.answer op t s).2.main.valid.profiles_id.eq hv' hv (hid'.trans hid.symm)
  exact ⟨v', hv', hid, hperson, Prod.ext hbu hemail, hhash⟩

/-- What the action makes of the answer to its save. -/
def saved (result : Except Exn Unit) : Except Exn ApiReply :=
  ExceptionMiddleware.invoke (result.map fun _ => .noContent)

/-- What is left of a change once the current password is shown. -/
def saving (draws : Draws) (new : String) (id : Uuid) : BackendProgram ApiReply :=
  .call (.profileSavePasswordHash id (draws.hash new)) fun result => .ret (saved result)

/-- What a change makes of the answer to its lookup. -/
def afterLookup (settings : Settings) (draws : Draws) (current new : String) :
    Except Exn (Option (BuStaffProfile × Person)) → BackendProgram ApiReply
  | .error e => .ret (ExceptionMiddleware.invoke (.error e))
  | .ok none => .ret (.ok (.error 401 "Profile not found."))
  | .ok (some (profile, _)) =>
    if settings.verify current profile.passwordHash = false then
      .ret (.ok (.error 400 "Current password is incorrect."))
    else if draws.hash new = profile.passwordHash then .ret (.ok .noContent)
    else saving draws new profile.id

/-- A change is the service's, with a handler around it. -/
theorem changePassword_eq {api : Api} {now : Time} {token : String} {user : User}
    (huser : api.validate now token = some user) (draws : Draws) (current new : String) :
    (ApiRequest.bearer now token (.changePassword draws current new)).program api =
      (AuthService.changePassword api.settings draws user.personId user.buId current
        new).mapResult saved := by
  rw [ApiRequest.program_user huser]
  refine (serve_mapResult api.settings _ _).trans ?_
  change (Functor.map _ _ : BackendProgram BackendResponse).mapResult _ = _
  rw [Program.map_eq_mapResult, Program.mapResult_mapResult]
  congr 1
  funext result
  cases result <;> rfl

/-- A change is a lookup and what follows from it. -/
theorem changePassword_program {api : Api} {now : Time} {token : String} {user : User}
    (huser : api.validate now token = some user) (draws : Draws) (current new : String) :
    (ApiRequest.bearer now token (.changePassword draws current new)).program api =
      .call (.profileGetByPersonAndBu user.personId user.buId)
        (afterLookup api.settings draws current new) := by
  rw [changePassword_eq huser]
  refine congrArg (Program.call _) (funext fun r => ?_)
  cases r with
  | error e => rfl
  | ok found =>
    cases found with
    | none => rfl
    | some row =>
      unfold afterLookup
      change Program.mapResult saved (if api.settings.verify current row.1.passwordHash = false
        then invalid "Current password is incorrect."
        else if draws.hash new = row.1.passwordHash then pure ()
        else call (.profileSavePasswordHash row.1.id (draws.hash new))) = _
      dsimp only
      split
      · rfl
      · split <;> rfl

/-- The profile is stored for the person and the unit of the caller. -/
def Held (d : MainTables) (user : User) (id : Uuid) : Prop :=
  ∃ row ∈ d.profiles, row.id = id ∧ row.personId = user.personId ∧ row.buId = user.buId

/-- In some state of the run the password was that of the profile. -/
def ShownBefore (api : Api) (s : World) (ls : List SiteLabel) (current : String) (id : Uuid) :
    Prop :=
  ∃ before p, before <+: ls ∧ run (Site.step api) (Site.initial s) before = some p ∧
    ∃ row ∈ p.state.main.profiles, row.id = id ∧
      api.settings.verify current row.passwordHash = true

/-- The step is the turn of a request to change a password: its token is for the person
and the unit of the profile, its new password is the one of the profile afterwards, and
its current one was that of the profile in some state of the run. -/
def ByHolder (api : Api) (s : World) (ls : List SiteLabel) (p : Site) (l : SiteLabel)
    (row row' : BuStaffProfile) : Prop :=
  ∃ i t now token draws current new user, l = .turn i t ∧
    (p.threads[i]?).map Thread.req =
      some (.bearer now token (.changePassword draws current new)) ∧
    api.validate now token = some user ∧ row.personId = user.personId ∧
    row.buId = user.buId ∧ row'.passwordHash = draws.hash new ∧
    ShownBefore api s ls current row.id

/-- What the logins with the address and the unit of a profile are answered: if the login
takes the address, its token for a password of the hash and a refusal for the others. A
profile can be enrolled with an address that the login does not take; then no password
opens it. -/
def OpensWith (api : Api) (s : World) (row : BuStaffProfile) (passwordHash : String) : Prop :=
  ∀ c password,
    if TakesEmail api.isValidEmail row.email then
      if api.settings.verify password passwordHash = true then
        TokenFor api.settings s.main row (loginReply api.settings api.isValidEmail s c
          ⟨row.email, password, some row.buId⟩)
      else loginReply api.settings api.isValidEmail s c ⟨row.email, password, some row.buId⟩ =
        .error invalidCredentials
    else loginReply api.settings api.isValidEmail s c ⟨row.email, password, some row.buId⟩ =
      .ok (.badRequest "Valid email required.")

/-- Where a request to change a password stands: before its lookup, at its save, or at
its end. -/
def Stage (api : Api) (s : World) (ls : List SiteLabel) (d : MainTables) (r : ApiRequest)
    (q : BackendProgram ApiReply) : Prop :=
  ∀ now token draws current new user, r = .bearer now token (.changePassword draws current new) →
    api.validate now token = some user →
      q = r.program api ∨
      (∃ id, Held d user id ∧ ShownBefore api s ls current id ∧ q = saving draws new id) ∨
      ∃ reply, q = .ret reply

/-- A held profile stays. -/
theorem Held.extend {d d' : MainDb} {user : User} {id : Uuid} (h : Held d.toMainTables user id)
    (hkeeps : KeepsRows d d') : Held d'.toMainTables user id := by
  obtain ⟨row, hrow, hid, hperson, hbu⟩ := h
  obtain ⟨v, hv, hvid, hvperson, hvbu⟩ := hkeeps.profiles row hrow
  exact ⟨v, hv, hvid.trans hid, hvperson.trans hperson, hvbu.trans hbu⟩

/-- A request keeps its stage when others run. -/
theorem Stage.later {api : Api} {s : World} {ls : List SiteLabel} {l : SiteLabel} {d d' : MainDb}
    {r : ApiRequest} {q : BackendProgram ApiReply} (h : Stage api s ls d.toMainTables r q)
    (hkeeps : KeepsRows d d') : Stage api s (ls ++ [l]) d'.toMainTables r q := by
  intro now token draws current new user hr huser
  obtain hstart | ⟨id, hheld, ⟨before, p, hbefore, hp⟩, hsave⟩ | hend :=
    h now token draws current new user hr huser
  · exact Or.inl hstart
  · exact Or.inr (Or.inl ⟨id, hheld.extend hkeeps,
      ⟨before, p, hbefore.trans (List.prefix_append ls [l]), hp⟩, hsave⟩)
  · exact Or.inr (Or.inr hend)

/-- A profile that the lookup of a caller returns is held. -/
theorem held_of_lookup {person bu : Uuid} {t : Turn BackendChoice Exn} {s : World}
    {profile : BuStaffProfile} {owner : Person}
    (h : (backendMachine.answer (.profileGetByPersonAndBu person bu) t s).1 =
      .ok (some (profile, owner))) :
    profile ∈ s.main.profiles ∧ profile.personId = person ∧ profile.buId = bu := by
  obtain ⟨c, -, ha⟩ := Machine.answer_ok h
  rw [ha] at h
  have hlookup : BuStaffProfileRepository.getByPersonAndBu s.main c.tie person bu =
      some (profile, owner) := Except.ok.inj h
  unfold BuStaffProfileRepository.getByPersonAndBu withPerson at hlookup
  obtain ⟨p, hp, hq⟩ := Option.bind_eq_some_iff.mp hlookup
  obtain ⟨q, -, he⟩ := Option.map_eq_some_iff.mp hq
  cases he
  have hmem := List.mem_filter.mp (mem_sortOn.mp (List.mem_of_mem_head? hp))
  obtain ⟨hperson, hbu⟩ := of_decide_eq_true hmem.2
  exact ⟨hmem.1, hperson, hbu⟩

/-- What follows the lookup of a change: its end, or its save for a held profile whose
password has just been shown. -/
theorem afterLookup_cases (settings : Settings) {draws : Draws} {current new : String}
    {user : User} (t : Turn BackendChoice Exn) (s : World) :
    (∃ reply, afterLookup settings draws current new
        (backendMachine.answer (.profileGetByPersonAndBu user.personId user.buId) t s).1 =
          .ret reply ∧
      (reply = .ok .noContent → ∃ row ∈ s.main.profiles, row.personId = user.personId ∧
        row.buId = user.buId ∧ row.passwordHash = draws.hash new)) ∨
    ∃ profile ∈ s.main.profiles, profile.personId = user.personId ∧ profile.buId = user.buId ∧
      settings.verify current profile.passwordHash = true ∧
      afterLookup settings draws current new
        (backendMachine.answer (.profileGetByPersonAndBu user.personId user.buId) t s).1 =
          saving draws new profile.id := by
  cases hlookup : (backendMachine.answer
      (.profileGetByPersonAndBu user.personId user.buId) t s).1 with
  | error e => exact Or.inl ⟨_, rfl, fun h => by cases e <;> cases h⟩
  | ok found =>
    cases found with
    | none => exact Or.inl ⟨_, rfl, fun h => by cases h⟩
    | some row =>
      obtain ⟨profile, owner⟩ := row
      obtain ⟨hmem, hperson, hbu⟩ := held_of_lookup hlookup
      unfold afterLookup
      dsimp only
      split
      · exact Or.inl ⟨_, rfl, fun h => by cases h⟩
      · rename_i hright
        split
        · rename_i hsame
          exact Or.inl ⟨_, rfl, fun _ => ⟨profile, hmem, hperson, hbu, hsame.symm⟩⟩
        · exact Or.inr ⟨profile, hmem, hperson, hbu, by simpa using hright, rfl⟩

/-- Every step of a run moves the requests from stage to stage. -/
theorem staged_step {api : Api} {s : World} {ls : List SiteLabel} {l : SiteLabel} {p p' : Site}
    (hrun : run (Site.step api) (Site.initial s) ls = some p)
    (hp : p.Each fun _ r st q => Stage api s ls st.main.toMainTables r q)
    (h : Pool.step backendMachine (ApiRequest.program api) p l = some p') :
    p'.Each fun _ r st q => Stage api s (ls ++ [l]) st.main.toMainTables r q := by
  intro j th hj
  cases l with
  | start r =>
    cases h
    obtain ⟨-, rfl⟩ | hj := getElem?_concat_cases hj
    · exact fun now token draws current new user hr huser => Or.inl rfl
    · exact (hp j th hj).later (KeepsRows.refl _)
  | crash i e =>
    obtain ⟨r, op, next, hi, rfl⟩ := Pool.step_crash h
    obtain ⟨-, rfl⟩ | ⟨-, hj⟩ := getElem?_set_cases hj
    · exact fun now token draws current new user hr huser => Or.inr (Or.inr ⟨_, rfl⟩)
    · exact (hp j th hj).later (KeepsRows.refl _)
  | turn i t =>
    obtain ⟨r, op, next, hi, -, rfl⟩ := Pool.step_turn h
    have hkeeps := answer_keepsRows op t p.state
    obtain ⟨-, rfl⟩ | ⟨-, hj⟩ := getElem?_set_cases hj
    · intro now token draws current new user hr huser
      obtain hstart | ⟨id, -, -, hsave⟩ | ⟨reply, hend⟩ :=
        hp i _ hi now token draws current new user hr huser
      · dsimp only at hr hstart
        rw [hr, changePassword_program huser] at hstart
        cases hstart
        obtain ⟨reply, hreply, -⟩ | ⟨profile, hmem, hperson, hbu, hshown, hsave⟩ :=
          afterLookup_cases api.settings t p.state
        · exact Or.inr (Or.inr ⟨reply, hreply⟩)
        · refine Or.inr (Or.inl ⟨profile.id, Held.extend ⟨profile, hmem, rfl, hperson, hbu⟩ hkeeps,
            ⟨ls, p, List.prefix_append ls _, hrun, profile, hmem, rfl, hshown⟩, hsave⟩)
      · cases hsave
        exact Or.inr (Or.inr ⟨_, rfl⟩)
      · cases hend
    · exact (hp j th hj).later hkeeps

/-- In every run the requests that change passwords stand at one of their stages. -/
theorem staged {api : Api} {s : World} {ls : List SiteLabel} {p : Site}
    (hrun : run (Site.step api) (Site.initial s) ls = some p) :
    p.Each fun _ r st q => Stage api s ls st.main.toMainTables r q := by
  refine run_history (I := fun ls p => p.Each fun _ r st q =>
    Stage api s ls st.main.toMainTables r q) (fun i th hi => by cases hi) ?_ hrun
  exact fun ls p l p' hrun hp h => staged_step hrun hp (Site.step_iff.mp h).2

/-- Only requests to change a password make saves of one. -/
theorem serves_savePassword {api : Api} {r : ApiRequest} {id : Uuid} {passwordHash : String}
    (h : ApiIssues api r (.profileSavePasswordHash id passwordHash)) :
    ∃ now token draws current new user, r = .bearer now token (.changePassword draws current new) ∧
      api.validate now token = some user := by
  obtain hquery | ⟨q, hserves, hissues⟩ := h
  · exact hquery.elim
  · obtain ⟨draws, person, bu, current, new, rfl⟩ : ∃ draws person bu current new,
        q = .changePassword draws person bu current new := by
      cases hissues with
      | query hquery => exact hquery.elim
      | savePassword => exact ⟨_, _, _, _, _, rfl⟩
    cases r with
    | login request => cases hserves
    | onboard draws' request => cases hserves
    | bearer now token action =>
      obtain ⟨user, huser, haction⟩ := Option.bind_eq_some_iff.mp hserves
      split at haction
      · cases action <;> cases haction
        exact ⟨now, token, draws, current, new, user, rfl, huser⟩
      · cases haction

/-- In every run the requests make their own calls only. -/
theorem issues {api : Api} {s : World} {ls : List SiteLabel} {p : Site}
    (hrun : run (Site.step api) (Site.initial s) ls = some p) :
    p.Each fun _ r _ q => q.AllOps (ApiIssues api r) := by
  refine run_invariant (I := fun p => p.Each fun _ r _ q => q.AllOps (ApiIssues api r))
    (fun p l p' hp h => ?_) (fun i th hi => by cases hi) hrun
  exact Pool.step_allOps (apiProgram_issues api) hp (Site.step_iff.mp h).2

/-- Only its holder changes the password of a profile, in any run, whatever requests run
beside each other and whatever fails. -/
theorem password_changed_byHolder (api : Api) {s : World} {ls : List SiteLabel} {p p' : Site}
    {l : SiteLabel} (hrun : run (Site.step api) (Site.initial s) ls = some p)
    (hstep : Site.step api p l = some p') {row row' : BuStaffProfile}
    (hrow : row ∈ p.state.main.profiles) (hrow' : row' ∈ p'.state.main.profiles)
    (hid : row'.id = row.id) (hchanged : row'.passwordHash ≠ row.passwordHash) :
    ByHolder api s ls p l row row' := by
  obtain ⟨-, hpool⟩ := Site.step_iff.mp hstep
  obtain ⟨hsame, -⟩ | ⟨i, t, r, op, next, rfl, hi, hstate⟩ := Pool.step_state hpool
  · rw [hsame] at hrow'
    obtain rfl := p.state.main.valid.profiles_id.eq hrow' hrow hid
    exact absurd rfl hchanged
  rw [hstate] at hrow'
  obtain ⟨v, hv, hvid, -, -, hvhash⟩ := answer_profile op t hrow
  obtain rfl : row' = v :=
    (backendMachine.answer op t p.state).2.main.valid.profiles_id.eq hrow' hv
      (hid.trans hvid.symm)
  -- the call is a save for this profile
  have hsaves : ¬LeavesPassword row.id op := fun h => hchanged (hvhash h)
  cases op with
  | profileSavePasswordHash id passwordHash =>
    obtain rfl : id = row.id := by
      by_contra hne
      exact hsaves hne
    obtain ⟨now, token, draws, current, new, user, rfl, huser⟩ :=
      serves_savePassword (issues hrun i _ hi).1
    obtain hstart | ⟨id, ⟨x, hx, hxid, hperson, hbu⟩, hshown, hsave⟩ | ⟨reply, hend⟩ :=
      staged hrun i _ hi now token draws current new user rfl huser
    · cases hstart.trans (changePassword_program huser draws current new)
    · cases hsave
      obtain rfl := p.state.main.valid.profiles_id.eq hx hrow hxid
      refine ⟨i, t, now, token, draws, current, new, user, rfl, by rw [hi]; rfl, huser, hperson,
        hbu, ?_, hshown⟩
      obtain he | ⟨c, he⟩ := backendMachine.answer_state
        (.profileSavePasswordHash x.id (draws.hash new)) t p.state
      · rw [he] at hrow'
        obtain rfl := p.state.main.valid.profiles_id.eq hrow' hrow hid
        exact absurd rfl hchanged
      · rw [he] at hrow'
        obtain ⟨y, hy, rfl⟩ := List.mem_map.mp hrow'
        split
        · rfl
        · rename_i hne
          rw [if_neg hne] at hid
          exact absurd hid hne
    · cases hend
  | _ => exact absurd trivial hsaves

/-- The seeded configuration, with hashes that are the passwords but for the seeded one. -/
def Api.demoHashes : Api where
  settings := { Api.demo.settings with
    verify := fun password hash => password = hash || password = "P@ssw0rd" &&
      hash = "$2b$11$qxivdApojomdiQv8sthJDOsUS0GcQigEDmhF1ObImcOozUX14LeGq" }
  isValidEmail := Api.demo.isValidEmail
  validate := Api.demo.validate
  validate_claims := Api.demo.validate_claims

/-- The seeded Owner signs in and asks for a new password; the lookup is served. -/
def ownerChanges : List SiteLabel :=
  [.start (.login ⟨"Welcome@example.com", "P@ssw0rd", none⟩), .turn 0 (servedWith 1 0),
    .start (.bearer 0 "owner" (.changePassword (Draws.from 1) "P@ssw0rd" "secret")),
    .turn 1 (servedWith 1 0)]

/-- The profile of the seeded Owner, with a hash. -/
def seedProfile (passwordHash : String) : BuStaffProfile :=
  ⟨0x40000000000000000000000000000001, 0x30000000000000000000000000000001,
    0x20000000000000000000000000000001, "Welcome@example.com", passwordHash, StaffRole.owner,
    1772223433000000⟩

theorem password_changed_byHolder_seed :
    ∃ p p', run (Site.step Api.demoHashes) (Site.initial World.seeded) ownerChanges = some p ∧
      Site.step Api.demoHashes p (.turn 1 (servedWith 1 0)) = some p' ∧
      ∀ row ∈ p.state.main.profiles, ∀ row' ∈ p'.state.main.profiles, row'.id = row.id →
        row'.passwordHash ≠ row.passwordHash ∧ ByHolder Api.demoHashes World.seeded ownerChanges p
          (.turn 1 (servedWith 1 0)) row row' := by
  have hseen : ((run (Site.step Api.demoHashes) (Site.initial World.seeded) ownerChanges).bind
      fun p => (Site.step Api.demoHashes p (.turn 1 (servedWith 1 0))).map fun p' =>
        (p.state.main.profiles, p'.state.main.profiles)) =
      some ([seedProfile "$2b$11$qxivdApojomdiQv8sthJDOsUS0GcQigEDmhF1ObImcOozUX14LeGq"],
        [seedProfile "secret"]) := by decide +kernel
  obtain ⟨p, hp, hseen⟩ := Option.bind_eq_some_iff.mp hseen
  obtain ⟨p', hp', hseen⟩ := Option.map_eq_some_iff.mp hseen
  obtain ⟨hrows, hrows'⟩ := Prod.mk.inj hseen
  refine ⟨p, p', hp, hp', fun row hrow row' hrow' hid => ?_⟩
  have hne : row'.passwordHash ≠ row.passwordHash := by
    rw [hrows] at hrow
    rw [hrows'] at hrow'
    rw [List.mem_singleton.mp hrow, List.mem_singleton.mp hrow']
    decide
  exact ⟨hne, password_changed_byHolder Api.demoHashes hp hp' hrow hrow' hid hne⟩

/-- When a change has just been answered, the caller's profile has the new password. -/
theorem changed_atEnd {api : Api} {s : World} {ls : List SiteLabel} {p p' : Site} {i : ℕ}
    {t : Turn BackendChoice Exn} {now : Time} {token current new : String} {draws : Draws}
    {user : User} (huser : api.validate now token = some user)
    (hrun : run (Site.step api) (Site.initial s) ls = some p)
    (hstep : Site.step api p (.turn i t) = some p')
    (hdone : p'.threads[i]? =
      some ⟨.bearer now token (.changePassword draws current new), .ret (.ok .noContent)⟩) :
    ∃ row ∈ p'.state.main.profiles, row.personId = user.personId ∧ row.buId = user.buId ∧
      row.passwordHash = draws.hash new := by
  obtain ⟨r, op, next, hi, -, rfl⟩ := Pool.step_turn (Site.step_iff.mp hstep).2
  obtain ⟨-, he⟩ | ⟨hne, -⟩ := getElem?_set_cases hdone
  swap
  · exact absurd rfl hne
  obtain ⟨hr, hnext⟩ := Thread.mk.inj he
  subst hr
  obtain hstart | ⟨id, ⟨x, hx, hxid, hperson, hbu⟩, -, hsave⟩ | ⟨reply, hend⟩ :=
    staged hrun i _ hi now token draws current new user rfl huser
  · -- the lookup has found the new hash already
    dsimp only at hstart
    rw [changePassword_program huser] at hstart
    cases hstart
    obtain ⟨reply, hreply, hrow⟩ | ⟨profile, -, -, -, -, hsave⟩ :=
      afterLookup_cases api.settings t p.state
    · cases hreply.symm.trans hnext.symm
      have hquery : BackendCall.Queries (.profileGetByPersonAndBu user.personId user.buId) :=
        trivial
      rw [query_state hquery]
      exact hrow rfl
    · cases hsave.symm.trans hnext.symm
  · cases hsave
    dsimp only at hnext
    cases hresult : (backendMachine.answer (.profileSavePasswordHash id (draws.hash new)) t
        p.state).1 with
    | error e =>
      rw [hresult] at hnext
      cases e <;> cases hnext
    | ok u =>
      obtain ⟨c, -, ha⟩ := Machine.answer_ok hresult
      dsimp only
      rw [ha]
      refine ⟨_, List.mem_map_of_mem hx, ?_⟩
      rw [if_pos hxid]
      exact ⟨hperson, hbu, rfl⟩
  · cases hend

/-- The step saves no password for this profile. -/
def SavesNoPassword (id : Uuid) (p : Site) (l : SiteLabel) : Prop :=
  p.Makes (LeavesPassword id) l

instance (id : Uuid) (p : Site) (l : SiteLabel) : Decidable (SavesNoPassword id p l) := by
  unfold SavesNoPassword
  infer_instance

/-- Along a run a profile stays with its person, its unit and its address, and with its
password while no call saves another. -/
theorem run_profile {api : Api} {p p' : Site} {ls : List SiteLabel}
    (hrun : run (Site.step api) p ls = some p') {row : BuStaffProfile}
    (hrow : row ∈ p.state.main.profiles) :
    ∃ v ∈ p'.state.main.profiles, v.id = row.id ∧ v.personId = row.personId ∧
      loginKey v = loginKey row ∧
      (EachStep (Site.step api) (SavesNoPassword row.id) p ls →
        v.passwordHash = row.passwordHash) := by
  induction ls generalizing p row with
  | nil =>
    cases hrun
    exact ⟨row, hrow, rfl, rfl, rfl, fun _ => rfl⟩
  | cons l ls ih =>
    obtain ⟨middle, hstep, hrest⟩ := run_cons.mp hrun
    obtain ⟨x, hx, hxid, hxperson, hxkey, hxhash⟩ : ∃ x ∈ middle.state.main.profiles,
        x.id = row.id ∧ x.personId = row.personId ∧ loginKey x = loginKey row ∧
          (SavesNoPassword row.id p l → x.passwordHash = row.passwordHash) := by
      obtain ⟨hsame, -⟩ | ⟨i, t, r, op, next, rfl, hi, hstate⟩ :=
        Pool.step_state (Site.step_iff.mp hstep).2
      · rw [hsame]
        exact ⟨row, hrow, rfl, rfl, rfl, fun _ => rfl⟩
      · rw [hstate]
        obtain ⟨x, hx, hid, hperson, hkey, hhash⟩ := answer_profile op t hrow
        exact ⟨x, hx, hid, hperson, hkey, fun hmakes => hhash (hmakes _ hi)⟩
    obtain ⟨v, hv, hid, hperson, hkey, hhash⟩ := ih hrest hx
    refine ⟨v, hv, hid.trans hxid, hperson.trans hxperson, hkey.trans hxkey, fun heach => ?_⟩
    rw [hxid] at hhash
    exact (hhash (heach.2 middle hstep)).trans (hxhash heach.1)

/-- A stored profile whose address the login takes opens with the passwords of its hash. -/
theorem opensWith_row (api : Api) {s : World} {row : BuStaffProfile}
    (hrow : row ∈ s.main.profiles) : OpensWith api s row row.passwordHash := by
  intro c password
  by_cases htakes : TakesEmail api.isValidEmail row.email
  · rw [if_pos htakes]
    split
    · rename_i hverify
      exact (tokenFor_iff hrow hverify).mpr htakes
    · rename_i hwrong
      rw [loginReply_of_takes htakes]
      dsimp only
      rw [loginOutcome_refused c fun hopens => ?_]
      · rfl
      obtain ⟨v, ⟨hv, hemail, hverify⟩, hmatch⟩ := hopens
      -- the unique index leaves this profile for the business unit and the address
      obtain rfl : v = row := s.main.valid.profiles_login.eq hv hrow
        (Prod.ext (hmatch row.buId rfl) hemail)
      exact hwrong hverify
  · rw [if_neg htakes]
    exact loginReply_of_not_takes htakes

/-- From the turn that answers a request to change a password with `NoContent()`, in every
state of every further run, the caller's profile is stored; until a call saves another
password for it, and if the login takes its address, it opens with the passwords that verify
against the hash of the new one and with no others. -/
theorem change_holds (api : Api) {s : World} {ls : List SiteLabel} {p p' : Site} {i : ℕ}
    {t : Turn BackendChoice Exn} {now : Time} {token current new : String} {draws : Draws}
    {user : User} (huser : api.validate now token = some user)
    (hrun : run (Site.step api) (Site.initial s) ls = some p)
    (hstep : Site.step api p (.turn i t) = some p')
    (hdone : p'.threads[i]? =
      some ⟨.bearer now token (.changePassword draws current new), .ret (.ok .noContent)⟩)
    {ls' : List SiteLabel} {p'' : Site} (hrun' : run (Site.step api) p' ls' = some p'') :
    ∃ row ∈ p''.state.main.profiles, row.personId = user.personId ∧ row.buId = user.buId ∧
      (EachStep (Site.step api) (SavesNoPassword row.id) p' ls' →
        OpensWith api p''.state row (draws.hash new)) := by
  obtain ⟨x, hx, hxperson, hxbu, hxhash⟩ := changed_atEnd huser hrun hstep hdone
  obtain ⟨row, hrow, hid, hperson, hkey, hhash⟩ := run_profile hrun' hx
  refine ⟨row, hrow, hperson.trans hxperson, (Prod.mk.inj hkey).1.trans hxbu, fun heach => ?_⟩
  rw [hid] at heach
  rw [← (hhash heach).trans hxhash]
  exact opensWith_row api hrow

/-- Then the Owner signs in with the new password. -/
def ownerReturns : List SiteLabel :=
  [.start (.login ⟨"Welcome@example.com", "secret", none⟩), .turn 2 (servedWith 1 0)]

theorem change_holds_seed :
    ∃ p, run (Site.step Api.demoHashes) (Site.initial World.seeded)
        (ownerChanges ++ .turn 1 (servedWith 1 0) :: ownerReturns) = some p ∧
      ∃ row ∈ p.state.main.profiles, row.personId = seedOwner.personId ∧
        OpensWith Api.demoHashes p.state row "secret" := by
  have hdone : ((run (Site.step Api.demoHashes) (Site.initial World.seeded) ownerChanges).bind
      fun p => (Site.step Api.demoHashes p (.turn 1 (servedWith 1 0))).map fun p' =>
        p'.threads[1]?) =
      some (some ⟨.bearer 0 "owner" (.changePassword (Draws.from 1) "P@ssw0rd" "secret"),
        .ret (.ok .noContent)⟩) := rfl
  obtain ⟨p, hp, hdone⟩ := Option.bind_eq_some_iff.mp hdone
  obtain ⟨p', hp', hdone⟩ := Option.map_eq_some_iff.mp hdone
  have hleaves : ((run (Site.step Api.demoHashes) (Site.initial World.seeded) ownerChanges).bind
      fun p => (Site.step Api.demoHashes p (.turn 1 (servedWith 1 0))).bind fun p' =>
        (run (Site.step Api.demoHashes) p' ownerReturns).map fun p'' =>
          (decide (EachStep (Site.step Api.demoHashes)
            (SavesNoPassword (seedProfile "secret").id) p' ownerReturns),
            p''.state.main.profiles)) = some (true, [seedProfile "secret"]) := by
    decide +kernel
  rw [hp, Option.bind_some, hp', Option.bind_some] at hleaves
  obtain ⟨p'', hp'', hleaves⟩ := Option.map_eq_some_iff.mp hleaves
  obtain ⟨heach, hrows⟩ := Prod.mk.inj hleaves
  have huser : Api.demoHashes.validate 0 "owner" = some seedOwner := rfl
  obtain ⟨row, hrow, hperson, -, hopens⟩ :=
    change_holds Api.demoHashes huser hp hp' hdone hp''
  have hid : row.id = (seedProfile "secret").id := by
    rw [hrows] at hrow
    rw [List.mem_singleton.mp hrow]
  refine ⟨p'', run_trans hp (run_cons.mpr ⟨p', hp', hp''⟩), row, hrow, hperson, hopens ?_⟩
  rw [hid]
  exact of_decide_eq_true heach

end AuraWellness.Backend.PasswordChanges
