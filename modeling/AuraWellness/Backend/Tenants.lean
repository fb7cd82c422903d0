import AuraWellness.Lib.RelyGuarantee
import AuraWellness.Backend.Owners

/-!
# Profiles stay within their tenant

No key ties the company of a profile's person to the company of its business
unit. Every request that stores a profile has looked both up in the caller's
company or creates them there, so no profile crosses companies, whatever
requests run beside each other.
-/

namespace AuraWellness.Backend.Tenants

open AuraWellness.Lib.Calls AuraWellness.Lib.Transition AuraWellness.Lib.Ranked
open AuraWellness.Lib.Keyed AuraWellness.Lib.RelyGuarantee
open AuraWellness.Chat.Entities AuraWellness.Chat.Handlers
open AuraWellness.Backend.Entities AuraWellness.Backend.Schema AuraWellness.Backend.Repositories
open AuraWellness.Backend.Services AuraWellness.Backend.Runs AuraWellness.Backend.Owners

/-- The person and the business unit of a profile are of one company. -/
def WithinTenant (d : MainTables) (p : BuStaffProfile) : Prop :=
  ∀ q ∈ d.persons, q.id = p.personId → ∀ b ∈ d.businessUnits, b.id = p.buId →
    q.companyId = b.companyId

/-- No profile crosses companies. -/
def SameTenant (d : MainTables) : Prop := ∀ p ∈ d.profiles, WithinTenant d p

/-- The business unit of the profile is one of the company. -/
def OfCompany (d : MainTables) (company : Uuid) (p : BuStaffProfile) : Prop :=
  ∃ b ∈ d.businessUnits, b.id = p.buId ∧ b.companyId = company

/-- Persons and business units stay as they are, and profiles stay with them. -/
structure KeepsRows (d d' : MainDb) : Prop where
  businessUnits : ∀ b ∈ d.businessUnits, b ∈ d'.businessUnits
  persons : ∀ q ∈ d.persons, q ∈ d'.persons
  profiles : ∀ p ∈ d.profiles, ∃ p' ∈ d'.profiles,
    p'.id = p.id ∧ p'.personId = p.personId ∧ p'.buId = p.buId

theorem KeepsRows.refl (d : MainDb) : KeepsRows d d :=
  ⟨fun _ h => h, fun _ h => h, fun p h => ⟨p, h, rfl, rfl, rfl⟩⟩

theorem KeepsRows.trans {d d' d'' : MainDb} (h : KeepsRows d d') (h' : KeepsRows d' d'') :
    KeepsRows d d'' where
  businessUnits b hb := h'.businessUnits b (h.businessUnits b hb)
  persons q hq := h'.persons q (h.persons q hq)
  profiles p hp := by
    obtain ⟨p', hp', hid, hperson, hbu⟩ := h.profiles p hp
    obtain ⟨p'', hp'', hid', hperson', hbu'⟩ := h'.profiles p' hp'
    exact ⟨p'', hp'', hid'.trans hid, hperson'.trans hperson, hbu'.trans hbu⟩

/-- An accepted insert keeps all rows. -/
theorem insert_keepsRows {d d' : MainDb} {row : Insert} (h : d.insert row = .ok d') :
    KeepsRows d d' := by
  cases row with
  | company row =>
    obtain ⟨-, hd⟩ := insertCompany_ok h
    constructor <;> rw [hd]
    exacts [fun _ h => h, fun _ h => h, fun p hp => ⟨p, hp, rfl, rfl, rfl⟩]
  | businessUnit row =>
    obtain ⟨-, -, hd⟩ := insertBusinessUnit_ok h
    constructor <;> rw [hd]
    exacts [fun _ h => List.mem_append_left _ h, fun _ h => h, fun p hp => ⟨p, hp, rfl, rfl, rfl⟩]
  | person row =>
    obtain ⟨-, -, hd⟩ := insertPerson_ok h
    constructor <;> rw [hd]
    exacts [fun _ h => h, fun _ h => List.mem_append_left _ h, fun p hp => ⟨p, hp, rfl, rfl, rfl⟩]
  | profile row =>
    obtain ⟨-, -, -, -, hd⟩ := insertProfile_ok h
    constructor <;> rw [hd]
    exacts [fun _ h => h, fun _ h => h,
      fun p hp => ⟨p, List.mem_append_left _ hp, rfl, rfl, rfl⟩]

/-- A profile stays within its tenant when the old persons and business units are
the only ones that it can mean. -/
theorem WithinTenant.extend {d d' : MainDb} {p : BuStaffProfile} (hkeeps : KeepsRows d d')
    (hp : p ∈ d.profiles) (h : WithinTenant d.toMainTables p) : WithinTenant d'.toMainTables p := by
  intro q hq hqid b hb hbid
  obtain ⟨q₀, hq₀, hqid₀⟩ := d.valid.profiles_person p hp
  obtain ⟨b₀, hb₀, hbid₀⟩ := d.valid.profiles_businessUnit p hp
  have hperson : q = q₀ :=
    d'.valid.persons_id.eq hq (hkeeps.persons q₀ hq₀) (hqid.trans hqid₀.symm)
  have hunit : b = b₀ :=
    d'.valid.businessUnits_id.eq hb (hkeeps.businessUnits b₀ hb₀) (hbid.trans hbid₀.symm)
  rw [hperson, hunit]
  exact h q₀ hq₀ hqid₀ b₀ hb₀ hbid₀

/-- A profile of a known person and a known business unit of one company. -/
theorem WithinTenant.of_rows {d : MainDb} {p : BuStaffProfile} {q : Person} {b : BusinessUnit}
    (hq : q ∈ d.persons) (hb : b ∈ d.businessUnits) (hqid : q.id = p.personId)
    (hbid : b.id = p.buId) (hcompany : q.companyId = b.companyId) :
    WithinTenant d.toMainTables p := by
  intro q' hq' hqid' b' hb' hbid'
  have hperson : q' = q := d.valid.persons_id.eq hq' hq (hqid'.trans hqid.symm)
  have hunit : b' = b := d.valid.businessUnits_id.eq hb' hb (hbid'.trans hbid.symm)
  rw [hperson, hunit]
  exact hcompany

/-- An insert keeps profiles within their tenants when a new profile is. -/
theorem SameTenant.insert {d d' : MainDb} {row : Insert} (h : SameTenant d.toMainTables)
    (hnew : ∀ p, row = .profile p → WithinTenant d'.toMainTables p) (hd : d.insert row = .ok d') :
    SameTenant d'.toMainTables := by
  have hkeeps := insert_keepsRows hd
  intro p hp
  have old : p ∈ d.profiles → WithinTenant d'.toMainTables p := fun hold =>
    (h p hold).extend hkeeps hold
  cases row with
  | company row =>
    obtain ⟨-, ht⟩ := insertCompany_ok hd
    rw [ht] at hp
    exact old hp
  | businessUnit row =>
    obtain ⟨-, -, ht⟩ := insertBusinessUnit_ok hd
    rw [ht] at hp
    exact old hp
  | person row =>
    obtain ⟨-, -, ht⟩ := insertPerson_ok hd
    rw [ht] at hp
    exact old hp
  | profile row =>
    have ht := (insertProfile_ok hd).2.2.2.2
    rw [ht] at hp
    obtain hold | hlast := List.mem_append.mp hp
    · exact old hold
    · rw [List.mem_singleton.mp hlast]
      exact hnew row rfl

/-- A new profile of a known person and a known business unit of one company. -/
theorem WithinTenant.of_insert {d d' : MainDb} {p : BuStaffProfile} {q : Person} {b : BusinessUnit}
    (hq : q ∈ d.persons) (hb : b ∈ d.businessUnits) (hqid : q.id = p.personId)
    (hbid : b.id = p.buId) (hcompany : q.companyId = b.companyId)
    (hd : d.insert (.profile p) = .ok d') : WithinTenant d'.toMainTables p := by
  have hkeeps := insert_keepsRows hd
  exact WithinTenant.of_rows (hkeeps.persons q hq) (hkeeps.businessUnits b hb) hqid hbid hcompany

/-- A committed onboarding keeps profiles within their tenants. -/
theorem SameTenant.commitOnboard {d d' : MainDb} (h : SameTenant d.toMainTables) {draws : Draws}
    {q : OnboardRequest} (hd : d.insertAll [.company (onboardRows draws q).1,
      .businessUnit (onboardRows draws q).2.1, .person (onboardRows draws q).2.2.1,
      .profile (onboardRows draws q).2.2.2] = .ok d') :
    SameTenant d'.toMainTables ∧ KeepsRows d d' := by
  obtain ⟨d₁, d₂, d₃, hcompany, hbu, hperson, hprofile⟩ := insertAll_four_ok hd
  have h₁ : SameTenant d₁.toMainTables := h.insert (fun p hp => by cases hp) hcompany
  have h₂ : SameTenant d₂.toMainTables := h₁.insert (fun p hp => by cases hp) hbu
  have h₃ : SameTenant d₃.toMainTables := h₂.insert (fun p hp => by cases hp) hperson
  have hunit : (onboardRows draws q).2.1 ∈ d₃.businessUnits := by
    refine (insert_keepsRows hperson).businessUnits _ ?_
    rw [(insertBusinessUnit_ok hbu).2.2]
    exact List.mem_append_right _ (List.mem_singleton_self _)
  have howner : (onboardRows draws q).2.2.1 ∈ d₃.persons := by
    rw [(insertPerson_ok hperson).2.2]
    exact List.mem_append_right _ (List.mem_singleton_self _)
  refine ⟨h₃.insert (fun p hp => ?_) hprofile, ?_⟩
  · cases hp
    exact WithinTenant.of_insert howner hunit rfl rfl rfl hprofile
  · exact (insert_keepsRows hcompany).trans ((insert_keepsRows hbu).trans
      ((insert_keepsRows hperson).trans (insert_keepsRows hprofile)))

/-- Rewriting profiles in place, with their persons and business units left. -/
theorem updateProfiles_keeps {d : MainDb} (h : SameTenant d.toMainTables)
    (f : BuStaffProfile → BuStaffProfile)
    (hf : ∀ p, (f p).id = p.id ∧ (f p).personId = p.personId ∧ loginKey (f p) = loginKey p) :
    SameTenant (d.updateProfiles f hf).toMainTables ∧ KeepsRows d (d.updateProfiles f hf) := by
  have hbu : ∀ p, (f p).buId = p.buId := fun p => (Prod.mk.inj (hf p).2.2).1
  refine ⟨fun p hp => ?_, fun _ h => h, fun _ h => h, fun p hp => ?_⟩
  · obtain ⟨x, hx, rfl⟩ := List.mem_map.mp hp
    intro q hq hqid b hb hbid
    rw [(hf x).2.1] at hqid
    rw [hbu x] at hbid
    exact h x hx q hq hqid b hb hbid
  · exact ⟨f p, List.mem_map_of_mem hp, (hf p).1, (hf p).2.1, hbu p⟩

/-- A role update leaves the other columns. -/
theorem setRole_fields (id : Uuid) (role : StaffRole) (p : BuStaffProfile) :
    let p' := if p.id = id then { p with role } else p
    p'.id = p.id ∧ p'.personId = p.personId ∧ loginKey p' = loginKey p := by
  dsimp only
  split <;> exact ⟨rfl, rfl, rfl⟩

/-- A password change leaves the other columns. -/
theorem setPasswordHash_fields (id : Uuid) (passwordHash : String) (p : BuStaffProfile) :
    let p' := if p.id = id then { p with passwordHash } else p
    p'.id = p.id ∧ p'.personId = p.personId ∧ loginKey p' = loginKey p := by
  dsimp only
  split <;> exact ⟨rfl, rfl, rfl⟩

/-- What the requests rely on: profiles within their tenants, and rows that stay. -/
def tenantRely : Rely World where
  inv s := SameTenant s.main.toMainTables
  steps s s' := KeepsRows s.main s'.main
  refl s := KeepsRows.refl s.main
  trans _ _ _ h h' := h.trans h'

/-- Nothing has changed but profiles of the company's business units. -/
structure Confined (company : Uuid) (s s' : World) : Prop where
  chat : s'.chat = s.chat
  companies : s'.main.companies = s.main.companies
  businessUnits : s'.main.businessUnits = s.main.businessUnits
  persons : s'.main.persons = s.main.persons
  profiles : ∀ p, ¬OfCompany s.main.toMainTables company p →
    (p ∈ s'.main.profiles ↔ p ∈ s.main.profiles)

theorem Confined.refl (company : Uuid) (s : World) : Confined company s s :=
  ⟨rfl, rfl, rfl, rfl, fun _ _ => Iff.rfl⟩

/-- The guarantee of a request: rows stay, and a role update is confined to the
caller's company. -/
def TenantGuarantee (r : BackendRequest) (op : BackendCall) (t : Turn BackendChoice Exn)
    (s : World) : Prop :=
  KeepsRows s.main (backendMachine.answer op t s).2.main ∧
    ∀ person bu company role, r = .updateRole person bu company role →
      Confined company s (backendMachine.answer op t s).2

/-- A write that keeps tenants and rows when it is accepted. -/
theorem storeMain_tenants {s : World} {r : Except DbError MainDb}
    (hs : SameTenant s.main.toMainTables)
    (h : ∀ d, r = .ok d → SameTenant d.toMainTables ∧ KeepsRows s.main d) :
    SameTenant (storeMain s r).2.main.toMainTables ∧ KeepsRows s.main (storeMain s r).2.main := by
  cases r with
  | ok d => exact h d rfl
  | error e => exact ⟨hs, KeepsRows.refl s.main⟩

/-- An insert that is made alone. -/
theorem exec_add {row : Insert} {s : World} (c : BackendChoice) (hs : SameTenant s.main.toMainTables)
    (hnew : ∀ p, row = .profile p → ∀ d, s.main.insert row = .ok d →
      WithinTenant d.toMainTables p) :
    SameTenant ((BackendCall.add row).exec c s).2.main.toMainTables ∧
      KeepsRows s.main ((BackendCall.add row).exec c s).2.main :=
  storeMain_tenants hs fun d hd =>
    ⟨hs.insert (fun p hp => hnew p hp d hd) hd, insert_keepsRows hd⟩

/-- Every call of a request but the insert of a profile keeps tenants and rows. -/
theorem exec_tenants {settings : Settings} {r : BackendRequest} {op : BackendCall}
    (hop : Issues settings r op) (hprofile : ∀ p, op ≠ .add (.profile p)) (c : BackendChoice)
    {s : World} (hs : SameTenant s.main.toMainTables) :
    SameTenant (op.exec c s).2.main.toMainTables ∧ KeepsRows s.main (op.exec c s).2.main := by
  have same : SameTenant s.main.toMainTables ∧ KeepsRows s.main s.main := ⟨hs, KeepsRows.refl _⟩
  cases hop with
  | query h =>
    rw [h.exec_state]
    exact same
  | onboardCommit => exact storeMain_tenants hs fun d h => hs.commitOnboard h
  | unitCommit =>
    refine storeMain_tenants hs fun d h => ?_
    obtain ⟨m, hbu, hnil⟩ := insertAll_cons_ok.mp h
    rw [insertAll_nil_ok.mp hnil]
    exact ⟨hs.insert (fun p hp => by cases hp) hbu, insert_keepsRows hbu⟩
  | staffPerson => exact exec_add c hs fun p hp => by cases hp
  | staffProfile h => exact absurd rfl (hprofile _)
  | enrollProfile h => exact absurd rfl (hprofile _)
  | saveRole h => exact updateProfiles_keeps hs _ (setRole_fields _ _)
  | savePassword => exact updateProfiles_keeps hs _ (setPasswordHash_fields _ _)
  | onboardWorkspace => exact same
  | onboardMember => exact same
  | unitWorkspace => exact same
  | unitMember => exact same
  | staffMember => exact same
  | enrollMember => exact same
  | access => exact same
  | conversationsGroup => exact same
  | dm => exact same
  | send => exact same
  | messagesGroup => exact same
  | sendGroup => exact same
  | sendToGroup => exact same

/-- However a call is answered, tenants and rows are kept when its effect keeps them. -/
theorem answer_tenants (op : BackendCall) {s : World} (hs : SameTenant s.main.toMainTables)
    (h : ∀ c, SameTenant (op.exec c s).2.main.toMainTables ∧ KeepsRows s.main (op.exec c s).2.main)
    (t : Turn BackendChoice Exn) :
    SameTenant (backendMachine.answer op t s).2.main.toMainTables ∧
      KeepsRows s.main (backendMachine.answer op t s).2.main := by
  obtain he | ⟨c, he⟩ := backendMachine.answer_state op t s
  · rw [he]
    exact ⟨hs, KeepsRows.refl _⟩
  · rw [he]
    exact h c

/-- A call of a request that is no role update, as its guarantee asks for. -/
theorem guarantee_of_keeps {r : BackendRequest} (hr : ∀ person bu company role,
    r ≠ .updateRole person bu company role) {op : BackendCall} {t : Turn BackendChoice Exn}
    {s : World} (h : SameTenant (backendMachine.answer op t s).2.main.toMainTables ∧
      KeepsRows s.main (backendMachine.answer op t s).2.main) :
    tenantRely.inv (backendMachine.answer op t s).2 ∧ TenantGuarantee r op t s :=
  ⟨h.1, h.2, fun person bu company role he => absurd he (hr person bu company role)⟩

/-- A query keeps every guarantee. -/
theorem guarantee_of_query {r : BackendRequest} {op : BackendCall} (h : op.Queries)
    (t : Turn BackendChoice Exn) {s : World} (hs : tenantRely.inv s) :
    tenantRely.inv (backendMachine.answer op t s).2 ∧ TenantGuarantee r op t s := by
  have hsame := query_state h t s
  unfold TenantGuarantee
  rw [hsame]
  exact ⟨hs, KeepsRows.refl _, fun _ _ company _ _ => Confined.refl company s⟩

/-- A business unit that a lookup has returned. -/
theorem businessUnitGetById_ok {id company : Uuid} {t : Turn BackendChoice Exn} {s : World}
    {b : BusinessUnit}
    (h : (backendMachine.answer (.businessUnitGetById id company) t s).1 = .ok (some b)) :
    b ∈ s.main.businessUnits ∧ b.id = id ∧ b.companyId = company := by
  obtain ⟨c, -, ha⟩ := Machine.answer_ok h
  rw [ha] at h
  have hfind : BusinessUnitRepository.getById s.main id company = some b := Except.ok.inj h
  unfold BusinessUnitRepository.getById at hfind
  have hb := List.find?_some hfind
  exact ⟨List.mem_of_find?_eq_some hfind, by simpa using hb⟩

/-- A person that a lookup has returned. -/
theorem personGetById_ok {id company : Uuid} {t : Turn BackendChoice Exn} {s : World} {q : Person}
    (h : (backendMachine.answer (.personGetById id company) t s).1 = .ok (some q)) :
    q ∈ s.main.persons ∧ q.id = id ∧ q.companyId = company := by
  obtain ⟨c, -, ha⟩ := Machine.answer_ok h
  rw [ha] at h
  have hfind : PersonRepository.getById s.main id company = some q := Except.ok.inj h
  unfold PersonRepository.getById at hfind
  have hq := List.find?_some hfind
  exact ⟨List.mem_of_find?_eq_some hfind, by simpa using hq⟩

/-- A profile that a lookup has returned, with its person. -/
theorem profileGetByPersonAndBu_ok {person bu : Uuid} {t : Turn BackendChoice Exn} {s : World}
    {profile : BuStaffProfile} {owner : Person}
    (h : (backendMachine.answer (.profileGetByPersonAndBu person bu) t s).1 =
      .ok (some (profile, owner))) :
    profile ∈ s.main.profiles ∧ owner ∈ s.main.persons ∧ owner.id = profile.personId := by
  obtain ⟨c, -, ha⟩ := Machine.answer_ok h
  rw [ha] at h
  exact getByPersonAndBu_mem (Except.ok.inj h)

/-- Calls to the chat service and queries. -/
def LeavesMain : BackendCall → Prop
  | .chat _ => True
  | op => op.Queries

/-- Such calls leave the main database. -/
theorem LeavesMain.answer_main {op : BackendCall} (h : LeavesMain op) (t : Turn BackendChoice Exn)
    (s : World) : (backendMachine.answer op t s).2.main = s.main := by
  by_cases hquery : op.Queries
  · rw [query_state hquery]
  · obtain he | ⟨c, he⟩ := backendMachine.answer_state op t s
    · rw [he]
    · rw [he]
      cases op with
      | chat rpc => rfl
      | _ => exact absurd h hquery

/-- A profile of a person and a business unit of one company, and its chat member. -/
theorem addProfile_guarantees {r : BackendRequest} (hr : ∀ person bu company role,
    r ≠ .updateRole person bu company role) {person : Person} {bu : BusinessUnit}
    {profile : BuStaffProfile} {s : World} (hperson : person ∈ s.main.persons)
    (hbu : bu ∈ s.main.businessUnits) (hpersonId : person.id = profile.personId)
    (hbuId : bu.id = profile.buId) (hcompany : person.companyId = bu.companyId) :
    Guarantees backendMachine tenantRely (TenantGuarantee r)
      (StaffService.addProfile person bu profile) s := by
  unfold StaffService.addProfile
  refine Guarantees.perform_bind (fun s' t hs hinv => ?_) fun s' t a hs hinv hok => ?_
  · refine guarantee_of_keeps hr (answer_tenants _ hinv (fun c => exec_add c hinv ?_) t)
    intro p hp d hd
    cases hp
    exact WithinTenant.of_insert (hs.persons _ hperson) (hs.businessUnits _ hbu) hpersonId hbuId
      hcompany hd
  · -- what follows is left to the chat service
    refine Guarantees.of_allOps (P := LeavesMain) ?_ (fun op t' s'' hop hs'' => ?_) _
    · refine withWorkspace_allOps trivial trivial fun w => ?_
      exact Program.AllOps.bind (Program.AllOps.perform_bind trivial fun _ => trivial)
        fun _ => trivial
    · refine guarantee_of_keeps hr ?_
      rw [LeavesMain.answer_main hop]
      exact ⟨hs'', KeepsRows.refl _⟩

/-- `CreateAsync` stores its profile for its new person in a business unit of the
caller's company. -/
theorem createStaff_guarantees (settings : Settings) (draws : Draws) (company : Uuid)
    (q : CreateStaffRequest) (s : World) :
    Guarantees backendMachine tenantRely (TenantGuarantee (.createStaff draws company q))
      (StaffService.create settings draws company q) s := by
  have hr : ∀ person bu company' role,
      BackendRequest.createStaff draws company q ≠ .updateRole person bu company' role :=
    fun _ _ _ _ h => by cases h
  unfold StaffService.create
  have hlookup : BackendCall.Queries (.businessUnitGetById q.buId company) := trivial
  refine Guarantees.perform_bind (fun s' t _ hinv => guarantee_of_query hlookup t hinv)
    fun s' t a hs hinv hok => ?_
  cases a with
  | none => trivial
  | some bu =>
    obtain ⟨hbu, -, hcompany⟩ := businessUnitGetById_ok hok
    rw [query_state hlookup]
    dsimp only
    cases hrole : assignableRole q.role with
    | none => trivial
    | some role =>
      refine Guarantees.perform_bind (fun s₁ t₁ _ hinv₁ => ?_) fun s₁ t₁ a₁ hs₁ hinv₁ hok₁ => ?_
      · exact guarantee_of_keeps hr
          (answer_tenants _ hinv₁ (fun c => exec_add c hinv₁ fun p hp => by cases hp) t₁)
      · -- the insert has succeeded, so the person is stored
        obtain ⟨d, hd, hstored⟩ := answer_add_ok hok₁
        rw [hstored]
        obtain ⟨-, -, ht⟩ := insertPerson_ok hd
        refine addProfile_guarantees hr ?_ ?_ rfl rfl hcompany.symm
        · refine (?_ : _ ∈ d.persons)
          rw [ht]
          exact List.mem_append_right _ (List.mem_singleton_self _)
        · exact (insert_keepsRows hd).businessUnits _ (hs₁.businessUnits _ hbu)

/-- `EnrollExistingAsync` stores its profile for a person and a business unit of
the caller's company. -/
theorem enrollExisting_guarantees (settings : Settings) (draws : Draws) (company : Uuid)
    (q : EnrollExistingStaffRequest) (s : World) :
    Guarantees backendMachine tenantRely (TenantGuarantee (.enrollExisting draws company q))
      (StaffService.enrollExisting settings draws company q) s := by
  have hr : ∀ person bu company' role,
      BackendRequest.enrollExisting draws company q ≠ .updateRole person bu company' role :=
    fun _ _ _ _ h => by cases h
  unfold StaffService.enrollExisting
  have hunitLookup : BackendCall.Queries (.businessUnitGetById q.buId company) := trivial
  have hpersonLookup : BackendCall.Queries (.personGetById q.personId company) := trivial
  refine Guarantees.perform_bind (fun s' t _ hinv => guarantee_of_query hunitLookup t hinv)
    fun s' t a hs hinv hok => ?_
  cases a with
  | none => trivial
  | some bu =>
    obtain ⟨hbu, -, hunit⟩ := businessUnitGetById_ok hok
    rw [query_state hunitLookup]
    refine Guarantees.perform_bind (fun s₁ t₁ _ hinv₁ => guarantee_of_query hpersonLookup t₁ hinv₁)
      fun s₁ t₁ a₁ hs₁ hinv₁ hok₁ => ?_
    cases a₁ with
    | none => trivial
    | some person =>
      obtain ⟨hperson, -, howner⟩ := personGetById_ok hok₁
      have hprofileLookup : BackendCall.Queries (.profileGetByPersonAndBu person.id bu.id) := trivial
      rw [query_state hpersonLookup]
      refine Guarantees.perform_bind (fun s₂ t₂ _ hinv₂ => guarantee_of_query hprofileLookup t₂ hinv₂)
        fun s₂ t₂ a₂ hs₂ hinv₂ hok₂ => ?_
      cases a₂ with
      | some existing => trivial
      | none =>
        rw [query_state hprofileLookup]
        dsimp only
        cases hrole : assignableRole q.role with
        | none => trivial
        | some role =>
          have hbu₂ : bu ∈ s₂.main.businessUnits :=
            hs₂.businessUnits _ (hs₁.businessUnits _ hbu)
          exact addProfile_guarantees hr (hs₂.persons _ hperson) hbu₂ rfl rfl
            (howner.trans hunit.symm)

/-- A row that a lookup has found for a person of the company is, whatever has
happened since, a profile of one of the company's business units. -/
theorem ofCompany_of_loaded {s s' : World} {profile p : BuStaffProfile} {owner : Person}
    (hprofile : profile ∈ s.main.profiles) (howner : owner ∈ s.main.persons)
    (hperson : owner.id = profile.personId) (hsteps : tenantRely.steps s s')
    (hinv : tenantRely.inv s') (hp : p ∈ s'.main.profiles) (hid : p.id = profile.id) :
    OfCompany s'.main.toMainTables owner.companyId p := by
  obtain ⟨p', hp', hid', hperson', -⟩ := hsteps.profiles profile hprofile
  have hsame : p = p' := s'.main.valid.profiles_id.eq hp hp' (hid.trans hid'.symm)
  obtain ⟨b, hb, hbid⟩ := s'.main.valid.profiles_businessUnit p hp
  have howned : owner.id = p.personId := by rw [hsame, hperson', hperson]
  exact ⟨b, hb, hbid, (hinv p hp owner (hsteps.persons owner howner) howned b hb hbid).symm⟩

/-- Saving a role changes only the profiles with its identifier. -/
theorem confined_setRole {company id : Uuid} {role : StaffRole} {s : World}
    (h : ∀ p ∈ s.main.profiles, p.id = id → OfCompany s.main.toMainTables company p) :
    Confined company s { s with main := s.main.setRole id role } := by
  refine ⟨rfl, rfl, rfl, rfl, fun p hp => ⟨fun hnew => ?_, fun hold => ?_⟩⟩
  · obtain ⟨x, hx, rfl⟩ := List.mem_map.mp hnew
    by_cases hid : x.id = id
    · rw [if_pos hid] at hp
      exact absurd (h x hx hid) hp
    · rw [if_neg hid]
      exact hx
  · have hid : p.id ≠ id := fun hid => hp (h p hold hid)
    exact List.mem_map.mpr ⟨p, hold, if_neg hid⟩

/-- `UpdateRoleAsync` saves the role of a profile of the caller's company. -/
theorem updateRole_guarantees (person bu company : Uuid) (text : String) (s : World) :
    Guarantees backendMachine tenantRely (TenantGuarantee (.updateRole person bu company text))
      (StaffService.updateRole person bu company text) s := by
  have hlookup : BackendCall.Queries (.profileGetByPersonAndBu person bu) := trivial
  unfold StaffService.updateRole
  refine Guarantees.perform_bind (fun s' t _ hinv => guarantee_of_query hlookup t hinv)
    fun s' t a hs hinv hok => ?_
  cases a with
  | none => trivial
  | some row =>
    obtain ⟨profile, owner⟩ := row
    obtain ⟨hprofile, howner, hperson⟩ := profileGetByPersonAndBu_ok hok
    rw [query_state hlookup]
    dsimp only
    split
    · trivial
    · rename_i hcompany
      rw [not_ne_iff] at hcompany
      cases hrole : assignableRole text with
      | none => trivial
      | some role =>
        dsimp only
        split
        · trivial
        · refine Guarantees.perform fun s₁ t₁ hs₁ hinv₁ => ?_
          have hloaded : ∀ p ∈ s₁.main.profiles, p.id = profile.id →
              OfCompany s₁.main.toMainTables company p := fun p hp hid =>
            hcompany ▸ ofCompany_of_loaded hprofile howner hperson hs₁ hinv₁ hp hid
          have hkeeps := answer_tenants (.profileSaveRole profile.id role) hinv₁
            (fun _ => updateProfiles_keeps hinv₁ _ (setRole_fields _ _)) t₁
          refine ⟨hkeeps.1, hkeeps.2, fun person' bu' company' text' he => ?_⟩
          cases he
          obtain he | ⟨c, he⟩ := backendMachine.answer_state (.profileSaveRole profile.id role) t₁ s₁
          · rw [he]
            exact Confined.refl company s₁
          · rw [he]
            exact confined_setRole hloaded

/-- Every request is under its guarantee. -/
theorem program_guarantees (settings : Settings) (r : BackendRequest) (s : World) :
    Guarantees backendMachine tenantRely (TenantGuarantee r) (r.program settings) s := by
  by_cases hupdate : ∃ person bu company text, r = .updateRole person bu company text
  · obtain ⟨person, bu, company, text, rfl⟩ := hupdate
    exact (updateRole_guarantees person bu company text s).map _
  · have hr : ∀ person bu company text, r ≠ .updateRole person bu company text :=
      fun person bu company text he => hupdate ⟨person, bu, company, text, he⟩
    -- the other requests make no call that stores a profile by itself
    have other : (∀ p, ¬Issues settings r (.add (.profile p))) →
        Guarantees backendMachine tenantRely (TenantGuarantee r) (r.program settings) s := by
      intro hnone
      refine Guarantees.of_allOps (program_issues settings r) (fun op t s' hop hinv => ?_) s
      have hprofile : ∀ p, op ≠ .add (.profile p) := fun p he => hnone p (he ▸ hop)
      exact guarantee_of_keeps hr (answer_tenants _ hinv (fun c => exec_tenants hop hprofile c hinv) t)
    cases r with
    | createStaff draws company q => exact (createStaff_guarantees settings draws company q s).map _
    | enrollExisting draws company q =>
      exact (enrollExisting_guarantees settings draws company q s).map _
    | _ =>
      refine other fun p hissues => ?_
      cases hissues
      contradiction

/-- A step that a request's guarantee allows is one that the others rely on. -/
theorem tenantRely_of_guarantee (r : BackendRequest) (op : BackendCall)
    (t : Turn BackendChoice Exn) (s : World) (_ : tenantRely.inv s) (h : TenantGuarantee r op t s) :
    tenantRely.steps s (backendMachine.answer op t s).2 := h.1

/-- The backend's databases and requests are under their guarantees. -/
abbrev Tenanted (p : BackendPool) : Prop :=
  Governed backendMachine tenantRely TenantGuarantee p

/-- The seed has one profile, of the one business unit of the one company. -/
theorem sameTenant_seed : SameTenant MainDb.seed.toMainTables := by
  unfold SameTenant WithinTenant
  decide

/-- Every step keeps the backend under its guarantees. -/
theorem Tenanted.step (settings : Settings) (p : BackendPool) (l : BackendLabel) (p' : BackendPool)
    (hp : Tenanted p) (h : BackendPool.step settings p l = some p') : Tenanted p' :=
  (Governed.step hp (fun r s _ => program_guarantees settings r s) tenantRely_of_guarantee h).1

/-- The rows of `GetByCompanyAsync`. -/
theorem mem_getByCompany {d : MainDb} {tie : Uuid → ℕ} {company : Uuid} {p : BuStaffProfile}
    {q : Person} {b : BusinessUnit} :
    (p, q, b) ∈ BuStaffProfileRepository.getByCompany d tie company ↔
      p ∈ d.profiles ∧ personOf d p = some q ∧ businessUnitOf d p = some b ∧
        q.companyId = company := by
  simp [BuStaffProfileRepository.getByCompany, withBoth, Option.bind_eq_some_iff, and_assoc]

/-- `GetByCompanyAsync` filters by the person's company, and so returns the
profiles of the company's business units. -/
theorem exists_mem_getByCompany_iff {d : MainDb} (h : SameTenant d.toMainTables) (tie : Uuid → ℕ)
    (company : Uuid) (p : BuStaffProfile) :
    (∃ q b, (p, q, b) ∈ BuStaffProfileRepository.getByCompany d tie company) ↔
      p ∈ d.profiles ∧ OfCompany d.toMainTables company p := by
  constructor
  · rintro ⟨q, b, hrow⟩
    obtain ⟨hp, hq, hb, hcompany⟩ := mem_getByCompany.mp hrow
    obtain ⟨hqmem, hqid⟩ := (find?_eq_some_iff d.valid.persons_id).mp hq
    obtain ⟨hbmem, hbid⟩ := (find?_eq_some_iff d.valid.businessUnits_id).mp hb
    exact ⟨hp, b, hbmem, hbid, (h p hp q hqmem hqid b hbmem hbid).symm.trans hcompany⟩
  · rintro ⟨hp, b, hb, hbid, hcompany⟩
    obtain ⟨q, hq, hqid⟩ := d.valid.profiles_person p hp
    have hperson := (find?_eq_some_iff d.valid.persons_id).mpr ⟨hq, hqid⟩
    have hunit := (find?_eq_some_iff d.valid.businessUnits_id).mpr ⟨hb, hbid⟩
    exact ⟨q, b, mem_getByCompany.mpr
      ⟨hp, hperson, hunit, (h p hp q hq hqid b hb hbid).trans hcompany⟩⟩

/-- `GetAllAsync` of the company returns a list when its query is served, and the list has
the profiles of the company's business units and no others. -/
def ListsCompany (s : World) (company : Uuid) : Prop :=
  ∀ env, ((∃ c, env 0 = .serve c) →
      ∃ responses, ((StaffService.getAll company).run backendMachine env s).1 = .ok responses) ∧
    ∀ responses, ((StaffService.getAll company).run backendMachine env s).1 = .ok responses →
      ∀ id, (∃ r ∈ responses, r.profileId = id) ↔
        ∃ p ∈ s.main.profiles, p.id = id ∧ OfCompany s.main.toMainTables company p

/-- When no profile crosses companies, the list of a company is its own. -/
theorem SameTenant.listsCompany {s : World} (h : SameTenant s.main.toMainTables) (company : Uuid) :
    ListsCompany s company := by
  refine fun env => ⟨fun ⟨c, hserved⟩ => ?_, fun responses hrun id => ?_⟩
  · unfold StaffService.getAll
    rw [Program.run_perform_bind, hserved]
    exact ⟨_, rfl⟩
  unfold StaffService.getAll at hrun
  rw [Program.run_perform_bind] at hrun
  cases hr : (backendMachine.answer (.profileGetByCompany company) (env 0) s).1 with
  | error e =>
    rw [hr] at hrun
    cases hrun
  | ok rows =>
    rw [hr] at hrun
    cases hrun
    obtain ⟨c, -, ha⟩ := Machine.answer_ok hr
    rw [ha] at hr
    have hrows : BuStaffProfileRepository.getByCompany s.main c.tie company = rows :=
      Except.ok.inj hr
    constructor
    · rintro ⟨r, hmem, rfl⟩
      obtain ⟨⟨p, q, b⟩, hrow, rfl⟩ := List.mem_map.mp hmem
      rw [← hrows] at hrow
      obtain ⟨hp, hof⟩ := (exists_mem_getByCompany_iff h c.tie company p).mp ⟨q, b, hrow⟩
      exact ⟨p, hp, rfl, hof⟩
    · rintro ⟨p, hp, rfl, hof⟩
      obtain ⟨q, b, hrow⟩ := (exists_mem_getByCompany_iff h c.tie company p).mpr ⟨hp, hof⟩
      rw [hrows] at hrow
      exact ⟨_, List.mem_map.mpr ⟨_, hrow, rfl⟩, rfl⟩

/-- What tenant isolation of the profiles means in a state of the backend. -/
structure TenantsIsolated (settings : Settings) (p : BackendPool) : Prop where
  /-- Each profile's person and business unit are of one company. -/
  sameTenant : SameTenant p.state.main.toMainTables
  /-- `GetAllAsync` lists a company's own profiles. -/
  listsCompany : ∀ company, ListsCompany p.state company
  /-- `UpdateRoleAsync` changes only profiles of the caller's company. -/
  confined : ∀ i t p' person bu company text,
    (∃ prog, p.threads[i]? = some ⟨.updateRole person bu company text, prog⟩) →
      BackendPool.step settings p (.turn i t) = some p' → Confined company p.state p'.state

/-- Under the guarantees the profiles are isolated. -/
theorem Tenanted.isolated (settings : Settings) {p : BackendPool} (h : Tenanted p) :
    TenantsIsolated settings p where
  sameTenant := h.inv
  listsCompany := SameTenant.listsCompany h.inv
  confined := by
    rintro i t p' person bu company text ⟨prog, hi⟩ hstep
    obtain ⟨r, op, next, hi', -, rfl⟩ := Pool.step_turn hstep
    cases hi.symm.trans hi'
    exact (h.call hi' t).2 person bu company text rfl

/-- Profiles never cross tenants: from the seed, whatever requests run beside
each other and whatever fails, every profile stays within its company, the list
of a company is its own, and a role update is confined to its caller's company. -/
theorem tenantsIsolated_throughout (settings : Settings) (ls : List BackendLabel) :
    Throughout (BackendPool.step settings) (TenantsIsolated settings)
      (BackendPool.initial World.seeded) ls := by
  have hinitial : Tenanted (BackendPool.initial World.seeded) := Governed.initial sameTenant_seed
  have hgoverned := throughout_invariant (Tenanted.step settings) ls hinitial
  exact hgoverned.mono fun p hp => hp.isolated settings

end AuraWellness.Backend.Tenants
