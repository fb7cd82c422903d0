import AuraWellness.Lib.Relational
import AuraWellness.Backend.TenantRows

/-!
# What a tenant can learn of the others

Two states that agree on the rows of a company answer its callers alike, but
for one thing: a role update that names a person and a business unit of another
tenant tells whether that tenant has a profile for them.
-/

namespace AuraWellness.Backend.Noninterference

open AuraWellness.Lib.Keyed AuraWellness.Lib.Calls AuraWellness.Lib.Transition
open AuraWellness.Lib.Ranked AuraWellness.Lib.Relational AuraWellness.Lib.RelyGuarantee
open AuraWellness.Chat.Entities AuraWellness.Chat.Repositories AuraWellness.Chat.Handlers
open AuraWellness.Backend.Entities AuraWellness.Backend.Schema AuraWellness.Backend.Repositories
open AuraWellness.Backend.Services AuraWellness.Backend.Runs AuraWellness.Backend.Owners
open AuraWellness.Backend.Tenants AuraWellness.Backend.TenantRows

/-- The operations on staff and business units that a company's caller has. -/
inductive TenantOperation
  | getAllStaff
  | getPersons
  | createStaff (draws : Draws) (request : CreateStaffRequest)
  | enrollExisting (draws : Draws) (request : EnrollExistingStaffRequest)
  | updateRole (personId buId : Uuid) (role : String)
  | getAllUnits

/-- What an operation answers when it succeeds. -/
inductive TenantResponse
  | staffList (responses : List StaffResponse)
  | persons (responses : List Person)
  | staff (response : StaffResponse)
  | done
  | units (responses : List BusinessUnit)
  deriving DecidableEq, Repr

/-- The program of an operation for the caller's company. -/
def TenantOperation.program (settings : Settings) (company : Uuid) :
    TenantOperation → BackendProgram TenantResponse
  | getAllStaff => .staffList <$> StaffService.getAll company
  | getPersons => .persons <$> StaffService.getPersons company
  | createStaff draws request => .staff <$> StaffService.create settings draws company request
  | enrollExisting draws request =>
    .staff <$> StaffService.enrollExisting settings draws company request
  | updateRole person bu role => (fun _ => .done) <$> StaffService.updateRole person bu company role
  | getAllUnits => .units <$> BusinessUnitService.getAll company

/-- The values of `Guid.NewGuid()` that the operation draws are new. -/
def TenantOperation.FreshIn (d : MainDb) : TenantOperation → Prop
  | createStaff draws _ =>
    (¬∃ q ∈ d.persons, q.id = (draws.stamps 0).id) ∧ ¬∃ p ∈ d.profiles, p.id = (draws.stamps 1).id
  | enrollExisting draws _ => ¬∃ p ∈ d.profiles, p.id = (draws.stamps 0).id
  | _ => True

/-- The kinds of exceptions. -/
inductive ExnKind
  | unauthorizedAccess
  | invalidOperation
  | rpc
  | database
  deriving DecidableEq, Repr

/-- The kind of an exception. -/
def exnKind : Exn → ExnKind
  | .unauthorizedAccess _ => .unauthorizedAccess
  | .invalidOperation _ => .invalidOperation
  | .rpc _ => .rpc
  | .database _ => .database

/-- The same result, or the same kind of error. -/
def SameOutcome {α : Type} : Except Exn α → Except Exn α → Prop
  | .ok a, .ok b => a = b
  | .error e, .error e' => exnKind e = exnKind e'
  | _, _ => False

theorem SameOutcome.of_eq {α : Type} {r r' : Except Exn α} (h : r = r') : SameOutcome r r' := by
  cases h
  cases r <;> rfl

/-- The operation has the same outcome in both states, afterwards the rows of the
company agree again, and the rows of all others are unchanged. -/
structure NonInterfering (settings : Settings) (company : Uuid) (op : TenantOperation)
    (env : ℕ → Turn BackendChoice Exn) (s₁ s₂ : World) : Prop where
  outcome : SameOutcome ((op.program settings company).run backendMachine env s₁).1
    ((op.program settings company).run backendMachine env s₂).1
  rows : AgreeOn company
    ((op.program settings company).run backendMachine env s₁).2.main.toMainTables
    ((op.program settings company).run backendMachine env s₂).2.main.toMainTables
  others₁ : otherRows
    ((op.program settings company).run backendMachine env s₁).2.main.toMainTables company =
      otherRows s₁.main.toMainTables company
  others₂ : otherRows
    ((op.program settings company).run backendMachine env s₂).2.main.toMainTables company =
      otherRows s₂.main.toMainTables company

/-- Two states that the company's caller cannot tell apart by its rows, with the
rows of the others as they were. -/
structure Low (company : Uuid) (o₁ o₂ : MainTables) (s₁ s₂ : World) : Prop where
  agree : AgreeOn company s₁.main.toMainTables s₂.main.toMainTables
  chat : s₁.chat = s₂.chat
  tenant₁ : SameTenant s₁.main.toMainTables
  tenant₂ : SameTenant s₂.main.toMainTables
  others₁ : otherRows s₁.main.toMainTables company = o₁
  others₂ : otherRows s₂.main.toMainTables company = o₂

variable {company : Uuid} {o₁ o₂ : MainTables} {s₁ s₂ : World}

/-- The call gets the same reply in both states and leaves them alike. -/
def Agreeing (company : Uuid) (o₁ o₂ : MainTables) (op : BackendCall) (s₁ s₂ : World) : Prop :=
  ∀ t, (backendMachine.answer op t s₁).1 = (backendMachine.answer op t s₂).1 ∧
    Low company o₁ o₂ (backendMachine.answer op t s₁).2 (backendMachine.answer op t s₂).2

/-- A call whose effect replies alike and leaves both states alike. -/
theorem agreeing_of_exec {op : BackendCall} (h : Low company o₁ o₂ s₁ s₂)
    (hexec : ∀ c, (op.exec c s₁).1 = (op.exec c s₂).1 ∧
      Low company o₁ o₂ (op.exec c s₁).2 (op.exec c s₂).2) : Agreeing company o₁ o₂ op s₁ s₂ := by
  intro t
  refine ⟨Machine.answer_congr (fun c => (hexec c).1) t, ?_⟩
  cases t with
  | serve c => exact (hexec c).2
  | drop e => exact h
  | lost c e => exact (hexec c).2

/-- A query whose reply is the same in both states. -/
theorem agreeing_of_query {op : BackendCall} (hop : op.Queries) (h : Low company o₁ o₂ s₁ s₂)
    (hreply : ∀ c, (op.exec c s₁).1 = (op.exec c s₂).1) : Agreeing company o₁ o₂ op s₁ s₂ := by
  refine agreeing_of_exec h fun c => ⟨hreply c, ?_⟩
  rw [hop.exec_state, hop.exec_state]
  exact h

/-- A call to the chat service, which is in the same state. -/
theorem agreeing_of_chat (rpc : Rpc) (h : Low company o₁ o₂ s₁ s₂) :
    Agreeing company o₁ o₂ (.chat rpc) s₁ s₂ := by
  refine agreeing_of_exec h fun c => ?_
  unfold BackendCall.exec
  dsimp only
  rw [h.chat]
  exact ⟨rfl, h.agree, rfl, h.tenant₁, h.tenant₂, h.others₁, h.others₂⟩

/-- An insert that both states refuse alike, or both accept. -/
theorem agreeing_of_add {row : Insert} (h : Low company o₁ o₂ s₁ s₂)
    (hwrite : (∃ e, s₁.main.insert row = .error e ∧ s₂.main.insert row = .error e) ∨
      ∃ d₁ d₂, s₁.main.insert row = .ok d₁ ∧ s₂.main.insert row = .ok d₂ ∧
        Low company o₁ o₂ { s₁ with main := d₁ } { s₂ with main := d₂ }) :
    Agreeing company o₁ o₂ (.add row) s₁ s₂ := by
  refine agreeing_of_exec h fun c => ?_
  refine (?_ : (storeMain s₁ (s₁.main.insert row)).1 = (storeMain s₂ (s₂.main.insert row)).1 ∧
    Low company o₁ o₂ (storeMain s₁ (s₁.main.insert row)).2 (storeMain s₂ (s₂.main.insert row)).2)
  obtain ⟨e, h₁, h₂⟩ | ⟨d₁, d₂, h₁, h₂, hlow⟩ := hwrite
  · rw [h₁, h₂]
    exact ⟨rfl, h⟩
  · rw [h₁, h₂]
    exact ⟨rfl, hlow⟩

/-- One more person of the company. -/
theorem rows_addPerson {d d' : MainTables} {row : Person} (hcompany : row.companyId = company)
    (hd : d' = { d with persons := d.persons ++ [row] }) :
    tenantRows d' company =
        { tenantRows d company with persons := (tenantRows d company).persons ++ [row] } ∧
      otherRows d' company = otherRows d company := by
  rw [hd]
  have hmine : [row].filter (fun q => q.companyId = company) = [row] := by simp [hcompany]
  have hnone : [row].filter (fun q => q.companyId ≠ company) = [] := by simp [hcompany]
  unfold tenantRows otherRows
  dsimp only
  rw [List.filter_append, List.filter_append, hmine, hnone, List.append_nil]
  exact ⟨rfl, rfl⟩

/-- One more profile of the company. -/
theorem rows_addProfile {d d' : MainTables} {row : BuStaffProfile} (hof : OfCompany d company row)
    (hd : d' = { d with profiles := d.profiles ++ [row] }) :
    tenantRows d' company =
        { tenantRows d company with profiles := (tenantRows d company).profiles ++ [row] } ∧
      otherRows d' company = otherRows d company := by
  rw [hd]
  have hmine : [row].filter (fun p => OfCompany d company p) = [row] := by simp [hof]
  have hnone : [row].filter (fun p => ¬OfCompany d company p) = [] := by simp [hof]
  have hsame : ∀ p, OfCompany { d with profiles := d.profiles ++ [row] } company p ↔
      OfCompany d company p := fun p => Iff.rfl
  unfold tenantRows otherRows
  simp only [hsame]
  rw [List.filter_append, List.filter_append, hmine, hnone, List.append_nil]
  exact ⟨rfl, rfl⟩

/-- The insert of a person is refused in both states for the same reason, or in
neither. -/
theorem insertPerson_alike {d₁ d₂ : MainDb} {row : Person}
    (hfresh₁ : ¬∃ q ∈ d₁.persons, q.id = row.id) (hfresh₂ : ¬∃ q ∈ d₂.persons, q.id = row.id)
    (hcompanies : (∃ c ∈ d₁.companies, c.id = row.companyId) ↔
      ∃ c ∈ d₂.companies, c.id = row.companyId) :
    (∃ e, d₁.insertPerson row = .error e ∧ d₂.insertPerson row = .error e) ∨
      ∃ d₁' d₂', d₁.insertPerson row = .ok d₁' ∧ d₂.insertPerson row = .ok d₂' := by
  unfold MainDb.insertPerson
  by_cases hlength : 100 < row.firstName.length ∨ 100 < row.lastName.length
  · exact Or.inl ⟨.tooLong 100, if_pos hlength, if_pos hlength⟩
  · rw [if_neg hlength, if_neg hlength, dif_neg hfresh₁, dif_neg hfresh₂]
    by_cases hc : ∃ c ∈ d₁.companies, c.id = row.companyId
    · rw [dif_pos hc, dif_pos (hcompanies.mp hc)]
      exact Or.inr ⟨_, _, rfl, rfl⟩
    · rw [dif_neg hc, dif_neg fun hc' => hc (hcompanies.mpr hc')]
      exact Or.inl ⟨_, rfl, rfl⟩

/-- The insert of a new person of the company. -/
theorem agreeing_addPerson {row : Person} (h : Low company o₁ o₂ s₁ s₂)
    (hcompany : row.companyId = company) (hfresh₁ : ¬∃ q ∈ s₁.main.persons, q.id = row.id)
    (hfresh₂ : ¬∃ q ∈ s₂.main.persons, q.id = row.id) :
    Agreeing company o₁ o₂ (.add (.person row)) s₁ s₂ := by
  have hcompanies : (∃ c ∈ s₁.main.companies, c.id = row.companyId) ↔
      ∃ c ∈ s₂.main.companies, c.id = row.companyId := by
    rw [hcompany]
    constructor
    · rintro ⟨c, hc⟩
      exact ⟨c, mem_tenant_companies.mp (h.agree.companies.mem_iff.mp (mem_tenant_companies.mpr hc))⟩
    · rintro ⟨c, hc⟩
      exact ⟨c, mem_tenant_companies.mp (h.agree.companies.mem_iff.mpr (mem_tenant_companies.mpr hc))⟩
  refine agreeing_of_add h ((insertPerson_alike hfresh₁ hfresh₂ hcompanies).imp_right ?_)
  rintro ⟨d₁, d₂, h₁, h₂⟩
  obtain ⟨-, -, ht₁⟩ := insertPerson_ok h₁
  obtain ⟨-, -, ht₂⟩ := insertPerson_ok h₂
  obtain ⟨hmine₁, hothers₁⟩ := rows_addPerson hcompany ht₁
  obtain ⟨hmine₂, hothers₂⟩ := rows_addPerson hcompany ht₂
  refine ⟨d₁, d₂, h₁, h₂, ?_, h.chat, ?_, ?_, hothers₁.trans h.others₁, hothers₂.trans h.others₂⟩
  · unfold AgreeOn
    rw [hmine₁, hmine₂]
    exact ⟨h.agree.companies, h.agree.businessUnits, h.agree.persons.append_right [row],
      h.agree.profiles⟩
  · have hinsert : s₁.main.insert (.person row) = .ok d₁ := h₁
    exact h.tenant₁.insert (fun p hp => by cases hp) hinsert
  · have hinsert : s₂.main.insert (.person row) = .ok d₂ := h₂
    exact h.tenant₂.insert (fun p hp => by cases hp) hinsert

/-- A row of the company is there in both states. -/
theorem Low.businessUnit (h : Low company o₁ o₂ s₁ s₂) {b : BusinessUnit}
    (hb : b ∈ s₁.main.businessUnits) (hcompany : b.companyId = company) :
    b ∈ s₂.main.businessUnits :=
  (mem_tenant_businessUnits.mp
    (h.agree.businessUnits.mem_iff.mp (mem_tenant_businessUnits.mpr ⟨hb, hcompany⟩))).1

theorem Low.person (h : Low company o₁ o₂ s₁ s₂) {q : Person} (hq : q ∈ s₁.main.persons)
    (hcompany : q.companyId = company) : q ∈ s₂.main.persons :=
  (mem_tenant_persons.mp
    (h.agree.persons.mem_iff.mp (mem_tenant_persons.mpr ⟨hq, hcompany⟩))).1

/-- The insert of a profile is refused in both states for the same reason, or in
neither. -/
theorem insertProfile_alike {d₁ d₂ : MainDb} {row : BuStaffProfile}
    (hfresh₁ : ¬∃ p ∈ d₁.profiles, p.id = row.id) (hfresh₂ : ¬∃ p ∈ d₂.profiles, p.id = row.id)
    (hkey : (∃ p ∈ d₁.profiles, loginKey p = loginKey row) ↔
      ∃ p ∈ d₂.profiles, loginKey p = loginKey row)
    (hpersons₁ : ∃ q ∈ d₁.persons, q.id = row.personId)
    (hpersons₂ : ∃ q ∈ d₂.persons, q.id = row.personId)
    (hunits₁ : ∃ b ∈ d₁.businessUnits, b.id = row.buId)
    (hunits₂ : ∃ b ∈ d₂.businessUnits, b.id = row.buId) :
    (∃ e, d₁.insertProfile row = .error e ∧ d₂.insertProfile row = .error e) ∨
      ∃ d₁' d₂', d₁.insertProfile row = .ok d₁' ∧ d₂.insertProfile row = .ok d₂' := by
  unfold MainDb.insertProfile
  by_cases hlength : 255 < row.email.length
  · exact Or.inl ⟨.tooLong 255, if_pos hlength, if_pos hlength⟩
  · rw [if_neg hlength, if_neg hlength, dif_neg hfresh₁, dif_neg hfresh₂]
    by_cases htaken : ∃ p ∈ d₁.profiles, loginKey p = loginKey row
    · rw [dif_pos htaken, dif_pos (hkey.mp htaken)]
      exact Or.inl ⟨_, rfl, rfl⟩
    · have htaken₂ : ¬∃ p ∈ d₂.profiles, loginKey p = loginKey row :=
        fun htaken₂ => htaken (hkey.mpr htaken₂)
      rw [dif_neg htaken, dif_neg htaken₂, dif_pos hpersons₁, dif_pos hunits₁, dif_pos hpersons₂,
        dif_pos hunits₂]
      exact Or.inr ⟨_, _, rfl, rfl⟩

/-- The insert of a new profile of a person and a business unit of the company. -/
theorem agreeing_addProfile {row : BuStaffProfile} {person : Person} {bu : BusinessUnit}
    (h : Low company o₁ o₂ s₁ s₂) (hperson : person ∈ s₁.main.persons)
    (hbu : bu ∈ s₁.main.businessUnits) (hpersonId : person.id = row.personId)
    (hbuId : bu.id = row.buId) (hmine : person.companyId = company) (hours : bu.companyId = company)
    (hfresh₁ : ¬∃ p ∈ s₁.main.profiles, p.id = row.id)
    (hfresh₂ : ¬∃ p ∈ s₂.main.profiles, p.id = row.id) :
    Agreeing company o₁ o₂ (.add (.profile row)) s₁ s₂ := by
  have hperson₂ := h.person hperson hmine
  have hbu₂ := h.businessUnit hbu hours
  have hkey : (∃ p ∈ s₁.main.profiles, loginKey p = loginKey row) ↔
      ∃ p ∈ s₂.main.profiles, loginKey p = loginKey row :=
    profile_agree h.agree ⟨bu, hbu, hbuId, hours⟩ fun p hkey => (Prod.mk.inj hkey).1
  have hdecided := insertProfile_alike hfresh₁ hfresh₂ hkey ⟨person, hperson, hpersonId⟩
    ⟨person, hperson₂, hpersonId⟩ ⟨bu, hbu, hbuId⟩ ⟨bu, hbu₂, hbuId⟩
  refine agreeing_of_add h (hdecided.imp_right ?_)
  rintro ⟨d₁, d₂, h₁, h₂⟩
  have hinsert₁ : s₁.main.insert (.profile row) = .ok d₁ := h₁
  have hinsert₂ : s₂.main.insert (.profile row) = .ok d₂ := h₂
  obtain ⟨-, -, -, -, ht₁⟩ := insertProfile_ok h₁
  obtain ⟨-, -, -, -, ht₂⟩ := insertProfile_ok h₂
  obtain ⟨hmine₁, hothers₁⟩ := rows_addProfile ⟨bu, hbu, hbuId, hours⟩ ht₁
  obtain ⟨hmine₂, hothers₂⟩ := rows_addProfile ⟨bu, hbu₂, hbuId, hours⟩ ht₂
  have hcompany : person.companyId = bu.companyId := hmine.trans hours.symm
  refine ⟨d₁, d₂, h₁, h₂, ?_, h.chat, ?_, ?_, hothers₁.trans h.others₁, hothers₂.trans h.others₂⟩
  · unfold AgreeOn
    rw [hmine₁, hmine₂]
    exact ⟨h.agree.companies, h.agree.businessUnits, h.agree.persons,
      h.agree.profiles.append_right [row]⟩
  · refine h.tenant₁.insert (fun p hp => ?_) hinsert₁
    cases hp
    exact WithinTenant.of_insert hperson hbu hpersonId hbuId hcompany hinsert₁
  · refine h.tenant₂.insert (fun p hp => ?_) hinsert₂
    cases hp
    exact WithinTenant.of_insert hperson₂ hbu₂ hpersonId hbuId hcompany hinsert₂

/-- The role of a profile of the company is rewritten in its own rows only. -/
theorem rows_setRole {d : MainDb} {id : Uuid} (role : StaffRole)
    (hof : ∀ p ∈ d.profiles, p.id = id → OfCompany d.toMainTables company p) :
    let f : BuStaffProfile → BuStaffProfile := fun p => if p.id = id then { p with role } else p
    tenantRows (d.setRole id role).toMainTables company =
        { tenantRows d.toMainTables company with
          profiles := (tenantRows d.toMainTables company).profiles.map f } ∧
      otherRows (d.setRole id role).toMainTables company = otherRows d.toMainTables company := by
  intro f
  have hbu : ∀ p, (f p).buId = p.buId := fun p =>
    (Prod.mk.inj (setRole_fields id role p).2.2).1
  have hsame : ∀ p, OfCompany (d.setRole id role).toMainTables company (f p) ↔
      OfCompany d.toMainTables company p := by
    intro p
    unfold OfCompany
    rw [hbu]
    exact Iff.rfl
  have hprofiles : (d.setRole id role).profiles = d.profiles.map f := rfl
  constructor
  · unfold tenantRows
    rw [hprofiles, List.filter_map]
    congr 1
    congr 1
    exact List.filter_congr fun p _ => by simp [hsame]
  · unfold otherRows
    rw [hprofiles, List.filter_map]
    congr 1
    have hfilter : d.profiles.filter ((fun p => decide ¬OfCompany (d.setRole id role).toMainTables
        company p) ∘ f) = d.profiles.filter fun p => ¬OfCompany d.toMainTables company p :=
      List.filter_congr fun p _ => by simp [hsame]
    rw [hfilter]
    refine (List.map_congr_left fun p hp => ?_).trans (List.map_id _)
    obtain ⟨hp, hforeign⟩ := List.mem_filter.mp hp
    have hne : p.id ≠ id := fun hid => of_decide_eq_true hforeign (hof p hp hid)
    exact if_neg hne

/-- The save of a role of a profile of the company. -/
theorem agreeing_saveRole {profile : BuStaffProfile} {role : StaffRole}
    (h : Low company o₁ o₂ s₁ s₂)
    (hprofile : profile ∈ (tenantRows s₁.main.toMainTables company).profiles) :
    Agreeing company o₁ o₂ (.profileSaveRole profile.id role) s₁ s₂ := by
  have loaded : ∀ d : MainDb, profile ∈ (tenantRows d.toMainTables company).profiles →
      ∀ p ∈ d.profiles, p.id = profile.id → OfCompany d.toMainTables company p := by
    intro d hmem p hp hid
    obtain ⟨hprofile, hof⟩ := mem_tenant_profiles.mp hmem
    rw [d.valid.profiles_id.eq hp hprofile hid]
    exact hof
  obtain ⟨hmine₁, hothers₁⟩ := rows_setRole role (loaded s₁.main hprofile)
  obtain ⟨hmine₂, hothers₂⟩ :=
    rows_setRole role (loaded s₂.main (h.agree.profiles.mem_iff.mp hprofile))
  refine agreeing_of_exec h fun c => ⟨rfl, ?_, h.chat, ?_, ?_, hothers₁.trans h.others₁,
    hothers₂.trans h.others₂⟩
  · refine (?_ : SameRows (tenantRows (s₁.main.setRole profile.id role).toMainTables company)
      (tenantRows (s₂.main.setRole profile.id role).toMainTables company))
    rw [hmine₁, hmine₂]
    exact ⟨h.agree.companies, h.agree.businessUnits, h.agree.persons, h.agree.profiles.map _⟩
  · exact (updateProfiles_keeps h.tenant₁ _ (setRole_fields profile.id role)).1
  · exact (updateProfiles_keeps h.tenant₂ _ (setRole_fields profile.id role)).1

/-- A query at the start of a program. -/
theorem alike_query_bind {β : Type} {op : BackendCall} {f : op.Reply → BackendProgram β}
    (hop : op.Queries) (h : Low company o₁ o₂ s₁ s₂)
    (hreply : ∀ c, (op.exec c s₁).1 = (op.exec c s₂).1)
    (hnext : ∀ t a, (backendMachine.answer op t s₁).1 = .ok a →
      Alike backendMachine (Low company o₁ o₂) (f a) s₁ s₂) :
    Alike backendMachine (Low company o₁ o₂) (call op >>= f) s₁ s₂ := by
  refine Alike.perform_bind (agreeing_of_query hop h hreply) fun t a hok => ?_
  rw [query_state hop, query_state hop]
  exact hnext t a hok

/-- The end of `CreateAsync` and `EnrollExistingAsync`. -/
theorem alike_addProfile {profile : BuStaffProfile} {person : Person} {bu : BusinessUnit}
    (h : Low company o₁ o₂ s₁ s₂) (hperson : person ∈ s₁.main.persons)
    (hbu : bu ∈ s₁.main.businessUnits) (hpersonId : person.id = profile.personId)
    (hbuId : bu.id = profile.buId) (hmine : person.companyId = company)
    (hours : bu.companyId = company) (hfresh₁ : ¬∃ p ∈ s₁.main.profiles, p.id = profile.id)
    (hfresh₂ : ¬∃ p ∈ s₂.main.profiles, p.id = profile.id) :
    Alike backendMachine (Low company o₁ o₂) (StaffService.addProfile person bu profile) s₁ s₂ := by
  have hadd : Agreeing company o₁ o₂ (.add (.profile profile)) s₁ s₂ :=
    agreeing_addProfile h hperson hbu hpersonId hbuId hmine hours hfresh₁ hfresh₂
  unfold StaffService.addProfile
  refine Alike.perform_bind hadd fun t a hok => ?_
  -- what follows is left to the chat service, which is in the same state
  refine Alike.of_allOps (P := fun op => ∃ rpc, op = BackendCall.chat rpc) ?_ ?_ (hadd t).2
  · refine withWorkspace_allOps ⟨_, rfl⟩ trivial fun w => ?_
    exact Program.AllOps.bind (Program.AllOps.perform_bind ⟨_, rfl⟩ fun _ => trivial)
      fun _ => trivial
  · intro op t' s s' hop hlow
    obtain ⟨rpc, rfl⟩ := hop
    exact agreeing_of_chat rpc hlow t'

/-- `CreateAsync`. -/
theorem alike_create (settings : Settings) {draws : Draws} {q : CreateStaffRequest}
    (h : Low company o₁ o₂ s₁ s₂) (hfresh₁ : (TenantOperation.createStaff draws q).FreshIn s₁.main)
    (hfresh₂ : (TenantOperation.createStaff draws q).FreshIn s₂.main) :
    Alike backendMachine (Low company o₁ o₂) (StaffService.create settings draws company q)
      s₁ s₂ := by
  have hlookup : BackendCall.Queries (.businessUnitGetById q.buId company) := trivial
  unfold StaffService.create
  refine alike_query_bind hlookup h (fun _ => congrArg Except.ok (getById_agree h.agree _))
    fun t a hok => ?_
  cases a with
  | none => exact h
  | some bu =>
    obtain ⟨hbu, -, hours⟩ := businessUnitGetById_ok hok
    dsimp only
    cases hrole : assignableRole q.role with
    | none => exact h
    | some role =>
      have hadd : Agreeing company o₁ o₂
          (.add (.person (Person.create (draws.stamps 0) company q.firstName q.lastName))) s₁ s₂ :=
        agreeing_addPerson h rfl hfresh₁.1 hfresh₂.1
      refine Alike.perform_bind hadd fun t' a' hok' => ?_
      have hlow := (hadd t').2
      obtain ⟨d₁, hd₁, hstored₁⟩ := answer_add_ok hok'
      obtain ⟨d₂, hd₂, hstored₂⟩ := answer_add_ok ((hadd t').1 ▸ hok')
      rw [hstored₁, hstored₂] at hlow ⊢
      obtain ⟨-, -, ht₁⟩ := insertPerson_ok hd₁
      obtain ⟨-, -, ht₂⟩ := insertPerson_ok hd₂
      have hperson : Person.create (draws.stamps 0) company q.firstName q.lastName ∈ d₁.persons := by
        rw [ht₁]
        exact List.mem_append_right _ (List.mem_singleton_self _)
      have hprofiles₁ : d₁.profiles = s₁.main.profiles := by rw [ht₁]
      have hprofiles₂ : d₂.profiles = s₂.main.profiles := by rw [ht₂]
      refine alike_addProfile hlow hperson ((insert_keepsRows hd₁).businessUnits _ hbu) rfl rfl rfl
        hours ?_ ?_
      · rw [hprofiles₁]
        exact hfresh₁.2
      · rw [hprofiles₂]
        exact hfresh₂.2

/-- `EnrollExistingAsync`. -/
theorem alike_enrollExisting (settings : Settings) {draws : Draws} {q : EnrollExistingStaffRequest}
    (h : Low company o₁ o₂ s₁ s₂)
    (hfresh₁ : (TenantOperation.enrollExisting draws q).FreshIn s₁.main)
    (hfresh₂ : (TenantOperation.enrollExisting draws q).FreshIn s₂.main) :
    Alike backendMachine (Low company o₁ o₂) (StaffService.enrollExisting settings draws company q)
      s₁ s₂ := by
  have hunitLookup : BackendCall.Queries (.businessUnitGetById q.buId company) := trivial
  have hpersonLookup : BackendCall.Queries (.personGetById q.personId company) := trivial
  unfold StaffService.enrollExisting
  refine alike_query_bind hunitLookup h (fun _ => congrArg Except.ok (getById_agree h.agree _))
    fun t a hok => ?_
  cases a with
  | none => exact h
  | some bu =>
    obtain ⟨hbu, hid, hours⟩ := businessUnitGetById_ok hok
    refine alike_query_bind hpersonLookup h
      (fun _ => congrArg Except.ok (personGetById_agree h.agree _)) fun t' a' hok' => ?_
    cases a' with
    | none => exact h
    | some person =>
      obtain ⟨hperson, -, hmine⟩ := personGetById_ok hok'
      have hprofileLookup : BackendCall.Queries (.profileGetByPersonAndBu person.id bu.id) := trivial
      refine alike_query_bind hprofileLookup h (fun c => congrArg Except.ok
        (getByPersonAndBu_agree h.agree h.tenant₁ h.tenant₂ ⟨bu, hbu, rfl, hours⟩ c.tie person.id))
        fun t'' a'' hok'' => ?_
      cases a'' with
      | some existing => exact h
      | none =>
        dsimp only
        cases hrole : assignableRole q.role with
        | none => exact h
        | some role => exact alike_addProfile h hperson hbu rfl rfl hmine hours hfresh₁ hfresh₂

/-- `UpdateRoleAsync` on a business unit of the caller's company. -/
theorem alike_updateRole {person bu : Uuid} (text : String) (h : Low company o₁ o₂ s₁ s₂)
    (hbu : ∃ b ∈ s₁.main.businessUnits, b.id = bu ∧ b.companyId = company) :
    Alike backendMachine (Low company o₁ o₂) (StaffService.updateRole person bu company text)
      s₁ s₂ := by
  have hlookup : BackendCall.Queries (.profileGetByPersonAndBu person bu) := trivial
  unfold StaffService.updateRole
  refine alike_query_bind hlookup h (fun c => congrArg Except.ok
    (getByPersonAndBu_agree h.agree h.tenant₁ h.tenant₂ hbu c.tie person)) fun t a hok => ?_
  cases a with
  | none => exact h
  | some row =>
    obtain ⟨profile, owner⟩ := row
    dsimp only
    split
    · exact h
    rename_i hcompany
    cases hrole : assignableRole text with
    | none => exact h
    | some role =>
      dsimp only
      split
      · exact h
      · obtain ⟨hprofile, howner, hid⟩ := profileGetByPersonAndBu_ok hok
        obtain ⟨b, hb, hbid⟩ := s₁.main.valid.profiles_businessUnit profile hprofile
        have hwithin : owner.companyId = b.companyId :=
          h.tenant₁ profile hprofile owner howner hid b hb hbid
        have hof : OfCompany s₁.main.toMainTables company profile :=
          ⟨b, hb, hbid, hwithin.symm.trans (not_not.mp hcompany)⟩
        exact Alike.perform (agreeing_saveRole h (mem_tenant_profiles.mpr ⟨hprofile, hof⟩))

/-- A program that goes the same way in both states is noninterfering. -/
theorem NonInterfering.of_alike {settings : Settings} {op : TenantOperation}
    (env : ℕ → Turn BackendChoice Exn)
    (h : Alike backendMachine (Low company o₁ o₂) (op.program settings company) s₁ s₂)
    (ho₁ : o₁ = otherRows s₁.main.toMainTables company)
    (ho₂ : o₂ = otherRows s₂.main.toMainTables company) :
    NonInterfering settings company op env s₁ s₂ := by
  obtain ⟨houtcome, hlow⟩ := h.run env
  exact ⟨SameOutcome.of_eq houtcome, hlow.agree, hlow.others₁.trans ho₁, hlow.others₂.trans ho₂⟩

/-- An operation that writes nothing is noninterfering exactly if it has the same outcome. -/
theorem NonInterfering.iff_outcome {settings : Settings} {op : TenantOperation}
    {env : ℕ → Turn BackendChoice Exn} {r₁ r₂ : Except Exn TenantResponse}
    (hagree : AgreeOn company s₁.main.toMainTables s₂.main.toMainTables)
    (h₁ : (op.program settings company).run backendMachine env s₁ = (r₁, s₁))
    (h₂ : (op.program settings company).run backendMachine env s₂ = (r₂, s₂)) :
    NonInterfering settings company op env s₁ s₂ ↔ SameOutcome r₁ r₂ := by
  constructor
  · intro hni
    have houtcome := hni.outcome
    rw [h₁, h₂] at houtcome
    exact houtcome
  · intro houtcome
    constructor
    · rw [h₁, h₂]
      exact houtcome
    · rw [h₁, h₂]
      exact hagree
    · rw [h₁]
    · rw [h₂]

/-- The person has a profile in the business unit. -/
def HasProfile (d : MainTables) (person bu : Uuid) : Prop :=
  ∃ p ∈ d.profiles, p.personId = person ∧ p.buId = bu

instance (d : MainTables) (person bu : Uuid) : Decidable (HasProfile d person bu) := by
  unfold HasProfile
  infer_instance

/-- A role update whose lookup is served finds a profile in both states, or in
neither. -/
def TenantOperation.FindsAlike (env : ℕ → Turn BackendChoice Exn) (d₁ d₂ : MainTables) :
    TenantOperation → Prop
  | updateRole person bu _ =>
    (∃ c, env 0 = .serve c) → (HasProfile d₁ person bu ↔ HasProfile d₂ person bu)
  | _ => True

/-- Nothing is found without a profile. -/
theorem getByPersonAndBu_none {d : MainDb} {person bu : Uuid}
    (h : ¬HasProfile d.toMainTables person bu) (tie : Uuid → ℕ) :
    BuStaffProfileRepository.getByPersonAndBu d tie person bu = none := by
  have hnil : (d.profiles.filter fun p => p.personId = person ∧ p.buId = bu) = [] := by
    refine List.filter_eq_nil_iff.mpr fun p hp hkey => h ⟨p, hp, ?_⟩
    exact of_decide_eq_true hkey
  unfold BuStaffProfileRepository.getByPersonAndBu
  rw [hnil]
  rfl

/-- A profile of the person in the business unit is found, if there is one. -/
theorem getByPersonAndBu_some {d : MainDb} {person bu : Uuid}
    (h : HasProfile d.toMainTables person bu) (tie : Uuid → ℕ) :
    ∃ profile owner, BuStaffProfileRepository.getByPersonAndBu d tie person bu =
      some (profile, owner) ∧ profile.buId = bu := by
  obtain ⟨p, hp, hkey⟩ := h
  have hmem : p ∈ d.profiles.filter fun p => p.personId = person ∧ p.buId = bu :=
    List.mem_filter.mpr ⟨hp, decide_eq_true hkey⟩
  unfold BuStaffProfileRepository.getByPersonAndBu
  cases hhead : (sortOn (tieRank (fun _ => ()) tie BuStaffProfile.id)
      (d.profiles.filter fun p => p.personId = person ∧ p.buId = bu)).head? with
  | none =>
    have hnil := eq_nil_of_sortOn_eq_nil (List.head?_eq_none_iff.mp hhead)
    rw [hnil] at hmem
    cases hmem
  | some profile =>
    obtain ⟨hprofile, hfound⟩ := List.mem_filter.mp (mem_sortOn.mp (List.mem_of_mem_head? hhead))
    obtain ⟨owner, howner, hid⟩ := d.valid.profiles_person profile hprofile
    have hperson : personOf d profile = some owner :=
      (find?_eq_some_iff d.valid.persons_id).mpr ⟨howner, hid⟩
    refine ⟨profile, owner, ?_, (of_decide_eq_true hfound).2⟩
    unfold withPerson
    rw [Option.bind_some, hperson]
    rfl

/-- A role update in a business unit that is not the caller's tells by its
exception whether the person has a profile there. -/
theorem run_updateRole_foreign {settings : Settings} {person bu : Uuid} {role : String}
    {env : ℕ → Turn BackendChoice Exn} {c : BackendChoice} (hc : env 0 = .serve c) {s : World}
    (hs : SameTenant s.main.toMainTables)
    (hforeign : ¬∃ b ∈ s.main.businessUnits, b.id = bu ∧ b.companyId = company) :
    ((TenantOperation.updateRole person bu role).program settings company).run backendMachine env s =
      (if HasProfile s.main.toMainTables person bu then
        .error (.unauthorizedAccess "Access denied.")
      else .error (.invalidOperation "Staff profile not found."), s) := by
  have hreply : backendMachine.answer (.profileGetByPersonAndBu person bu) (env 0) s =
      (.ok (BuStaffProfileRepository.getByPersonAndBu s.main c.tie person bu), s) := by
    rw [hc]
    rfl
  unfold TenantOperation.program StaffService.updateRole
  rw [Program.run_map, Program.run_perform_bind, hreply]
  by_cases h : HasProfile s.main.toMainTables person bu
  · obtain ⟨profile, owner, hfound, hunit⟩ := getByPersonAndBu_some h c.tie
    obtain ⟨hprofile, howner, hid⟩ := getByPersonAndBu_mem hfound
    obtain ⟨b, hb, hbid⟩ := s.main.valid.profiles_businessUnit profile hprofile
    have hwithin : owner.companyId = b.companyId := hs profile hprofile owner howner hid b hb hbid
    have hother : owner.companyId ≠ company := fun hcompany =>
      hforeign ⟨b, hb, hbid.trans hunit, hwithin.symm.trans hcompany⟩
    rw [hfound, if_pos h]
    dsimp only
    rw [if_pos hother]
    rfl
  · rw [getByPersonAndBu_none h, if_neg h]
    rfl

/-- A lookup that is not served ends a role update. -/
theorem run_updateRole_unserved (settings : Settings) (company person bu : Uuid) (role : String)
    {env : ℕ → Turn BackendChoice Exn} (henv : ¬∃ c, env 0 = .serve c) :
    ∃ e, ∀ s, ((TenantOperation.updateRole person bu role).program settings company).run
      backendMachine env s = (.error e, s) := by
  have hlookup : BackendCall.Queries (.profileGetByPersonAndBu person bu) := trivial
  have ends : ∀ e, (∀ s, (backendMachine.answer (.profileGetByPersonAndBu person bu) (env 0) s).1 =
      .error e) → ∀ s, ((TenantOperation.updateRole person bu role).program settings company).run
        backendMachine env s = (.error e, s) := by
    intro e he s
    unfold TenantOperation.program StaffService.updateRole
    rw [Program.run_map, Program.run_perform_bind, he, query_state hlookup]
    rfl
  cases ht : env 0 with
  | serve c => exact absurd ⟨c, ht⟩ henv
  | drop e => exact ⟨e, ends e fun s => by rw [ht]; rfl⟩
  | lost c e => exact ⟨e, ends e fun s => by rw [ht]; rfl⟩

/-- A role update is noninterfering exactly if its lookup finds alike. -/
theorem updateRole_nonInterfering_iff (settings : Settings) {person bu : Uuid} {role : String}
    (env : ℕ → Turn BackendChoice Exn)
    (h : Low company (otherRows s₁.main.toMainTables company)
      (otherRows s₂.main.toMainTables company) s₁ s₂) :
    NonInterfering settings company (.updateRole person bu role) env s₁ s₂ ↔
      (TenantOperation.updateRole person bu role).FindsAlike env s₁.main.toMainTables
        s₂.main.toMainTables := by
  by_cases hbu : ∃ b ∈ s₁.main.businessUnits, b.id = bu ∧ b.companyId = company
  · have halike : Alike backendMachine (Low company _ _)
        ((TenantOperation.updateRole person bu role).program settings company) s₁ s₂ :=
      (alike_updateRole role h hbu).map _
    refine iff_of_true (NonInterfering.of_alike env halike rfl rfl) fun _ => ?_
    -- the profiles of a business unit of the company are among the rows that agree
    exact profile_agree h.agree hbu fun p hkey => hkey.2
  · have hbu₂ : ¬∃ b ∈ s₂.main.businessUnits, b.id = bu ∧ b.companyId = company :=
      fun hbu₂ => hbu ((unit_agree h.agree).mpr hbu₂)
    by_cases henv : ∃ c, env 0 = .serve c
    · obtain ⟨c, hc⟩ := henv
      have hfinds : (TenantOperation.updateRole person bu role).FindsAlike env s₁.main.toMainTables
          s₂.main.toMainTables ↔ (HasProfile s₁.main.toMainTables person bu ↔
            HasProfile s₂.main.toMainTables person bu) :=
        ⟨fun h => h ⟨c, hc⟩, fun h _ => h⟩
      -- nothing is written, so only the exceptions can differ
      refine (NonInterfering.iff_outcome h.agree (run_updateRole_foreign hc h.tenant₁ hbu)
        (run_updateRole_foreign hc h.tenant₂ hbu₂)).trans (Iff.trans ?_ hfinds.symm)
      by_cases h₁ : HasProfile s₁.main.toMainTables person bu <;>
        by_cases h₂ : HasProfile s₂.main.toMainTables person bu <;>
        simp [h₁, h₂, SameOutcome, exnKind]
    · obtain ⟨e, he⟩ := run_updateRole_unserved settings company person bu role henv
      have hni := (NonInterfering.iff_outcome h.agree (he s₁) (he s₂)).mpr (SameOutcome.of_eq rfl)
      exact iff_of_true hni fun hserved => absurd hserved henv

/-- Every operation but a role update is noninterfering, and a role update exactly
if its lookup finds alike. -/
theorem nonInterfering_iff_findsAlike (settings : Settings) (op : TenantOperation)
    (env : ℕ → Turn BackendChoice Exn)
    (h : Low company (otherRows s₁.main.toMainTables company)
      (otherRows s₂.main.toMainTables company) s₁ s₂)
    (hfresh₁ : op.FreshIn s₁.main) (hfresh₂ : op.FreshIn s₂.main) :
    NonInterfering settings company op env s₁ s₂ ↔
      op.FindsAlike env s₁.main.toMainTables s₂.main.toMainTables := by
  have alike : Alike backendMachine (Low company _ _) (op.program settings company) s₁ s₂ →
      NonInterfering settings company op env s₁ s₂ :=
    fun halike => NonInterfering.of_alike env halike rfl rfl
  cases op with
  | getAllStaff =>
    have hquery : BackendCall.Queries (.profileGetByCompany company) := trivial
    refine iff_of_true (alike (Alike.map _ ?_)) trivial
    exact alike_query_bind hquery h (fun c => congrArg Except.ok
      (profileGetByCompany_agree h.agree h.tenant₁ h.tenant₂ c.tie)) fun _ _ _ => h
  | getPersons =>
    have hquery : BackendCall.Queries (.personGetByCompany company) := trivial
    exact iff_of_true (alike (Alike.map _ (Alike.perform (agreeing_of_query hquery h fun c =>
      congrArg Except.ok (personGetByCompany_agree h.agree c.tie))))) trivial
  | createStaff draws q =>
    exact iff_of_true (alike ((alike_create settings h hfresh₁ hfresh₂).map _)) trivial
  | enrollExisting draws q =>
    exact iff_of_true (alike ((alike_enrollExisting settings h hfresh₁ hfresh₂).map _)) trivial
  | updateRole person bu role => exact updateRole_nonInterfering_iff settings env h
  | getAllUnits =>
    have hquery : BackendCall.Queries (.businessUnitGetByCompany company) := trivial
    exact iff_of_true (alike (Alike.map _ (Alike.perform (agreeing_of_query hquery h fun c =>
      congrArg Except.ok (getByCompany_agree h.agree c.tie))))) trivial

/-- No profile crosses companies in a reachable state. -/
theorem sameTenant_of_reachable {settings : Settings} {p : BackendPool}
    (h : Reachable (BackendPool.step settings) (BackendPool.initial World.seeded) p) :
    SameTenant p.state.main.toMainTables := by
  have hinitial : Tenanted (BackendPool.initial World.seeded) := Governed.initial sameTenant_seed
  exact (Reachable.invariant (Tenanted.step settings) hinitial h).inv

/-- Two reachable states that agree on the rows of a company, with the chat
service in the same state: an operation of a caller of the company is
noninterfering exactly if it is no role update, or its lookup fails, or the
person that it names has a profile in the business unit in both or in neither. -/
theorem noninterference_iff (settings : Settings) {p₁ p₂ : BackendPool}
    (h₁ : Reachable (BackendPool.step settings) (BackendPool.initial World.seeded) p₁)
    (h₂ : Reachable (BackendPool.step settings) (BackendPool.initial World.seeded) p₂)
    {company : Uuid} (hagree : AgreeOn company p₁.state.main.toMainTables p₂.state.main.toMainTables)
    (chat : ChatState) (op : TenantOperation) (env : ℕ → Turn BackendChoice Exn)
    (hfresh₁ : op.FreshIn p₁.state.main) (hfresh₂ : op.FreshIn p₂.state.main) :
    NonInterfering settings company op env ⟨p₁.state.main, chat⟩ ⟨p₂.state.main, chat⟩ ↔
      op.FindsAlike env p₁.state.main.toMainTables p₂.state.main.toMainTables := by
  have hlow : Low company (otherRows p₁.state.main.toMainTables company)
      (otherRows p₂.state.main.toMainTables company) ⟨p₁.state.main, chat⟩ ⟨p₂.state.main, chat⟩ :=
    ⟨hagree, rfl, sameTenant_of_reachable h₁, sameTenant_of_reachable h₂, rfl, rfl⟩
  exact nonInterfering_iff_findsAlike settings op env hlow hfresh₁ hfresh₂

/-- The company of the seed. -/
def seedCompany : Uuid := 0x10000000000000000000000000000001

/-- Another company onboards. -/
def otherOnboards : List BackendLabel :=
  .start (.onboard (Draws.from 100) ⟨"Spa", none, none, "Ann", none, "ann@spa.test", "secret"⟩) ::
    List.replicate 7 (.turn 0 (servedWith 10 0))

/-- The backend reaches a state in which the other company has onboarded, and
which agrees with the seed on the rows of the company of the seed. -/
theorem otherOnboards_reached : ∃ p : BackendPool,
    run (BackendPool.step Settings.plain) (BackendPool.initial World.seeded) otherOnboards =
        some p ∧
      AgreeOn seedCompany World.seeded.main.toMainTables p.state.main.toMainTables ∧
      HasProfile p.state.main.toMainTables 102 101 ∧ p.state.main.persons.map Person.id =
        [0x30000000000000000000000000000001, 102] ∧
      p.state.main.profiles.map BuStaffProfile.id = [0x40000000000000000000000000000001, 103] := by
  have hrun : ((run (BackendPool.step Settings.plain) (BackendPool.initial World.seeded)
      otherOnboards).any
      fun p => decide (AgreeOn seedCompany World.seeded.main.toMainTables p.state.main.toMainTables ∧
        HasProfile p.state.main.toMainTables 102 101 ∧ p.state.main.persons.map Person.id =
          [0x30000000000000000000000000000001, 102] ∧ p.state.main.profiles.map BuStaffProfile.id =
          [0x40000000000000000000000000000001, 103])) = true := by
    decide
  obtain ⟨p, hp, h⟩ := (Option.any_eq_true _ _).mp hrun
  exact ⟨p, hp, of_decide_eq_true h⟩

/-- The new staff member of the witness. -/
def newStaff : TenantOperation :=
  .createStaff (Draws.from 200)
    ⟨"Eve", "Ray", 0x20000000000000000000000000000001, "eve@aura.test", "Staff"⟩

/-- The equivalence for the creation of staff in the company of the seed, before
and after another company has onboarded. -/
theorem noninterference_newStaff : ∃ p : BackendPool,
    Reachable (BackendPool.step Settings.plain) (BackendPool.initial World.seeded) p ∧
      (NonInterfering Settings.plain seedCompany newStaff (servedWith 30)
        ⟨World.seeded.main, ChatState.initial⟩ ⟨p.state.main, ChatState.initial⟩ ↔
        newStaff.FindsAlike (servedWith 30) World.seeded.main.toMainTables
          p.state.main.toMainTables) := by
  obtain ⟨p, hp, hagree, -, hpersons, hprofiles⟩ := otherOnboards_reached
  have hreached :
      Reachable (BackendPool.step Settings.plain) (BackendPool.initial World.seeded) p :=
    ⟨_, hp⟩
  have hfresh₁ : newStaff.FreshIn World.seeded.main := by
    refine ⟨?_, ?_⟩ <;> decide
  have hfresh₂ : newStaff.FreshIn p.state.main := by
    constructor
    · rintro ⟨q, hq, hid⟩
      have hmem := List.mem_map_of_mem (f := Person.id) hq
      rw [hpersons, hid] at hmem
      revert hmem
      decide
    · rintro ⟨q, hq, hid⟩
      have hmem := List.mem_map_of_mem (f := BuStaffProfile.id) hq
      rw [hprofiles, hid] at hmem
      revert hmem
      decide
  exact ⟨p, hreached, noninterference_iff Settings.plain (Reachable.refl _) hreached hagree
    ChatState.initial newStaff (servedWith 30) hfresh₁ hfresh₂⟩

/-- A caller of the company of the seed who names the owner and the business unit
of another company is told "Access denied." or "Staff profile not found.",
depending on whether that company has onboarded. -/
theorem noninterference_fails :
    ¬∀ (settings : Settings) (p₁ p₂ : BackendPool) (company : Uuid) (chat : ChatState)
      (op : TenantOperation) (env : ℕ → Turn BackendChoice Exn),
      Reachable (BackendPool.step settings) (BackendPool.initial World.seeded) p₁ →
      Reachable (BackendPool.step settings) (BackendPool.initial World.seeded) p₂ →
      AgreeOn company p₁.state.main.toMainTables p₂.state.main.toMainTables →
      op.FreshIn p₁.state.main → op.FreshIn p₂.state.main →
      NonInterfering settings company op env ⟨p₁.state.main, chat⟩ ⟨p₂.state.main, chat⟩ := by
  intro h
  obtain ⟨p, hp, hagree, hprofile, -, -⟩ := otherOnboards_reached
  have hreached :
      Reachable (BackendPool.step Settings.plain) (BackendPool.initial World.seeded) p :=
    ⟨_, hp⟩
  have hinterferes := h Settings.plain _ p seedCompany ChatState.initial
    (.updateRole 102 101 "Admin") (servedWith 30) (Reachable.refl _) hreached hagree trivial trivial
  have hnone : ¬HasProfile World.seeded.main.toMainTables 102 101 := by decide
  have hforeign : ¬∃ b ∈ World.seeded.main.businessUnits, b.id = 101 ∧ b.companyId = seedCompany := by
    decide
  have houtcome : SameOutcome
      (((TenantOperation.updateRole 102 101 "Admin").program Settings.plain seedCompany).run
        backendMachine (servedWith 30) World.seeded).1
      (((TenantOperation.updateRole 102 101 "Admin").program Settings.plain seedCompany).run
        backendMachine (servedWith 30) ⟨p.state.main, ChatState.initial⟩).1 := hinterferes.outcome
  have hserved : servedWith 30 0 = .serve _ := rfl
  have hother : SameTenant (World.mk p.state.main ChatState.initial).main.toMainTables :=
    sameTenant_of_reachable hreached
  rw [run_updateRole_foreign hserved sameTenant_seed hforeign,
    run_updateRole_foreign hserved hother fun hb => hforeign ((unit_agree hagree).mpr hb),
    if_neg hnone, if_pos hprofile] at houtcome
  cases houtcome

end AuraWellness.Backend.Noninterference
