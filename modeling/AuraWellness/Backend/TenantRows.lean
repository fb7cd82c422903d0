import AuraWellness.Backend.Tenants

/-!
# The rows of one tenant

The rows of a company, and the rows of all others. Where profiles stay within
their tenants, the queries of a company's caller depend on the company's own
rows only, and not on the order they are stored in.
-/

namespace AuraWellness.Backend.TenantRows

open AuraWellness.Lib.Keyed AuraWellness.Lib.Ranked
open AuraWellness.Chat.Entities
open AuraWellness.Backend.Entities AuraWellness.Backend.Schema AuraWellness.Backend.Repositories
open AuraWellness.Backend.Tenants

instance (d : MainTables) (company : Uuid) (p : BuStaffProfile) : Decidable (OfCompany d company p) := by
  unfold OfCompany
  infer_instance

/-- The rows of the company. -/
def tenantRows (d : MainTables) (company : Uuid) : MainTables where
  companies := d.companies.filter fun c => c.id = company
  businessUnits := d.businessUnits.filter fun b => b.companyId = company
  persons := d.persons.filter fun q => q.companyId = company
  profiles := d.profiles.filter fun p => OfCompany d company p

/-- The rows of all other companies. -/
def otherRows (d : MainTables) (company : Uuid) : MainTables where
  companies := d.companies.filter fun c => c.id ≠ company
  businessUnits := d.businessUnits.filter fun b => b.companyId ≠ company
  persons := d.persons.filter fun q => q.companyId ≠ company
  profiles := d.profiles.filter fun p => ¬OfCompany d company p

/-- The same rows, in whatever order they are stored. -/
structure SameRows (t t' : MainTables) : Prop where
  companies : t.companies.Perm t'.companies
  businessUnits : t.businessUnits.Perm t'.businessUnits
  persons : t.persons.Perm t'.persons
  profiles : t.profiles.Perm t'.profiles

/-- Two states agree on all rows of the company. -/
def AgreeOn (company : Uuid) (d d' : MainTables) : Prop :=
  SameRows (tenantRows d company) (tenantRows d' company)

instance (company : Uuid) (d d' : MainTables) : Decidable (AgreeOn company d d') :=
  decidable_of_iff
    ((tenantRows d company).companies.Perm (tenantRows d' company).companies ∧
      (tenantRows d company).businessUnits.Perm (tenantRows d' company).businessUnits ∧
      (tenantRows d company).persons.Perm (tenantRows d' company).persons ∧
      (tenantRows d company).profiles.Perm (tenantRows d' company).profiles)
    ⟨fun h => ⟨h.1, h.2.1, h.2.2.1, h.2.2.2⟩,
      fun h => ⟨h.companies, h.businessUnits, h.persons, h.profiles⟩⟩

theorem mem_tenant_companies {d : MainTables} {company : Uuid} {c : Company} :
    c ∈ (tenantRows d company).companies ↔ c ∈ d.companies ∧ c.id = company := by
  simp [tenantRows]

theorem mem_tenant_businessUnits {d : MainTables} {company : Uuid} {b : BusinessUnit} :
    b ∈ (tenantRows d company).businessUnits ↔ b ∈ d.businessUnits ∧ b.companyId = company := by
  simp [tenantRows]

theorem mem_tenant_persons {d : MainTables} {company : Uuid} {q : Person} :
    q ∈ (tenantRows d company).persons ↔ q ∈ d.persons ∧ q.companyId = company := by
  simp [tenantRows]

theorem mem_tenant_profiles {d : MainTables} {company : Uuid} {p : BuStaffProfile} :
    p ∈ (tenantRows d company).profiles ↔ p ∈ d.profiles ∧ OfCompany d company p := by
  simp [tenantRows]

/-- The rows of a company keep their unique columns. -/
theorem tenant_businessUnits_id (d : MainDb) (company : Uuid) :
    UniqueColumn BusinessUnit.id (tenantRows d.toMainTables company).businessUnits :=
  d.valid.businessUnits_id.filter _

theorem tenant_persons_id (d : MainDb) (company : Uuid) :
    UniqueColumn Person.id (tenantRows d.toMainTables company).persons :=
  d.valid.persons_id.filter _

theorem tenant_profiles_id (d : MainDb) (company : Uuid) :
    UniqueColumn BuStaffProfile.id (tenantRows d.toMainTables company).profiles :=
  d.valid.profiles_id.filter _

variable {d d₁ d₂ : MainDb} {company : Uuid}

/-- A business unit is looked up among the company's. -/
theorem getById_tenant (d : MainDb) (id company : Uuid) :
    BusinessUnitRepository.getById d id company =
      (tenantRows d.toMainTables company).businessUnits.find? fun b => b.id = id := by
  unfold BusinessUnitRepository.getById tenantRows
  rw [List.find?_filter]
  congr 1
  funext b
  simp [and_comm]

/-- A person is looked up among the company's. -/
theorem personGetById_tenant (d : MainDb) (id company : Uuid) :
    PersonRepository.getById d id company =
      (tenantRows d.toMainTables company).persons.find? fun q => q.id = id := by
  unfold PersonRepository.getById tenantRows
  rw [List.find?_filter]
  congr 1
  funext q
  simp [and_comm]

/-- The person of a company's profile is one of the company's. -/
theorem personOf_tenant (hs : SameTenant d.toMainTables) {p : BuStaffProfile}
    (hp : p ∈ (tenantRows d.toMainTables company).profiles) :
    personOf d p = (tenantRows d.toMainTables company).persons.find? fun q => q.id = p.personId := by
  obtain ⟨hp, b, hb, hbid, hcompany⟩ := mem_tenant_profiles.mp hp
  obtain ⟨q, hq, hqid⟩ := d.valid.profiles_person p hp
  have hwithin := hs p hp q hq hqid b hb hbid
  have hleft : personOf d p = some q := (find?_eq_some_iff d.valid.persons_id).mpr ⟨hq, hqid⟩
  rw [hleft, eq_comm, find?_eq_some_iff (tenant_persons_id d company)]
  exact ⟨mem_tenant_persons.mpr ⟨hq, hwithin.trans hcompany⟩, hqid⟩

/-- The business unit of a company's profile is one of the company's. -/
theorem businessUnitOf_tenant {p : BuStaffProfile}
    (hp : p ∈ (tenantRows d.toMainTables company).profiles) :
    businessUnitOf d p =
      (tenantRows d.toMainTables company).businessUnits.find? fun b => b.id = p.buId := by
  obtain ⟨hp, b, hb, hbid, hcompany⟩ := mem_tenant_profiles.mp hp
  have hleft : businessUnitOf d p = some b :=
    (find?_eq_some_iff d.valid.businessUnits_id).mpr ⟨hb, hbid⟩
  rw [hleft, eq_comm, find?_eq_some_iff (tenant_businessUnits_id d company)]
  exact ⟨mem_tenant_businessUnits.mpr ⟨hb, hcompany⟩, hbid⟩

/-- Two states that agree on the company join its profiles alike. -/
theorem withBoth_agree (h : AgreeOn company d₁.toMainTables d₂.toMainTables)
    (hs₁ : SameTenant d₁.toMainTables) (hs₂ : SameTenant d₂.toMainTables) {p : BuStaffProfile}
    (hp : p ∈ (tenantRows d₁.toMainTables company).profiles) :
    withPerson d₁ p = withPerson d₂ p ∧ withBoth d₁ p = withBoth d₂ p := by
  have hp₂ := h.profiles.mem_iff.mp hp
  have hperson : personOf d₁ p = personOf d₂ p := by
    rw [personOf_tenant hs₁ hp, personOf_tenant hs₂ hp₂]
    exact find?_perm (tenant_persons_id d₁ company) h.persons _
  have hunit : businessUnitOf d₁ p = businessUnitOf d₂ p := by
    rw [businessUnitOf_tenant hp, businessUnitOf_tenant hp₂]
    exact find?_perm (tenant_businessUnits_id d₁ company) h.businessUnits _
  unfold withPerson withBoth
  rw [hperson, hunit]
  exact ⟨rfl, rfl⟩

/-- A business unit is the company's in both states or in neither. -/
theorem unit_agree (h : AgreeOn company d₁.toMainTables d₂.toMainTables) {bu : Uuid} :
    (∃ b ∈ d₁.businessUnits, b.id = bu ∧ b.companyId = company) ↔
      ∃ b ∈ d₂.businessUnits, b.id = bu ∧ b.companyId = company := by
  have hmem : ∀ b : BusinessUnit, b ∈ d₁.businessUnits ∧ b.companyId = company ↔
      b ∈ d₂.businessUnits ∧ b.companyId = company := fun b => by
    rw [← mem_tenant_businessUnits, ← mem_tenant_businessUnits]
    exact h.businessUnits.mem_iff
  constructor
  · rintro ⟨b, hb, hid, hcompany⟩
    obtain ⟨hb', -⟩ := (hmem b).mp ⟨hb, hcompany⟩
    exact ⟨b, hb', hid, hcompany⟩
  · rintro ⟨b, hb, hid, hcompany⟩
    obtain ⟨hb', -⟩ := (hmem b).mpr ⟨hb, hcompany⟩
    exact ⟨b, hb', hid, hcompany⟩

/-- A business unit of the company has a profile of some kind in both states or in
neither. -/
theorem profile_agree (h : AgreeOn company d₁.toMainTables d₂.toMainTables) {bu : Uuid}
    (hbu : ∃ b ∈ d₁.businessUnits, b.id = bu ∧ b.companyId = company) {P : BuStaffProfile → Prop}
    (hP : ∀ p, P p → p.buId = bu) : (∃ p ∈ d₁.profiles, P p) ↔ ∃ p ∈ d₂.profiles, P p := by
  have mine : ∀ {d : MainDb}, (∃ b ∈ d.businessUnits, b.id = bu ∧ b.companyId = company) →
      ∀ p ∈ d.profiles, P p → p ∈ (tenantRows d.toMainTables company).profiles := by
    rintro d ⟨b, hb, hid, hcompany⟩ p hp hkind
    exact mem_tenant_profiles.mpr ⟨hp, b, hb, hid.trans (hP p hkind).symm, hcompany⟩
  constructor
  · rintro ⟨p, hp, hkind⟩
    have hmem := h.profiles.mem_iff.mp (mine hbu p hp hkind)
    exact ⟨p, (mem_tenant_profiles.mp hmem).1, hkind⟩
  · rintro ⟨p, hp, hkind⟩
    have hmem := h.profiles.mem_iff.mpr (mine ((unit_agree h).mp hbu) p hp hkind)
    exact ⟨p, (mem_tenant_profiles.mp hmem).1, hkind⟩

/-- A business unit is looked up alike. -/
theorem getById_agree (h : AgreeOn company d₁.toMainTables d₂.toMainTables) (id : Uuid) :
    BusinessUnitRepository.getById d₁ id company = BusinessUnitRepository.getById d₂ id company := by
  rw [getById_tenant, getById_tenant]
  exact find?_perm (tenant_businessUnits_id d₁ company) h.businessUnits id

/-- A person is looked up alike. -/
theorem personGetById_agree (h : AgreeOn company d₁.toMainTables d₂.toMainTables) (id : Uuid) :
    PersonRepository.getById d₁ id company = PersonRepository.getById d₂ id company := by
  rw [personGetById_tenant, personGetById_tenant]
  exact find?_perm (tenant_persons_id d₁ company) h.persons id

/-- The business units of the company are listed alike. -/
theorem getByCompany_agree (h : AgreeOn company d₁.toMainTables d₂.toMainTables) (tie : Uuid → ℕ) :
    BusinessUnitRepository.getByCompany d₁ tie company =
      BusinessUnitRepository.getByCompany d₂ tie company :=
  sortOn_tieRank_eq_of_perm h.businessUnits (tenant_businessUnits_id d₁ company)

/-- The persons of the company are listed alike. -/
theorem personGetByCompany_agree (h : AgreeOn company d₁.toMainTables d₂.toMainTables)
    (tie : Uuid → ℕ) :
    PersonRepository.getByCompany d₁ tie company = PersonRepository.getByCompany d₂ tie company :=
  sortOn_tieRank_eq_of_perm h.persons (tenant_persons_id d₁ company)

/-- The list of the company's profiles is made of its own rows. -/
theorem profileGetByCompany_tenant (hs : SameTenant d.toMainTables) (tie : Uuid → ℕ)
    (company : Uuid) :
    BuStaffProfileRepository.getByCompany d tie company =
      (sortOn (tieRank BuStaffProfile.createdAt tie BuStaffProfile.id)
        (tenantRows d.toMainTables company).profiles).filterMap (withBoth d) := by
  unfold BuStaffProfileRepository.getByCompany
  have hinj : ∀ p ∈ d.profiles, ∀ q ∈ d.profiles,
      tieRank BuStaffProfile.createdAt tie BuStaffProfile.id p =
        tieRank BuStaffProfile.createdAt tie BuStaffProfile.id q → p = q :=
    fun p hp q hq h => d.valid.profiles_id.eq hp hq (tieRank_inj h)
  have hselect : (tenantRows d.toMainTables company).profiles =
      d.profiles.filter fun p => decide (OfCompany d.toMainTables company p) := rfl
  rw [List.filter_filterMap, hselect, ← sortOn_filter _ hinj, List.filterMap_filter]
  refine List.filterMap_congr fun p hp => ?_
  have hp : p ∈ d.profiles := mem_sortOn.mp hp
  obtain ⟨q, hq, hqid⟩ := d.valid.profiles_person p hp
  obtain ⟨b, hb, hbid⟩ := d.valid.profiles_businessUnit p hp
  have hjoin : withBoth d p = some (p, q, b) := by
    have hperson : personOf d p = some q := (find?_eq_some_iff d.valid.persons_id).mpr ⟨hq, hqid⟩
    have hunit : businessUnitOf d p = some b :=
      (find?_eq_some_iff d.valid.businessUnits_id).mpr ⟨hb, hbid⟩
    unfold withBoth
    rw [hperson, hunit]
    rfl
  have hcompany : q.companyId = b.companyId := hs p hp q hq hqid b hb hbid
  have hof : OfCompany d.toMainTables company p ↔ q.companyId = company := by
    constructor
    · rintro ⟨b', hb', hbid', hcompany'⟩
      rw [d.valid.businessUnits_id.eq hb' hb (hbid'.trans hbid.symm)] at hcompany'
      exact hcompany.trans hcompany'
    · intro hq'
      exact ⟨b, hb, hbid, hcompany.symm.trans hq'⟩
  rw [hjoin]
  by_cases hq' : q.companyId = company
  · simp [hof, hq', Option.filter]
  · simp [hof, hq', Option.filter]

/-- The profiles of the company are listed alike. -/
theorem profileGetByCompany_agree (h : AgreeOn company d₁.toMainTables d₂.toMainTables)
    (hs₁ : SameTenant d₁.toMainTables) (hs₂ : SameTenant d₂.toMainTables) (tie : Uuid → ℕ) :
    BuStaffProfileRepository.getByCompany d₁ tie company =
      BuStaffProfileRepository.getByCompany d₂ tie company := by
  rw [profileGetByCompany_tenant hs₁, profileGetByCompany_tenant hs₂,
    ← sortOn_tieRank_eq_of_perm h.profiles (tenant_profiles_id d₁ company)]
  refine List.filterMap_congr fun p hp => ?_
  exact (withBoth_agree h hs₁ hs₂ (mem_sortOn.mp hp)).2

/-- The profiles of a company's business unit are the company's. -/
theorem profiles_of_unit {bu : Uuid} (person : Uuid)
    (hbu : ∃ b ∈ d.businessUnits, b.id = bu ∧ b.companyId = company) :
    (d.profiles.filter fun p => p.personId = person ∧ p.buId = bu) =
      (tenantRows d.toMainTables company).profiles.filter fun p =>
        p.personId = person ∧ p.buId = bu := by
  obtain ⟨b, hb, hid, hcompany⟩ := hbu
  unfold tenantRows
  rw [List.filter_filter]
  refine List.filter_congr fun p hp => ?_
  by_cases hunit : p.buId = bu
  · have hof : OfCompany d.toMainTables company p := ⟨b, hb, hid.trans hunit.symm, hcompany⟩
    simp [hof]
  · simp [hunit]

/-- A profile in a business unit of the company is looked up alike. -/
theorem getByPersonAndBu_agree (h : AgreeOn company d₁.toMainTables d₂.toMainTables)
    (hs₁ : SameTenant d₁.toMainTables) (hs₂ : SameTenant d₂.toMainTables) {bu : Uuid}
    (hbu : ∃ b ∈ d₁.businessUnits, b.id = bu ∧ b.companyId = company) (tie : Uuid → ℕ)
    (person : Uuid) :
    BuStaffProfileRepository.getByPersonAndBu d₁ tie person bu =
      BuStaffProfileRepository.getByPersonAndBu d₂ tie person bu := by
  unfold BuStaffProfileRepository.getByPersonAndBu
  rw [profiles_of_unit person hbu, profiles_of_unit person ((unit_agree h).mp hbu),
    ← sortOn_tieRank_eq_of_perm (h.profiles.filter _)
      ((tenant_profiles_id d₁ company).filter _)]
  cases hhead : (sortOn (tieRank (fun _ => ()) tie BuStaffProfile.id)
      ((tenantRows d₁.toMainTables company).profiles.filter fun p =>
        p.personId = person ∧ p.buId = bu)).head? with
  | none => rfl
  | some p =>
    have hmem := mem_sortOn.mp (List.mem_of_mem_head? hhead)
    exact (withBoth_agree h hs₁ hs₂ (List.mem_of_mem_filter hmem)).1

end AuraWellness.Backend.TenantRows
