import AuraWellness.Lib.Keyed
import AuraWellness.Backend.Entities

/-!
# The main database and its constraints

The four tables with the keys and the unique index of the initial migration,
carried as a field. Rows are inserted one by one or, in a transaction, all
together at the commit.
-/

namespace AuraWellness.Backend.Schema

open AuraWellness.Lib.Keyed
open AuraWellness.Chat.Entities AuraWellness.Backend.Entities

/-- The rows of the main database. -/
structure MainTables where
  /-- `companies`. -/
  companies : List Company
  /-- `business_units`. -/
  businessUnits : List BusinessUnit
  /-- `persons`. -/
  persons : List Person
  /-- `bu_staff_profiles`. -/
  profiles : List BuStaffProfile
  deriving DecidableEq, Repr

/-- The columns of the unique index on profiles. -/
abbrev loginKey (p : BuStaffProfile) : Uuid × String := (p.buId, p.email)

/-- The constraints of the initial migration. -/
structure MainTables.Valid (t : MainTables) : Prop where
  companies_id : UniqueColumn Company.id t.companies
  businessUnits_id : UniqueColumn BusinessUnit.id t.businessUnits
  businessUnits_company : ∀ b ∈ t.businessUnits, ∃ c ∈ t.companies, c.id = b.companyId
  persons_id : UniqueColumn Person.id t.persons
  persons_company : ∀ p ∈ t.persons, ∃ c ∈ t.companies, c.id = p.companyId
  profiles_id : UniqueColumn BuStaffProfile.id t.profiles
  profiles_login : UniqueColumn loginKey t.profiles
  profiles_person : ∀ p ∈ t.profiles, ∃ q ∈ t.persons, q.id = p.personId
  profiles_businessUnit : ∀ p ∈ t.profiles, ∃ b ∈ t.businessUnits, b.id = p.buId

/-- A state of the main database that the schema allows. -/
structure MainDb extends MainTables where
  /-- The constraints hold. -/
  valid : toMainTables.Valid

/-- The main database without any rows. -/
def MainDb.empty : MainDb where
  companies := []
  businessUnits := []
  persons := []
  profiles := []
  valid := by constructor <;> simp [UniqueColumn]

/-- Why the database refused a statement. -/
inductive DbError
  /-- A primary key or the unique index. -/
  | duplicate (constraint : String)
  /-- A foreign key. -/
  | missing (constraint : String)
  /-- A string that its column cannot hold. -/
  | tooLong (length : ℕ)
  /-- The connection or the server failed. -/
  | connection
  deriving DecidableEq, Repr

/-- A row to insert. -/
inductive Insert
  | company (row : Company)
  | businessUnit (row : BusinessUnit)
  | person (row : Person)
  | profile (row : BuStaffProfile)
  deriving DecidableEq, Repr

/-- `INSERT INTO companies`. -/
def MainDb.insertCompany (d : MainDb) (row : Company) : Except DbError MainDb :=
  if 255 < row.name.length then .error (.tooLong 255)
  else if 50 < row.contactNumber.length then .error (.tooLong 50)
  else if hid : ∃ v ∈ d.companies, v.id = row.id then .error (.duplicate "PK_companies")
  else .ok { d with
    companies := d.companies ++ [row]
    valid := { d.valid with
      companies_id := d.valid.companies_id.concat hid
      businessUnits_company := fun b hb => resolved_append _ (d.valid.businessUnits_company b hb)
      persons_company := fun p hp => resolved_append _ (d.valid.persons_company p hp) } }

/-- `INSERT INTO business_units`. -/
def MainDb.insertBusinessUnit (d : MainDb) (row : BusinessUnit) : Except DbError MainDb :=
  if 255 < row.name.length then .error (.tooLong 255)
  else if hid : ∃ v ∈ d.businessUnits, v.id = row.id then .error (.duplicate "PK_business_units")
  else if hc : ∃ c ∈ d.companies, c.id = row.companyId then
    .ok { d with
      businessUnits := d.businessUnits ++ [row]
      valid := { d.valid with
        businessUnits_id := d.valid.businessUnits_id.concat hid
        businessUnits_company := forall_mem_concat d.valid.businessUnits_company hc
        profiles_businessUnit := fun p hp =>
          resolved_append _ (d.valid.profiles_businessUnit p hp) } }
  else .error (.missing "FK_business_units_companies_company_id")

/-- `INSERT INTO persons`. -/
def MainDb.insertPerson (d : MainDb) (row : Person) : Except DbError MainDb :=
  if 100 < row.firstName.length ∨ 100 < row.lastName.length then .error (.tooLong 100)
  else if hid : ∃ v ∈ d.persons, v.id = row.id then .error (.duplicate "PK_persons")
  else if hc : ∃ c ∈ d.companies, c.id = row.companyId then
    .ok { d with
      persons := d.persons ++ [row]
      valid := { d.valid with
        persons_id := d.valid.persons_id.concat hid
        persons_company := forall_mem_concat d.valid.persons_company hc
        profiles_person := fun p hp => resolved_append _ (d.valid.profiles_person p hp) } }
  else .error (.missing "FK_persons_companies_company_id")

/-- `INSERT INTO bu_staff_profiles`. The role is stored as its text, which has at
most 11 characters and always fits its column. -/
def MainDb.insertProfile (d : MainDb) (row : BuStaffProfile) : Except DbError MainDb :=
  if 255 < row.email.length then .error (.tooLong 255)
  else if hid : ∃ v ∈ d.profiles, v.id = row.id then .error (.duplicate "PK_bu_staff_profiles")
  else if hkey : ∃ v ∈ d.profiles, loginKey v = loginKey row then
    .error (.duplicate "IX_bu_staff_profiles_bu_id_email")
  else if hp : ∃ p ∈ d.persons, p.id = row.personId then
    if hb : ∃ b ∈ d.businessUnits, b.id = row.buId then
      .ok { d with
        profiles := d.profiles ++ [row]
        valid := { d.valid with
          profiles_id := d.valid.profiles_id.concat hid
          profiles_login := d.valid.profiles_login.concat hkey
          profiles_person := forall_mem_concat d.valid.profiles_person hp
          profiles_businessUnit := forall_mem_concat d.valid.profiles_businessUnit hb } }
    else .error (.missing "FK_bu_staff_profiles_business_units_bu_id")
  else .error (.missing "FK_bu_staff_profiles_persons_person_id")

/-- What an accepted company leaves. -/
theorem insertCompany_ok {d d' : MainDb} {row : Company} (h : d.insertCompany row = .ok d') :
    (¬∃ v ∈ d.companies, v.id = row.id) ∧
      d'.toMainTables = { d.toMainTables with companies := d.companies ++ [row] } := by
  unfold MainDb.insertCompany at h
  split at h
  · cases h
  split at h
  · cases h
  split at h
  · cases h
  · rename_i hid
    cases h
    exact ⟨hid, rfl⟩

/-- What an accepted business unit leaves. -/
theorem insertBusinessUnit_ok {d d' : MainDb} {row : BusinessUnit}
    (h : d.insertBusinessUnit row = .ok d') :
    (¬∃ v ∈ d.businessUnits, v.id = row.id) ∧ (∃ c ∈ d.companies, c.id = row.companyId) ∧
      d'.toMainTables = { d.toMainTables with businessUnits := d.businessUnits ++ [row] } := by
  unfold MainDb.insertBusinessUnit at h
  split at h
  · cases h
  split at h
  · cases h
  split at h
  · rename_i hid hc
    cases h
    exact ⟨hid, hc, rfl⟩
  · cases h

/-- What an accepted person leaves. -/
theorem insertPerson_ok {d d' : MainDb} {row : Person} (h : d.insertPerson row = .ok d') :
    (¬∃ v ∈ d.persons, v.id = row.id) ∧ (∃ c ∈ d.companies, c.id = row.companyId) ∧
      d'.toMainTables = { d.toMainTables with persons := d.persons ++ [row] } := by
  unfold MainDb.insertPerson at h
  split at h
  · cases h
  split at h
  · cases h
  split at h
  · rename_i hid hc
    cases h
    exact ⟨hid, hc, rfl⟩
  · cases h

/-- What an accepted profile leaves. -/
theorem insertProfile_ok {d d' : MainDb} {row : BuStaffProfile}
    (h : d.insertProfile row = .ok d') :
    (¬∃ v ∈ d.profiles, v.id = row.id) ∧ (¬∃ v ∈ d.profiles, loginKey v = loginKey row) ∧
      (∃ p ∈ d.persons, p.id = row.personId) ∧ (∃ b ∈ d.businessUnits, b.id = row.buId) ∧
      d'.toMainTables = { d.toMainTables with profiles := d.profiles ++ [row] } := by
  unfold MainDb.insertProfile at h
  split at h
  · cases h
  split at h
  · cases h
  split at h
  · cases h
  split at h
  · split at h
    · rename_i hid hkey hp hb
      cases h
      exact ⟨hid, hkey, hp, hb, rfl⟩
    · cases h
  · cases h

/-- Insert one row. -/
def MainDb.insert (d : MainDb) : Insert → Except DbError MainDb
  | .company row => d.insertCompany row
  | .businessUnit row => d.insertBusinessUnit row
  | .person row => d.insertPerson row
  | .profile row => d.insertProfile row

/-- Insert the rows of a transaction in order, or none of them. -/
def MainDb.insertAll (d : MainDb) : List Insert → Except DbError MainDb
  | [] => .ok d
  | row :: rows =>
    match d.insert row with
    | .ok d' => d'.insertAll rows
    | .error e => .error e

/-- A transaction that is accepted was accepted row by row. -/
theorem insertAll_cons_ok {d d' : MainDb} {row : Insert} {rows : List Insert} :
    d.insertAll (row :: rows) = .ok d' ↔ ∃ m, d.insert row = .ok m ∧ m.insertAll rows = .ok d' := by
  rw [MainDb.insertAll]
  cases d.insert row with
  | ok m => simp
  | error e => simp

theorem insertAll_nil_ok {d d' : MainDb} : d.insertAll [] = .ok d' ↔ d' = d := by
  rw [MainDb.insertAll]
  constructor
  · intro h
    cases h
    rfl
  · rintro rfl
    rfl

/-- The four rows of a transaction that is accepted were accepted one after the other. -/
theorem insertAll_four_ok {d d' : MainDb} {row₁ row₂ row₃ row₄ : Insert}
    (h : d.insertAll [row₁, row₂, row₃, row₄] = .ok d') :
    ∃ d₁ d₂ d₃, d.insert row₁ = .ok d₁ ∧ d₁.insert row₂ = .ok d₂ ∧ d₂.insert row₃ = .ok d₃ ∧
      d₃.insert row₄ = .ok d' := by
  obtain ⟨d₁, h₁, h⟩ := insertAll_cons_ok.mp h
  obtain ⟨d₂, h₂, h⟩ := insertAll_cons_ok.mp h
  obtain ⟨d₃, h₃, h⟩ := insertAll_cons_ok.mp h
  obtain ⟨d₄, h₄, h⟩ := insertAll_cons_ok.mp h
  rw [insertAll_nil_ok.mp h]
  exact ⟨d₁, d₂, d₃, h₁, h₂, h₃, h₄⟩

/-- Rewrite the role and the password hash of profiles in place. -/
def MainDb.updateProfiles (d : MainDb) (f : BuStaffProfile → BuStaffProfile)
    (hf : ∀ p, (f p).id = p.id ∧ (f p).personId = p.personId ∧ loginKey (f p) = loginKey p) :
    MainDb :=
  { d with
    profiles := d.profiles.map f
    valid := { d.valid with
      profiles_id := d.valid.profiles_id.map fun p => (hf p).1
      profiles_login := d.valid.profiles_login.map fun p => (hf p).2.2
      profiles_person := by
        intro p hp
        obtain ⟨v, hv, rfl⟩ := List.mem_map.mp hp
        rw [(hf v).2.1]
        exact d.valid.profiles_person v hv
      profiles_businessUnit := by
        intro p hp
        obtain ⟨v, hv, rfl⟩ := List.mem_map.mp hp
        have hbu : (f v).buId = v.buId := (Prod.mk.inj (hf v).2.2).1
        rw [hbu]
        exact d.valid.profiles_businessUnit v hv } }

/-- `UPDATE bu_staff_profiles SET role`. -/
def MainDb.setRole (d : MainDb) (id : Uuid) (role : StaffRole) : MainDb :=
  d.updateProfiles (fun p => if p.id = id then { p with role } else p) fun p => by
    split <;> exact ⟨rfl, rfl, rfl⟩

/-- `UPDATE bu_staff_profiles SET password_hash`. -/
def MainDb.setPasswordHash (d : MainDb) (id : Uuid) (passwordHash : String) : MainDb :=
  d.updateProfiles (fun p => if p.id = id then { p with passwordHash } else p) fun p => by
    split <;> exact ⟨rfl, rfl, rfl⟩

/-- The rows of the migration `InitialDataSeed`. -/
def MainDb.seed : MainDb where
  companies := [⟨0x10000000000000000000000000000001, "Aura Wellness Demo", "1 Wellness Way",
    "555-0100", 1772223433000000⟩]
  businessUnits := [⟨0x20000000000000000000000000000001, 0x10000000000000000000000000000001,
    "Aura Wellness Demo HQ", 1772223433000000⟩]
  persons := [⟨0x30000000000000000000000000000001, 0x10000000000000000000000000000001,
    "Demo", "Owner", 1772223433000000⟩]
  profiles := [⟨0x40000000000000000000000000000001, 0x30000000000000000000000000000001,
    0x20000000000000000000000000000001, "Welcome@example.com",
    "$2b$11$qxivdApojomdiQv8sthJDOsUS0GcQigEDmhF1ObImcOozUX14LeGq", StaffRole.owner,
    1772223433000000⟩]
  valid := by constructor <;> simp [UniqueColumn]

end AuraWellness.Backend.Schema
