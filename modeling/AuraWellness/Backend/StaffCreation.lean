import AuraWellness.Chat.Procedures
import AuraWellness.Backend.Runs

/-!
# When the creation of staff is all or nothing

The person, the profile and the chat member of a new staff member are stored by
three calls without a transaction around them. A request that fails leaves
everything as it was exactly when it stops before its first row is stored.
-/

namespace AuraWellness.Backend.StaffCreation

open AuraWellness.Lib.Calls AuraWellness.Lib.Transition
open AuraWellness.Chat.Entities AuraWellness.Chat.Schema AuraWellness.Chat.Handlers
open AuraWellness.Chat.Procedures
open AuraWellness.Backend.Entities AuraWellness.Backend.Schema AuraWellness.Backend.Repositories
open AuraWellness.Backend.Services AuraWellness.Backend.Runs

/-- Persons, profiles and chat members are exactly as before. -/
def SameStaff (s s' : World) : Prop :=
  s'.main.persons = s.main.persons ∧ s'.main.profiles = s.main.profiles ∧
    s'.chat.db.members = s.chat.db.members

instance (s s' : World) : Decidable (SameStaff s s') := by
  unfold SameStaff
  infer_instance

/-- If the request throws, it has changed nothing. -/
def AllOrNothing {α : Type} (p : BackendProgram α) (env : ℕ → Turn BackendChoice Exn) (s : World) :
    Prop :=
  ∀ e, (p.run backendMachine env s).1 = .error e → SameStaff s (p.run backendMachine env s).2

/-- The environment lets the insert store nothing: it does not arrive, or the
database refuses it. -/
def StoresNothing (row : Insert) (t : Turn BackendChoice Exn) (s : World) : Prop :=
  t.choice? = none ∨ (s.main.insert row).isOk = false

instance (row : Insert) (t : Turn BackendChoice Exn) (s : World) :
    Decidable (StoresNothing row t s) := by
  unfold StoresNothing
  infer_instance

/-- The exception of a lookup that has found nothing. -/
def IsNotFound : Exn → Bool
  | .rpc e => e.code = .notFound
  | _ => false

/-- Every call from the profile's insert on succeeds: the database takes the
profile, and the chat service has no workspace or adds the person to it. -/
def ProfileCarried (person : Person) (bu : BusinessUnit) (profile : BuStaffProfile)
    (env : ℕ → Turn BackendChoice Exn) (s : World) : Prop :=
  let insert := BackendCall.add (.profile profile)
  let stored := (backendMachine.answer insert (env 0) s).2
  Succeeds insert (env 0) s ∧
    match (backendMachine.answer (.chat (.getWorkspaceByBuID bu.id)) (env 1) stored).1 with
    | .ok workspace => Succeeds (.chat (.addMember workspace.id person.id "Member")) (env 2) stored
    | .error e => IsNotFound e = true

/-- What an insert does: it stores nothing and fails, or it stores its row. -/
theorem answer_add_cases (row : Insert) (t : Turn BackendChoice Exn) (s : World) :
    (StoresNothing row t s ∧ (backendMachine.answer (.add row) t s).2 = s ∧
      ∃ e, (backendMachine.answer (.add row) t s).1 = .error e) ∨
    (¬StoresNothing row t s ∧ ∃ d, s.main.insert row = .ok d ∧
      (backendMachine.answer (.add row) t s).2 = { s with main := d }) := by
  unfold StoresNothing
  cases hinsert : s.main.insert row with
  | error e =>
    have hexec : ∀ c, backendMachine.exec (.add row) c s = (.error (.database e), s) := by
      intro c
      refine (?_ : storeMain s (s.main.insert row) = _)
      rw [hinsert]
      rfl
    refine Or.inl ⟨Or.inr rfl, ?_⟩
    cases t with
    | serve c =>
      refine (?_ : (backendMachine.exec (.add row) c s).2 = s ∧
        ∃ e, (backendMachine.exec (.add row) c s).1 = .error e)
      rw [hexec]
      exact ⟨rfl, _, rfl⟩
    | drop e' => exact ⟨rfl, e', rfl⟩
    | lost c e' =>
      refine ⟨?_, e', rfl⟩
      refine (?_ : (backendMachine.exec (.add row) c s).2 = s)
      rw [hexec]
  | ok d =>
    have hexec : ∀ c, backendMachine.exec (.add row) c s = (.ok (), { s with main := d }) := by
      intro c
      refine (?_ : storeMain s (s.main.insert row) = _)
      rw [hinsert]
      rfl
    cases ht : t.choice? with
    | none =>
      refine Or.inl ⟨Or.inl rfl, backendMachine.answer_state_none (.add row) s ht, ?_⟩
      cases t with
      | serve c => cases ht
      | drop e' => exact ⟨e', rfl⟩
      | lost c e' => cases ht
    | some c =>
      refine Or.inr ⟨fun h => ?_, d, rfl, ?_⟩
      · obtain h | h := h
        · cases h
        · cases h
      · rw [backendMachine.answer_state_some (.add row) s ht, hexec]

/-- A failed lookup hands nothing on when it is a "not found", and throws otherwise. -/
theorem lookupResult_error_cases (e : Exn) :
    (IsNotFound e = true ∧ lookupResult (.error e) = pure none) ∨
      (IsNotFound e = false ∧ ∃ e', lookupResult (.error e) = Program.throw e') := by
  cases e with
  | rpc e =>
    by_cases hcode : e.code = .notFound
    · exact Or.inl ⟨decide_eq_true hcode, if_pos hcode⟩
    · exact Or.inr ⟨decide_eq_false hcode, _, if_neg hcode⟩
  | unauthorizedAccess message => exact Or.inr ⟨rfl, _, rfl⟩
  | invalidOperation message => exact Or.inr ⟨rfl, _, rfl⟩
  | database error => exact Or.inr ⟨rfl, _, rfl⟩

/-- Adding the person to the workspace is the last call: the request succeeds
exactly if the call does, and the main database stays. -/
theorem run_addMember {α : Type} (w p : Uuid) (role : String) (response : α)
    (env : ℕ → Turn BackendChoice Exn) (s : World) :
    let out := (ChatServiceClient.addWorkspaceMember w p role >>= fun _ =>
      (pure response : BackendProgram α)).run backendMachine env s
    (Succeeds (.chat (.addMember w p role)) (env 0) s ↔ ∃ a, out.1 = .ok a) ∧
      out.2.main = s.main := by
  have hmain := answer_chat_main (.addMember w p role) (env 0) s
  unfold ChatServiceClient.addWorkspaceMember
  rw [Program.bind_assoc, Program.run_perform_bind]
  cases hr : (backendMachine.answer (.chat (.addMember w p role)) (env 0) s).1 with
  | ok m => exact ⟨iff_of_true (succeeds_of_ok hr) ⟨response, rfl⟩, hmain⟩
  | error e => exact ⟨iff_of_false (not_succeeds hr) (fun ⟨a, ha⟩ => by cases ha), hmain⟩

/-- A profile that is not stored ends the request and changes nothing. -/
theorem run_addProfile_nothing (person : Person) (bu : BusinessUnit) {profile : BuStaffProfile}
    {env : ℕ → Turn BackendChoice Exn} {s : World}
    (h : StoresNothing (.profile profile) (env 0) s) :
    (∃ e, ((StaffService.addProfile person bu profile).run backendMachine env s).1 = .error e) ∧
      ((StaffService.addProfile person bu profile).run backendMachine env s).2 = s := by
  obtain ⟨-, hstate, e, he⟩ | ⟨hstores, -⟩ := answer_add_cases (.profile profile) (env 0) s
  · unfold StaffService.addProfile
    rw [Program.run_perform_bind, he]
    exact ⟨⟨e, rfl⟩, hstate⟩
  · exact absurd h hstores

/-- A profile that is stored stays, and the request succeeds exactly if every
call from its insert on does. -/
theorem run_addProfile_stored (person : Person) (bu : BusinessUnit) {profile : BuStaffProfile}
    {env : ℕ → Turn BackendChoice Exn} {s : World}
    (h : ¬StoresNothing (.profile profile) (env 0) s) :
    let out := (StaffService.addProfile person bu profile).run backendMachine env s
    (ProfileCarried person bu profile env s ↔ ∃ a, out.1 = .ok a) ∧
      out.2.main.persons = s.main.persons ∧
      out.2.main.profiles = s.main.profiles ++ [profile] := by
  obtain ⟨hnothing, -⟩ | ⟨-, d, hd, hstate⟩ := answer_add_cases (.profile profile) (env 0) s
  · exact absurd hnothing h
  obtain ⟨-, -, -, -, ht⟩ := insertProfile_ok hd
  -- whatever follows leaves the main database as the insert has left it
  have stored : ∀ t : World, t.main = d → t.main.persons = s.main.persons ∧
      t.main.profiles = s.main.profiles ++ [profile] := by
    intro t hmain
    rw [hmain, ht]
    exact ⟨rfl, rfl⟩
  have hmain : (backendMachine.answer (.add (.profile profile)) (env 0) s).2.main = d := by
    rw [hstate]
  unfold StaffService.addProfile ProfileCarried
  dsimp only
  rw [Program.run_perform_bind]
  cases hr : (backendMachine.answer (.add (.profile profile)) (env 0) s).1 with
  | error e =>
    exact ⟨iff_of_false (fun hc => not_succeeds hr hc.1) (fun ⟨a, ha⟩ => by cases ha),
      stored _ hmain⟩
  | ok a =>
    rw [run_lookup]
    have hsucceeds : Succeeds (.add (.profile profile)) (env 0) s := succeeds_of_ok hr
    cases hl : (backendMachine.answer (.chat (.getWorkspaceByBuID bu.id)) (env 1)
        (backendMachine.answer (.add (.profile profile)) (env 0) s).2).1 with
    | ok w =>
      obtain ⟨hiff, hlast⟩ := run_addMember w.id person.id "Member" (toStaffResponse profile person bu)
        (fun n => env (n + 2)) (backendMachine.answer (.add (.profile profile)) (env 0) s).2
      exact ⟨(and_iff_right hsucceeds).trans hiff, stored _ (hlast.trans hmain)⟩
    | error e =>
      obtain ⟨hfound, hlookup⟩ | ⟨hfound, e', hlookup⟩ := lookupResult_error_cases e
      · rw [hlookup]
        exact ⟨iff_of_true ⟨hsucceeds, hfound⟩ ⟨_, rfl⟩, stored _ hmain⟩
      · rw [hlookup]
        refine ⟨iff_of_false (fun hc => ?_) (fun ⟨a, ha⟩ => by cases ha), stored _ hmain⟩
        exact Bool.false_ne_true (hfound.symm.trans hc.2)

/-- The request succeeds from the profile's insert on exactly if every call does,
and it leaves the persons. -/
theorem run_addProfile (person : Person) (bu : BusinessUnit) (profile : BuStaffProfile)
    (env : ℕ → Turn BackendChoice Exn) (s : World) :
    let out := (StaffService.addProfile person bu profile).run backendMachine env s
    (ProfileCarried person bu profile env s ↔ ∃ a, out.1 = .ok a) ∧
      out.2.main.persons = s.main.persons := by
  by_cases h : StoresNothing (.profile profile) (env 0) s
  · obtain ⟨⟨e, he⟩, hstate⟩ := run_addProfile_nothing person bu h
    refine ⟨iff_of_false (fun hcarried => ?_) (fun ⟨a, ha⟩ => ?_), ?_⟩
    · obtain ⟨-, -, e', he'⟩ | ⟨hstores, -⟩ := answer_add_cases (.profile profile) (env 0) s
      · exact not_succeeds he' hcarried.1
      · exact hstores h
    · cases he.symm.trans ha
    · exact congrArg (fun t : World => t.main.persons) hstate
  · obtain ⟨hiff, hpersons, -⟩ := run_addProfile_stored person bu h
    exact ⟨hiff, hpersons⟩

/-- The profile and the chat member are all or nothing exactly if the profile is
not stored or all goes well. -/
theorem addProfile_allOrNothing_iff (person : Person) (bu : BusinessUnit) (profile : BuStaffProfile)
    (env : ℕ → Turn BackendChoice Exn) (s : World) :
    AllOrNothing (StaffService.addProfile person bu profile) env s ↔
      StoresNothing (.profile profile) (env 0) s ∨ ProfileCarried person bu profile env s := by
  obtain ⟨hcarried, -⟩ := run_addProfile person bu profile env s
  constructor
  · intro h
    by_cases hnothing : StoresNothing (.profile profile) (env 0) s
    · exact Or.inl hnothing
    · refine Or.inr (hcarried.mpr ?_)
      obtain ⟨-, -, hprofiles⟩ := run_addProfile_stored person bu hnothing
      cases hr : ((StaffService.addProfile person bu profile).run backendMachine env s).1 with
      | ok a => exact ⟨a, rfl⟩
      | error e =>
        have hsame := (h e hr).2.1
        rw [hprofiles] at hsame
        simp at hsame
  · rintro (hnothing | hc) e he
    · obtain ⟨-, hstate⟩ := run_addProfile_nothing person bu hnothing
      rw [hstate]
      exact ⟨rfl, rfl, rfl⟩
    · obtain ⟨a, ha⟩ := hcarried.mp hc
      cases he.symm.trans ha

/-- A request that throws at once has changed nothing. -/
theorem allOrNothing_of_state {α : Type} {p : BackendProgram α} {env : ℕ → Turn BackendChoice Exn}
    {s : World} (h : (p.run backendMachine env s).2 = s) : AllOrNothing p env s := by
  intro e _
  rw [h]
  exact ⟨rfl, rfl, rfl⟩

/-- A request that only throws is all or nothing. -/
theorem allOrNothing_throw {α : Type} (e : Exn) (env : ℕ → Turn BackendChoice Exn) (s : World) :
    AllOrNothing (Program.throw e : BackendProgram α) env s := allOrNothing_of_state rfl

/-- A request that starts with a query is all or nothing exactly if what follows
the query's success is. -/
theorem allOrNothing_query_iff {α : Type} {op : BackendCall} (h : op.Queries)
    (f : op.Reply → BackendProgram α) (env : ℕ → Turn BackendChoice Exn) (s : World) :
    AllOrNothing (call op >>= f) env s ↔
      ∀ a, (backendMachine.answer op (env 0) s).1 = .ok a →
        AllOrNothing (f a) (fun n => env (n + 1)) s := by
  have hrun := Program.run_perform_bind backendMachine op f env s
  rw [query_state h] at hrun
  cases hr : (backendMachine.answer op (env 0) s).1 with
  | error e =>
    rw [hr] at hrun
    exact iff_of_true (allOrNothing_of_state (by rw [hrun])) fun a ha => by cases ha
  | ok a =>
    rw [hr] at hrun
    unfold AllOrNothing
    rw [hrun]
    constructor
    · intro hsame a' ha'
      cases ha'
      exact hsame
    · intro hall
      exact hall a rfl

/-- A new person with a profile is all or nothing exactly if the person is not
stored or all goes well. -/
theorem addPerson_allOrNothing_iff (person : Person) (bu : BusinessUnit) (profile : BuStaffProfile)
    (env : ℕ → Turn BackendChoice Exn) (s : World) :
    AllOrNothing (call (.add (.person person)) >>= fun _ =>
        StaffService.addProfile person bu profile) env s ↔
      StoresNothing (.person person) (env 0) s ∨
        (Succeeds (.add (.person person)) (env 0) s ∧ ProfileCarried person bu profile
          (fun n => env (n + 1)) (backendMachine.answer (.add (.person person)) (env 0) s).2) := by
  have hrun := Program.run_perform_bind backendMachine (.add (.person person))
    (fun _ => StaffService.addProfile person bu profile) env s
  obtain ⟨hnothing, hstate, e, he⟩ | ⟨hstored, d, hd, hstate⟩ :=
    answer_add_cases (.person person) (env 0) s
  · rw [he, hstate] at hrun
    exact iff_of_true (allOrNothing_of_state (by rw [hrun])) (Or.inl hnothing)
  · obtain ⟨-, -, ht⟩ := insertPerson_ok hd
    have hpersons : (backendMachine.answer (.add (.person person)) (env 0) s).2.main.persons =
        s.main.persons ++ [person] := by rw [hstate, ht]
    -- once the person is stored, a request that throws has changed something
    have hthrows : ∀ r : Except Exn StaffResponse × World,
        r.2.main.persons = s.main.persons ++ [person] →
          ((∀ e, r.1 = .error e → SameStaff s r.2) ↔ ∃ a, r.1 = .ok a) := by
      rintro ⟨result, t⟩ hr
      cases result with
      | ok a => exact iff_of_true (fun e he => by cases he) ⟨a, rfl⟩
      | error e =>
        refine iff_of_false (fun h => ?_) fun ⟨a, ha⟩ => by cases ha
        have hsame := (h e rfl).1
        rw [hr] at hsame
        simp at hsame
    unfold AllOrNothing
    rw [hrun]
    cases hr : (backendMachine.answer (.add (.person person)) (env 0) s).1 with
    | error e =>
      refine (hthrows _ hpersons).trans (iff_of_false (fun ⟨a, ha⟩ => by cases ha) ?_)
      rintro (hnothing | ⟨hsucceeds, -⟩)
      · exact hstored hnothing
      · exact not_succeeds hr hsucceeds
    | ok a =>
      obtain ⟨hcarried, hkept⟩ := run_addProfile person bu profile (fun n => env (n + 1))
        (backendMachine.answer (.add (.person person)) (env 0) s).2
      refine (hthrows _ (hkept.trans hpersons)).trans (hcarried.symm.trans ?_)
      exact ⟨fun hc => Or.inr ⟨succeeds_of_ok hr, hc⟩, fun h => (h.resolve_left hstored).2⟩

/-- `CreateAsync` stops before its person is stored, or every call from there on
succeeds. -/
def CreateCarried (settings : Settings) (draws : Draws) (company : Uuid) (q : CreateStaffRequest)
    (env : ℕ → Turn BackendChoice Exn) (s : World) : Prop :=
  ∀ bu role, (backendMachine.answer (.businessUnitGetById q.buId company) (env 0) s).1 =
      .ok (some bu) → assignableRole q.role = some role →
    let person := Person.create (draws.stamps 0) company q.firstName q.lastName
    let insert := BackendCall.add (.person person)
    StoresNothing (.person person) (env 1) s ∨
      (Succeeds insert (env 1) s ∧ ProfileCarried person bu
        (BuStaffProfile.create (draws.stamps 1) person.id bu.id q.email
          (draws.hash settings.defaultPassword) role)
        (fun n => env (n + 2)) (backendMachine.answer insert (env 1) s).2)

/-- `EnrollExistingAsync` stops before its profile is stored, or every call from
there on succeeds. -/
def EnrollCarried (settings : Settings) (draws : Draws) (company : Uuid)
    (q : EnrollExistingStaffRequest) (env : ℕ → Turn BackendChoice Exn) (s : World) : Prop :=
  ∀ bu person role, (backendMachine.answer (.businessUnitGetById q.buId company) (env 0) s).1 =
      .ok (some bu) →
    (backendMachine.answer (.personGetById q.personId company) (env 1) s).1 = .ok (some person) →
    (backendMachine.answer (.profileGetByPersonAndBu person.id bu.id) (env 2) s).1 = .ok none →
    assignableRole q.role = some role →
    let profile := BuStaffProfile.create (draws.stamps 0) person.id bu.id q.email
      (draws.hash settings.defaultPassword) role
    StoresNothing (.profile profile) (env 3) s ∨
      ProfileCarried person bu profile (fun n => env (n + 3)) s

/-- `CreateAsync` is all or nothing exactly if it is carried through. -/
theorem create_allOrNothing_iff (settings : Settings) (draws : Draws) (company : Uuid)
    (q : CreateStaffRequest) (env : ℕ → Turn BackendChoice Exn) (s : World) :
    AllOrNothing (StaffService.create settings draws company q) env s ↔
      CreateCarried settings draws company q env s := by
  have hunit : BackendCall.Queries (.businessUnitGetById q.buId company) := trivial
  unfold StaffService.create CreateCarried
  rw [allOrNothing_query_iff hunit]
  constructor
  · intro h bu role hbu hrole
    have hcreate := h (some bu) hbu
    dsimp only at hcreate
    rw [hrole] at hcreate
    exact (addPerson_allOrNothing_iff _ bu _ _ s).mp hcreate
  · intro h found hfound
    cases found with
    | none => exact allOrNothing_throw _ _ s
    | some bu =>
      dsimp only
      cases hrole : assignableRole q.role with
      | none => exact allOrNothing_throw _ _ s
      | some role => exact (addPerson_allOrNothing_iff _ bu _ _ s).mpr (h bu role hfound hrole)

/-- `EnrollExistingAsync` is all or nothing exactly if it is carried through. -/
theorem enrollExisting_allOrNothing_iff (settings : Settings) (draws : Draws) (company : Uuid)
    (q : EnrollExistingStaffRequest) (env : ℕ → Turn BackendChoice Exn) (s : World) :
    AllOrNothing (StaffService.enrollExisting settings draws company q) env s ↔
      EnrollCarried settings draws company q env s := by
  have hunit : BackendCall.Queries (.businessUnitGetById q.buId company) := trivial
  have hperson : BackendCall.Queries (.personGetById q.personId company) := trivial
  have hprofile : ∀ person bu, BackendCall.Queries (.profileGetByPersonAndBu person bu) :=
    fun _ _ => trivial
  unfold StaffService.enrollExisting EnrollCarried
  rw [allOrNothing_query_iff hunit]
  constructor
  · intro h bu person role hbu hfound hnone hrole
    have hafterUnit := (allOrNothing_query_iff hperson _ _ s).mp (h (some bu) hbu)
    have hafterPerson := (allOrNothing_query_iff (hprofile person.id bu.id) _ _ s).mp
      (hafterUnit (some person) hfound)
    have henroll := hafterPerson none hnone
    dsimp only at henroll
    rw [hrole] at henroll
    exact (addProfile_allOrNothing_iff person bu _ _ s).mp henroll
  · intro h found hbu
    cases found with
    | none => exact allOrNothing_throw _ _ s
    | some bu =>
      refine (allOrNothing_query_iff hperson _ _ s).mpr fun found hfound => ?_
      cases found with
      | none => exact allOrNothing_throw _ _ s
      | some person =>
        refine (allOrNothing_query_iff (hprofile person.id bu.id) _ _ s).mpr fun found hnone => ?_
        cases found with
        | some existing => exact allOrNothing_throw _ _ s
        | none =>
          dsimp only
          cases hrole : assignableRole q.role with
          | none => exact allOrNothing_throw _ _ s
          | some role =>
            exact (addProfile_allOrNothing_iff person bu _ _ s).mpr
              (h bu person role hbu hfound hnone hrole)

/-- In every state and whatever the calls are answered, the creation of staff and
the enrolment of an existing person are all or nothing exactly if they stop
before their first row is stored or every call from there on succeeds. -/
theorem staffCreation_allOrNothing_iff (settings : Settings) (draws : Draws) (company : Uuid)
    (env : ℕ → Turn BackendChoice Exn) (s : World) :
    (∀ q, AllOrNothing (StaffService.create settings draws company q) env s ↔
        CreateCarried settings draws company q env s) ∧
      ∀ q, AllOrNothing (StaffService.enrollExisting settings draws company q) env s ↔
        EnrollCarried settings draws company q env s :=
  ⟨fun q => create_allOrNothing_iff settings draws company q env s,
    fun q => enrollExisting_allOrNothing_iff settings draws company q env s⟩

/-- A new person with the e-mail address that the owner of the seeded company has
in the business unit. -/
def duplicateEmail : CreateStaffRequest :=
  ⟨"Ann", "Lee", 0x20000000000000000000000000000001, "Welcome@example.com", "Staff"⟩

/-- A rejected e-mail address leaves a person without a profile. -/
theorem staffCreation_not_allOrNothing :
    ¬∀ settings rs s draws company q env, run (World.step settings) World.seeded rs = some s →
      AllOrNothing (StaffService.create settings draws company q) env s := by
  intro h
  have hatomic := h Settings.plain [] World.seeded (Draws.from 100)
    0x10000000000000000000000000000001 duplicateEmail (servedWith 10) rfl
  have hbad : ∃ e, ((StaffService.create Settings.plain (Draws.from 100)
      0x10000000000000000000000000000001 duplicateEmail).run backendMachine (servedWith 10)
        World.seeded).1 = .error e := by
    exact ⟨.database (.duplicate "IX_bu_staff_profiles_bu_id_email"), by decide⟩
  obtain ⟨e, he⟩ := hbad
  have hchanged : ¬SameStaff World.seeded ((StaffService.create Settings.plain (Draws.from 100)
      0x10000000000000000000000000000001 duplicateEmail).run backendMachine (servedWith 10)
        World.seeded).2 := by decide
  exact hchanged (hatomic e he)

end AuraWellness.Backend.StaffCreation
