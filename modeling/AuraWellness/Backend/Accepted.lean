import AuraWellness.Backend.StaffCreation
import AuraWellness.Backend.Owners

/-!
# What accepted requests have stored

A request that stores a profile and answers with a success has stored exactly
one, with the columns of the request and of its draws.
-/

namespace AuraWellness.Backend.Accepted

open AuraWellness.Lib.Calls
open AuraWellness.Chat.Entities AuraWellness.Chat.Handlers
open AuraWellness.Backend.Entities AuraWellness.Backend.Schema AuraWellness.Backend.Repositories
open AuraWellness.Backend.Services AuraWellness.Backend.Runs AuraWellness.Backend.StaffCreation
open AuraWellness.Backend.Owners

/-- A request that starts with a query and succeeds goes on with what the query
has found, in the same state. -/
theorem run_query_ok {α : Type} {op : BackendCall} (hquery : op.Queries)
    {f : op.Reply → BackendProgram α} {env : ℕ → Turn BackendChoice Exn} {s : World} {b : α}
    (h : ((call op >>= f).run backendMachine env s).1 = .ok b) :
    ∃ c a, env 0 = .serve c ∧ (op.exec c s).1 = .ok a ∧
      (call op >>= f).run backendMachine env s =
        (f a).run backendMachine (fun n => env (n + 1)) s := by
  obtain ⟨a, ha, hrun⟩ := Program.run_perform_bind_ok h
  obtain ⟨c, hc, hexec⟩ := Machine.answer_ok ha
  rw [query_state hquery] at hrun
  rw [hexec] at ha
  exact ⟨c, a, hc, ha, hrun⟩

/-- The profile is stored when adding it succeeds. -/
theorem addProfile_stored {person : Person} {bu : BusinessUnit} {profile : BuStaffProfile}
    {env : ℕ → Turn BackendChoice Exn} {s : World} {response : StaffResponse}
    (h : ((StaffService.addProfile person bu profile).run backendMachine env s).1 = .ok response) :
    ((StaffService.addProfile person bu profile).run backendMachine env s).2.main.profiles =
      s.main.profiles ++ [profile] := by
  by_cases hnothing : StoresNothing (.profile profile) (env 0) s
  · obtain ⟨⟨e, he⟩, -⟩ := run_addProfile_nothing person bu hnothing
    cases he.symm.trans h
  · exact (run_addProfile_stored person bu hnothing).2.2

/-- The business unit that a lookup finds has the identifier asked for. -/
theorem businessUnit_id_of_getById {d : MainDb} {id companyId : Uuid} {bu : BusinessUnit}
    (h : BusinessUnitRepository.getById d id companyId = some bu) : bu.id = id := by
  have hfound := List.find?_some h
  rw [decide_eq_true_eq] at hfound
  exact hfound.1

/-- The person that a lookup finds has the identifier asked for. -/
theorem person_id_of_getById {d : MainDb} {id companyId : Uuid} {person : Person}
    (h : PersonRepository.getById d id companyId = some person) : person.id = id := by
  have hfound := List.find?_some h
  rw [decide_eq_true_eq] at hfound
  exact hfound.1

/-- The profile of an accepted `CreateAsync`. -/
def createdProfile (settings : Settings) (draws : Draws) (request : CreateStaffRequest)
    (role : StaffRole) : BuStaffProfile :=
  BuStaffProfile.create (draws.stamps 1) (draws.stamps 0).id request.buId request.email
    (draws.hash settings.defaultPassword) role

/-- The profile of an accepted `EnrollExistingAsync`. -/
def enrolledProfile (settings : Settings) (draws : Draws) (request : EnrollExistingStaffRequest)
    (role : StaffRole) : BuStaffProfile :=
  BuStaffProfile.create (draws.stamps 0) request.personId request.buId request.email
    (draws.hash settings.defaultPassword) role

/-- An accepted `CreateAsync` has stored its profile. -/
theorem create_stored {settings : Settings} {draws : Draws} {companyId : Uuid}
    {request : CreateStaffRequest} {env : ℕ → Turn BackendChoice Exn} {s : World}
    {response : StaffResponse}
    (h : ((StaffService.create settings draws companyId request).run backendMachine env s).1 =
      .ok response) :
    ∃ role, assignableRole request.role = some role ∧
      ((StaffService.create settings draws companyId request).run backendMachine env
          s).2.main.profiles =
        s.main.profiles ++ [createdProfile settings draws request role] := by
  have hquery : BackendCall.Queries (.businessUnitGetById request.buId companyId) := trivial
  unfold StaffService.create at h ⊢
  obtain ⟨c, found, -, hfound, hrun⟩ := run_query_ok hquery h
  rw [hrun] at h ⊢
  cases found with
  | none => cases h
  | some bu =>
    have hbu := businessUnit_id_of_getById (Except.ok.inj hfound)
    dsimp only at h ⊢
    cases hrole : assignableRole request.role with
    | none =>
      rw [hrole] at h
      cases h
    | some role =>
      rw [hrole] at h
      dsimp only at h ⊢
      obtain ⟨u, hadd, hrun⟩ := Program.run_perform_bind_ok h
      obtain ⟨d, hinsert, hstate⟩ := answer_add_ok hadd
      obtain ⟨-, -, hd⟩ := insertPerson_ok hinsert
      rw [hrun] at h ⊢
      refine ⟨role, rfl, (addProfile_stored h).trans ?_⟩
      rw [hstate]
      dsimp only
      rw [hd, hbu]
      rfl

/-- An accepted `EnrollExistingAsync` has stored its profile. -/
theorem enrollExisting_stored {settings : Settings} {draws : Draws} {companyId : Uuid}
    {request : EnrollExistingStaffRequest} {env : ℕ → Turn BackendChoice Exn} {s : World}
    {response : StaffResponse}
    (h : ((StaffService.enrollExisting settings draws companyId request).run backendMachine env
      s).1 = .ok response) :
    ∃ role, assignableRole request.role = some role ∧
      ((StaffService.enrollExisting settings draws companyId request).run backendMachine env
          s).2.main.profiles =
        s.main.profiles ++ [enrolledProfile settings draws request role] := by
  have hunit : BackendCall.Queries (.businessUnitGetById request.buId companyId) := trivial
  have hperson : BackendCall.Queries (.personGetById request.personId companyId) := trivial
  have hprofile : ∀ person bu, BackendCall.Queries (.profileGetByPersonAndBu person bu) :=
    fun _ _ => trivial
  unfold StaffService.enrollExisting at h ⊢
  obtain ⟨c, found, -, hfound, hrun⟩ := run_query_ok hunit h
  rw [hrun] at h ⊢
  cases found with
  | none => cases h
  | some bu =>
    have hbu := businessUnit_id_of_getById (Except.ok.inj hfound)
    obtain ⟨c, found, -, hfound, hrun⟩ := run_query_ok hperson h
    rw [hrun] at h ⊢
    cases found with
    | none => cases h
    | some person =>
      have hid := person_id_of_getById (Except.ok.inj hfound)
      obtain ⟨c, existing, -, -, hrun⟩ := run_query_ok (hprofile person.id bu.id) h
      rw [hrun] at h ⊢
      cases existing with
      | some row => cases h
      | none =>
        dsimp only at h ⊢
        cases hrole : assignableRole request.role with
        | none =>
          rw [hrole] at h
          cases h
        | some role =>
          rw [hrole] at h
          dsimp only at h ⊢
          refine ⟨role, rfl, (addProfile_stored h).trans ?_⟩
          rw [hbu, hid]
          rfl

/-- An accepted `UpdateRoleAsync` leaves the profile that it has found with the
role of its text. -/
theorem updateRole_stored {personId buId companyId : Uuid} {text : String}
    {env : ℕ → Turn BackendChoice Exn} {s : World}
    (h : ((StaffService.updateRole personId buId companyId text).run backendMachine env s).1 =
      .ok ()) :
    ∃ c profile owner role, env 0 = .serve c ∧
      BuStaffProfileRepository.getByPersonAndBu s.main c.tie personId buId =
        some (profile, owner) ∧
      assignableRole text = some role ∧
      { profile with role } ∈
        ((StaffService.updateRole personId buId companyId text).run backendMachine env
          s).2.main.profiles := by
  have hquery : BackendCall.Queries (.profileGetByPersonAndBu personId buId) := trivial
  unfold StaffService.updateRole at h ⊢
  obtain ⟨c, found, hc, hfound, hrun⟩ := run_query_ok hquery h
  rw [hrun] at h ⊢
  cases found with
  | none => cases h
  | some row =>
    obtain ⟨profile, owner⟩ := row
    have hrow := Except.ok.inj hfound
    have hmem := (getByPersonAndBu_mem hrow).1
    dsimp only at h ⊢
    split at h
    · cases h
    rename_i hcompany
    rw [if_neg hcompany]
    cases hrole : assignableRole text with
    | none =>
      rw [hrole] at h
      cases h
    | some role =>
      rw [hrole] at h
      dsimp only at h ⊢
      refine ⟨c, profile, owner, role, hc, hrow, rfl, ?_⟩
      by_cases hsame : role = profile.role
      · rw [if_pos hsame, hsame]
        exact hmem
      · rw [if_neg hsame] at h ⊢
        rw [Program.run_perform] at h ⊢
        obtain ⟨c', -, hexec⟩ := Machine.answer_ok h
        rw [hexec]
        refine List.mem_map.mpr ⟨profile, hmem, ?_⟩
        exact if_pos rfl

end AuraWellness.Backend.Accepted
