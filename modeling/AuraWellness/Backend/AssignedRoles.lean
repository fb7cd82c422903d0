import AuraWellness.Backend.Accepted
import AuraWellness.Backend.RoleTexts

/-!
# Which roles are assigned

Three operations parse the text of a role and refuse Owner only. What they store
is Admin or Staff exactly if the text is not one of the two kinds whose value no
role has, and as long as no request sends such a text all stored roles are
declared ones.
-/

namespace AuraWellness.Backend.AssignedRoles

open AuraWellness.Lib.Calls AuraWellness.Lib.Transition
open AuraWellness.Chat.Entities
open AuraWellness.Backend.Entities AuraWellness.Backend.Schema AuraWellness.Backend.Repositories
open AuraWellness.Backend.Services AuraWellness.Backend.Runs AuraWellness.Backend.Accepted
open AuraWellness.Backend.RoleTexts

/-- The role is one of those that the error message allows. -/
def Allowed (role : StaffRole) : Prop := role = StaffRole.admin ∨ role = StaffRole.staff

/-- The profile with this identifier is stored with this role. -/
def StoredRole (s : World) (id : Uuid) (role : StaffRole) : Prop :=
  ∃ p ∈ s.main.profiles, p.id = id ∧ p.role = role

/-- Every stored profile has a declared role. -/
def RolesDeclared (d : MainDb) : Prop := ∀ p ∈ d.profiles, Declared p.role

instance (d : MainDb) : Decidable (RolesDeclared d) := by
  unfold RolesDeclared
  infer_instance

/-- The request asks for a role by a text whose value no role has. -/
def AsksUndeclared : BackendRequest → Prop
  | .createStaff _ _ request => Undeclared request.role
  | .enrollExisting _ _ request => Undeclared request.role
  | .updateRole _ _ _ text => Undeclared text
  | _ => False

/-- An assignable role is a declared one unless its text is of the two kinds. -/
theorem declared_of_assignable {text : String} {role : StaffRole}
    (h : assignableRole text = some role) (htext : ¬Undeclared text) : Declared role :=
  Or.inr ((assignableRole_declared_iff h).mpr htext)

/-- A new profile with a declared role keeps all roles declared. -/
theorem RolesDeclared.insertProfile {d d' : MainDb} (h : RolesDeclared d) {p : BuStaffProfile}
    (hrole : Declared p.role) (hd : d.insertProfile p = .ok d') : RolesDeclared d' := by
  obtain ⟨-, -, -, -, hd⟩ := insertProfile_ok hd
  intro x hx
  rw [hd] at hx
  obtain hx | hx := List.mem_append.mp hx
  · exact h x hx
  · rw [List.mem_singleton.mp hx]
    exact hrole

/-- A state with the same profiles has the same roles. -/
theorem RolesDeclared.of_eq {d d' : MainDb} (h : RolesDeclared d) (he : d'.profiles = d.profiles) :
    RolesDeclared d' := by
  intro p hp
  rw [he] at hp
  exact h p hp

/-- Profiles that are rewritten with declared roles keep all roles declared. -/
theorem RolesDeclared.map {d d' : MainDb} (h : RolesDeclared d)
    {f : BuStaffProfile → BuStaffProfile} (he : d'.profiles = d.profiles.map f)
    (hf : ∀ p, Declared p.role → Declared (f p).role) : RolesDeclared d' := by
  intro p hp
  rw [he] at hp
  obtain ⟨q, hq, rfl⟩ := List.mem_map.mp hp
  exact hf q (h q hq)

/-- A write to the main database that keeps all roles declared when it is
accepted. -/
theorem storeMain_declared {s : World} {r : Except DbError MainDb} (hs : RolesDeclared s.main)
    (h : ∀ d, r = .ok d → RolesDeclared d) : RolesDeclared (storeMain s r).2.main := by
  cases r with
  | ok d => exact h d rfl
  | error e => exact hs

/-- A call of a request whose text has a declared value keeps all roles declared. -/
theorem exec_declared {settings : Settings} {r : BackendRequest} {op : BackendCall}
    (hr : ¬AsksUndeclared r) (hop : Issues settings r op) (c : BackendChoice) {s : World}
    (hs : RolesDeclared s.main) : RolesDeclared (op.exec c s).2.main := by
  cases hop with
  | query h =>
    rw [h.exec_state]
    exact hs
  | onboardCommit =>
    refine storeMain_declared hs fun d h => ?_
    obtain ⟨d₁, d₂, d₃, hcompany, hbu, hperson, hprofile⟩ := insertAll_four_ok h
    obtain ⟨-, h₁⟩ := insertCompany_ok hcompany
    obtain ⟨-, -, h₂⟩ := insertBusinessUnit_ok hbu
    obtain ⟨-, -, h₃⟩ := insertPerson_ok hperson
    have hsame : RolesDeclared d₃ := hs.of_eq (by rw [h₃, h₂, h₁])
    exact hsame.insertProfile (Or.inl rfl) hprofile
  | unitCommit =>
    refine storeMain_declared hs fun d h => ?_
    obtain ⟨m, hbu, hnil⟩ := insertAll_cons_ok.mp h
    obtain ⟨-, -, hd⟩ := insertBusinessUnit_ok hbu
    rw [insertAll_nil_ok.mp hnil]
    exact hs.of_eq (by rw [hd])
  | staffPerson =>
    refine storeMain_declared hs fun d h => ?_
    obtain ⟨-, -, hd⟩ := insertPerson_ok h
    exact hs.of_eq (by rw [hd])
  | staffProfile h =>
    exact storeMain_declared hs fun d hd => hs.insertProfile (declared_of_assignable h hr) hd
  | enrollProfile h =>
    exact storeMain_declared hs fun d hd => hs.insertProfile (declared_of_assignable h hr) hd
  | saveRole h =>
    refine hs.map rfl fun p hp => ?_
    split
    · exact declared_of_assignable h hr
    · exact hp
  | savePassword =>
    refine hs.map rfl fun p hp => ?_
    split <;> exact hp
  | onboardWorkspace => exact hs
  | onboardMember => exact hs
  | unitWorkspace => exact hs
  | unitMember => exact hs
  | staffMember => exact hs
  | enrollMember => exact hs
  | access => exact hs
  | conversationsGroup => exact hs
  | dm => exact hs
  | send => exact hs
  | messagesGroup => exact hs
  | sendGroup => exact hs
  | sendToGroup => exact hs

/-- Whom the three operations give which role: an accepted operation has stored
an allowed role exactly if its text is not of the two kinds, and in a run without
such texts all stored roles are declared, whatever the calls are answered. -/
structure AssignsByText (settings : Settings) : Prop where
  create : ∀ draws companyId request env s response,
    ((StaffService.create settings draws companyId request).run backendMachine env s).1 =
      .ok response →
    ∃ role, StoredRole ((StaffService.create settings draws companyId request).run
        backendMachine env s).2 (draws.stamps 1).id role ∧
      (Allowed role ↔ ¬Undeclared request.role)
  enroll : ∀ draws companyId request env s response,
    ((StaffService.enrollExisting settings draws companyId request).run backendMachine env
      s).1 = .ok response →
    ∃ role, StoredRole ((StaffService.enrollExisting settings draws companyId request).run
        backendMachine env s).2 (draws.stamps 0).id role ∧
      (Allowed role ↔ ¬Undeclared request.role)
  update : ∀ personId buId companyId text env s,
    ((StaffService.updateRole personId buId companyId text).run backendMachine env s).1 =
      .ok () →
    ∃ c profile owner role, env 0 = .serve c ∧
      BuStaffProfileRepository.getByPersonAndBu s.main c.tie personId buId =
        some (profile, owner) ∧
      StoredRole ((StaffService.updateRole personId buId companyId text).run backendMachine env
        s).2 profile.id role ∧
      (Allowed role ↔ ¬Undeclared text)
  run : ∀ s ls p, RolesDeclared s.main → (∀ r, .start r ∈ ls → ¬AsksUndeclared r) →
    run (BackendPool.step settings) (BackendPool.initial s) ls = some p → RolesDeclared p.state.main

/-- The roles that are assigned follow from the texts. -/
theorem assignsByText (settings : Settings) : AssignsByText settings where
  create draws companyId request env s response h := by
    obtain ⟨role, hrole, hstored⟩ := create_stored h
    refine ⟨role, ⟨createdProfile settings draws request role, ?_, rfl, rfl⟩,
      assignableRole_declared_iff hrole⟩
    rw [hstored]
    exact List.mem_append_right _ (List.mem_singleton_self _)
  enroll draws companyId request env s response h := by
    obtain ⟨role, hrole, hstored⟩ := enrollExisting_stored h
    refine ⟨role, ⟨enrolledProfile settings draws request role, ?_, rfl, rfl⟩,
      assignableRole_declared_iff hrole⟩
    rw [hstored]
    exact List.mem_append_right _ (List.mem_singleton_self _)
  update personId buId companyId text env s h := by
    obtain ⟨c, profile, owner, role, hc, hfound, hrole, hstored⟩ := updateRole_stored h
    exact ⟨c, profile, owner, role, hc, hfound, ⟨_, hstored, rfl, rfl⟩,
      assignableRole_declared_iff hrole⟩
  run s ls p hs hls hrun :=
    (Pool.run_keeps (C := fun r => ¬AsksUndeclared r) (P := Issues settings)
      (I := fun s : World => RolesDeclared s.main) (program_issues settings)
      (fun r op c s hr hop hs => exec_declared hr hop c hs) ⟨hs, fun _ _ hi => by cases hi⟩ hls
      hrun).1

/-- A member of staff of the seeded company is created with the role 7. -/
def seventhRole : List BackendLabel :=
  [.start (.createStaff (Draws.from 100) 0x10000000000000000000000000000001
    ⟨"Ann", "Lee", 0x20000000000000000000000000000001, "ann@spa.test", "7"⟩)] ++
  (List.range 4).map fun n => .turn 0 (servedFrom 10 n)

/-- A stored role need not be a declared one. -/
theorem rolesDeclared_not_invariant :
    ¬∀ settings ls p,
      run (BackendPool.step settings) (BackendPool.initial World.seeded) ls = some p →
      RolesDeclared p.state.main := by
  intro h
  have hrun : ((run (BackendPool.step Settings.plain) (BackendPool.initial World.seeded)
      seventhRole).map
      fun p => decide (RolesDeclared p.state.main)) = some false := by decide
  obtain ⟨p, hp, hbad⟩ := Option.map_eq_some_iff.mp hrun
  exact of_decide_eq_false hbad (h Settings.plain seventhRole p hp)

end AuraWellness.Backend.AssignedRoles
