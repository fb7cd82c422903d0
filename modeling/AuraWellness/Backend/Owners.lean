import AuraWellness.Backend.Runs

/-!
# The Owner of a company

Onboarding creates a company with exactly one Owner profile, and nothing else
creates one. A company keeps its Owner exactly as long as no `UpdateRoleAsync`
request saves a new role on that profile: the operation looks at the role it
assigns, not at the role it replaces.
-/

namespace AuraWellness.Backend.Owners

open AuraWellness.Lib.Calls AuraWellness.Lib.Transition AuraWellness.Lib.Ranked
open AuraWellness.Chat.Entities AuraWellness.Chat.Handlers
open AuraWellness.Backend.Entities AuraWellness.Backend.Schema AuraWellness.Backend.Repositories
open AuraWellness.Backend.Services AuraWellness.Backend.Runs

/-- The profile is an Owner profile of a person of the company. -/
def OwnerOf (d : MainTables) (company : Uuid) (p : BuStaffProfile) : Prop :=
  p ∈ d.profiles ∧ p.role = StaffRole.owner ∧
    ∃ q ∈ d.persons, q.id = p.personId ∧ q.companyId = company

/-- Every company has an Owner profile. -/
def OwnersKept (d : MainTables) : Prop := ∀ c ∈ d.companies, ∃ p ∈ d.profiles, OwnerOf d c.id p

/-- No company has two Owner profiles. -/
def OneOwner (d : MainTables) : Prop :=
  ∀ company p p', OwnerOf d company p → OwnerOf d company p' → p.id = p'.id

/-- An assignable role is not Owner. -/
theorem assignableRole_ne_owner {text : String} {role : StaffRole}
    (h : assignableRole text = some role) : role ≠ StaffRole.owner := by
  unfold assignableRole at h
  split at h
  · cases h
  split at h
  · cases h
  · rename_i hne
    cases h
    exact hne

instance (d : MainTables) (company : Uuid) (p : BuStaffProfile) :
    Decidable (OwnerOf d company p) := by
  unfold OwnerOf
  infer_instance

instance (d : MainTables) : Decidable (OwnersKept d) := by
  unfold OwnersKept
  infer_instance

/-- More persons do not change whose profile an old one is. -/
theorem ownerOf_iff_of_mem {d d' : MainDb} {company : Uuid} {p : BuStaffProfile}
    (hpersons : ∀ q ∈ d.persons, q ∈ d'.persons) (hp : p ∈ d.profiles) (hp' : p ∈ d'.profiles) :
    OwnerOf d'.toMainTables company p ↔ OwnerOf d.toMainTables company p := by
  constructor
  · rintro ⟨-, hrole, q, hq, hid, hc⟩
    obtain ⟨q₀, hq₀, hid₀⟩ := d.valid.profiles_person p hp
    have he : q = q₀ := d'.valid.persons_id.eq hq (hpersons q₀ hq₀) (hid.trans hid₀.symm)
    rw [he] at hid hc
    exact ⟨hp, hrole, q₀, hq₀, hid, hc⟩
  · rintro ⟨-, hrole, q, hq, hid, hc⟩
    exact ⟨hp', hrole, q, hpersons q hq, hid, hc⟩

/-- Each company has one Owner profile and no second one. -/
structure OwnersSound (d : MainDb) : Prop where
  kept : OwnersKept d.toMainTables
  one : OneOwner d.toMainTables

/-- Rows that add neither companies nor Owner profiles keep the Owners. -/
theorem OwnersSound.extend {d d' : MainDb} (h : OwnersSound d)
    (hcompanies : d'.companies = d.companies) (hpersons : ∀ q ∈ d.persons, q ∈ d'.persons)
    (hprofiles : ∀ p ∈ d.profiles, p ∈ d'.profiles)
    (hnew : ∀ p ∈ d'.profiles, p ∈ d.profiles ∨ p.role ≠ StaffRole.owner) : OwnersSound d' := by
  refine ⟨fun c hc => ?_, fun company p p' hp hp' => ?_⟩
  · rw [hcompanies] at hc
    obtain ⟨p, hp, howner⟩ := h.kept c hc
    exact ⟨p, hprofiles p hp, (ownerOf_iff_of_mem hpersons hp (hprofiles p hp)).mpr howner⟩
  · have old : ∀ {x}, OwnerOf d'.toMainTables company x → OwnerOf d.toMainTables company x := by
      intro x hx
      obtain hmem | hne := hnew x hx.1
      · exact (ownerOf_iff_of_mem hpersons hmem hx.1).mp hx
      · exact absurd hx.2.1 hne
    exact h.one company p p' (old hp) (old hp')

/-- A new company with its first person as Owner. -/
theorem OwnersSound.onboard {d d' : MainDb} (h : OwnersSound d) {c : Company} {q : Person}
    {p : BuStaffProfile} (hfresh : ¬∃ v ∈ d.companies, v.id = c.id)
    (hcompany : q.companyId = c.id) (hperson : p.personId = q.id)
    (hrole : p.role = StaffRole.owner)
    (hcompanies : d'.companies = d.companies ++ [c]) (hpersons : d'.persons = d.persons ++ [q])
    (hprofiles : d'.profiles = d.profiles ++ [p]) : OwnersSound d' := by
  have hq : ∀ x ∈ d.persons, x ∈ d'.persons := by
    intro x hx
    rw [hpersons]
    exact List.mem_append_left _ hx
  have hp : ∀ x ∈ d.profiles, x ∈ d'.profiles := by
    intro x hx
    rw [hprofiles]
    exact List.mem_append_left _ hx
  have hqnew : q ∈ d'.persons := by
    rw [hpersons]
    exact List.mem_append_right _ (List.mem_singleton_self q)
  have hpnew : p ∈ d'.profiles := by
    rw [hprofiles]
    exact List.mem_append_right _ (List.mem_singleton_self p)
  have hnewOwner : OwnerOf d'.toMainTables c.id p := ⟨hpnew, hrole, q, hqnew, hperson.symm, hcompany⟩
  have companyOf : ∀ {company x}, x ∈ d.profiles → OwnerOf d'.toMainTables company x →
      OwnerOf d.toMainTables company x ∧ company ≠ c.id := by
    intro company x hx howner
    have hold := (ownerOf_iff_of_mem hq hx (hp x hx)).mp howner
    refine ⟨hold, fun he => hfresh ?_⟩
    obtain ⟨-, -, r, hr, -, hrc⟩ := hold
    obtain ⟨v, hv, hvc⟩ := d.valid.persons_company r hr
    exact ⟨v, hv, by rw [hvc, hrc, he]⟩
  have companyNew : ∀ {company}, OwnerOf d'.toMainTables company p → company = c.id := by
    rintro company ⟨-, -, r, hr, hid, hrc⟩
    have he : r = q := d'.valid.persons_id.eq hr hqnew (hid.trans hperson)
    rw [← hrc, he, hcompany]
  refine ⟨fun v hv => ?_, fun company x x' hx hx' => ?_⟩
  · rw [hcompanies] at hv
    obtain hv | hv := List.mem_append.mp hv
    · obtain ⟨x, hx, howner⟩ := h.kept v hv
      exact ⟨x, hp x hx, (ownerOf_iff_of_mem hq hx (hp x hx)).mpr howner⟩
    · rw [List.mem_singleton.mp hv]
      exact ⟨p, hpnew, hnewOwner⟩
  · have hmem := hx.1
    have hmem' := hx'.1
    rw [hprofiles] at hmem hmem'
    obtain hold | hnew := List.mem_append.mp hmem
    all_goals obtain hold' | hnew' := List.mem_append.mp hmem'
    · exact h.one company x x' (companyOf hold hx).1 (companyOf hold' hx').1
    · have he' := List.mem_singleton.mp hnew'
      rw [he'] at hx'
      exact absurd (companyNew hx') (companyOf hold hx).2
    · have he := List.mem_singleton.mp hnew
      rw [he] at hx
      exact absurd (companyNew hx) (companyOf hold' hx').2
    · rw [List.mem_singleton.mp hnew, List.mem_singleton.mp hnew']

/-- Rewriting the profiles without their persons and roles keeps the Owners. -/
theorem ownerOf_map {d d' : MainDb} {f : BuStaffProfile → BuStaffProfile} {company : Uuid}
    {p : BuStaffProfile} (hprofiles : d'.profiles = d.profiles.map f)
    (hpersons : d'.persons = d.persons) (hid : ∀ x, (f x).personId = x.personId) :
    OwnerOf d'.toMainTables company p ↔
      ∃ x, p = f x ∧ (f x).role = StaffRole.owner ∧ x ∈ d.profiles ∧
        ∃ q ∈ d.persons, q.id = x.personId ∧ q.companyId = company := by
  unfold OwnerOf
  rw [hprofiles, hpersons]
  constructor
  · rintro ⟨hp, hrole, q, hq, hqid, hc⟩
    obtain ⟨x, hx, rfl⟩ := List.mem_map.mp hp
    rw [hid] at hqid
    exact ⟨x, rfl, hrole, hx, q, hq, hqid, hc⟩
  · rintro ⟨x, rfl, hrole, hx, q, hq, hqid, hc⟩
    refine ⟨List.mem_map_of_mem hx, hrole, q, hq, ?_, hc⟩
    rw [hid]
    exact hqid

/-- A new password hash keeps the Owners. -/
theorem OwnersSound.setPasswordHash {d : MainDb} (h : OwnersSound d) (id : Uuid) (hash : String) :
    OwnersSound (d.setPasswordHash id hash) := by
  let f : BuStaffProfile → BuStaffProfile := fun p =>
    if p.id = id then { p with passwordHash := hash } else p
  have hf : ∀ x, (f x).id = x.id ∧ (f x).personId = x.personId ∧ (f x).role = x.role := by
    intro x
    dsimp only [f]
    split <;> exact ⟨rfl, rfl, rfl⟩
  have hiff : ∀ {company p}, OwnerOf (d.setPasswordHash id hash).toMainTables company p ↔
      ∃ x, p = f x ∧ OwnerOf d.toMainTables company x := by
    intro company p
    have hprofiles : (d.setPasswordHash id hash).profiles = d.profiles.map f := rfl
    refine (ownerOf_map hprofiles rfl fun x => (hf x).2.1).trans ⟨?_, ?_⟩
    · rintro ⟨x, hp, hrole, hx, hq⟩
      rw [(hf x).2.2] at hrole
      exact ⟨x, hp, hx, hrole, hq⟩
    · rintro ⟨x, hp, hx, hrole, hq⟩
      rw [← (hf x).2.2] at hrole
      exact ⟨x, hp, hrole, hx, hq⟩
  refine ⟨fun c hc => ?_, fun company p p' hp hp' => ?_⟩
  · obtain ⟨x, hx, howner⟩ := h.kept c hc
    exact ⟨f x, List.mem_map_of_mem hx, hiff.mpr ⟨x, rfl, howner⟩⟩
  · obtain ⟨x, rfl, hx⟩ := hiff.mp hp
    obtain ⟨x', rfl, hx'⟩ := hiff.mp hp'
    rw [(hf x).1, (hf x').1]
    exact h.one company x x' hx hx'

/-- A profile that is not an Owner's keeps the Owners. -/
theorem OwnersSound.addProfile {d d' : MainDb} (h : OwnersSound d) {p : BuStaffProfile}
    (hrole : p.role ≠ StaffRole.owner) (hd : d.insertProfile p = .ok d') : OwnersSound d' := by
  obtain ⟨-, -, -, -, hd⟩ := insertProfile_ok hd
  refine h.extend ?_ ?_ ?_ fun x hx => ?_
  · rw [hd]
  · rw [hd]
    exact fun _ hq => hq
  · rw [hd]
    exact fun _ hx => List.mem_append_left _ hx
  · rw [hd] at hx
    obtain hx | hx := List.mem_append.mp hx
    · exact Or.inl hx
    · rw [List.mem_singleton.mp hx]
      exact Or.inr hrole

/-- A committed onboarding keeps the Owners and adds one. -/
theorem OwnersSound.commitOnboard {d d' : MainDb} (h : OwnersSound d) {draws : Draws}
    {q : OnboardRequest} (hd : d.insertAll [.company (onboardRows draws q).1,
      .businessUnit (onboardRows draws q).2.1, .person (onboardRows draws q).2.2.1,
      .profile (onboardRows draws q).2.2.2] = .ok d') : OwnersSound d' := by
  obtain ⟨d₁, d₂, d₃, hcompany, hbu, hperson, hprofile⟩ := insertAll_four_ok hd
  obtain ⟨hfresh, h₁⟩ := insertCompany_ok hcompany
  obtain ⟨-, -, h₂⟩ := insertBusinessUnit_ok hbu
  obtain ⟨-, -, h₃⟩ := insertPerson_ok hperson
  obtain ⟨-, -, -, -, h₄⟩ := insertProfile_ok hprofile
  refine h.onboard hfresh (q := (onboardRows draws q).2.2.1) (p := (onboardRows draws q).2.2.2)
    rfl rfl rfl ?_ ?_ ?_
  all_goals rw [h₄, h₃, h₂, h₁]

/-- A write to the main database that keeps the Owners when it is accepted. -/
theorem storeMain_sound {s : World} {r : Except DbError MainDb} (hs : OwnersSound s.main)
    (h : ∀ d, r = .ok d → OwnersSound d) : OwnersSound (storeMain s r).2.main := by
  cases r with
  | ok d => exact h d rfl
  | error e => exact hs

/-- A call of a request other than `UpdateRoleAsync` keeps the Owners. -/
theorem exec_owners {settings : Settings} {r : BackendRequest} {op : BackendCall}
    (hop : Issues settings r op) (hr : ∀ person bu company role,
      r ≠ .updateRole person bu company role) (c : BackendChoice) {s : World}
    (hs : OwnersSound s.main) : OwnersSound (op.exec c s).2.main := by
  cases hop with
  | query h =>
    rw [h.exec_state]
    exact hs
  | onboardCommit => exact storeMain_sound hs fun d h => hs.commitOnboard h
  | unitCommit =>
    refine storeMain_sound hs fun d h => ?_
    obtain ⟨m, hbu, hnil⟩ := insertAll_cons_ok.mp h
    rw [insertAll_nil_ok.mp hnil]
    obtain ⟨-, -, hd⟩ := insertBusinessUnit_ok hbu
    refine hs.extend ?_ ?_ ?_ ?_
    all_goals rw [hd]
    exacts [fun _ h => h, fun _ h => h, fun _ h => Or.inl h]
  | staffPerson =>
    refine storeMain_sound hs fun d h => ?_
    obtain ⟨-, -, hd⟩ := insertPerson_ok h
    refine hs.extend ?_ ?_ ?_ ?_
    all_goals rw [hd]
    exacts [fun _ h => List.mem_append_left _ h, fun _ h => h, fun _ h => Or.inl h]
  | staffProfile h => exact storeMain_sound hs fun d hd => hs.addProfile (assignableRole_ne_owner h) hd
  | enrollProfile h => exact storeMain_sound hs fun d hd => hs.addProfile (assignableRole_ne_owner h) hd
  | saveRole h => exact absurd rfl (hr _ _ _ _)
  | savePassword => exact hs.setPasswordHash _ _
  | onboardWorkspace => exact hs
  | onboardMember => exact hs
  | unitWorkspace => exact hs
  | unitMember => exact hs
  | staffMember => exact hs
  | enrollMember => exact hs
  | access => exact hs
  | conversationsGroup => exact hs
  | dm => exact hs
  | send => exact hs
  | messagesGroup => exact hs
  | sendGroup => exact hs
  | sendToGroup => exact hs

/-- A request other than `UpdateRoleAsync` keeps the Owners, whatever its calls
meet. -/
theorem run_owners {settings : Settings} {r : BackendRequest} (hr : ∀ person bu company role,
    r ≠ .updateRole person bu company role) (env : ℕ → Turn BackendChoice Exn) {s : World}
    (hs : OwnersSound s.main) :
    OwnersSound ((r.program settings).run backendMachine env s).2.main :=
  Program.run_preserves (P := Issues settings r) (I := fun s : World => OwnersSound s.main)
    (fun _ c _ hop hs => exec_owners hop hr c hs) (program_issues settings r) env hs

/-- The `UpdateRoleAsync` saves this role on this profile: it finds the profile
in the caller's company, the role is assignable and new, and the save takes
effect. -/
def SavesRole (s : World) (env : ℕ → Turn BackendChoice Exn) (person bu company : Uuid)
    (text : String) (profile : BuStaffProfile) (role : StaffRole) : Prop :=
  ∃ c owner, env 0 = .serve c ∧
    BuStaffProfileRepository.getByPersonAndBu s.main c.tie person bu = some (profile, owner) ∧
    owner.companyId = company ∧ assignableRole text = some role ∧ role ≠ profile.role ∧
    (env 1).choice?.isSome

/-- What an `UpdateRoleAsync` does to the main database. -/
theorem updateRole_main (settings : Settings) (person bu company : Uuid) (text : String)
    (env : ℕ → Turn BackendChoice Exn) (s : World) :
    (∃ profile role, SavesRole s env person bu company text profile role ∧
      (((BackendRequest.updateRole person bu company text).program settings).run
        backendMachine env s).2.main = s.main.setRole profile.id role) ∨
    ((∀ profile role, ¬SavesRole s env person bu company text profile role) ∧
      (((BackendRequest.updateRole person bu company text).program settings).run
        backendMachine env s).2.main = s.main) := by
  have hprogram : (BackendRequest.updateRole person bu company text).program settings =
      (fun _ => BackendResponse.done) <$> StaffService.updateRole person bu company text := rfl
  rw [hprogram, Program.run_map]
  unfold StaffService.updateRole
  rw [Program.run_perform_bind]
  cases h0 : env 0 with
  | drop e => exact Or.inr ⟨fun _ _ ⟨c, _, h, _⟩ => (by rw [h0] at h; cases h), rfl⟩
  | lost c e => exact Or.inr ⟨fun _ _ ⟨c, _, h, _⟩ => (by rw [h0] at h; cases h), rfl⟩
  | serve c =>
    have never : ∀ {s' : World},
        (∀ profile owner role, BuStaffProfileRepository.getByPersonAndBu s.main c.tie person bu =
          some (profile, owner) → owner.companyId = company → assignableRole text = some role →
          role ≠ profile.role → (env 1).choice?.isSome → False) → s'.main = s.main →
        (∃ profile role, SavesRole s env person bu company text profile role ∧
          s'.main = s.main.setRole profile.id role) ∨
        ((∀ profile role, ¬SavesRole s env person bu company text profile role) ∧
          s'.main = s.main) := by
      intro s' hno hmain
      refine Or.inr ⟨?_, hmain⟩
      rintro profile role ⟨c', owner, hc', hfound, hcompany, hrole, hnew, hsave⟩
      cases h0.symm.trans hc'
      exact hno profile owner role hfound hcompany hrole hnew hsave
    dsimp only [Machine.answer, BackendCall.exec]
    cases hfound : BuStaffProfileRepository.getByPersonAndBu s.main c.tie person bu with
    | none =>
      refine never (fun _ _ _ h => ?_) rfl
      rw [hfound] at h
      cases h
    | some row =>
      obtain ⟨profile, owner⟩ := row
      dsimp only
      have same : ∀ {profile' owner'}, BuStaffProfileRepository.getByPersonAndBu s.main c.tie
          person bu = some (profile', owner') → profile' = profile ∧ owner' = owner := by
        intro profile' owner' h
        rw [hfound] at h
        cases h
        exact ⟨rfl, rfl⟩
      by_cases hcompany : owner.companyId = company
      · rw [if_neg (not_not_intro hcompany)]
        cases hrole : assignableRole text with
        | none =>
          refine never (fun _ _ _ _ _ h => ?_) rfl
          rw [hrole] at h
          cases h
        | some role =>
          dsimp only
          by_cases hnew : role = profile.role
          · rw [if_pos hnew]
            refine never (fun profile' owner' role' hf _ hr hne => ?_) rfl
            obtain ⟨rfl, -⟩ := same hf
            cases hrole.symm.trans hr
            exact absurd hnew hne
          · rw [if_neg hnew, Program.run_perform]
            cases hsave : (env 1).choice? with
            | none =>
              refine never (fun _ _ _ _ _ _ _ h => ?_) ?_
              · rw [hsave] at h
                cases h
              · rw [Machine.answer_state_none backendMachine _ s hsave]
            | some c' =>
              refine Or.inl ⟨profile, role, ⟨c, owner, h0, hfound, hcompany, hrole, hnew, ?_⟩, ?_⟩
              · rw [hsave]
                rfl
              · rw [Machine.answer_state_some backendMachine _ s hsave]
                rfl
      · rw [if_pos hcompany]
        refine never (fun profile' owner' _ hf hc => ?_) rfl
        obtain ⟨-, rfl⟩ := same hf
        exact absurd hc hcompany

/-- The request is an `UpdateRoleAsync` that saves a role on an Owner profile. -/
def DemotesOwner (s : World) (r : Served) : Prop :=
  ∃ person bu company text profile role, r.request = .updateRole person bu company text ∧
    SavesRole s r.env person bu company text profile role ∧ profile.role = StaffRole.owner

/-- A found profile is stored together with its person. -/
theorem getByPersonAndBu_mem {d : MainDb} {tie : Uuid → ℕ} {person bu : Uuid}
    {profile : BuStaffProfile} {owner : Person}
    (h : BuStaffProfileRepository.getByPersonAndBu d tie person bu = some (profile, owner)) :
    profile ∈ d.profiles ∧ owner ∈ d.persons ∧ owner.id = profile.personId := by
  unfold BuStaffProfileRepository.getByPersonAndBu at h
  obtain ⟨p, hp, hq⟩ := Option.bind_eq_some_iff.mp h
  have hmem : p ∈ d.profiles := by
    have hsort := List.mem_of_mem_head? hp
    exact (List.mem_filter.mp (mem_sortOn.mp hsort)).1
  unfold withPerson personOf at hq
  obtain ⟨q, hfind, he⟩ := Option.map_eq_some_iff.mp hq
  cases he
  exact ⟨hmem, List.mem_of_find?_eq_some hfind, by simpa using List.find?_some hfind⟩

/-- The Owner profiles after a role other than Owner was saved. -/
theorem ownerOf_setRole {d : MainDb} {id company : Uuid} {role : StaffRole} {p : BuStaffProfile}
    (hrole : role ≠ StaffRole.owner) :
    OwnerOf (d.setRole id role).toMainTables company p ↔
      OwnerOf d.toMainTables company p ∧ p.id ≠ id := by
  have hprofiles : (d.setRole id role).profiles =
      d.profiles.map fun x => if x.id = id then { x with role } else x := rfl
  refine (ownerOf_map hprofiles rfl fun x => by split <;> rfl).trans ⟨?_, ?_⟩
  · rintro ⟨x, rfl, howner, hx, hq⟩
    by_cases hid : x.id = id
    · rw [if_pos hid] at howner
      exact absurd howner hrole
    · rw [if_neg hid] at howner ⊢
      exact ⟨⟨hx, howner, hq⟩, hid⟩
  · rintro ⟨⟨hx, howner, hq⟩, hid⟩
    refine ⟨p, ?_, ?_, hx, hq⟩
    · rw [if_neg hid]
    · rw [if_neg hid]
      exact howner

/-- Saving a role other than Owner creates no second Owner. -/
theorem oneOwner_setRole {d : MainDb} {id : Uuid} {role : StaffRole}
    (hrole : role ≠ StaffRole.owner) (h : OneOwner d.toMainTables) :
    OneOwner (d.setRole id role).toMainTables := fun company p p' hp hp' =>
  h company p p' ((ownerOf_setRole hrole).mp hp).1 ((ownerOf_setRole hrole).mp hp').1

/-- Saving a role other than Owner keeps the Owners exactly when the profile was
not an Owner's. -/
theorem ownersKept_setRole_iff {d : MainDb} (h : OwnersSound d) {profile : BuStaffProfile}
    {role : StaffRole} (hrole : role ≠ StaffRole.owner) (hprofile : profile ∈ d.profiles) :
    OwnersKept (d.setRole profile.id role).toMainTables ↔ profile.role ≠ StaffRole.owner := by
  constructor
  · intro hkept howner
    obtain ⟨q, hq, hqid⟩ := d.valid.profiles_person profile hprofile
    obtain ⟨c, hc, hcid⟩ := d.valid.persons_company q hq
    have hold : OwnerOf d.toMainTables c.id profile := ⟨hprofile, howner, q, hq, hqid, hcid.symm⟩
    obtain ⟨p, -, hp⟩ := hkept c hc
    have hp' := (ownerOf_setRole hrole).mp hp
    exact hp'.2 (h.one c.id p profile hp'.1 hold)
  · intro hne c hc
    obtain ⟨p, -, hp⟩ := h.kept c hc
    have hid : p.id ≠ profile.id := by
      intro he
      have hsame : p = profile := d.valid.profiles_id.eq hp.1 hprofile he
      exact hne (hsame ▸ hp.2.1)
    have hp' := (ownerOf_setRole hrole).mpr ⟨hp, hid⟩
    exact ⟨p, hp'.1, hp'⟩

/-- One request keeps each company's Owner exactly when it does not demote one,
and it never creates a second Owner. -/
theorem step_owners {settings : Settings} {s s' : World} {r : Served} (hs : OwnersSound s.main)
    (h : World.step settings s r = some s') :
    OneOwner s'.main.toMainTables ∧ (OwnersKept s'.main.toMainTables ↔ ¬DemotesOwner s r) := by
  cases h
  by_cases hr : ∃ person bu company text, r.request = .updateRole person bu company text
  · obtain ⟨person, bu, company, text, hr⟩ := hr
    rw [hr]
    have hdemotes : DemotesOwner s r ↔ ∃ profile role,
        SavesRole s r.env person bu company text profile role ∧
          profile.role = StaffRole.owner := by
      constructor
      · rintro ⟨_, _, _, _, profile, role, hr', hsaves, howner⟩
        cases hr.symm.trans hr'
        exact ⟨profile, role, hsaves, howner⟩
      · rintro ⟨profile, role, hsaves, howner⟩
        exact ⟨person, bu, company, text, profile, role, hr, hsaves, howner⟩
    obtain ⟨profile, role, hsaves, hmain⟩ | ⟨hno, hmain⟩ :=
      updateRole_main settings person bu company text r.env s
    · have hsaves' := hsaves
      obtain ⟨c, owner, henv, hfound, -, hrole, -, -⟩ := hsaves
      have hne := assignableRole_ne_owner hrole
      rw [hmain, hdemotes, ownersKept_setRole_iff hs hne (getByPersonAndBu_mem hfound).1]
      refine ⟨oneOwner_setRole hne hs.one, fun hold => ?_, fun hno howner =>
        hno ⟨profile, role, hsaves', howner⟩⟩
      rintro ⟨profile', role', ⟨c', owner', henv', hfound', -⟩, howner'⟩
      cases henv.symm.trans henv'
      cases hfound.symm.trans hfound'
      exact hold howner'
    · rw [hmain, hdemotes]
      refine ⟨hs.one, fun _ => ?_, fun _ => hs.kept⟩
      rintro ⟨profile, role, hsaves, -⟩
      exact hno profile role hsaves
  · have hsound : OwnersSound ((r.request.program settings).run backendMachine r.env s).2.main :=
      run_owners (fun person bu company text he => hr ⟨person, bu, company, text, he⟩) r.env hs
    refine ⟨hsound.one, fun _ => ?_, fun _ => hsound.kept⟩
    rintro ⟨person, bu, company, text, _, _, he, -⟩
    exact hr ⟨person, bu, company, text, he⟩

/-- The empty and the seeded installation have one Owner for each company. -/
theorem ownersSound_installed {s : World} (h : s = World.initial ∨ s = World.seeded) :
    OwnersSound s.main := by
  obtain rfl | rfl := h
  · refine ⟨by decide, fun company p p' hp => ?_⟩
    cases hp.1
  · refine ⟨by decide, fun company p p' hp hp' => ?_⟩
    rw [List.mem_singleton.mp hp.1, List.mem_singleton.mp hp'.1]

/-- From the empty or the seeded installation, every company has an Owner profile
in all states of a run exactly when no request of the run demotes an Owner. -/
theorem ownersKept_throughout_iff (settings : Settings) {s : World} (rs : List Served)
    (hs : s = World.initial ∨ s = World.seeded) :
    Throughout (World.step settings) (fun w => OwnersKept w.main.toMainTables) s rs ↔
      EachStep (World.step settings) (fun w r => ¬DemotesOwner w r) s rs := by
  obtain ⟨s', h⟩ := run_exists settings s rs
  have hsound := ownersSound_installed hs
  exact throughout_iff_eachStep (J := fun w : World => OneOwner w.main.toMainTables)
    (fun _ _ _ hone hkept hstep => (step_owners ⟨hkept, hone⟩ hstep).1)
    (fun _ _ _ hone hkept hstep => (step_owners ⟨hkept, hone⟩ hstep).2) hsound.one hsound.kept h

/-- A company is onboarded and its Owner is made an Admin. -/
def demotion : List Served :=
  [⟨.onboard (Draws.from 100) ⟨"Spa", none, none, "Ann", none, "ann@spa.test", "secret"⟩,
      servedWith 10⟩,
    ⟨.updateRole 102 101 100 "Admin", servedWith 11⟩]

/-- A company can lose its Owner. -/
theorem ownersKept_not_invariant :
    ¬∀ settings rs s', run (World.step settings) World.initial rs = some s' →
      OwnersKept s'.main.toMainTables := by
  intro h
  have hrun : ((run (World.step Settings.plain) World.initial demotion).map
      fun s => decide (OwnersKept s.main.toMainTables)) = some false := by decide
  obtain ⟨s', hs', hbad⟩ := Option.map_eq_some_iff.mp hrun
  exact of_decide_eq_false hbad (h Settings.plain demotion s' hs')

/-- The equivalence at the run of a demotion. -/
theorem ownersKept_throughout_demotion :
    Throughout (World.step Settings.plain) (fun w => OwnersKept w.main.toMainTables)
        World.initial demotion ↔
      EachStep (World.step Settings.plain) (fun w r => ¬DemotesOwner w r) World.initial demotion :=
  ownersKept_throughout_iff Settings.plain demotion (Or.inl rfl)

end AuraWellness.Backend.Owners
