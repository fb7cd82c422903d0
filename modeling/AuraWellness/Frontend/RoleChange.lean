import AuraWellness.Backend.Login
import AuraWellness.Frontend.Stores

/-!
# A role changed in the staff table

The table shows one row a profile, but the change of a role passes the person of
the row on. The store looks the person up in its list and sends the business unit
of the first row, the backend takes a profile of the person there, and the store
then rewrites every row of the person.
-/

namespace AuraWellness.Frontend.RoleChange

open AuraWellness.Lib.Keyed AuraWellness.Lib.Calls AuraWellness.Lib.Ranked
open AuraWellness.Chat.Entities AuraWellness.Chat.Handlers
open AuraWellness.Backend.Entities AuraWellness.Backend.Schema AuraWellness.Backend.Repositories
open AuraWellness.Backend.Services AuraWellness.Backend.Runs
open AuraWellness.Frontend.Stores

/-- The options of the selection in `StaffTable`. -/
def roleOptions : List String := ["Admin", "Staff"]

/-- Every option is assigned as the role with this text. -/
theorem assignableRole_option {role : String} (h : role ∈ roleOptions) :
    ∃ parsed, assignableRole role = some parsed ∧ StaffRole.text parsed = role := by
  obtain rfl | h := List.mem_cons.mp h
  · exact ⟨StaffRole.admin, by decide, by decide⟩
  · rw [List.mem_singleton.mp h]
    exact ⟨StaffRole.staff, by decide, by decide⟩

/-- A profile with another role. -/
def withRole (id : Uuid) (role : StaffRole) (p : BuStaffProfile) : BuStaffProfile :=
  if p.id = id then { p with role } else p

/-- The server has given the profile this role and has changed nothing else. -/
def OnlyRoleChanged (s s' : World) (profileId : Uuid) (role : StaffRole) : Prop :=
  s'.chat = s.chat ∧ s'.main.toMainTables =
    { s.main.toMainTables with profiles := s.main.profiles.map (withRole profileId role) }

/-- What `StaffService.GetAllAsync` returns. -/
def staffList (d : MainDb) (tie : Uuid → ℕ) (companyId : Uuid) : List StaffResponse :=
  (BuStaffProfileRepository.getByCompany d tie companyId).map fun row =>
    toStaffResponse row.1 row.2.1 row.2.2

/-- A successful `GetAllAsync` returns the list in the order of its lookup. -/
theorem getAll_ok_iff {s : World} {companyId : Uuid} {env : ℕ → Turn BackendChoice Exn}
    {list : List StaffResponse} :
    ((StaffService.getAll companyId).run backendMachine env s).1 = .ok list ↔
      ∃ c, env 0 = .serve c ∧ list = staffList s.main c.tie companyId := by
  unfold StaffService.getAll
  rw [Program.run_perform_bind]
  cases henv : env 0 with
  | serve c =>
    constructor
    · intro h
      exact ⟨c, rfl, (Except.ok.inj h).symm⟩
    · intro h
      obtain ⟨c', hc, rfl⟩ := h
      cases hc
      rfl
  | drop e =>
    refine iff_of_false (fun h => by cases h) fun h => ?_
    obtain ⟨c, hc, -⟩ := h
    cases hc
  | lost c e =>
    refine iff_of_false (fun h => by cases h) fun h => ?_
    obtain ⟨c, hc, -⟩ := h
    cases hc

/-- The rows of the list. -/
theorem mem_staffList {d : MainDb} {tie : Uuid → ℕ} {companyId : Uuid} {m : StaffResponse} :
    m ∈ staffList d tie companyId ↔ ∃ p ∈ d.profiles, ∃ q b, personOf d p = some q ∧
      businessUnitOf d p = some b ∧ q.companyId = companyId ∧ toStaffResponse p q b = m := by
  simp [staffList, BuStaffProfileRepository.getByCompany, withBoth, Option.bind_eq_some_iff,
    and_assoc]

/-- A row shows its profile. -/
theorem row_eq {d : MainDb} {p : BuStaffProfile} {q : Person} {b : BusinessUnit}
    (hq : personOf d p = some q) (hb : businessUnitOf d p = some b) :
    toStaffResponse p q b = ⟨p.personId, p.id, p.buId, b.name, q.firstName, q.lastName, p.email,
      p.role.text, p.createdAt⟩ := by
  have hperson : q.id = p.personId := by simpa using List.find?_some hq
  have hunit : b.id = p.buId := by simpa using List.find?_some hb
  unfold toStaffResponse
  rw [hperson, hunit]

/-- Two rows of one profile are the same. -/
theorem row_unique {d : MainDb} {tie : Uuid → ℕ} {companyId : Uuid} {m m' : StaffResponse}
    (hm : m ∈ staffList d tie companyId) (hm' : m' ∈ staffList d tie companyId)
    (h : m.profileId = m'.profileId) : m = m' := by
  obtain ⟨p, hp, q, b, hq, hb, -, rfl⟩ := mem_staffList.mp hm
  obtain ⟨p', hp', q', b', hq', hb', -, rfl⟩ := mem_staffList.mp hm'
  have hsame : p = p' := d.valid.profiles_id.eq hp hp' h
  subst hsame
  cases hq.symm.trans hq'
  cases hb.symm.trans hb'
  rfl

/-- The row of a profile with another role. -/
def showRole (id : Uuid) (role : String) (m : StaffResponse) : StaffResponse :=
  if m.profileId = id then { m with role } else m

/-- After the change of a role the list shows it in the row of the profile. -/
theorem staffList_roleChanged {s s' : World} {id : Uuid} {role : StaffRole}
    (h : OnlyRoleChanged s s' id role) (tie : Uuid → ℕ) (companyId : Uuid) :
    staffList s'.main tie companyId = (staffList s.main tie companyId).map (showRole id role.text) := by
  have hprofiles : s'.main.profiles = s.main.profiles.map (withRole id role) := by rw [h.2]
  have hpersons : s'.main.persons = s.main.persons := by rw [h.2]
  have hunits : s'.main.businessUnits = s.main.businessUnits := by rw [h.2]
  have hsorted : sortOn (tieRank BuStaffProfile.createdAt tie BuStaffProfile.id) s'.main.profiles =
      (sortOn (tieRank BuStaffProfile.createdAt tie BuStaffProfile.id) s.main.profiles).map
        (withRole id role) := by
    rw [hprofiles]
    refine (List.map_insertionSort _ _ _ _ fun p _ q _ => ?_).symm
    have hrank : ∀ p : BuStaffProfile, tieRank BuStaffProfile.createdAt tie BuStaffProfile.id
        (withRole id role p) = tieRank BuStaffProfile.createdAt tie BuStaffProfile.id p := by
      intro p
      unfold withRole
      split <;> rfl
    rw [hrank, hrank]
  -- a profile is loaded with the same references
  have hloaded : ∀ p, withBoth s'.main (withRole id role p) =
      (withBoth s.main p).map fun row => (withRole id role row.1, row.2) := by
    intro p
    unfold withBoth personOf businessUnitOf
    rw [hpersons, hunits]
    have hsame : (withRole id role p).personId = p.personId ∧ (withRole id role p).buId = p.buId := by
      unfold withRole
      split <;> exact ⟨rfl, rfl⟩
    rw [hsame.1, hsame.2]
    cases s.main.persons.find? fun q => q.id = p.personId with
    | none => rfl
    | some q =>
      cases s.main.businessUnits.find? fun b => b.id = p.buId with
      | none => rfl
      | some b => rfl
  unfold staffList BuStaffProfileRepository.getByCompany
  rw [hsorted, List.filterMap_map]
  have hrows : (withBoth s'.main ∘ withRole id role) = fun p =>
      (withBoth s.main p).map fun row => (withRole id role row.1, row.2) := funext hloaded
  rw [hrows, ← List.map_filterMap, List.filter_map, List.map_map, List.map_map]
  refine List.map_congr_left fun row _ => ?_
  unfold Function.comp toStaffResponse showRole withRole
  dsimp only
  split <;> rfl

/-- What `GetByPersonAndBuAsync` finds is a profile of the person in the business unit. -/
theorem getByPersonAndBu_found {d : MainDb} {tie : Uuid → ℕ} {personId buId : Uuid}
    {p : BuStaffProfile} {q : Person}
    (h : BuStaffProfileRepository.getByPersonAndBu d tie personId buId = some (p, q)) :
    p ∈ d.profiles ∧ p.personId = personId ∧ p.buId = buId := by
  unfold BuStaffProfileRepository.getByPersonAndBu at h
  obtain ⟨p', hp', hq⟩ := Option.bind_eq_some_iff.mp h
  obtain ⟨q', -, he⟩ := Option.map_eq_some_iff.mp hq
  cases he
  obtain ⟨hp, hkey⟩ := List.mem_filter.mp (mem_sortOn.mp (List.mem_of_mem_head? hp'))
  exact ⟨hp, of_decide_eq_true hkey⟩

/-- An order of the rows in which this profile comes first. -/
def preferring (id : Uuid) : Uuid → ℕ := fun other => if other = id then 0 else 1

/-- `GetByPersonAndBuAsync` finds any of these profiles in some order of the rows. -/
theorem getByPersonAndBu_preferring {d : MainDb} {p : BuStaffProfile} {q : Person}
    (hp : p ∈ d.profiles) (hq : personOf d p = some q) :
    BuStaffProfileRepository.getByPersonAndBu d (preferring p.id) p.personId p.buId =
      some (p, q) := by
  have hmem : p ∈ d.profiles.filter fun r => r.personId = p.personId ∧ r.buId = p.buId :=
    List.mem_filter.mpr ⟨hp, decide_eq_true ⟨rfl, rfl⟩⟩
  have hfirst : (sortOn (tieRank (fun _ => ()) (preferring p.id) BuStaffProfile.id)
      (d.profiles.filter fun r => r.personId = p.personId ∧ r.buId = p.buId)).head? = some p := by
    refine head?_sortOn_preferred BuStaffProfile.id hmem (fun r hr he => ?_) fun id hother => ?_
    · exact d.valid.profiles_id.eq (List.mem_of_mem_filter hr) hp he
    · simp [preferring, hother]
  unfold BuStaffProfileRepository.getByPersonAndBu
  rw [hfirst]
  simp [withPerson, hq]

/-- Saving a role changes it in its profile only. -/
theorem onlyRoleChanged_setRole (s : World) (id : Uuid) (role : StaffRole) :
    OnlyRoleChanged s { s with main := s.main.setRole id role } id role := ⟨rfl, rfl⟩

/-- A role that a profile has already needs no change. -/
theorem onlyRoleChanged_same {s : World} {p : BuStaffProfile} (hp : p ∈ s.main.profiles) :
    OnlyRoleChanged s s p.id p.role := by
  have hsame : s.main.profiles.map (withRole p.id p.role) = s.main.profiles := by
    refine (List.map_congr_left fun r hr => ?_).trans (List.map_id _)
    unfold withRole
    split
    · rename_i hid
      rw [s.main.valid.profiles_id.eq hr hp hid]
      rfl
    · rfl
  exact ⟨rfl, by rw [hsame]⟩

/-- An accepted `UpdateRoleAsync` changes the role of a profile that the person has in
the business unit. -/
theorem updateRole_accepted {s s' : World} {personId buId companyId : Uuid} {role : String}
    {parsed : StaffRole} (hparsed : assignableRole role = some parsed)
    {env : ℕ → Turn BackendChoice Exn}
    (h : (StaffService.updateRole personId buId companyId role).run backendMachine env s =
      (.ok (), s')) :
    ∃ p ∈ s.main.profiles, p.personId = personId ∧ p.buId = buId ∧
      OnlyRoleChanged s s' p.id parsed := by
  unfold StaffService.updateRole at h
  obtain ⟨found, hfound, hrun⟩ := Program.run_perform_bind_ok (congrArg Prod.fst h)
  obtain ⟨c, -, ha⟩ := Machine.answer_ok hfound
  rw [hrun, ha] at h
  rw [ha] at hfound
  have hreply : BuStaffProfileRepository.getByPersonAndBu s.main c.tie personId buId = found :=
    Except.ok.inj hfound
  cases found with
  | none => cases congrArg Prod.fst h
  | some row =>
    obtain ⟨p, q⟩ := row
    obtain ⟨hp, hperson, hunit⟩ := getByPersonAndBu_found hreply
    refine ⟨p, hp, hperson, hunit, ?_⟩
    dsimp only at h
    split at h
    · cases congrArg Prod.fst h
    · rw [hparsed] at h
      dsimp only at h
      split at h
      · rename_i hsame
        cases h
        rw [hsame]
        exact onlyRoleChanged_same hp
      · obtain ⟨c', -, hsave⟩ := Machine.answer_ok (congrArg Prod.fst h)
        have hstate : { s with main := s.main.setRole p.id parsed } = s' :=
          congrArg Prod.snd (hsave.symm.trans h)
        rw [← hstate]
        exact onlyRoleChanged_setRole s p.id parsed

/-- Every profile that the person has in the business unit can be the one. -/
theorem exists_updateRole {s : World} {companyId : Uuid} {role : String} {parsed : StaffRole}
    (hparsed : assignableRole role = some parsed) {p : BuStaffProfile} (hp : p ∈ s.main.profiles)
    {q : Person} (hq : personOf s.main p = some q) (hcompany : q.companyId = companyId) :
    ∃ env s', (StaffService.updateRole p.personId p.buId companyId role).run backendMachine env s =
      (.ok (), s') ∧ OnlyRoleChanged s s' p.id parsed := by
  have hfound := getByPersonAndBu_preferring hp hq
  have hreply : ∀ rpc, backendMachine.answer (.profileGetByPersonAndBu p.personId p.buId)
      (.serve ⟨preferring p.id, rpc⟩) s = (.ok (some (p, q)), s) := by
    intro rpc
    rw [← hfound]
    rfl
  obtain ⟨rpc, hrpc⟩ : ∃ rpc : RpcEnv, (servedWith 0 0 = .serve ⟨fun _ => 0, rpc⟩) := ⟨_, rfl⟩
  refine ⟨fun _ => .serve ⟨preferring p.id, rpc⟩, ?_⟩
  unfold StaffService.updateRole
  rw [Program.run_perform_bind, hreply]
  dsimp only
  rw [if_neg (not_not.mpr hcompany), hparsed]
  dsimp only
  split
  · rename_i hsame
    refine ⟨s, rfl, ?_⟩
    rw [hsame]
    exact onlyRoleChanged_same hp
  · exact ⟨_, rfl, onlyRoleChanged_setRole s p.id parsed⟩

/-- The change of a role hits the row: whenever the backend accepts the request of the
store, the server has changed the profile of the row only, and the store shows what the
server would return now. -/
def HitsRow (s : World) (companyId : Uuid) (env : ℕ → Turn BackendChoice Exn) (store : StaffStore)
    (r : StaffResponse) (role : String) : Prop :=
  ∀ buId env' s', store.updateRole r.personId role = some (.updateRole r.personId buId role) →
    (StaffService.updateRole r.personId buId companyId role).run backendMachine env' s =
      (.ok (), s') →
    (∃ parsed, assignableRole role = some parsed ∧ OnlyRoleChanged s s' r.profileId parsed) ∧
      ((StaffService.getAll companyId).run backendMachine env s').1 =
        .ok (store.roleUpdated r.personId role).staff

/-- The row stands for its person in the list, in its business unit and in its role. -/
structure StandsForPerson (s : World) (list : List StaffResponse) (r : StaffResponse)
    (role : String) : Prop where
  /-- It is the first row of the person. -/
  first : list.find? (fun m => m.personId = r.personId) = some r
  /-- The person has one profile in its business unit. -/
  only : ∀ p ∈ s.main.profiles, p.personId = r.personId → p.buId = r.buId → p.id = r.profileId
  /-- All other rows of the person show the new role already. -/
  others : ∀ m ∈ list, m.personId = r.personId → m.profileId ≠ r.profileId → m.role = role

/-- What the store and the server show after a change. -/
theorem shown_eq_iff {list : List StaffResponse} {personId id : Uuid} {role : String} :
    list.map (showRole id role) =
        list.map (fun m => if m.personId = personId then { m with role } else m) ↔
      ∀ m ∈ list, (m.profileId = id → m.personId ≠ personId → m.role = role) ∧
        (m.personId = personId → m.profileId ≠ id → m.role = role) := by
  rw [List.map_inj_left]
  refine forall₂_congr fun m _ => ?_
  have hrole : ∀ m : StaffResponse, ({ m with role } : StaffResponse) = m ↔ m.role = role := by
    intro m
    constructor
    · intro h
      rw [← h]
    · intro h
      rw [← h]
  unfold showRole
  by_cases hid : m.profileId = id <;> by_cases hperson : m.personId = personId
  · rw [if_pos hid, if_pos hperson]
    exact iff_of_true rfl ⟨fun _ h => absurd hperson h, fun _ h => absurd hid h⟩
  · rw [if_pos hid, if_neg hperson, hrole]
    exact ⟨fun h => ⟨fun _ _ => h, fun h' => absurd h' hperson⟩, fun h => h.1 hid hperson⟩
  · rw [if_neg hid, if_pos hperson, eq_comm, hrole]
    exact ⟨fun h => ⟨fun h' => absurd h' hid, fun _ _ => h⟩, fun h => h.2 hperson hid⟩
  · rw [if_neg hid, if_neg hperson]
    exact iff_of_true rfl ⟨fun h => absurd h hid, fun h => absurd h hperson⟩

/-- The request of the store is for the business unit of the first row of the person. -/
theorem updateRole_request {store : StaffStore} {personId buId : Uuid} (role : String) :
    store.updateRole personId role = some (.updateRole personId buId role) ↔
      ∃ m, store.staff.find? (fun m => m.personId = personId) = some m ∧ m.buId = buId := by
  unfold StaffStore.updateRole StaffStore.member
  rw [Option.map_eq_some_iff]
  refine exists_congr fun m => and_congr_right fun _ => ?_
  constructor
  · intro h
    cases h
    rfl
  · intro h
    rw [h]

/-- A change hits a row that stands for its person. -/
theorem hitsRow_of_stands {s : World} {companyId : Uuid} {env : ℕ → Turn BackendChoice Exn}
    {store : StaffStore}
    (hlist : ((StaffService.getAll companyId).run backendMachine env s).1 = .ok store.staff)
    {r : StaffResponse} (hr : r ∈ store.staff) {role : String} (hrole : role ∈ roleOptions)
    (h : StandsForPerson s store.staff r role) : HitsRow s companyId env store r role := by
  intro buId env' s' hrequest hrun
  obtain ⟨parsed, hparsed, htext⟩ := assignableRole_option hrole
  obtain ⟨m, hm, hunit⟩ := (updateRole_request role).mp hrequest
  obtain rfl : m = r := Option.some.inj (hm.symm.trans h.first)
  obtain ⟨p, hp, hperson, hunit', hchanged⟩ := updateRole_accepted hparsed hrun
  rw [h.only p hp hperson (hunit'.trans hunit.symm)] at hchanged
  obtain ⟨c, henv, hstore⟩ := getAll_ok_iff.mp hlist
  refine ⟨⟨parsed, hparsed, hchanged⟩, getAll_ok_iff.mpr ⟨c, henv, ?_⟩⟩
  rw [staffList_roleChanged hchanged, htext, ← hstore]
  refine (shown_eq_iff.mpr fun m' hm' => ⟨fun hid hother => ?_, h.others m' hm'⟩).symm
  -- the row of the profile is a row of the person
  rw [hstore] at hr hm'
  exact absurd (congrArg StaffResponse.personId (row_unique hm' hr hid)) hother

/-- A row that every change hits stands for its person. -/
theorem stands_of_hitsRow {s : World} {companyId : Uuid} {env : ℕ → Turn BackendChoice Exn}
    {store : StaffStore}
    (hlist : ((StaffService.getAll companyId).run backendMachine env s).1 = .ok store.staff)
    {r : StaffResponse} (hr : r ∈ store.staff) {role : String} (hrole : role ∈ roleOptions)
    (hchange : role ≠ r.role) (h : HitsRow s companyId env store r role) :
    StandsForPerson s store.staff r role := by
  obtain ⟨parsed, hparsed, htext⟩ := assignableRole_option hrole
  obtain ⟨c, henv, hstore⟩ := getAll_ok_iff.mp hlist
  have hr' := hr
  rw [hstore] at hr'
  obtain ⟨pr, hpr, qr, br, hqr, hbr, hcompany, hrow⟩ := mem_staffList.mp hr'
  rw [row_eq hqr hbr] at hrow
  have hpid : pr.id = r.profileId := congrArg StaffResponse.profileId hrow
  have hperson : pr.personId = r.personId := congrArg StaffResponse.personId hrow
  have hunit : pr.buId = r.buId := congrArg StaffResponse.buId hrow
  -- the profile of the row does not have the new role yet
  have hnew : pr.role ≠ parsed := by
    intro he
    have hshown : pr.role.text = r.role := congrArg StaffResponse.role hrow
    exact hchange (by rw [← htext, ← he, hshown])
  -- the request goes to the first row of the person
  obtain ⟨m, hm⟩ : ∃ m, store.staff.find? (fun m => m.personId = r.personId) = some m :=
    Option.isSome_iff_exists.mp (List.find?_isSome.mpr ⟨r, hr, decide_eq_true rfl⟩)
  have hrequest := (updateRole_request role).mpr ⟨m, hm, rfl⟩
  -- whichever profile of the person is taken there, it is that of the row
  have htaken : ∀ p ∈ s.main.profiles, p.personId = r.personId → p.buId = m.buId →
      p.id = r.profileId := by
    intro p hp hpperson hpunit
    have hq : personOf s.main p = some qr := by
      unfold personOf
      rw [hpperson, ← hperson]
      exact hqr
    obtain ⟨env', s', hrun, hchanged⟩ := exists_updateRole hparsed hp hq hcompany
    rw [hpperson, hpunit] at hrun
    obtain ⟨⟨parsed', hparsed', hexpected⟩, -⟩ := h m.buId env' s' hrequest hrun
    cases hparsed.symm.trans hparsed'
    by_contra hother
    have hprofiles := congrArg MainTables.profiles (hchanged.2.symm.trans hexpected.2)
    have hsame : withRole p.id parsed pr = withRole r.profileId parsed pr :=
      List.map_inj_left.mp hprofiles pr hpr
    have hne : pr.id ≠ p.id := fun he => hother (he.symm.trans hpid)
    unfold withRole at hsame
    rw [if_neg hne, if_pos hpid] at hsame
    exact hnew (congrArg BuStaffProfile.role hsame)
  -- so the first row is this one
  obtain rfl : m = r := by
    have hmem : m ∈ staffList s.main c.tie companyId := by
      rw [← hstore]
      exact List.mem_of_find?_eq_some hm
    have hmperson : m.personId = r.personId := by simpa using List.find?_some hm
    obtain ⟨p, hp, q, b, hq, hb, -, hrow'⟩ := mem_staffList.mp hmem
    rw [row_eq hq hb] at hrow'
    refine row_unique hmem hr' ((congrArg StaffResponse.profileId hrow').symm.trans ?_)
    exact htaken p hp ((congrArg StaffResponse.personId hrow').trans hmperson)
      (congrArg StaffResponse.buId hrow')
  refine ⟨hm, htaken, fun m' hm' hm'person hother => ?_⟩
  obtain ⟨env', s', hrun, hchanged⟩ := exists_updateRole hparsed hpr hqr hcompany
  rw [hperson, hunit] at hrun
  obtain ⟨-, hfresh⟩ := h m.buId env' s' hrequest hrun
  obtain ⟨c', henv', hshown⟩ := getAll_ok_iff.mp hfresh
  cases henv.symm.trans henv'
  rw [staffList_roleChanged hchanged, htext, ← hstore, hpid] at hshown
  exact (shown_eq_iff.mp hshown.symm m' hm').2 hm'person hother

/-- For every list that the backend has returned and every row of it: the change of its
role to another option hits the row exactly if the row stands for its person. -/
theorem hitsRow_iff {s : World} {companyId : Uuid} {env : ℕ → Turn BackendChoice Exn}
    {store : StaffStore}
    (hlist : ((StaffService.getAll companyId).run backendMachine env s).1 = .ok store.staff)
    {r : StaffResponse} (hr : r ∈ store.staff) {role : String} (hrole : role ∈ roleOptions)
    (hchange : role ≠ r.role) :
    HitsRow s companyId env store r role ↔ StandsForPerson s store.staff r role :=
  ⟨stands_of_hitsRow hlist hr hrole hchange, hitsRow_of_stands hlist hr hrole⟩

/-- A company with an Owner who is enrolled in a second business unit, and one member
of the staff there. -/
def twoUnits : MainDb where
  companies := [⟨1, "Spa", "Main Street", "555-0101", 0⟩]
  businessUnits := [⟨2, 1, "North", 0⟩, ⟨3, 1, "South", 0⟩]
  persons := [⟨4, 1, "Ann", "Lee", 0⟩, ⟨5, 1, "Eve", "Ray", 0⟩]
  profiles := [⟨6, 4, 2, "ann@north.test", "x", StaffRole.owner, 0⟩,
    ⟨7, 4, 3, "ann@south.test", "x", StaffRole.staff, 1⟩,
    ⟨8, 5, 3, "eve@south.test", "x", StaffRole.staff, 2⟩]
  valid := by constructor <;> simp [UniqueColumn, loginKey]

/-- The staff page of that company. -/
def twoUnitsPage : StaffStore :=
  ⟨staffList twoUnits (fun _ => 0) 1, [⟨2, 1, "North", 0⟩, ⟨3, 1, "South", 0⟩], [], false, none⟩

/-- The equivalence for the row of a person with one profile. -/
theorem hitsRow_single :
    HitsRow { World.seeded with main := twoUnits } 1 (servedWith 0) twoUnitsPage
        ⟨5, 8, 3, "South", "Eve", "Ray", "eve@south.test", "Staff", 2⟩ "Admin" ↔
      StandsForPerson { World.seeded with main := twoUnits } twoUnitsPage.staff
        ⟨5, 8, 3, "South", "Eve", "Ray", "eve@south.test", "Staff", 2⟩ "Admin" :=
  hitsRow_iff rfl (by decide) (by decide) (by decide)

/-- A role that is changed in an Owner's second row changes the Owner's first profile. -/
theorem hitsRow_not_always : ¬∀ (s : World) (companyId : Uuid) (env : ℕ → Turn BackendChoice Exn)
    (store : StaffStore) (r : StaffResponse) (role : String),
    ((StaffService.getAll companyId).run backendMachine env s).1 = .ok store.staff →
      r ∈ store.staff → r.role ≠ "Owner" → role ∈ roleOptions → role ≠ r.role →
        HitsRow s companyId env store r role := by
  intro h
  have hhits := h { World.seeded with main := twoUnits } 1 (servedWith 0) twoUnitsPage
    ⟨4, 7, 3, "South", "Ann", "Lee", "ann@south.test", "Staff", 1⟩ "Admin" rfl (by decide)
    (by decide) (by decide) (by decide)
  have hlist : ((StaffService.getAll 1).run backendMachine (servedWith 0)
      { World.seeded with main := twoUnits }).1 = .ok twoUnitsPage.staff := rfl
  have hstands := stands_of_hitsRow hlist (by decide) (by decide) (by decide) hhits
  exact absurd hstands.first (by decide)

end AuraWellness.Frontend.RoleChange
