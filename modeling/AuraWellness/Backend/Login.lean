import AuraWellness.Backend.Tenants

/-!
# Whose business units a login offers

The lookup of a login spans all tenants, so it offers the business units of one
person exactly as long as no password fits two profiles of different persons
under one e-mail address. Every call that stores a password hash decides on that.
-/

namespace AuraWellness.Backend.Login

open AuraWellness.Lib.Keyed AuraWellness.Lib.Calls AuraWellness.Lib.Transition
open AuraWellness.Lib.Ranked
open AuraWellness.Chat.Entities AuraWellness.Chat.Handlers
open AuraWellness.Backend.Entities AuraWellness.Backend.Schema AuraWellness.Backend.Repositories
open AuraWellness.Backend.Services AuraWellness.Backend.Runs

/-- One password opens the profiles of two persons under one e-mail address. -/
def Clash (settings : Settings) (p q : BuStaffProfile) : Prop :=
  p.email = q.email ∧ p.personId ≠ q.personId ∧ ∃ password,
    settings.verify password p.passwordHash = true ∧
      settings.verify password q.passwordHash = true

theorem Clash.symm {settings : Settings} {p q : BuStaffProfile} (h : Clash settings p q) :
    Clash settings q p := by
  obtain ⟨hemail, hperson, password, hp, hq⟩ := h
  exact ⟨hemail.symm, hperson.symm, password, hq, hp⟩

/-- The choice is the business unit of a profile of the person that the e-mail
address and the password open. -/
def ChoiceOf (settings : Settings) (d : MainDb) (email password : String) (person : Person)
    (choice : BuChoiceResponse) : Prop :=
  ∃ p ∈ d.profiles, p.email = email ∧ settings.verify password p.passwordHash = true ∧
    p.buId = choice.buId ∧ p.personId = person.id

/-- All choices of one login are business units of one person. -/
def OneIdentity (settings : Settings) (s : World) : Prop :=
  ∀ email password buId env choices,
    ((AuthService.login settings email password buId).run backendMachine env s).1 =
      .ok (.choices choices) →
    ∃ person ∈ s.main.persons, ∀ choice ∈ choices,
      ChoiceOf settings s.main email password person choice

/-- The rows of `GetByEmailMultipleAsync`. -/
theorem mem_getByEmailMultiple {d : MainDb} {tie : Uuid → ℕ} {email : String} {p : BuStaffProfile}
    {q : Person} {b : BusinessUnit} :
    (p, q, b) ∈ BuStaffProfileRepository.getByEmailMultiple d tie email ↔
      p ∈ d.profiles ∧ p.email = email ∧ personOf d p = some q ∧ businessUnitOf d p = some b := by
  simp [BuStaffProfileRepository.getByEmailMultiple, withBoth, Option.bind_eq_some_iff, and_assoc]

/-- `validProfiles`: what the lookup finds and the password opens. -/
def validProfiles (settings : Settings) (d : MainDb) (tie : Uuid → ℕ) (email password : String) :
    List (BuStaffProfile × Person × BusinessUnit) :=
  (BuStaffProfileRepository.getByEmailMultiple d tie email).filter fun p =>
    settings.verify password p.1.passwordHash

theorem mem_validProfiles {settings : Settings} {d : MainDb} {tie : Uuid → ℕ}
    {email password : String} {p : BuStaffProfile} {q : Person} {b : BusinessUnit} :
    (p, q, b) ∈ validProfiles settings d tie email password ↔
      (p ∈ d.profiles ∧ p.email = email ∧ personOf d p = some q ∧ businessUnitOf d p = some b) ∧
        settings.verify password p.passwordHash = true := by
  unfold validProfiles
  rw [List.mem_filter, mem_getByEmailMultiple]

/-- Every profile that the e-mail address and the password open is found. -/
theorem exists_mem_validProfiles {settings : Settings} {d : MainDb} (tie : Uuid → ℕ)
    {password : String} {p : BuStaffProfile} (hp : p ∈ d.profiles)
    (hverify : settings.verify password p.passwordHash = true) :
    ∃ q b, (p, q, b) ∈ validProfiles settings d tie p.email password := by
  obtain ⟨q, hq, hqid⟩ := d.valid.profiles_person p hp
  obtain ⟨b, hb, hbid⟩ := d.valid.profiles_businessUnit p hp
  have hperson : personOf d p = some q := (find?_eq_some_iff d.valid.persons_id).mpr ⟨hq, hqid⟩
  have hunit : businessUnitOf d p = some b :=
    (find?_eq_some_iff d.valid.businessUnits_id).mpr ⟨hb, hbid⟩
  exact ⟨q, b, mem_validProfiles.mpr ⟨⟨hp, rfl, hperson, hunit⟩, hverify⟩⟩

/-- The choices are the business units of the profiles that the password opens. -/
theorem login_choices {settings : Settings} {email password : String} {buId : Option Uuid}
    {env : ℕ → Turn BackendChoice Exn} {s : World} {choices : List BuChoiceResponse}
    (h : ((AuthService.login settings email password buId).run backendMachine env s).1 =
      .ok (.choices choices)) :
    ∃ tie, 1 < (validProfiles settings s.main tie email password).length ∧
      choices = (validProfiles settings s.main tie email password).map fun p =>
        ⟨p.1.buId, p.2.2.name⟩ := by
  unfold AuthService.login at h
  obtain ⟨rows, hrows, hrun⟩ := Program.run_perform_bind_ok h
  obtain ⟨c, -, ha⟩ := Machine.answer_ok hrows
  rw [ha] at hrows
  have hreply : BuStaffProfileRepository.getByEmailMultiple s.main c.tie email = rows :=
    Except.ok.inj hrows
  rw [hrun] at h
  unfold validProfiles
  refine ⟨c.tie, ?_⟩
  rw [hreply]
  dsimp only at h
  split at h
  · cases h
  split at h
  · cases h
  split at h
  · rename_i hmany
    cases h
    exact ⟨hmany.1, rfl⟩
  · -- without a choice to make, a login ends with a session or an exception
    split at h <;> cases h

/-- A login whose password opens several profiles offers all of them. -/
theorem login_of_many {settings : Settings} {email password : String} {c : BackendChoice}
    {env : ℕ → Turn BackendChoice Exn} {s : World} (hc : env 0 = .serve c)
    (hmany : 1 < (validProfiles settings s.main c.tie email password).length) :
    ((AuthService.login settings email password none).run backendMachine env s).1 =
      .ok (.choices ((validProfiles settings s.main c.tie email password).map fun p =>
        ⟨p.1.buId, p.2.2.name⟩)) := by
  have hreply : backendMachine.answer (.profileGetByEmailMultiple email) (env 0) s =
      (.ok (BuStaffProfileRepository.getByEmailMultiple s.main c.tie email), s) := by
    rw [hc]
    rfl
  unfold validProfiles at hmany
  have hrows : (BuStaffProfileRepository.getByEmailMultiple s.main c.tie email).length ≠ 0 := by
    have hle := List.length_filter_le (fun p : BuStaffProfile × Person × BusinessUnit =>
      settings.verify password p.1.passwordHash)
      (BuStaffProfileRepository.getByEmailMultiple s.main c.tie email)
    omega
  unfold AuthService.login
  rw [Program.run_perform_bind, hreply]
  dsimp only
  rw [if_neg hrows, if_neg (by omega), if_pos ⟨hmany, rfl⟩]
  rfl

/-- Two members make a list longer than one. -/
theorem one_lt_length_of_mem {α : Type} {l : List α} {a b : α} (ha : a ∈ l) (hb : b ∈ l)
    (hne : a ≠ b) : 1 < l.length := by
  rcases l with _ | ⟨x, _ | ⟨y, rest⟩⟩
  · cases ha
  · exact absurd ((List.mem_singleton.mp ha).trans (List.mem_singleton.mp hb).symm) hne
  · simp

/-- While a login offers one identity, no password opens profiles of two persons
under one e-mail address. -/
theorem OneIdentity.conflictFree {settings : Settings} {s : World} (h : OneIdentity settings s) :
    ConflictFree (Clash settings) s.main.profiles := by
  rintro p hp q hq ⟨hemail, hperson, password, hp', hq'⟩
  -- a login with that password offers both profiles
  obtain ⟨u, b, hrow⟩ := exists_mem_validProfiles (fun _ => 0) hp hp'
  obtain ⟨u', b', hrow'⟩ := exists_mem_validProfiles (fun _ => 0) hq hq'
  rw [← hemail] at hrow'
  have hne : (p, u, b) ≠ (q, u', b') := fun he =>
    hperson (congrArg (fun row => BuStaffProfile.personId row.1) he)
  have hserved : servedWith 1 0 = .serve _ := rfl
  obtain ⟨person, -, hoffered⟩ := h p.email password none (servedWith 1) _
    (login_of_many hserved (one_lt_length_of_mem hrow hrow' hne))
  -- and a business unit has one profile under the e-mail address
  have owner : ∀ v w c, (v, w, c) ∈ validProfiles settings s.main (fun _ => 0) p.email password →
      v.personId = person.id := by
    intro v w c hmem
    obtain ⟨⟨hv, hvemail, -, -⟩, -⟩ := mem_validProfiles.mp hmem
    obtain ⟨v', hv', hemail', -, hunit, howner⟩ :=
      hoffered ⟨v.buId, c.name⟩ (List.mem_map.mpr ⟨(v, w, c), hmem, rfl⟩)
    have hkey : loginKey v' = loginKey v := Prod.ext hunit (hemail'.trans hvemail.symm)
    rw [← s.main.valid.profiles_login.eq hv' hv hkey]
    exact howner
  exact hperson ((owner p u b hrow).trans (owner q u' b' hrow').symm)

/-- While no password opens profiles of two persons under one e-mail address, a
login offers one identity. -/
theorem oneIdentity_of_conflictFree {settings : Settings} {s : World}
    (h : ConflictFree (Clash settings) s.main.profiles) : OneIdentity settings s := by
  intro email password buId env choices hlogin
  obtain ⟨tie, hmany, hchoices⟩ := login_choices hlogin
  -- the person of the first profile is the person of all
  cases hfirst : validProfiles settings s.main tie email password with
  | nil =>
    rw [hfirst] at hmany
    simp at hmany
  | cons row rest =>
    obtain ⟨p, u, b⟩ := row
    have hmem : (p, u, b) ∈ validProfiles settings s.main tie email password := by
      rw [hfirst]
      exact List.mem_cons_self
    obtain ⟨⟨hp, hemail, hperson, -⟩, hverify⟩ := mem_validProfiles.mp hmem
    obtain ⟨hu, huid⟩ := (find?_eq_some_iff s.main.valid.persons_id).mp hperson
    refine ⟨u, hu, fun choice hchoice => ?_⟩
    rw [hchoices] at hchoice
    obtain ⟨⟨q, v, c⟩, hrow, rfl⟩ := List.mem_map.mp hchoice
    obtain ⟨⟨hq, hemail', -, -⟩, hverify'⟩ := mem_validProfiles.mp hrow
    refine ⟨q, hq, hemail', hverify', rfl, ?_⟩
    by_contra hother
    have hdiffers : q.personId ≠ p.personId := fun he => hother (he.trans huid.symm)
    exact h q hq p hp ⟨hemail'.trans hemail.symm, hdiffers, password, hverify', hverify⟩

/-- A login offers one identity exactly if no password opens profiles of two
persons under one e-mail address. -/
theorem oneIdentity_iff {settings : Settings} {s : World} :
    OneIdentity settings s ↔ ConflictFree (Clash settings) s.main.profiles :=
  ⟨OneIdentity.conflictFree, oneIdentity_of_conflictFree⟩

/-- The profile of an insert. -/
def profileRow : Insert → Option BuStaffProfile
  | .profile row => some row
  | _ => none

/-- The profiles that a call writes with a password hash. -/
def written (d : MainDb) : BackendCall → List BuStaffProfile
  | .add row => (profileRow row).toList
  | .commit rows => rows.filterMap profileRow
  | .profileSavePasswordHash id passwordHash =>
    (d.profiles.filter fun p => p.id = id).map fun p => { p with passwordHash }
  | _ => []

/-- An accepted row adds its profile. -/
theorem insert_profiles {d d' : MainDb} {row : Insert} (h : d.insert row = .ok d') :
    d'.profiles = d.profiles ++ (profileRow row).toList := by
  cases row with
  | company c =>
    obtain ⟨-, hd⟩ := insertCompany_ok h
    simp [hd, profileRow]
  | businessUnit b =>
    obtain ⟨-, -, hd⟩ := insertBusinessUnit_ok h
    simp [hd, profileRow]
  | person q =>
    obtain ⟨-, -, hd⟩ := insertPerson_ok h
    simp [hd, profileRow]
  | profile p =>
    obtain ⟨-, -, -, -, hd⟩ := insertProfile_ok h
    simp [hd, profileRow]

/-- An accepted transaction adds its profiles. -/
theorem insertAll_profiles {rows : List Insert} {d d' : MainDb} (h : d.insertAll rows = .ok d') :
    d'.profiles = d.profiles ++ rows.filterMap profileRow := by
  induction rows generalizing d with
  | nil =>
    rw [insertAll_nil_ok.mp h]
    simp
  | cons row rows ih =>
    obtain ⟨m, hrow, hrows⟩ := insertAll_cons_ok.mp h
    rw [ih hrows, insert_profiles hrow]
    cases hp : profileRow row with
    | none => simp [hp]
    | some p => simp [hp]

/-- A write of the main database that arrives and is accepted is stored, and
otherwise nothing changes. -/
theorem answer_store {op : BackendCall} {s : World} {r : Except DbError MainDb}
    (hexec : ∀ c, (op.exec c s).1.isOk = r.isOk ∧ (op.exec c s).2 = (storeMain s r).2)
    (t : Turn BackendChoice Exn) :
    (backendMachine.effective op t s = false ∧ (backendMachine.answer op t s).2 = s) ∨
      (backendMachine.effective op t s = true ∧ ∃ d, r = .ok d ∧
        (backendMachine.answer op t s).2 = { s with main := d }) := by
  unfold Machine.effective
  cases ht : t.choice? with
  | none => exact Or.inl ⟨rfl, backendMachine.answer_state_none op s ht⟩
  | some c =>
    rw [backendMachine.answer_state_some op s ht]
    obtain ⟨hreply, hstate⟩ := hexec c
    dsimp only
    rw [hreply, hstate]
    cases r with
    | ok d => exact Or.inr ⟨rfl, d, rfl, rfl⟩
    | error e => exact Or.inl ⟨rfl, rfl⟩

/-- What a write of the main database stores is accepted by it. -/
theorem storeMain_isOk (s : World) (r : Except DbError MainDb) : (storeMain s r).1.isOk = r.isOk := by
  cases r <;> rfl

/-- The call writes no hash, or none that clashes with a profile that is there. -/
def WritesNoClash (settings : Settings) (op : BackendCall) (t : Turn BackendChoice Exn) (s : World) :
    Prop :=
  backendMachine.effective op t s = true → ∀ row ∈ written s.main op,
    ∀ p ∈ s.main.profiles ++ written s.main op, ¬Clash settings p row

/-- A call that writes no hash leaves every login as it is. -/
theorem writesNoClash_of_none {settings : Settings} {op : BackendCall} {t : Turn BackendChoice Exn}
    {s : World} (h : written s.main op = []) : WritesNoClash settings op t s := by
  intro _ row hrow
  rw [h] at hrow
  cases hrow

/-- Profiles that differ in their roles only clash alike. -/
theorem clash_setRole (settings : Settings) (id : Uuid) (role : StaffRole) (p q : BuStaffProfile) :
    Clash settings (if p.id = id then { p with role } else p)
      (if q.id = id then { q with role } else q) ↔ Clash settings p q := by
  unfold Clash
  split <;> split <;> exact Iff.rfl

/-- Saving a role leaves the profiles free of clashes. -/
theorem conflictFree_saveRole {settings : Settings} {s : World}
    (hs : ConflictFree (Clash settings) s.main.profiles) (id : Uuid) (role : StaffRole)
    (t : Turn BackendChoice Exn) : ConflictFree (Clash settings)
      (backendMachine.answer (.profileSaveRole id role) t s).2.main.profiles := by
  rcases backendMachine.answer_state (.profileSaveRole id role) t s with hsame | ⟨c, hsaved⟩
  · rw [hsame]
    exact hs
  · rw [hsaved]
    intro p' hp' q' hq' hclash
    obtain ⟨p, hp, rfl⟩ := List.mem_map.mp hp'
    obtain ⟨q, hq, rfl⟩ := List.mem_map.mp hq'
    exact hs p hp q hq ((clash_setRole settings id role p q).mp hclash)

/-- The old row of a rewritten profile is of the same person. -/
theorem not_clash_rewritten {settings : Settings} {d : MainDb} {id : Uuid} {hash : String} :
    ∀ p ∈ d.profiles, ∀ q ∈ d.profiles, p.id = id → q.id = id →
      ¬Clash settings p { q with passwordHash := hash } := by
  intro p hp q hq hpid hqid hclash
  have hsame : p = q := d.valid.profiles_id.eq hp hq (hpid.trans hqid.symm)
  have hperson : p.personId = q.personId := by rw [hsame]
  exact hclash.2.1 hperson

/-- After a call the profiles are free of clashes exactly if it writes none. -/
theorem conflictFree_answer_iff {settings : Settings} {s : World}
    (hs : ConflictFree (Clash settings) s.main.profiles) (op : BackendCall)
    (t : Turn BackendChoice Exn) :
    ConflictFree (Clash settings) (backendMachine.answer op t s).2.main.profiles ↔
      WritesNoClash settings op t s := by
  have hsymm : ∀ p q, Clash settings p q → Clash settings q p := fun _ _ => Clash.symm
  -- a call that writes no hash and leaves the profiles
  have spared : (backendMachine.answer op t s).2.main.profiles = s.main.profiles →
      written s.main op = [] →
      (ConflictFree (Clash settings) (backendMachine.answer op t s).2.main.profiles ↔
        WritesNoClash settings op t s) := by
    intro hsame hnone
    rw [hsame]
    exact iff_of_true hs (writesNoClash_of_none hnone)
  -- a call that appends profiles when it is accepted
  have appended : ∀ r : Except DbError MainDb,
      (∀ c, (op.exec c s).1.isOk = r.isOk ∧ (op.exec c s).2 = (storeMain s r).2) →
      (∀ d, r = .ok d → d.profiles = s.main.profiles ++ written s.main op) →
      (ConflictFree (Clash settings) (backendMachine.answer op t s).2.main.profiles ↔
        WritesNoClash settings op t s) := by
    intro r hexec hrows
    rcases answer_store hexec t with ⟨hnot, hsame⟩ | ⟨heffective, d, hd, hstored⟩
    · rw [hsame]
      exact iff_of_true hs fun h => absurd (hnot.symm.trans h) Bool.false_ne_true
    · rw [hstored]
      dsimp only
      rw [hrows d hd, hs.append_iff hsymm]
      exact ⟨fun h _ => h, fun h => h heffective⟩
  by_cases hquery : op.Queries
  · refine spared (by rw [query_state hquery]) ?_
    cases op with
    | add row => exact hquery.elim
    | commit rows => exact hquery.elim
    | profileSavePasswordHash id hash => exact hquery.elim
    | _ => rfl
  cases op with
  | add row =>
    exact appended (s.main.insert row) (fun c => ⟨storeMain_isOk s _, rfl⟩)
      fun d hd => insert_profiles hd
  | commit rows =>
    exact appended (s.main.insertAll rows) (fun c => ⟨storeMain_isOk s _, rfl⟩)
      fun d hd => insertAll_profiles hd
  | profileSaveRole id role =>
    exact iff_of_true (conflictFree_saveRole hs id role t) (writesNoClash_of_none rfl)
  | profileSavePasswordHash id hash =>
    have hexec : ∀ c, ((BackendCall.profileSavePasswordHash id hash).exec c s).1.isOk =
        (Except.ok (s.main.setPasswordHash id hash) : Except DbError MainDb).isOk ∧
        ((BackendCall.profileSavePasswordHash id hash).exec c s).2 =
          (storeMain s (.ok (s.main.setPasswordHash id hash))).2 := fun c => ⟨rfl, rfl⟩
    rcases answer_store hexec t with ⟨hnot, hsame⟩ | ⟨heffective, d, hd, hstored⟩
    · rw [hsame]
      exact iff_of_true hs fun h => absurd (hnot.symm.trans h) Bool.false_ne_true
    · rw [hstored, ← Except.ok.inj hd]
      refine Iff.trans (hs.rewrite_iff hsymm not_clash_rewritten) ?_
      exact ⟨fun h _ => h, fun h => h heffective⟩
  | chat rpc => exact spared (by rw [answer_chat_main]) rfl
  | _ => exact absurd trivial hquery

/-- The next call of the backend writes no clash. -/
def StoresNoClash (settings : Settings) (p : BackendPool) : BackendLabel → Prop
  | .turn i t =>
    match p.threads[i]? with
    | some ⟨_, .call op _⟩ => WritesNoClash settings op t p.state
    | _ => True
  | _ => True

/-- A step keeps every login offering one identity exactly if it stores no clash. -/
theorem oneIdentity_step_iff {settings : Settings} {p p' : BackendPool} {l : BackendLabel}
    (hp : OneIdentity settings p.state) (h : BackendPool.step settings p l = some p') :
    OneIdentity settings p'.state ↔ StoresNoClash settings p l := by
  obtain ⟨hsame, hl⟩ | ⟨i, t, r, op, next, rfl, hi, hstate⟩ := Pool.step_state h
  · have hstores : StoresNoClash settings p l := by
      cases l with
      | turn i t => exact absurd rfl (hl i t)
      | _ => trivial
    rw [hsame]
    exact iff_of_true hp hstores
  · have hclash : StoresNoClash settings p (.turn i t) = WritesNoClash settings op t p.state := by
      simp only [StoresNoClash, hi]
    rw [hclash, hstate, oneIdentity_iff]
    exact conflictFree_answer_iff (oneIdentity_iff.mp hp) op t

/-- From the seed, whatever requests run beside each other and whatever fails:
every login offers one identity throughout the run exactly if no step of it
stores a hash that clashes. -/
theorem oneIdentity_throughout_iff (settings : Settings) {ls : List BackendLabel} {p : BackendPool}
    (hrun : run (BackendPool.step settings) (BackendPool.initial World.seeded) ls = some p) :
    Throughout (BackendPool.step settings) (fun p => OneIdentity settings p.state)
        (BackendPool.initial World.seeded) ls ↔
      EachStep (BackendPool.step settings) (StoresNoClash settings)
        (BackendPool.initial World.seeded) ls := by
  have hseed : OneIdentity settings (BackendPool.initial World.seeded).state := by
    refine oneIdentity_iff.mpr fun p hp q hq hclash => hclash.2.1 ?_
    rw [List.mem_singleton.mp hp, List.mem_singleton.mp hq]
  exact throughout_iff_eachStep (J := fun _ => True) (fun _ _ _ _ _ _ => trivial)
    (fun _ _ _ _ hs h => oneIdentity_step_iff hs h) trivial hseed hrun

/-- Another company onboards and takes on a staff member. -/
def otherCompany : List BackendLabel :=
  .start (.onboard (Draws.from 100) ⟨"Spa", none, none, "Ann", none, "ann@spa.test", "secret"⟩) ::
    List.replicate 7 (.turn 0 (servedWith 10 0)) ++
  .start (.createStaff (Draws.from 200) 100 ⟨"Eve", "Ray", 101, "eve@mail.test", "Staff"⟩) ::
    List.replicate 5 (.turn 1 (servedWith 20 0))

/-- The company of the seed takes the same person on. -/
def seedCompanyToo : List BackendLabel :=
  .start (.createStaff (Draws.from 300) 0x10000000000000000000000000000001
      ⟨"Eve", "Ray", 0x20000000000000000000000000000001, "eve@mail.test", "Staff"⟩) ::
    List.replicate 4 (.turn 2 (servedWith 30 0))

/-- The equivalence while only one of the companies has the staff member. -/
theorem oneIdentity_otherCompany :
    Throughout (BackendPool.step Settings.plain) (fun p => OneIdentity Settings.plain p.state)
        (BackendPool.initial World.seeded) otherCompany ↔
      EachStep (BackendPool.step Settings.plain) (StoresNoClash Settings.plain)
        (BackendPool.initial World.seeded) otherCompany := by
  have hrun : (run (BackendPool.step Settings.plain) (BackendPool.initial World.seeded)
      otherCompany).isSome = true := by
    decide
  obtain ⟨p, hp⟩ := Option.isSome_iff_exists.mp hrun
  exact oneIdentity_throughout_iff Settings.plain hp

/-- Two companies take on staff under one e-mail address, and the default password
offers the business units of both. -/
theorem oneIdentity_not_invariant :
    ¬∀ (settings : Settings) (ls : List BackendLabel) (p : BackendPool),
      run (BackendPool.step settings) (BackendPool.initial World.seeded) ls = some p →
        OneIdentity settings p.state := by
  intro h
  have hrun : ((run (BackendPool.step Settings.plain) (BackendPool.initial World.seeded)
      (otherCompany ++ seedCompanyToo)).any fun p => decide (∃ x ∈ p.state.main.profiles,
        ∃ y ∈ p.state.main.profiles, x.email = y.email ∧ x.personId ≠ y.personId ∧
          x.passwordHash = "P@ssw0rd" ∧ y.passwordHash = "P@ssw0rd")) = true := by
    decide
  obtain ⟨p, hp, hboth⟩ := (Option.any_eq_true _ _).mp hrun
  obtain ⟨x, hx, y, hy, hemail, hperson, hhash, hhash'⟩ := of_decide_eq_true hboth
  have hopen : Settings.plain.verify "P@ssw0rd" "P@ssw0rd" = true := by decide
  have hclash : Clash Settings.plain x y :=
    ⟨hemail, hperson, "P@ssw0rd", hhash ▸ hopen, hhash' ▸ hopen⟩
  exact oneIdentity_iff.mp (h Settings.plain _ p hp) x hx y hy hclash

end AuraWellness.Backend.Login
