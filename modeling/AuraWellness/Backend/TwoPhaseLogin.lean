import AuraWellness.Backend.Login

/-!
# The two phases of a login

A first request finds the profiles that an e-mail address and a password open.
Several of them make a list of business units to choose from, and a second
request names one of them. What the requests return is decided by these profiles
alone, and without any of them all requests end alike.
-/

namespace AuraWellness.Backend.TwoPhaseLogin

open AuraWellness.Lib.Keyed AuraWellness.Lib.Calls AuraWellness.Lib.Ranked
open AuraWellness.Chat.Entities AuraWellness.Chat.Handlers
open AuraWellness.Backend.Entities AuraWellness.Backend.Schema AuraWellness.Backend.Repositories
open AuraWellness.Backend.Services AuraWellness.Backend.Runs AuraWellness.Backend.Login

/-- The profile has this e-mail address and its hash verifies the password. -/
def Opens (settings : Settings) (d : MainDb) (email password : String) (p : BuStaffProfile) : Prop :=
  p ∈ d.profiles ∧ p.email = email ∧ settings.verify password p.passwordHash = true

/-- The business unit of the request, when it names one, is that of the profile. -/
def Matches (buId : Option Uuid) (p : BuStaffProfile) : Prop := ∀ id, buId = some id → p.buId = id

/-- The request leaves a choice: it names no business unit, and two profiles open. -/
def Undecided (settings : Settings) (d : MainDb) (email password : String) (buId : Option Uuid) :
    Prop :=
  buId = none ∧ ∃ p q, Opens settings d email password p ∧ Opens settings d email password q ∧ p ≠ q

/-- The response of a session for this profile. -/
def sessionOf (settings : Settings) (row : BuStaffProfile × Person × BusinessUnit) : LoginResponse :=
  ⟨settings.generateToken row, row.1.personId, row.1.buId, row.2.1.companyId, row.1.role.text,
    row.2.1.firstName, row.2.1.lastName⟩

/-- The profile is opened, found with its person and its business unit, and the
response is the session for it. -/
def SessionFor (settings : Settings) (d : MainDb) (email password : String) (p : BuStaffProfile)
    (response : LoginResponse) : Prop :=
  Opens settings d email password p ∧ ∃ q b, personOf d p = some q ∧ businessUnitOf d p = some b ∧
    response = sessionOf settings (p, q, b)

/-- The outcome of a login request whose lookup the database serves. -/
def loginOutcome (settings : Settings) (s : World) (c : BackendChoice) (email password : String)
    (buId : Option Uuid) : Except Exn LoginResult :=
  ((AuthService.login settings email password buId).run backendMachine (fun _ => .serve c) s).1

/-- The only failure of a served login. -/
def invalidCredentials : Exn := .unauthorizedAccess "Invalid credentials."

/-- The opened profiles are the ones the lookup finds. -/
theorem opens_iff {settings : Settings} {d : MainDb} (tie : Uuid → ℕ) {email password : String}
    {p : BuStaffProfile} :
    Opens settings d email password p ↔ ∃ q b, (p, q, b) ∈ validProfiles settings d tie email password := by
  constructor
  · intro h
    obtain ⟨hp, rfl, hverify⟩ := h
    exact exists_mem_validProfiles tie hp hverify
  · intro h
    obtain ⟨q, b, hrow⟩ := h
    obtain ⟨⟨hp, hemail, -, -⟩, hverify⟩ := mem_validProfiles.mp hrow
    exact ⟨hp, hemail, hverify⟩

/-- The session for a found row. -/
theorem sessionFor_of_mem {settings : Settings} {d : MainDb} {tie : Uuid → ℕ}
    {email password : String} {row : BuStaffProfile × Person × BusinessUnit}
    (h : row ∈ validProfiles settings d tie email password) :
    SessionFor settings d email password row.1 (sessionOf settings row) := by
  obtain ⟨p, q, b⟩ := row
  obtain ⟨⟨hp, hemail, hperson, hunit⟩, hverify⟩ := mem_validProfiles.mp h
  exact ⟨⟨hp, hemail, hverify⟩, q, b, hperson, hunit, rfl⟩

/-- Profiles that are loaded with their references keep their order. -/
theorem withBoth_sublist (d : MainDb) (rows : List BuStaffProfile) :
    ((rows.filterMap (withBoth d)).map Prod.fst).Sublist rows := by
  induction rows with
  | nil => exact List.Sublist.refl []
  | cons p rows ih =>
    cases h : withBoth d p with
    | none =>
      rw [List.filterMap_cons_none h]
      exact ih.cons p
    | some row =>
      have hfst : row.1 = p := by
        unfold withBoth at h
        obtain ⟨q, -, hrow⟩ := Option.bind_eq_some_iff.mp h
        obtain ⟨b, -, rfl⟩ := Option.map_eq_some_iff.mp hrow
        rfl
      rw [List.filterMap_cons_some h, List.map_cons, hfst]
      exact ih.cons_cons p

/-- The found profiles are different ones. -/
theorem validProfiles_nodup (settings : Settings) (d : MainDb) (tie : Uuid → ℕ)
    (email password : String) :
    ((validProfiles settings d tie email password).map Prod.fst).Nodup := by
  have hrows : (sortOn (tieRank (fun _ => ()) tie BuStaffProfile.id)
      (d.profiles.filter fun p => p.email = email)).Nodup :=
    (sortOn_perm _ _).nodup_iff.mpr (d.valid.profiles_id.nodup.filter _)
  have hfound : ((BuStaffProfileRepository.getByEmailMultiple d tie email).map Prod.fst).Nodup :=
    hrows.sublist (withBoth_sublist d _)
  exact hfound.sublist (List.filter_sublist.map Prod.fst)

/-- No business unit has two of the found profiles. -/
theorem validProfiles_units_nodup (settings : Settings) (d : MainDb) (tie : Uuid → ℕ)
    (email password : String) :
    ((validProfiles settings d tie email password).map fun row => row.1.buId).Nodup := by
  have hmap := (validProfiles_nodup settings d tie email password).map_on
    (f := BuStaffProfile.buId) (fun p hp q hq hunit => ?_)
  · rw [List.map_map] at hmap
    exact hmap
  · obtain ⟨row, hrow, rfl⟩ := List.mem_map.mp hp
    obtain ⟨row', hrow', rfl⟩ := List.mem_map.mp hq
    obtain ⟨⟨hp, hemail, -, -⟩, -⟩ := mem_validProfiles.mp hrow
    obtain ⟨⟨hq, hemail', -, -⟩, -⟩ := mem_validProfiles.mp hrow'
    have hkey : loginKey row.1 = loginKey row'.1 := Prod.ext hunit (hemail.trans hemail'.symm)
    exact d.valid.profiles_login.eq hp hq hkey

/-- A list whose members are different is longer than one exactly if it has two of them. -/
theorem one_lt_length_iff {α : Type} {l : List α} (h : l.Nodup) :
    1 < l.length ↔ ∃ a ∈ l, ∃ b ∈ l, a ≠ b := by
  constructor
  · intro hmany
    rcases l with _ | ⟨a, _ | ⟨b, rest⟩⟩
    · simp at hmany
    · simp at hmany
    · have hne : a ≠ b := fun he => by simp [he] at h
      exact ⟨a, by simp, b, by simp, hne⟩
  · intro htwo
    obtain ⟨a, ha, b, hb, hne⟩ := htwo
    exact one_lt_length_of_mem ha hb hne

/-- A request without a business unit is undecided exactly if several profiles are found. -/
theorem undecided_iff {settings : Settings} {d : MainDb} (tie : Uuid → ℕ)
    {email password : String} {buId : Option Uuid} :
    Undecided settings d email password buId ↔
      1 < (validProfiles settings d tie email password).length ∧ buId = none := by
  have hlength : (validProfiles settings d tie email password).length =
      ((validProfiles settings d tie email password).map Prod.fst).length := by simp
  have hmem : ∀ p, p ∈ (validProfiles settings d tie email password).map Prod.fst ↔
      Opens settings d email password p := by
    intro p
    rw [opens_iff tie]
    simp
  rw [hlength, one_lt_length_iff (validProfiles_nodup settings d tie email password)]
  unfold Undecided
  constructor
  · intro h
    obtain ⟨hnone, p, q, hp, hq, hne⟩ := h
    exact ⟨⟨p, (hmem p).mpr hp, q, (hmem q).mpr hq, hne⟩, hnone⟩
  · intro h
    obtain ⟨⟨p, hp, q, hq, hne⟩, hnone⟩ := h
    exact ⟨hnone, p, q, (hmem p).mp hp, (hmem q).mp hq, hne⟩

/-- The profile that a request without a choice signs in with. -/
def chosen (settings : Settings) (d : MainDb) (tie : Uuid → ℕ) (email password : String) :
    Option Uuid → Option (BuStaffProfile × Person × BusinessUnit)
  | some id => (validProfiles settings d tie email password).find? fun row => row.1.buId = id
  | none => (validProfiles settings d tie email password).head?

/-- What a login returns, by the found profiles. -/
theorem loginOutcome_eq (settings : Settings) (s : World) (c : BackendChoice)
    (email password : String) (buId : Option Uuid) :
    loginOutcome settings s c email password buId =
      if 1 < (validProfiles settings s.main c.tie email password).length ∧ buId = none then
        .ok (.choices ((validProfiles settings s.main c.tie email password).map fun row =>
          ⟨row.1.buId, row.2.2.name⟩))
      else
        match chosen settings s.main c.tie email password buId with
        | none => .error invalidCredentials
        | some row => .ok (.session (sessionOf settings row)) := by
  have hreply : backendMachine.answer (.profileGetByEmailMultiple email) (.serve c) s =
      (.ok (BuStaffProfileRepository.getByEmailMultiple s.main c.tie email), s) := rfl
  unfold loginOutcome AuthService.login chosen
  rw [Program.run_perform_bind, hreply]
  unfold validProfiles
  dsimp only
  generalize BuStaffProfileRepository.getByEmailMultiple s.main c.tie email = rows
  by_cases hrows : rows.length = 0
  · -- nobody has the e-mail address
    rw [List.length_eq_zero_iff.mp hrows]
    cases buId <;> rfl
  rw [if_neg hrows]
  generalize (rows.filter fun p => settings.verify password p.1.passwordHash) = valid
  by_cases hvalid : valid.length = 0
  · -- the password opens none of the profiles
    rw [List.length_eq_zero_iff.mp hvalid]
    cases buId <;> rfl
  rw [if_neg hvalid]
  split
  · rfl
  · cases buId with
    | none =>
      cases hhead : valid.head? with
      | none => rfl
      | some row => rfl
    | some id =>
      cases hfind : valid.find? fun row => row.1.buId = id with
      | none => simp only [hfind]; rfl
      | some row => simp only [hfind]; rfl

/-- The chosen profile is a found one and matches. -/
theorem chosen_some {settings : Settings} {d : MainDb} {tie : Uuid → ℕ}
    {email password : String} {buId : Option Uuid} {row : BuStaffProfile × Person × BusinessUnit}
    (h : chosen settings d tie email password buId = some row) :
    row ∈ validProfiles settings d tie email password ∧ Matches buId row.1 := by
  cases buId with
  | none => exact ⟨List.mem_of_head? h, fun id hid => by cases hid⟩
  | some id =>
    refine ⟨List.mem_of_find?_eq_some h, fun id' hid => ?_⟩
    cases hid
    simpa using List.find?_some h

/-- A profile is chosen as soon as a matching one is opened. -/
theorem exists_chosen {settings : Settings} {d : MainDb} (tie : Uuid → ℕ)
    {email password : String} {buId : Option Uuid} {p : BuStaffProfile}
    (hp : Opens settings d email password p) (hmatch : Matches buId p) :
    ∃ row, chosen settings d tie email password buId = some row := by
  obtain ⟨q, b, hrow⟩ := (opens_iff tie).mp hp
  cases buId with
  | none =>
    unfold chosen
    cases hrows : validProfiles settings d tie email password with
    | nil =>
      rw [hrows] at hrow
      cases hrow
    | cons first rest => exact ⟨first, rfl⟩
  | some id =>
    refine Option.isSome_iff_exists.mp (List.find?_isSome.mpr ⟨(p, q, b), hrow, ?_⟩)
    exact decide_eq_true (hmatch id rfl)

/-- A login ends with choices exactly if it is undecided, and they are the found units. -/
theorem loginOutcome_choices_iff {settings : Settings} {s : World} {c : BackendChoice}
    {email password : String} {buId : Option Uuid} {choices : List BuChoiceResponse} :
    loginOutcome settings s c email password buId = .ok (.choices choices) ↔
      Undecided settings s.main email password buId ∧
        choices = (validProfiles settings s.main c.tie email password).map fun row =>
          ⟨row.1.buId, row.2.2.name⟩ := by
  rw [loginOutcome_eq, undecided_iff c.tie]
  split
  · rename_i hmany
    constructor
    · intro h
      cases h
      exact ⟨hmany, rfl⟩
    · intro h
      rw [h.2]
  · rename_i hfew
    refine iff_of_false (fun h => ?_) fun h => hfew h.1
    split at h <;> cases h

/-- A login ends with a session exactly if it is decided for a profile. -/
theorem loginOutcome_session_iff {settings : Settings} {s : World} {c : BackendChoice}
    {email password : String} {buId : Option Uuid} {response : LoginResponse} :
    loginOutcome settings s c email password buId = .ok (.session response) ↔
      ¬Undecided settings s.main email password buId ∧
        ∃ row, chosen settings s.main c.tie email password buId = some row ∧
          response = sessionOf settings row := by
  rw [loginOutcome_eq, undecided_iff c.tie]
  split
  · rename_i hmany
    exact iff_of_false (fun h => by cases h) fun h => h.1 hmany
  · rename_i hfew
    cases chosen settings s.main c.tie email password buId with
    | none => simp
    | some row => simp [hfew, eq_comm]

/-- A login without a matching profile fails. -/
theorem loginOutcome_refused {settings : Settings} {s : World} (c : BackendChoice)
    {email password : String} {buId : Option Uuid}
    (h : ¬∃ p, Opens settings s.main email password p ∧ Matches buId p) :
    loginOutcome settings s c email password buId = .error invalidCredentials := by
  have hdecided : ¬Undecided settings s.main email password buId := by
    intro hundecided
    obtain ⟨hnone, p, -, hp, -⟩ := hundecided
    exact h ⟨p, hp, fun id hid => by rw [hnone] at hid; cases hid⟩
  rw [undecided_iff c.tie] at hdecided
  rw [loginOutcome_eq, if_neg hdecided]
  cases hchosen : chosen settings s.main c.tie email password buId with
  | none => rfl
  | some row =>
    obtain ⟨hrow, hmatch⟩ := chosen_some hchosen
    exact absurd ⟨row.1, (sessionFor_of_mem hrow).1, hmatch⟩ h

/-- What the login requests with one e-mail address and password return in a state,
in whatever order the lookup delivers the profiles. -/
structure TwoPhase (settings : Settings) (s : World) (email password : String) : Prop where
  /-- A session is for an opened profile of the requested business unit. -/
  sound : ∀ c buId response,
    loginOutcome settings s c email password buId = .ok (.session response) →
      ∃ p, SessionFor settings s.main email password p response ∧ Matches buId p
  /-- There is a session exactly if a matching profile is opened and there is no choice. -/
  session : ∀ c buId,
    (∃ response, loginOutcome settings s c email password buId = .ok (.session response)) ↔
      (∃ p, Opens settings s.main email password p ∧ Matches buId p) ∧
        ¬Undecided settings s.main email password buId
  /-- There are choices exactly if no business unit is named and two profiles are opened. -/
  choice : ∀ c buId,
    (∃ choices, loginOutcome settings s c email password buId = .ok (.choices choices)) ↔
      Undecided settings s.main email password buId
  /-- The choices are the business units of the opened profiles, each once. -/
  offered : ∀ c buId choices,
    loginOutcome settings s c email password buId = .ok (.choices choices) →
      (choices.map BuChoiceResponse.buId).Nodup ∧
        ∀ choice, choice ∈ choices ↔ ∃ p b, Opens settings s.main email password p ∧
          businessUnitOf s.main p = some b ∧ choice = ⟨p.buId, b.name⟩
  /-- Each choice, sent again with its business unit, gives a session there. -/
  resubmitted : ∀ c buId choices,
    loginOutcome settings s c email password buId = .ok (.choices choices) →
      ∀ choice ∈ choices, ∀ c', ∃ response,
        loginOutcome settings s c' email password (some choice.buId) = .ok (.session response) ∧
          response.buId = choice.buId
  /-- Without a matching profile the login fails. -/
  refused : ∀ c buId, (¬∃ p, Opens settings s.main email password p ∧ Matches buId p) →
    loginOutcome settings s c email password buId = .error invalidCredentials
  /-- No outcome tells two states apart in which the password opens nothing. -/
  silent : ∀ s' c c' buId buId', (¬∃ p, Opens settings s.main email password p) →
    (¬∃ p, Opens settings s'.main email password p) →
      loginOutcome settings s c email password buId =
        loginOutcome settings s' c' email password buId'

/-- In every state the two phases of a login are sound, complete and silent. -/
theorem login_twoPhase (settings : Settings) (s : World) (email password : String) :
    TwoPhase settings s email password where
  sound := by
    intro c buId response h
    obtain ⟨-, row, hchosen, rfl⟩ := loginOutcome_session_iff.mp h
    obtain ⟨hrow, hmatch⟩ := chosen_some hchosen
    exact ⟨row.1, sessionFor_of_mem hrow, hmatch⟩
  session := by
    intro c buId
    constructor
    · intro h
      obtain ⟨response, hsession⟩ := h
      obtain ⟨hdecided, row, hchosen, -⟩ := loginOutcome_session_iff.mp hsession
      obtain ⟨hrow, hmatch⟩ := chosen_some hchosen
      exact ⟨⟨row.1, (sessionFor_of_mem hrow).1, hmatch⟩, hdecided⟩
    · intro h
      obtain ⟨⟨p, hp, hmatch⟩, hdecided⟩ := h
      obtain ⟨row, hchosen⟩ := exists_chosen c.tie hp hmatch
      exact ⟨_, loginOutcome_session_iff.mpr ⟨hdecided, row, hchosen, rfl⟩⟩
  choice := by
    intro c buId
    constructor
    · intro h
      obtain ⟨choices, hchoices⟩ := h
      exact (loginOutcome_choices_iff.mp hchoices).1
    · intro h
      exact ⟨_, loginOutcome_choices_iff.mpr ⟨h, rfl⟩⟩
  offered := by
    intro c buId choices h
    obtain ⟨-, rfl⟩ := loginOutcome_choices_iff.mp h
    constructor
    · have hunits := validProfiles_units_nodup settings s.main c.tie email password
      rw [List.map_map]
      exact hunits
    · intro choice
      rw [List.mem_map]
      constructor
      · intro hchoice
        obtain ⟨⟨p, q, b⟩, hrow, rfl⟩ := hchoice
        obtain ⟨⟨-, -, -, hunit⟩, -⟩ := mem_validProfiles.mp hrow
        exact ⟨p, b, (sessionFor_of_mem hrow).1, hunit, rfl⟩
      · intro hchoice
        obtain ⟨p, b, hp, hunit, rfl⟩ := hchoice
        obtain ⟨q, b', hrow⟩ := (opens_iff c.tie).mp hp
        obtain ⟨⟨-, -, -, hunit'⟩, -⟩ := mem_validProfiles.mp hrow
        have hsame : b' = b := Option.some.inj (hunit'.symm.trans hunit)
        exact ⟨(p, q, b'), hrow, by rw [hsame]⟩
  resubmitted := by
    intro c buId choices h choice hchoice c'
    obtain ⟨-, rfl⟩ := loginOutcome_choices_iff.mp h
    obtain ⟨⟨p, q, b⟩, hrow, rfl⟩ := List.mem_map.mp hchoice
    have hmatch : Matches (some p.buId) p := fun id hid => Option.some.inj hid
    obtain ⟨row, hchosen⟩ := exists_chosen c'.tie (sessionFor_of_mem hrow).1 hmatch
    have hdecided : ¬Undecided settings s.main email password (some p.buId) :=
      fun hundecided => Option.some_ne_none _ hundecided.1
    exact ⟨_, loginOutcome_session_iff.mpr ⟨hdecided, row, hchosen, rfl⟩,
      (chosen_some hchosen).2 p.buId rfl⟩
  refused := fun c _ h => loginOutcome_refused c h
  silent := by
    intro s' c c' buId buId' h h'
    have hnone : ¬∃ p, Opens settings s.main email password p ∧ Matches buId p :=
      fun hp => h (hp.imp fun _ hboth => hboth.1)
    have hnone' : ¬∃ p, Opens settings s'.main email password p ∧ Matches buId' p :=
      fun hp => h' (hp.imp fun _ hboth => hboth.1)
    rw [loginOutcome_refused c hnone, loginOutcome_refused c' hnone']

end AuraWellness.Backend.TwoPhaseLogin
