import AuraWellness.Backend.Tokens
import AuraWellness.Backend.ChatPermissions
import AuraWellness.Chat.Sending

/-!
# Chat workspaces stay within companies

Members join a workspace when its business unit is created, when a staff member
gets a profile in the unit, and when an Owner decides on their access. Each time the
person and the unit are of one company, because the caller's token is genuine and the
services look both up. So no workspace ever has a member of another company, and
every message has been written by a member.
-/

namespace AuraWellness.Backend.ChatTenants

open AuraWellness.Lib.Calls AuraWellness.Lib.Transition AuraWellness.Lib.RelyGuarantee
open AuraWellness.Lib.Keyed
open AuraWellness.Chat.Entities AuraWellness.Chat.Schema AuraWellness.Chat.Repositories
open AuraWellness.Chat.Growth AuraWellness.Chat.Membership AuraWellness.Chat.Handlers
open AuraWellness.Chat.Procedures AuraWellness.Chat.Sending
open AuraWellness.Chat.Services (Call)
open AuraWellness.Backend.Entities AuraWellness.Backend.Schema AuraWellness.Backend.Repositories
open AuraWellness.Backend.Services AuraWellness.Backend.Runs AuraWellness.Backend.Tenants
open AuraWellness.Backend.Provisioning AuraWellness.Backend.ChatPermissions
open AuraWellness.Backend.Controllers AuraWellness.Backend.Tokens

/-- The business unit that a request draws. -/
def newUnit : BackendRequest → Option BusinessUnit
  | .onboard draws request => some (onboardRows draws request).2.1
  | .createBusinessUnit draws company _ name =>
    some (BusinessUnit.create (draws.stamps 0) company name)
  | _ => none

/-- The person whom a request draws. -/
def newPerson : BackendRequest → Option Person
  | .onboard draws request => some (onboardRows draws request).2.2.1
  | .createStaff draws company q =>
    some (Person.create (draws.stamps 0) company q.firstName q.lastName)
  | _ => none

/-- The person who becomes the Admin of the new unit's workspace. -/
def creator : BackendRequest → Option Uuid
  | .onboard draws request => some (onboardRows draws request).2.2.1.id
  | .createBusinessUnit _ _ owner _ => some owner
  | _ => none

/-- The person and the workspace's business unit are stored and of one company, or the
request creates the unit with the person as its Admin. -/
def Joins (s : World) (r : BackendRequest) (w person : Uuid) : Prop :=
  ∃ v ∈ s.chat.db.workspaces, v.id = w ∧
    ((∃ b ∈ s.main.businessUnits, b.id = v.buID ∧ ∃ q ∈ s.main.persons,
        q.id = person ∧ q.companyId = b.companyId) ∨
      ∃ b, newUnit r = some b ∧ b.id = v.buID ∧ creator r = some person)

/-- The guarantee of a request: it makes members only so. -/
def JoinGuarantee (r : BackendRequest) (op : BackendCall) (_ : Turn BackendChoice Exn) (s : World) :
    Prop :=
  match op with
  | .chat (.addMember w person _) => Joins s r w person
  | .chat (.updateMemberAccess w person _) => Joins s r w person
  | _ => True

/-- Queries make no members. -/
theorem join_of_queries {op : BackendCall} (h : op.Queries) (r : BackendRequest)
    (t : Turn BackendChoice Exn) (s : World) : JoinGuarantee r op t s := by
  cases op with
  | chat rpc =>
    cases rpc with
    | addMember w p role => exact h.elim
    | updateMemberAccess w p access => exact h.elim
    | _ => trivial
  | _ => trivial

/-- The request that creates a business unit is under its guarantee. -/
theorem provision_joins (settings : Settings) (q : ProvisioningRequest) {r : BackendRequest}
    (hprogram : r.program settings = q.program) (hunit : newUnit r = some q.unit)
    (hcreator : creator r = some q.owner) (hadmin : ∀ w p role, Issues settings r
      (.chat (.addMember w p role)) → role = "Admin")
    (hnone : ∀ w p access, ¬Issues settings r (.chat (.updateMemberAccess w p access)))
    (s : World) :
    Guarantees backendMachine accessRely (JoinGuarantee r) (r.program settings) s := by
  have hpermits := ChatPermissions.program_guarantees settings (.provision q) s
  unfold AccessRequest.program at hpermits
  refine guarantees_strengthen ?_ (program_issues settings r) (G := AccessGuarantee (.provision q))
    fun op t s' hop hguarantee => ?_
  · rw [hprogram]
    exact guarantees_of_bind hpermits
  · cases op with
    | chat rpc =>
      cases rpc with
      | addMember w p role =>
        obtain ⟨q', hq, howner, v, hv, hid, hbu⟩ := hguarantee (hadmin w p role hop)
        cases hq
        exact ⟨v, hv, hid, Or.inr ⟨q.unit, hunit, hbu.symm, howner ▸ hcreator⟩⟩
      | updateMemberAccess w p access => exact absurd hop (hnone w p access)
      | _ => trivial
    | _ => trivial

/-- A staff member joins the workspace of the business unit of its profile. -/
theorem addProfile_joins (r : BackendRequest) {person : Person} {bu : BusinessUnit}
    {profile : BuStaffProfile} {s : World} (hperson : person ∈ s.main.persons)
    (hbu : bu ∈ s.main.businessUnits) (hcompany : person.companyId = bu.companyId) :
    Guarantees backendMachine accessRely (JoinGuarantee r)
      (StaffService.addProfile person bu profile) s := by
  unfold StaffService.addProfile
  refine Guarantees.perform_bind (fun _ _ _ _ => ⟨trivial, trivial⟩) fun s₁ t₁ _ hs₁ _ _ => ?_
  have hs₂ := answer_rowsStay (.add (.profile profile)) t₁ s₁
  refine lookup_guarantees (fun _ _ _ => trivial) (fun _ _ _ => trivial)
    fun s₃ w hs₃ _ hw hunit => ?_
  unfold ChatServiceClient.addWorkspaceMember
  dsimp only
  rw [Program.bind_assoc]
  refine Guarantees.perform_bind (fun s₄ t₄ hs₄ _ => ⟨trivial, ?_⟩) fun _ _ _ _ _ _ => trivial
  have hstay : RowsStay s s₄ := ((RowsStay.trans hs₁ hs₂).trans hs₃).trans hs₄
  exact ⟨w, RowsStay.workspaces hs₄ w hw, rfl, Or.inl ⟨bu, hstay.businessUnits bu hbu, hunit.symm,
    person, hstay.persons person hperson, rfl, hcompany⟩⟩

/-- `CreateAsync` of the staff is under its guarantee. -/
theorem createStaff_joins (settings : Settings) (draws : Draws) (company : Uuid)
    (q : CreateStaffRequest) (s : World) :
    Guarantees backendMachine accessRely (JoinGuarantee (.createStaff draws company q))
      (StaffService.create settings draws company q) s := by
  have hlookup : BackendCall.Queries (.businessUnitGetById q.buId company) := trivial
  unfold StaffService.create
  refine Guarantees.perform_bind (fun _ _ _ _ => ⟨trivial, trivial⟩) fun s₁ t₁ a _ _ hok => ?_
  cases a with
  | none => trivial
  | some bu =>
    obtain ⟨hbu, -, hcompany⟩ := businessUnitGetById_ok hok
    rw [query_state hlookup]
    dsimp only
    cases assignableRole q.role with
    | none => trivial
    | some role =>
      refine Guarantees.perform_bind (fun _ _ _ _ => ⟨trivial, trivial⟩)
        fun s₂ t₂ _ hs₂ _ hok₂ => ?_
      -- the insert has succeeded, so the person is stored
      obtain ⟨d, hd, hstored⟩ := answer_add_ok hok₂
      rw [hstored]
      refine addProfile_joins _ ?_ ?_ hcompany.symm
      · refine (?_ : _ ∈ d.persons)
        rw [(insertPerson_ok hd).2.2]
        exact List.mem_append_right _ (List.mem_singleton_self _)
      · exact (insert_keepsRows hd).businessUnits _ (RowsStay.businessUnits hs₂ bu hbu)

/-- `EnrollExistingAsync` is under its guarantee. -/
theorem enrollExisting_joins (settings : Settings) (draws : Draws) (company : Uuid)
    (q : EnrollExistingStaffRequest) (s : World) :
    Guarantees backendMachine accessRely (JoinGuarantee (.enrollExisting draws company q))
      (StaffService.enrollExisting settings draws company q) s := by
  have hunitLookup : BackendCall.Queries (.businessUnitGetById q.buId company) := trivial
  have hpersonLookup : BackendCall.Queries (.personGetById q.personId company) := trivial
  unfold StaffService.enrollExisting
  refine Guarantees.perform_bind (fun _ _ _ _ => ⟨trivial, trivial⟩) fun s₁ t₁ a _ _ hok => ?_
  cases a with
  | none => trivial
  | some bu =>
    obtain ⟨hbu, -, hunit⟩ := businessUnitGetById_ok hok
    rw [query_state hunitLookup]
    refine Guarantees.perform_bind (fun _ _ _ _ => ⟨trivial, trivial⟩)
      fun s₂ t₂ a₂ hs₂ _ hok₂ => ?_
    cases a₂ with
    | none => trivial
    | some person =>
      obtain ⟨hperson, -, howner⟩ := personGetById_ok hok₂
      have hprofileLookup : BackendCall.Queries (.profileGetByPersonAndBu person.id bu.id) :=
        trivial
      rw [query_state hpersonLookup]
      refine Guarantees.perform_bind (fun _ _ _ _ => ⟨trivial, trivial⟩)
        fun s₃ t₃ a₃ hs₃ _ _ => ?_
      cases a₃ with
      | some existing => trivial
      | none =>
        rw [query_state hprofileLookup]
        dsimp only
        cases assignableRole q.role with
        | none => trivial
        | some role =>
          have hbu₃ := RowsStay.businessUnits hs₃ bu (RowsStay.businessUnits hs₂ bu hbu)
          exact addProfile_joins _ (RowsStay.persons hs₃ person hperson) hbu₃
            (howner.trans hunit.symm)

/-- `UpdateAccessAsync` is under its guarantee. -/
theorem updateAccess_joins (settings : Settings) (bu person company : Uuid) (access : Bool)
    (s : World) :
    Guarantees backendMachine accessRely (JoinGuarantee (.updateAccess bu person access company))
      (ChatAccessService.updateAccess bu person access company) s := by
  have hdecides := ChatPermissions.updateAccess_guarantees ⟨company, "Owner"⟩ bu person access s
  unfold ChatPermissions.ChatController.updateAccess at hdecides
  rw [if_pos rfl] at hdecides
  refine guarantees_strengthen (guarantees_of_bind hdecides)
    (program_issues settings (.updateAccess bu person access company)).of_map
    fun op t s' hop hguarantee => ?_
  cases op with
  | chat rpc =>
    cases rpc with
    | addMember w p role => cases hop with | query h => exact h.elim
    | updateMemberAccess w p access' =>
      obtain ⟨caller, bu', he, -, ⟨v, hv, hid, b, hb, hbu, hunit⟩, q, hq, hqid, hperson⟩ :=
        hguarantee
      cases he
      exact ⟨v, hv, hid, Or.inl ⟨b, hb, hbu, q, hq, hqid, hperson.trans hunit.symm⟩⟩
    | _ => trivial
  | _ => trivial

/-- Every request is under its guarantee. -/
theorem program_joins (settings : Settings) (r : BackendRequest) (s : World) :
    Guarantees backendMachine accessRely (JoinGuarantee r) (r.program settings) s := by
  -- most requests make no members at all
  have other : (∀ op, Issues settings r op → ∀ t s, JoinGuarantee r op t s) →
      Guarantees backendMachine accessRely (JoinGuarantee r) (r.program settings) s := fun h =>
    Guarantees.of_allOps (program_issues settings r)
      (fun op t s' hop _ => ⟨trivial, h op hop t s'⟩) s
  cases r with
  | onboard draws request =>
    refine provision_joins settings (.onboard draws request) rfl rfl rfl (fun w p role hop => ?_)
      (fun w p access hop => ?_) s
    · cases hop with
      | query h => exact h.elim
      | onboardMember => rfl
    · cases hop with | query h => exact h.elim
  | createBusinessUnit draws company owner name =>
    refine provision_joins settings (.createBusinessUnit draws company owner name) rfl rfl rfl
      (fun w p role hop => ?_) (fun w p access hop => ?_) s
    · cases hop with
      | query h => exact h.elim
      | unitMember => rfl
    · cases hop with | query h => exact h.elim
  | createStaff draws company q => exact (createStaff_joins settings draws company q s).map _
  | enrollExisting draws company q => exact (enrollExisting_joins settings draws company q s).map _
  | updateAccess bu person access company =>
    exact (updateAccess_joins settings bu person company access s).map _
  | _ =>
    refine other fun op hop t s' => ?_
    cases hop with
    | query h => exact join_of_queries h _ t s'
    | _ => trivial

/-- What a request to the API may do with members. -/
def ApiJoins (api : Api) (r : ApiRequest) (op : BackendCall) (t : Turn BackendChoice Exn)
    (s : World) : Prop :=
  match r.serves api with
  | some q => JoinGuarantee q op t s
  | none => op.Queries

/-- It does only this. -/
theorem apiProgram_joins (api : Api) (r : ApiRequest) (s : World) :
    Guarantees backendMachine accessRely (ApiJoins api r) (r.program api) s := by
  unfold ApiJoins
  cases hserves : r.serves api with
  | some q =>
    obtain ⟨f, hf⟩ := ApiRequest.program_eq hserves
    rw [hf]
    exact mapResult_guarantees f (program_joins api.settings q s)
  | none =>
    exact Guarantees.of_allOps (ApiRequest.program_query hserves)
      (fun _ _ _ hop _ => ⟨trivial, hop⟩) s

/-- The requests that have been made. -/
def Site.requests (p : Site) : List ApiRequest := p.threads.map Thread.req

/-- The business units of the start and those that requests have drawn. -/
def knownUnits (api : Api) (d₀ : MainTables) (p : Site) : List BusinessUnit :=
  d₀.businessUnits ++ (Site.requests p).filterMap fun r => (r.serves api).bind newUnit

/-- The persons of the start and those that requests have drawn. -/
def knownPersons (api : Api) (d₀ : MainTables) (p : Site) : List Person :=
  d₀.persons ++ (Site.requests p).filterMap fun r => (r.serves api).bind newPerson

/-- `Guid.NewGuid()` draws no identifier of a business unit or a person twice. -/
def DrawsFresh (api : Api) (d₀ : MainTables) (p : Site) : SiteLabel → Prop
  | .start r =>
    (∀ b ∈ (r.serves api).bind newUnit, ∀ b' ∈ knownUnits api d₀ p, b'.id ≠ b.id) ∧
      ∀ q ∈ (r.serves api).bind newPerson, ∀ q' ∈ knownPersons api d₀ p, q'.id ≠ q.id
  | _ => True

instance (api : Api) (d₀ : MainTables) (p : Site) (l : SiteLabel) :
    Decidable (DrawsFresh api d₀ p l) :=
  match l with
  | .start r => inferInstanceAs (Decidable
      ((∀ b ∈ (r.serves api).bind newUnit, ∀ b' ∈ knownUnits api d₀ p, b'.id ≠ b.id) ∧
        ∀ q ∈ (r.serves api).bind newPerson, ∀ q' ∈ knownPersons api d₀ p, q'.id ≠ q.id))
  | .turn _ _ => isTrue trivial
  | .crash _ _ => isTrue trivial

/-- What a list of drawn rows gets in a step. -/
theorem drawn_step {α : Type} {api : Api} {p p' : Site} {l : SiteLabel} {rows : List α}
    {f : BackendRequest → Option α}
    (h : Pool.step backendMachine (ApiRequest.program api) p l = some p') :
    rows ++ (Site.requests p').filterMap (fun r => (r.serves api).bind f) =
      (rows ++ (Site.requests p).filterMap fun r => (r.serves api).bind f) ++
        l.made.filterMap fun r => (r.serves api).bind f := by
  unfold Site.requests
  rw [Pool.requests_step h, List.filterMap_append, List.append_assoc]

/-- New rows with new identifiers leave the identifiers unique. -/
theorem unique_step {α : Type} {api : Api} {l : SiteLabel} {rows : List α} {id : α → Uuid}
    {f : BackendRequest → Option α} (h : UniqueColumn id rows)
    (hfresh : ∀ r, l = .start r → ∀ a ∈ (r.serves api).bind f, ∀ b ∈ rows, id b ≠ id a) :
    UniqueColumn id (rows ++ l.made.filterMap fun r => (r.serves api).bind f) := by
  have same : UniqueColumn id (rows ++ []) := by
    rw [List.append_nil]
    exact h
  cases l with
  | turn i t => exact same
  | crash i e => exact same
  | start r =>
    have hmade : (Label.made (.start r : SiteLabel)).filterMap (fun r => (r.serves api).bind f) =
        ((r.serves api).bind f).toList := by
      cases hnew : (r.serves api).bind f <;> simp [Label.made, hnew]
    rw [hmade]
    cases hnew : (r.serves api).bind f with
    | none => exact same
    | some a =>
      refine h.concat ?_
      rintro ⟨b, hb, he⟩
      exact hfresh r rfl a hnew b hb he

/-- The member's person and the business unit of its workspace are known and of one
company. -/
def Belongs (units : List BusinessUnit) (persons : List Person) (d : ChatDb)
    (m : ChatWorkspaceMember) : Prop :=
  ∃ v ∈ d.workspaces, v.id = m.workspaceID ∧ ∃ b ∈ units, b.id = v.buID ∧
    ∃ q ∈ persons, q.id = m.personID ∧ q.companyId = b.companyId

theorem Belongs.extend {units units' : List BusinessUnit} {persons persons' : List Person}
    {d d' : ChatDb} {m m' : ChatWorkspaceMember} (h : Belongs units persons d m)
    (hunits : ∀ b ∈ units, b ∈ units') (hpersons : ∀ q ∈ persons, q ∈ persons')
    (hworkspaces : ∀ v ∈ d.workspaces, v ∈ d'.workspaces) (hkey : memberKey m' = memberKey m) :
    Belongs units' persons' d' m' := by
  obtain ⟨v, hv, hid, b, hb, hbu, q, hq, hqid, hcompany⟩ := h
  obtain ⟨hw, hp⟩ := Prod.mk.inj hkey
  exact ⟨v, hworkspaces v hv, hid.trans hw.symm, b, hunits b hb, hbu, q, hpersons q hq,
    hqid.trans hp.symm, hcompany⟩

/-- Every message was written by a member of its workspace. -/
def AuthorsAreMembers (d : ChatDb) : Prop :=
  ∀ x ∈ d.messages, IsMember d x.workspaceID x.personID

/-- Members that a call leaves are members from before, or the one whom it adds. -/
theorem change_members {d d' : ChatDb} {rpc : Rpc} (h : Change d d' rpc)
    {m : ChatWorkspaceMember} (hm : m ∈ d'.members) :
    (∃ old ∈ d.members, memberKey m = memberKey old) ∨
      ∃ w p, memberKey m = (w, p) ∧
        ((∃ role, rpc = .addMember w p role) ∨ ∃ access, rpc = .updateMemberAccess w p access) := by
  cases h with
  | same hworkspaces hmembers => exact Or.inl ⟨m, hmembers ▸ hm, rfl⟩
  | created hbu hcompany hid hnew hworkspaces hmembers => exact Or.inl ⟨m, hmembers ▸ hm, rfl⟩
  | @joined w p role row hkey hrole haccess hnew hw hworkspaces hmembers =>
    rw [hmembers] at hm
    obtain hold | hlast := List.mem_append.mp hm
    · exact Or.inl ⟨m, hold, rfl⟩
    · rw [List.mem_singleton.mp hlast]
      exact Or.inr ⟨w, p, hkey, Or.inl ⟨role, rfl⟩⟩
  | @assigned w p role hold hworkspaces hmembers =>
    rw [hmembers] at hm
    obtain ⟨old, hmem, rfl⟩ := List.mem_map.mp hm
    exact Or.inl ⟨old, hmem, (assignRole_fields w p role old).1⟩
  | @admitted w p access row hkey hrole haccess hnew hw hworkspaces hmembers =>
    rw [hmembers] at hm
    obtain hold | hlast := List.mem_append.mp hm
    · exact Or.inl ⟨m, hold, rfl⟩
    · rw [List.mem_singleton.mp hlast]
      exact Or.inr ⟨w, p, hkey, Or.inr ⟨access, rfl⟩⟩
  | @switched w p access hold hworkspaces hmembers =>
    rw [hmembers] at hm
    obtain ⟨old, hmem, rfl⟩ := List.mem_map.mp hm
    exact Or.inl ⟨old, hmem, (switchAccess_fields w p access old).1⟩

/-- What a call leaves behind keeps the authors members. -/
theorem AuthorsAreMembers.sent {call : Call} {s s' : ChatState} (hs : AuthorsAreMembers s.db)
    (h : Sent call s s') : AuthorsAreMembers s'.db := by
  intro x hx
  obtain hold | hnew := h.messages x hx
  · exact (hs x hold).grows h.grows
  · exact hnew.2

/-- However a call is answered, the authors stay members. -/
theorem answer_keepsAuthors (op : BackendCall) (t : Turn BackendChoice Exn) {s : World}
    (hs : AuthorsAreMembers s.chat.db) :
    AuthorsAreMembers (backendMachine.answer op t s).2.chat.db := by
  by_cases hchat : ∃ rpc, op = .chat rpc
  · obtain ⟨rpc, rfl⟩ := hchat
    obtain he | ⟨env, he⟩ := answer_chat_state rpc t s
    · rw [he]
      exact hs
    · rw [he]
      exact hs.sent (serve_sent rpc env s.chat)
  · rw [answer_main_chat fun rpc he => hchat ⟨rpc, he⟩]
    exact hs

/-- A person of the database after a transaction was there before or is one of its rows. -/
theorem insertAll_persons {rows : List Insert} {d d' : MainDb} (h : d.insertAll rows = .ok d')
    {q : Person} : q ∈ d'.persons ↔ q ∈ d.persons ∨ .person q ∈ rows := by
  induction rows generalizing d with
  | nil =>
    rw [insertAll_nil_ok.mp h]
    simp
  | cons row rows ih =>
    obtain ⟨m, hrow, hrows⟩ := insertAll_cons_ok.mp h
    rw [ih hrows]
    have hm : q ∈ m.persons ↔ q ∈ d.persons ∨ row = .person q := by
      cases row with
      | company c =>
        rw [(insertCompany_ok hrow).2]
        simp
      | businessUnit u =>
        rw [(insertBusinessUnit_ok hrow).2.2]
        simp
      | person x =>
        rw [(insertPerson_ok hrow).2.2]
        simp [eq_comm]
      | profile x =>
        rw [(insertProfile_ok hrow).2.2.2.2]
        simp
    rw [hm, List.mem_cons, or_assoc, eq_comm (a := row)]

/-- The business units and persons after a write were there before or are its rows. -/
theorem stored_rows {s : World} {rows : List Insert} :
    (∀ b ∈ (storeMain s (s.main.insertAll rows)).2.main.businessUnits,
      b ∈ s.main.businessUnits ∨ .businessUnit b ∈ rows) ∧
    ∀ q ∈ (storeMain s (s.main.insertAll rows)).2.main.persons,
      q ∈ s.main.persons ∨ .person q ∈ rows := by
  cases hd : s.main.insertAll rows with
  | error e => exact ⟨fun _ hb => Or.inl hb, fun _ hq => Or.inl hq⟩
  | ok d =>
    exact ⟨fun _ hb => (insertAll_businessUnits hd).mp hb, fun _ hq => (insertAll_persons hd).mp hq⟩

/-- An insert is a transaction of one row. -/
theorem insert_eq_insertAll (d : MainDb) (row : Insert) : d.insert row = d.insertAll [row] := by
  rw [MainDb.insertAll]
  cases d.insert row <;> rfl

/-- What a request stores in these tables it has drawn. -/
theorem exec_drawn {settings : Settings} {q : BackendRequest} {op : BackendCall}
    (hop : Issues settings q op) (c : BackendChoice) (s : World) :
    (∀ b ∈ (op.exec c s).2.main.businessUnits, b ∈ s.main.businessUnits ∨ newUnit q = some b) ∧
    ∀ x ∈ (op.exec c s).2.main.persons, x ∈ s.main.persons ∨ newPerson q = some x := by
  have same : (op.exec c s).2.main.businessUnits = s.main.businessUnits →
      (op.exec c s).2.main.persons = s.main.persons →
      (∀ b ∈ (op.exec c s).2.main.businessUnits, b ∈ s.main.businessUnits ∨ newUnit q = some b) ∧
      ∀ x ∈ (op.exec c s).2.main.persons, x ∈ s.main.persons ∨ newPerson q = some x := fun hb hq =>
    ⟨fun b h => Or.inl (hb ▸ h), fun x h => Or.inl (hq ▸ h)⟩
  have added : ∀ {row : Insert}, op = .add row → (∀ b, row ≠ .businessUnit b) →
      (∀ x, row = .person x → newPerson q = some x) →
      (∀ b ∈ (op.exec c s).2.main.businessUnits, b ∈ s.main.businessUnits ∨ newUnit q = some b) ∧
      ∀ x ∈ (op.exec c s).2.main.persons, x ∈ s.main.persons ∨ newPerson q = some x := by
    rintro row rfl hunit hperson
    rw [BackendCall.exec, insert_eq_insertAll]
    refine ⟨fun b hb => (stored_rows.1 b hb).imp_right fun h => ?_,
      fun x hx => (stored_rows.2 x hx).imp_right fun h => ?_⟩
    · exact absurd (List.mem_singleton.mp h).symm (hunit b)
    · exact hperson x (List.mem_singleton.mp h).symm
  cases hop with
  | query h =>
    rw [h.exec_state]
    exact ⟨fun _ hb => Or.inl hb, fun _ hq => Or.inl hq⟩
  | onboardCommit =>
    refine ⟨fun b hb => (stored_rows.1 b hb).imp_right fun h => ?_,
      fun x hx => (stored_rows.2 x hx).imp_right fun h => ?_⟩
    · simp only [List.mem_cons, List.not_mem_nil, or_false, reduceCtorEq, false_or,
        Insert.businessUnit.injEq] at h
      rw [h]
      rfl
    · simp only [List.mem_cons, List.not_mem_nil, or_false, reduceCtorEq, false_or,
        Insert.person.injEq] at h
      rw [h]
      rfl
  | unitCommit =>
    refine ⟨fun b hb => (stored_rows.1 b hb).imp_right fun h => ?_,
      fun x hx => (stored_rows.2 x hx).imp_right fun h => ?_⟩
    · cases List.mem_singleton.mp h
      rfl
    · cases List.mem_singleton.mp h
  | staffPerson =>
    refine added rfl (fun b h => by cases h) fun x h => ?_
    cases h
    rfl
  | staffProfile h => exact added rfl (fun b h => by cases h) fun x h => by cases h
  | enrollProfile h => exact added rfl (fun b h => by cases h) fun x h => by cases h
  | _ => exact same rfl rfl

/-- A business unit is created for the company of the caller, with the caller as its
Admin. -/
theorem serves_createBusinessUnit {api : Api} {r : ApiRequest} {draws : Draws}
    {company owner : Uuid} {name : String}
    (h : r.serves api = some (.createBusinessUnit draws company owner name)) :
    ∃ now token user, r = .bearer now token (.createBusinessUnit draws name) ∧
      api.validate now token = some user ∧
      ApiAction.allows user.role (.createBusinessUnit draws name) = true ∧
      company = user.companyId ∧ owner = user.personId := by
  cases r with
  | login request => cases h
  | onboard draws' request => cases h
  | bearer now token action =>
    obtain ⟨user, huser, haction⟩ := Option.bind_eq_some_iff.mp h
    split at haction
    · rename_i hallows
      cases action <;> cases haction
      exact ⟨now, token, user, rfl, huser, hallows, rfl, rfl⟩
    · cases haction

/-- What holds of the chat members in every state of every run. -/
structure Within (api : Api) (d₀ : MainTables) (p : Site) : Prop where
  /-- The tokens are genuine. -/
  sound : Sound api d₀ p
  /-- The requests make members as they may. -/
  joins : Governed backendMachine accessRely (ApiJoins api) p
  /-- The stored business units and persons are known. -/
  units : ∀ b ∈ p.state.main.businessUnits, b ∈ knownUnits api d₀ p
  persons : ∀ q ∈ p.state.main.persons, q ∈ knownPersons api d₀ p
  /-- The known ones are told apart by their identifiers. -/
  units_id : UniqueColumn BusinessUnit.id (knownUnits api d₀ p)
  persons_id : UniqueColumn Person.id (knownPersons api d₀ p)
  /-- Members belong to the company of their workspace. -/
  members : ∀ m ∈ p.state.chat.db.members,
    Belongs (knownUnits api d₀ p) (knownPersons api d₀ p) p.state.chat.db m
  authors : AuthorsAreMembers p.state.chat.db

/-- What is known stays known. -/
theorem known_step {api : Api} (d₀ : MainTables) {p p' : Site} {l : SiteLabel}
    (h : Pool.step backendMachine (ApiRequest.program api) p l = some p') :
    (∀ b ∈ knownUnits api d₀ p, b ∈ knownUnits api d₀ p') ∧
      ∀ q ∈ knownPersons api d₀ p, q ∈ knownPersons api d₀ p' := by
  unfold knownUnits knownPersons
  rw [drawn_step h, drawn_step h]
  exact ⟨fun _ hb => List.mem_append_left _ hb, fun _ hq => List.mem_append_left _ hq⟩

/-- What a request of the pool draws is known. -/
theorem known_of_thread {api : Api} (d₀ : MainTables) {p : Site} {i : ℕ} {r : ApiRequest}
    {prog : BackendProgram ApiReply} (hi : p.threads[i]? = some ⟨r, prog⟩) {q : BackendRequest}
    (hq : r.serves api = some q) :
    (∀ b, newUnit q = some b → b ∈ knownUnits api d₀ p) ∧
      ∀ x, newPerson q = some x → x ∈ knownPersons api d₀ p := by
  have hmem : r ∈ Site.requests p := List.mem_map.mpr ⟨_, List.mem_of_getElem? hi, rfl⟩
  refine ⟨fun b hb => List.mem_append_right _ (List.mem_filterMap.mpr ⟨r, hmem, ?_⟩),
    fun x hx => List.mem_append_right _ (List.mem_filterMap.mpr ⟨r, hmem, ?_⟩)⟩
  · rw [hq]
    exact hb
  · rw [hq]
    exact hx

/-- A person whom a request of the pool makes a member belongs to the company of the
workspace. -/
theorem Within.belongs {api : Api} {d₀ : MainTables} {p : Site} (hp : Within api d₀ p) {i : ℕ}
    {r : ApiRequest} {prog : BackendProgram ApiReply} (hi : p.threads[i]? = some ⟨r, prog⟩)
    {q : BackendRequest} (hq : r.serves api = some q) {w person : Uuid}
    (h : Joins p.state q w person) {m : ChatWorkspaceMember} (hkey : memberKey m = (w, person)) :
    Belongs (knownUnits api d₀ p) (knownPersons api d₀ p) p.state.chat.db m := by
  obtain ⟨hw, hperson⟩ := Prod.mk.inj hkey
  obtain ⟨v, hv, hid, ⟨b, hb, hbu, x, hx, hxid, hcompany⟩ | ⟨b, hb, hbu, hcreator⟩⟩ := h
  · exact ⟨v, hv, hid.trans hw.symm, b, hp.units b hb, hbu, x, hp.persons x hx,
      hxid.trans hperson.symm, hcompany⟩
  · obtain ⟨hunits, hpersons⟩ := known_of_thread d₀ hi hq
    cases q with
    | onboard draws request =>
      cases hb
      cases hcreator
      exact ⟨v, hv, hid.trans hw.symm, _, hunits _ rfl, hbu, _, hpersons _ rfl, hperson.symm, rfl⟩
    | createBusinessUnit draws company owner name =>
      cases hb
      cases hcreator
      obtain ⟨now, token, user, rfl, huser, hallows, rfl, rfl⟩ := serves_createBusinessUnit hq
      obtain ⟨⟨-, -, x, hx, -, -, -, -, -, hxid, hcompany, -⟩, -⟩ := hp.sound.acts
        ⟨_, List.mem_of_getElem? hi, now, token, rfl, huser, hallows⟩
      exact ⟨v, hv, hid.trans hw.symm, _, hunits _ rfl, hbu, x, hp.persons x hx,
        hxid.trans hperson.symm, hcompany⟩
    | _ => cases hb

/-- The members after a step belong to the companies of their workspaces. -/
theorem Within.newMembers {api : Api} {d₀ : MainTables} {p p' : Site} {l : SiteLabel}
    (hp : Within api d₀ p) (h : Pool.step backendMachine (ApiRequest.program api) p l = some p')
    {m : ChatWorkspaceMember} (hm : m ∈ p'.state.chat.db.members) :
    Belongs (knownUnits api d₀ p') (knownPersons api d₀ p') p'.state.chat.db m := by
  obtain ⟨hunits, hpersons⟩ := known_step d₀ h
  have same : p'.state.chat = p.state.chat →
      Belongs (knownUnits api d₀ p') (knownPersons api d₀ p') p'.state.chat.db m := by
    intro he
    rw [he] at hm ⊢
    exact (hp.members m hm).extend hunits hpersons (fun _ hv => hv) rfl
  cases l with
  | start r =>
    cases h
    exact same rfl
  | crash i e =>
    obtain ⟨r, op, next, hi, rfl⟩ := Pool.step_crash h
    exact same rfl
  | turn i t =>
    obtain ⟨r, op, next, hi, -, rfl⟩ := Pool.step_turn h
    by_cases hchat : ∃ rpc, op = .chat rpc
    · obtain ⟨rpc, rfl⟩ := hchat
      have hgrows := (answer_rowsStay (.chat rpc) t p.state).workspaces
      obtain he | ⟨env, he⟩ := answer_chat_state rpc t p.state
      · exact same (by rw [he])
      · have hchange : Change p.state.chat.db
            (backendMachine.answer (.chat rpc) t p.state).2.chat.db rpc := by
          rw [he]
          exact serve_change rpc env p.state.chat
        obtain ⟨old, hold, hkey⟩ | ⟨w, person, hkey, hcall⟩ := change_members hchange hm
        · exact (hp.members old hold).extend hunits hpersons hgrows hkey
        · have hguarantee := hp.joins.call hi t
          unfold ApiJoins at hguarantee
          cases hq : r.serves api with
          | none =>
            rw [hq] at hguarantee
            obtain ⟨role, rfl⟩ | ⟨access, rfl⟩ := hcall <;> exact hguarantee.elim
          | some q =>
            rw [hq] at hguarantee
            have hjoins : Joins p.state q w person := by
              obtain ⟨role, rfl⟩ | ⟨access, rfl⟩ := hcall <;> exact hguarantee
            exact (hp.belongs hi hq hjoins hkey).extend hunits hpersons hgrows rfl
    · exact same (answer_main_chat (fun rpc he => hchat ⟨rpc, he⟩) t p.state)

/-- The business units and persons after a step are known. -/
theorem Within.newRows {api : Api} {d₀ : MainTables} {p p' : Site} {l : SiteLabel}
    (hp : Within api d₀ p) (h : Pool.step backendMachine (ApiRequest.program api) p l = some p') :
    (∀ b ∈ p'.state.main.businessUnits, b ∈ knownUnits api d₀ p') ∧
      ∀ q ∈ p'.state.main.persons, q ∈ knownPersons api d₀ p' := by
  obtain ⟨hunits, hpersons⟩ := known_step d₀ h
  have same : p'.state.main = p.state.main →
      (∀ b ∈ p'.state.main.businessUnits, b ∈ knownUnits api d₀ p') ∧
      ∀ q ∈ p'.state.main.persons, q ∈ knownPersons api d₀ p' := by
    intro he
    rw [he]
    exact ⟨fun b hb => hunits b (hp.units b hb), fun q hq => hpersons q (hp.persons q hq)⟩
  cases l with
  | start r =>
    cases h
    exact same rfl
  | crash i e =>
    obtain ⟨r, op, next, hi, rfl⟩ := Pool.step_crash h
    exact same rfl
  | turn i t =>
    obtain ⟨r, op, next, hi, -, rfl⟩ := Pool.step_turn h
    obtain hquery | ⟨q, hserves, hop⟩ := (hp.sound.issues i _ hi).1
    · exact same (by rw [query_state hquery])
    obtain he | ⟨c, he⟩ := backendMachine.answer_state op t p.state
    · exact same (by rw [he])
    · obtain ⟨hnewUnits, hnewPersons⟩ := exec_drawn hop c p.state
      obtain ⟨hdrawnUnits, hdrawnPersons⟩ := known_of_thread d₀ hi hserves
      dsimp only
      rw [he]
      refine ⟨fun b hb => ?_, fun x hx => ?_⟩
      · exact hunits b ((hnewUnits b hb).elim (hp.units b) (hdrawnUnits b))
      · exact hpersons x ((hnewPersons x hx).elim (hp.persons x) (hdrawnPersons x))

/-- Every step that draws new identifiers keeps the members within their companies. -/
theorem Within.step {api : Api} {d₀ : MainTables} (p : Site) (l : SiteLabel) (p' : Site)
    (hp : Within api d₀ p) (hfresh : DrawsFresh api d₀ p l) (h : Site.step api p l = some p') :
    Within api d₀ p' := by
  obtain ⟨-, hstep⟩ := Site.step_iff.mp h
  obtain ⟨hunits, hpersons⟩ := hp.newRows hstep
  obtain ⟨hjoins, -⟩ := Governed.step hp.joins (fun r s _ => apiProgram_joins api r s)
    (fun _ op t s _ _ => answer_rowsStay op t s) hstep
  have hauthors : AuthorsAreMembers p'.state.chat.db := by
    cases l with
    | start r =>
      cases hstep
      exact hp.authors
    | crash i e =>
      obtain ⟨r, op, next, hi, rfl⟩ := Pool.step_crash hstep
      exact hp.authors
    | turn i t =>
      obtain ⟨r, op, next, hi, -, rfl⟩ := Pool.step_turn hstep
      exact answer_keepsAuthors op t hp.authors
  refine ⟨hp.sound.step _ _ _ h, hjoins, hunits, hpersons, ?_, ?_, fun m => hp.newMembers hstep,
    hauthors⟩
  · unfold knownUnits
    rw [drawn_step hstep]
    refine unique_step hp.units_id fun r he => ?_
    subst he
    exact hfresh.1
  · unfold knownPersons
    rw [drawn_step hstep]
    refine unique_step hp.persons_id fun r he => ?_
    subst he
    exact hfresh.2

/-- The API is as sound as before when something else writes messages of members. -/
theorem Within.onChat {api : Api} {d₀ : MainTables} {p : Site} (hp : Within api d₀ p)
    {chat : ChatState} (hgrows : Grows p.state.chat.db chat.db)
    (hmembers : chat.db.members = p.state.chat.db.members) (hauthors : AuthorsAreMembers chat.db) :
    Within api d₀ { p with state := { p.state with chat } } where
  sound := ⟨hp.sound.governed.stable hp.sound.governed.inv (KeepsRows.refl _), hp.sound.issues,
    hp.sound.sessions, hp.sound.owners, hp.sound.tokens, hp.sound.bearers⟩
  joins := hp.joins.stable trivial ⟨fun _ hb => hb, fun _ hq => hq, hgrows.workspaces⟩
  units := hp.units
  persons := hp.persons
  units_id := hp.units_id
  persons_id := hp.persons_id
  members m hm := by
    change m ∈ chat.db.members at hm
    rw [hmembers] at hm
    exact (hp.members m hm).extend (fun _ hb => hb) (fun _ hq => hq) hgrows.workspaces rfl
  authors := hauthors

/-- A person is of the company of a workspace's business unit, as far as both are
stored. -/
def OfCompany (s : World) (workspaceID personID : Uuid) : Prop :=
  ∀ w ∈ s.chat.db.workspaces, w.id = workspaceID → ∀ b ∈ s.main.businessUnits, b.id = w.buID →
    ∀ q ∈ s.main.persons, q.id = personID → q.companyId = b.companyId

/-- Chat stays within companies. -/
structure ChatWithin (s : World) : Prop where
  /-- No workspace has a member of another company. -/
  members : ∀ m ∈ s.chat.db.members, OfCompany s m.workspaceID m.personID
  /-- Messages are written by members. -/
  authors : ∀ x ∈ s.chat.db.messages, IsMember s.chat.db x.workspaceID x.personID
  /-- So nobody of another company has written in a workspace. -/
  messages : ∀ x ∈ s.chat.db.messages, OfCompany s x.workspaceID x.personID

/-- The databases with which the API starts: profiles within companies, and members and
messages that came about in the same way. -/
structure Starts (s : World) : Prop where
  sameTenant : SameTenant s.main.toMainTables
  members : ∀ m ∈ s.chat.db.members,
    Belongs s.main.businessUnits s.main.persons s.chat.db m
  authors : AuthorsAreMembers s.chat.db

/-- Known rows with unique identifiers leave one company for each member. -/
theorem Within.ofCompany {api : Api} {d₀ : MainTables} {p : Site} (hp : Within api d₀ p)
    {m : ChatWorkspaceMember} (hm : m ∈ p.state.chat.db.members) :
    OfCompany p.state m.workspaceID m.personID := by
  intro w hw hwid b hb hbu q hq hqid
  obtain ⟨v, hv, hid, b', hb', hbu', q', hq', hqid', hcompany⟩ := hp.members m hm
  have hworkspace : v = w :=
    p.state.chat.db.valid.workspaces_id.eq hv hw (hid.trans hwid.symm)
  have hunit : b' = b := hp.units_id.eq hb' (hp.units b hb)
    (hbu'.trans (hworkspace ▸ hbu.symm))
  have hperson : q' = q := hp.persons_id.eq hq' (hp.persons q hq) (hqid'.trans hqid.symm)
  rw [← hunit, ← hperson]
  exact hcompany

/-- The chat is within companies. -/
theorem Within.chatWithin {api : Api} {d₀ : MainTables} {p : Site} (hp : Within api d₀ p) :
    ChatWithin p.state where
  members _ hm := hp.ofCompany hm
  authors := hp.authors
  messages x hx := by
    obtain ⟨m, hm, hkey⟩ := hp.authors x hx
    obtain ⟨hw, hperson⟩ := Prod.mk.inj hkey
    have hcompany := hp.ofCompany hm
    rw [hw, hperson] at hcompany
    exact hcompany

/-- It holds at the start. -/
theorem Within.initial (api : Api) {s : World} (h : Starts s) :
    Within api s.main.toMainTables (Site.initial s) where
  sound := Sound.initial api h.sameTenant
  joins := Governed.initial trivial
  units b hb := List.mem_append_left _ hb
  persons q hq := List.mem_append_left _ hq
  units_id := by
    refine (?_ : UniqueColumn BusinessUnit.id (s.main.businessUnits ++ []))
    rw [List.append_nil]
    exact s.main.valid.businessUnits_id
  persons_id := by
    refine (?_ : UniqueColumn Person.id (s.main.persons ++ []))
    rw [List.append_nil]
    exact s.main.valid.persons_id
  members m hm := (h.members m hm).extend (fun _ hb => List.mem_append_left _ hb)
    (fun _ hq => List.mem_append_left _ hq) (fun _ hv => hv) rfl
  authors := h.authors

/-- No chat workspace ever has a member, or a message, of another company: in every
state of every run of the API, whatever tokens its requests bring, however they
interleave and wherever they fail, if no drawn identifier repeats. -/
theorem chatWithin_throughout (api : Api) {s : World} (h : Starts s) {ls : List SiteLabel}
    (hfresh : EachStep (Site.step api) (DrawsFresh api s.main.toMainTables) (Site.initial s) ls) :
    Throughout (Site.step api) (fun p => ChatWithin p.state) (Site.initial s) ls := by
  have hwithin := throughout_guarded Within.step (Within.initial api h) hfresh
  exact hwithin.mono fun p hp => hp.chatWithin

/-- The seeded Owner creates a business unit and writes in its workspace. -/
def unitAndMessage : List SiteLabel :=
  ownerVisit ++ [.turn 1 (servedWith 2 0), .turn 1 (servedWith 3 0), .turn 1 (servedWith 4 0),
    .start (.bearer 1 "owner" (.sendMessage 1 "Welcome")), .turn 3 (servedWith 5 0),
    .turn 3 (servedWith 6 0), .turn 3 (servedWith 7 0), .turn 3 (servedWith 8 0),
    .turn 3 (servedWith 9 0)]

theorem chatWithin_throughout_unit :
    (run (Site.step Api.demo) (Site.initial World.seeded) unitAndMessage).map (fun p =>
        (p.state.chat.db.members.map ChatWorkspaceMember.personID,
          p.state.chat.db.messages.map ChatMessage.senderName)) =
      some ([0x30000000000000000000000000000001], ["Demo Owner"]) ∧
    Throughout (Site.step Api.demo) (fun p => ChatWithin p.state) (Site.initial World.seeded)
      unitAndMessage :=
  ⟨by decide +kernel, chatWithin_throughout Api.demo
    ⟨sameTenant_seed, fun _ hm => absurd hm List.not_mem_nil,
      fun _ hx => absurd hx List.not_mem_nil⟩
    (by decide +kernel)⟩

end AuraWellness.Backend.ChatTenants
