import AuraWellness.Lib.History
import AuraWellness.Backend.Provisioning
import AuraWellness.Backend.Tenants

/-!
# Where chat access comes from

A member has access because an Owner of its company granted it last, or because
it was added as the Admin when the business unit was created and nobody has
decided on its access since. The log of the member writes tells which.
-/

namespace AuraWellness.Backend.ChatPermissions

open AuraWellness.Lib.Calls AuraWellness.Lib.Transition AuraWellness.Lib.RelyGuarantee
open AuraWellness.Lib.History
open AuraWellness.Chat.Entities AuraWellness.Chat.Schema AuraWellness.Chat.Repositories
open AuraWellness.Chat.Growth AuraWellness.Chat.Handlers AuraWellness.Chat.Procedures
open AuraWellness.Backend.Entities AuraWellness.Backend.Schema AuraWellness.Backend.Repositories
open AuraWellness.Backend.Services AuraWellness.Backend.Runs AuraWellness.Backend.Tenants
open AuraWellness.Backend.Provisioning

/-- The claims of the caller's token that the access action reads. -/
structure Caller where
  /-- The claim `companyId`. -/
  companyId : Uuid
  /-- The role claim. -/
  role : String
  deriving DecidableEq, Repr

/-- What an action returns. -/
inductive ActionResult
  /-- The result of the service. -/
  | ok (response : BackendResponse)
  /-- `NoContent()`. -/
  | noContent
  /-- The caller has not the role that the action asks for. -/
  | forbid
  deriving DecidableEq, Repr

/-- `ChatController.UpdateAccess`, with `[Authorize(Roles = "Owner")]`. -/
def ChatController.updateAccess (caller : Caller) (buId personId : Uuid) (hasAccess : Bool) :
    BackendProgram ActionResult :=
  if caller.role = "Owner" then do
    ChatAccessService.updateAccess buId personId hasAccess caller.companyId
    return .noContent
  else return .forbid

/-- The requests that write business units, staff or chat access. -/
inductive AccessRequest
  | provision (request : ProvisioningRequest)
  | createStaff (draws : Draws) (companyId : Uuid) (request : CreateStaffRequest)
  | enrollExisting (draws : Draws) (companyId : Uuid) (request : EnrollExistingStaffRequest)
  | updateRole (personId buId companyId : Uuid) (role : String)
  | updateAccess (caller : Caller) (buId personId : Uuid) (hasAccess : Bool)

/-- The program that serves a request. -/
def AccessRequest.program (settings : Settings) : AccessRequest → BackendProgram ActionResult
  | provision r => .ok <$> r.program
  | createStaff draws company q =>
    .ok <$> (BackendRequest.createStaff draws company q).program settings
  | enrollExisting draws company q =>
    .ok <$> (BackendRequest.enrollExisting draws company q).program settings
  | updateRole person bu company role =>
    .ok <$> (BackendRequest.updateRole person bu company role).program settings
  | updateAccess caller bu person access => ChatController.updateAccess caller bu person access

/-- The requests of `StaffService`: new staff, enrolments and role changes. -/
def AccessRequest.OnStaff : AccessRequest → Prop
  | createStaff _ _ _ | enrollExisting _ _ _ | updateRole _ _ _ _ => True
  | provision _ | updateAccess _ _ _ _ => False

/-- Business units, persons and workspaces stay. -/
structure RowsStay (s s' : World) : Prop where
  businessUnits : ∀ b ∈ s.main.businessUnits, b ∈ s'.main.businessUnits
  persons : ∀ q ∈ s.main.persons, q ∈ s'.main.persons
  workspaces : ∀ w ∈ s.chat.db.workspaces, w ∈ s'.chat.db.workspaces

theorem RowsStay.refl (s : World) : RowsStay s s := ⟨fun _ h => h, fun _ h => h, fun _ h => h⟩

theorem RowsStay.trans {s s' s'' : World} (h : RowsStay s s') (h' : RowsStay s' s'') :
    RowsStay s s'' where
  businessUnits b hb := h'.businessUnits b (h.businessUnits b hb)
  persons q hq := h'.persons q (h.persons q hq)
  workspaces w hw := h'.workspaces w (h.workspaces w hw)

/-- An accepted transaction keeps all rows. -/
theorem insertAll_keepsRows {rows : List Insert} {d d' : MainDb} (h : d.insertAll rows = .ok d') :
    KeepsRows d d' := by
  induction rows generalizing d with
  | nil =>
    rw [insertAll_nil_ok.mp h]
    exact KeepsRows.refl d
  | cons row rows ih =>
    obtain ⟨m, hrow, hrows⟩ := insertAll_cons_ok.mp h
    exact (insert_keepsRows hrow).trans (ih hrows)

/-- Whatever a call is answered, rows stay. -/
theorem answer_rowsStay (op : BackendCall) (t : Turn BackendChoice Exn) (s : World) :
    RowsStay s (backendMachine.answer op t s).2 := by
  have hchat := (answer_grows op t s).workspaces
  have main : ∀ d : MainDb, KeepsRows s.main d → (∀ b ∈ s.main.businessUnits, b ∈ d.businessUnits) ∧
      ∀ q ∈ s.main.persons, q ∈ d.persons := fun d h => ⟨h.businessUnits, h.persons⟩
  have stored : ∀ r : Except DbError MainDb, (∀ d, r = .ok d → KeepsRows s.main d) →
      KeepsRows s.main (storeMain s r).2.main := by
    intro r hr
    cases r with
    | ok d => exact hr d rfl
    | error e => exact KeepsRows.refl s.main
  suffices hmain : (∀ b ∈ s.main.businessUnits,
      b ∈ (backendMachine.answer op t s).2.main.businessUnits) ∧
      ∀ q ∈ s.main.persons, q ∈ (backendMachine.answer op t s).2.main.persons from
    ⟨hmain.1, hmain.2, hchat⟩
  by_cases hquery : op.Queries
  · rw [query_state hquery]
    exact main s.main (KeepsRows.refl s.main)
  obtain h | ⟨c, h⟩ := backendMachine.answer_state op t s
  · rw [h]
    exact main s.main (KeepsRows.refl s.main)
  · rw [h]
    cases op with
    | add row => exact main _ (stored _ fun d hd => insert_keepsRows hd)
    | commit rows => exact main _ (stored _ fun d hd => insertAll_keepsRows hd)
    | profileSaveRole id role => exact ⟨fun _ hb => hb, fun _ hq => hq⟩
    | profileSavePasswordHash id hash => exact ⟨fun _ hb => hb, fun _ hq => hq⟩
    | chat rpc => exact main s.main (KeepsRows.refl s.main)
    | _ => exact absurd trivial hquery

/-- The workspace belongs to a business unit of the company. -/
def UnitOfCompany (s : World) (w company : Uuid) : Prop :=
  ∃ v ∈ s.chat.db.workspaces, v.id = w ∧
    ∃ b ∈ s.main.businessUnits, b.id = v.buID ∧ b.companyId = company

/-- The person is one of the company. -/
def PersonOfCompany (s : World) (p company : Uuid) : Prop :=
  ∃ q ∈ s.main.persons, q.id = p ∧ q.companyId = company

/-- The request is a caller's decision on the access of the person: the caller has
the role Owner, and its company is the company of the workspace's business unit
and of the person. -/
def OwnerDecides (s : World) (r : AccessRequest) (w p : Uuid) (access : Bool) : Prop :=
  ∃ caller bu, r = .updateAccess caller bu p access ∧ caller.role = "Owner" ∧
    UnitOfCompany s w caller.companyId ∧ PersonOfCompany s p caller.companyId

/-- The request creates the business unit of the workspace, and the person becomes
the Admin there. -/
def AddsCreator (s : World) (r : AccessRequest) (w p : Uuid) : Prop :=
  ∃ q, r = .provision q ∧ q.owner = p ∧ ∃ v ∈ s.chat.db.workspaces, v.id = w ∧ v.buID = q.unit.id

theorem OwnerDecides.stay {s s' : World} {r : AccessRequest} {w p : Uuid} {access : Bool}
    (h : OwnerDecides s r w p access) (hs : RowsStay s s') : OwnerDecides s' r w p access := by
  obtain ⟨caller, bu, hr, hrole, ⟨v, hv, hid, b, hb, hunit⟩, q, hq, hperson⟩ := h
  exact ⟨caller, bu, hr, hrole, ⟨v, hs.workspaces v hv, hid, b, hs.businessUnits b hb, hunit⟩,
    q, hs.persons q hq, hperson⟩

theorem AddsCreator.stay {s s' : World} {r : AccessRequest} {w p : Uuid} (h : AddsCreator s r w p)
    (hs : RowsStay s s') : AddsCreator s' r w p := by
  obtain ⟨q, hr, howner, v, hv, hunit⟩ := h
  exact ⟨q, hr, howner, v, hs.workspaces v hv, hunit⟩

/-- What a request may do with members: decide on access as an Owner, and add an
Admin when it creates the business unit. -/
def Permits (r : AccessRequest) (s : World) : BackendCall → Prop
  | .chat (.updateMemberAccess w p access) => OwnerDecides s r w p access
  | .chat (.addMember w p role) => role = "Admin" → AddsCreator s r w p
  | _ => True

/-- What the requests rely on: rows stay. -/
def accessRely : Rely World where
  inv _ := True
  steps := RowsStay
  refl := RowsStay.refl
  trans _ _ _ h h' := h.trans h'

/-- The guarantee of a request: it writes members as it may. -/
def AccessGuarantee (r : AccessRequest) (op : BackendCall) (_ : Turn BackendChoice Exn) (s : World) :
    Prop :=
  Permits r s op

/-- Queries write no members. -/
theorem permits_of_queries {op : BackendCall} (h : op.Queries) (r : AccessRequest) (s : World) :
    Permits r s op := by
  cases op with
  | chat rpc =>
    cases rpc with
    | addMember w p role => exact h.elim
    | updateMemberAccess w p access => exact h.elim
    | _ => trivial
  | _ => trivial

/-- The requests of `StaffService` decide on no access and add no Admin. -/
theorem permits_of_issues {settings : Settings} {r : BackendRequest} {op : BackendCall}
    (h : Issues settings r op) (a : AccessRequest)
    (hr : ∀ bu person access company, r ≠ .updateAccess bu person access company)
    (hunit : ∀ draws company owner name, r ≠ .createBusinessUnit draws company owner name)
    (hcompany : ∀ draws q, r ≠ .onboard draws q) (s : World) : Permits a s op := by
  cases h with
  | query hquery => exact permits_of_queries hquery a s
  | access => exact absurd rfl (hr _ _ _ _)
  | unitMember => exact absurd rfl (hunit _ _ _ _)
  | onboardMember => exact absurd rfl (hcompany _ _)
  | staffMember => exact fun hrole => absurd hrole (by decide)
  | enrollMember => exact fun hrole => absurd hrole (by decide)
  | _ => trivial

/-- A program of `StaffService` is under the guarantee. -/
theorem staff_guarantees (settings : Settings) {r : BackendRequest} (a : AccessRequest)
    (hr : ∀ bu person access company, r ≠ .updateAccess bu person access company)
    (hunit : ∀ draws company owner name, r ≠ .createBusinessUnit draws company owner name)
    (hcompany : ∀ draws q, r ≠ .onboard draws q) (s : World) :
    Guarantees backendMachine accessRely (AccessGuarantee a) (r.program settings) s :=
  Guarantees.of_allOps (program_issues settings r)
    (fun _ _ s' hop _ => ⟨trivial, permits_of_issues hop a hr hunit hcompany s'⟩) s

/-- A workspace that has been created stays the one of its business unit, to which
its Admin is added. -/
theorem provision_guarantees (q : ProvisioningRequest) (s : World) :
    Guarantees backendMachine accessRely (AccessGuarantee (.provision q)) q.provision s := by
  unfold ProvisioningRequest.provision
  refine Guarantees.perform_bind (fun s' t _ _ => ⟨trivial, trivial⟩) fun s₁ t₁ w _ _ hok => ?_
  obtain ⟨hw, hunit, -, -⟩ := answer_createWorkspace_ok hok
  refine Guarantees.perform_bind (fun s₂ t₂ hs₂ _ => ⟨trivial, fun _ => ?_⟩) fun _ _ _ _ _ _ => ?_
  · exact ⟨q, rfl, rfl, w, RowsStay.workspaces hs₂ w hw, rfl, hunit⟩
  · exact Guarantees.perform_bind (fun s' t _ _ => ⟨trivial, trivial⟩) fun _ _ _ _ _ _ => trivial

/-- What follows the lookup of a workspace is under a guarantee that queries keep. -/
theorem lookup_guarantees {α : Type} {R : Rely World}
    {G : BackendCall → Turn BackendChoice Exn → World → Prop} {bu : Uuid}
    {f : Option ChatWorkspace → BackendProgram α} {s : World}
    (hquery : ∀ t s', R.inv s' → G (.chat (.getWorkspaceByBuID bu)) t s')
    (hnone : ∀ s', R.steps s s' → R.inv s' → Guarantees backendMachine R G (f none) s')
    (hsome : ∀ s' w, R.steps s s' → R.inv s' → w ∈ s'.chat.db.workspaces → w.buID = bu →
      Guarantees backendMachine R G (f (some w)) s') :
    Guarantees backendMachine R G (ChatServiceClient.getWorkspaceByBuId bu >>= f) s := by
  have hlookup : BackendCall.Queries (.chat (.getWorkspaceByBuID bu)) := trivial
  rw [getWorkspaceByBuId_eq, Program.bind_assoc]
  refine Guarantees.attempt_bind (fun s' t _ hinv => ?_) fun s' t hs hinv => ?_
  · rw [query_state hlookup]
    exact ⟨hinv, hquery t s' hinv⟩
  · rw [query_state hlookup]
    cases hr : (backendMachine.answer (.chat (.getWorkspaceByBuID bu)) t s').1 with
    | ok w =>
      obtain ⟨hw, hbu⟩ := lookup_ok hr
      exact hsome s' w hs hinv hw hbu
    | error e =>
      rcases lookupResult_error e with hnothing | ⟨e', hthrow⟩
      · rw [hnothing]
        exact hnone s' hs hinv
      · rw [hthrow]
        trivial

/-- `UpdateAccess` decides on access as an Owner of the company of the business
unit and of the person, which it has looked up. -/
theorem updateAccess_guarantees (caller : Caller) (bu person : Uuid) (access : Bool) (s : World) :
    Guarantees backendMachine accessRely (AccessGuarantee (.updateAccess caller bu person access))
      (ChatController.updateAccess caller bu person access) s := by
  have hunitLookup : BackendCall.Queries (.businessUnitGetById bu caller.companyId) := trivial
  have hpersonLookup : BackendCall.Queries (.personGetById person caller.companyId) := trivial
  unfold ChatController.updateAccess
  split
  · rename_i hrole
    unfold ChatAccessService.updateAccess
    rw [Program.bind_assoc]
    refine Guarantees.perform_bind (fun _ _ _ _ => ⟨trivial, trivial⟩) fun s₁ t₁ b _ _ hok₁ => ?_
    cases b with
    | none => trivial
    | some b =>
      obtain ⟨hb, hbid, hunit⟩ := businessUnitGetById_ok hok₁
      rw [query_state hunitLookup, Program.bind_assoc]
      refine Guarantees.perform_bind (fun _ _ _ _ => ⟨trivial, trivial⟩) fun s₂ t₂ q hs₂ _ hok₂ => ?_
      cases q with
      | none => trivial
      | some q =>
        obtain ⟨hq, hqid, hperson⟩ := personGetById_ok hok₂
        rw [query_state hpersonLookup, Program.bind_assoc]
        refine lookup_guarantees (fun _ _ _ => trivial) (fun _ _ _ => trivial)
          fun s₃ w hs₃ _ hw hbu => ?_
        unfold ChatServiceClient.updateMemberAccess
        rw [Program.bind_assoc]
        refine Guarantees.perform_bind (fun s₄ t₄ hs₄ _ => ⟨trivial, ?_⟩) fun _ _ _ _ _ _ => trivial
        have hstay : RowsStay s₂ s₄ := RowsStay.trans hs₃ hs₄
        have hbu₄ : b ∈ s₄.main.businessUnits :=
          hstay.businessUnits b (RowsStay.businessUnits hs₂ b hb)
        exact ⟨caller, bu, rfl, hrole,
          ⟨w, RowsStay.workspaces hs₄ w hw, rfl, b, hbu₄, hbid.trans hbu.symm, hunit⟩,
          q, hstay.persons q hq, hqid, hperson⟩
  · trivial

/-- Every request is under its guarantee. -/
theorem program_guarantees (settings : Settings) (r : AccessRequest) (s : World) :
    Guarantees backendMachine accessRely (AccessGuarantee r) (r.program settings) s := by
  cases r with
  | provision q =>
    have hinserts : ∀ op ∈ q.inserts, ∀ t s, accessRely.inv s →
        accessRely.inv (backendMachine.answer op t s).2 ∧
          AccessGuarantee (.provision q) op t s := fun op hop t s' _ =>
      ⟨trivial, permits_of_queries (inserts_queries q op hop) _ s'⟩
    have hprogram := performAll_guarantees hinserts (provision_guarantees q) s
    rw [← program_eq] at hprogram
    exact hprogram.map _
  | createStaff draws company q =>
    exact (staff_guarantees settings _ (fun _ _ _ _ h => by cases h) (fun _ _ _ _ h => by cases h)
      (fun _ _ h => by cases h) s).map _
  | enrollExisting draws company q =>
    exact (staff_guarantees settings _ (fun _ _ _ _ h => by cases h) (fun _ _ _ _ h => by cases h)
      (fun _ _ h => by cases h) s).map _
  | updateRole person bu company role =>
    exact (staff_guarantees settings _ (fun _ _ _ _ h => by cases h) (fun _ _ _ _ h => by cases h)
      (fun _ _ h => by cases h) s).map _
  | updateAccess caller bu person access => exact updateAccess_guarantees caller bu person access s

/-- A member write that the chat service has stored, and the request that made it. -/
structure AccessEvent where
  /-- The request. -/
  request : AccessRequest
  /-- The procedure. -/
  rpc : Rpc

/-- The event updates the access of the person in the workspace. -/
def AccessEvent.Updates (w p : Uuid) (e : AccessEvent) : Prop :=
  match e.rpc with
  | .updateMemberAccess w' p' _ => (w', p') = (w, p)
  | _ => False

instance (w p : Uuid) (e : AccessEvent) : Decidable (e.Updates w p) := by
  unfold AccessEvent.Updates
  split <;> infer_instance

/-- The member writes that the chat service stores in a call. -/
def memberWrites (r : AccessRequest) (op : BackendCall) (t : Turn BackendChoice Exn) (s : World) :
    List AccessEvent :=
  match op with
  | .chat rpc =>
    match t.choice? with
    | some c => if storesMember rpc c.rpc s.chat then [⟨r, rpc⟩] else []
    | none => []
  | _ => []

/-- The last update of the person's access in the workspace. -/
def lastUpdate (log : List AccessEvent) (w p : Uuid) : Option AccessEvent :=
  (log.filter fun e => e.Updates w p).getLast?

/-- An event that is no update of the access leaves the last one. -/
theorem lastUpdate_append_other {log new : List AccessEvent} {w p : Uuid}
    (h : ∀ e ∈ new, ¬e.Updates w p) : lastUpdate (log ++ new) w p = lastUpdate log w p := by
  have hnone : new.filter (fun e => e.Updates w p) = [] :=
    List.filter_eq_nil_iff.mpr fun e he => by simpa using h e he
  unfold lastUpdate
  rw [List.filter_append, hnone, List.append_nil]

/-- A new update of the access is the last one. -/
theorem lastUpdate_append_self {log : List AccessEvent} {w p : Uuid} {e : AccessEvent}
    (h : e.Updates w p) : lastUpdate (log ++ [e]) w p = some e := by
  have hone : [e].filter (fun e => e.Updates w p) = [e] := by simp [h]
  unfold lastUpdate
  rw [List.filter_append, hone, List.getLast?_concat]

/-- Without an update there is no last one. -/
theorem lastUpdate_eq_none {log : List AccessEvent} {w p : Uuid} (h : ∀ e ∈ log, ¬e.Updates w p) :
    lastUpdate log w p = none := by
  have hnone : log.filter (fun e => e.Updates w p) = [] :=
    List.filter_eq_nil_iff.mpr fun e he => by simpa using h e he
  unfold lastUpdate
  rw [hnone]
  rfl

/-- Why the person may have access in the workspace. -/
inductive Justified (s : World) (log : List AccessEvent) (w p : Uuid) : Prop
  /-- An Owner of the company of both granted it last. -/
  | granted {e : AccessEvent} (hlast : lastUpdate log w p = some e)
    (hrpc : e.rpc = .updateMemberAccess w p true) (howner : OwnerDecides s e.request w p true)
  /-- Its access was never updated, and it was added as the Admin when the business
  unit of the workspace was created. -/
  | created {e : AccessEvent} (hnone : lastUpdate log w p = none) (he : e ∈ log)
    (hrpc : e.rpc = .addMember w p "Admin") (hcreator : AddsCreator s e.request w p)

/-- Other events leave the justification. -/
theorem Justified.keep {s s' : World} {log new : List AccessEvent} {w p : Uuid}
    (h : Justified s log w p) (hs : RowsStay s s') (hnew : ∀ e ∈ new, ¬e.Updates w p) :
    Justified s' (log ++ new) w p := by
  have hlast : lastUpdate (log ++ new) w p = lastUpdate log w p := lastUpdate_append_other hnew
  cases h with
  | granted hsome hrpc howner => exact .granted (hlast.trans hsome) hrpc (howner.stay hs)
  | created hnone he hrpc hcreator =>
    exact .created (hlast.trans hnone) (List.mem_append_left new he) hrpc (hcreator.stay hs)

/-- The log accounts for the members: each access has its justification, and an
updated person is a member. -/
structure Accounts (log : List AccessEvent) (s : World) : Prop where
  justified : ∀ m ∈ s.chat.db.members, m.hasAccess = true →
    Justified s log m.workspaceID m.personID
  known : ∀ e ∈ log, ∀ w p, e.Updates w p → ∃ m ∈ s.chat.db.members, memberKey m = (w, p)

/-- A call that leaves the members and updates no access keeps the account. -/
theorem Accounts.keep {log new : List AccessEvent} {s s' : World} (h : Accounts log s)
    (hs : RowsStay s s') (hnew : ∀ e ∈ new, ∀ w p, ¬e.Updates w p)
    (hmembers : ∀ m' ∈ s'.chat.db.members, ∃ m ∈ s.chat.db.members,
      memberKey m' = memberKey m ∧ m'.hasAccess = m.hasAccess)
    (hkept : ∀ m ∈ s.chat.db.members, ∃ m' ∈ s'.chat.db.members, memberKey m' = memberKey m) :
    Accounts (log ++ new) s' where
  justified m' hm' haccess := by
    obtain ⟨m, hm, hkey, hsame⟩ := hmembers m' hm'
    obtain ⟨hw, hp⟩ := Prod.mk.inj hkey
    have hold := h.justified m hm (hsame ▸ haccess)
    rw [hw, hp]
    exact hold.keep hs fun e he => hnew e he _ _
  known e he w p hupdates := by
    rcases List.mem_append.mp he with hold | hlast
    · obtain ⟨m, hm, hkey⟩ := h.known e hold w p hupdates
      obtain ⟨m', hm', hkey'⟩ := hkept m hm
      exact ⟨m', hm', hkey'.trans hkey⟩
    · exact absurd hupdates (hnew e hlast w p)

/-- The account after a call that leaves the members as they are. -/
theorem Accounts.keep_same {log new : List AccessEvent} {s s' : World} (h : Accounts log s)
    (hs : RowsStay s s') (hnew : ∀ e ∈ new, ∀ w p, ¬e.Updates w p)
    (hmembers : s'.chat.db.members = s.chat.db.members) : Accounts (log ++ new) s' := by
  refine h.keep hs hnew ?_ ?_ <;> rw [hmembers]
  · exact fun m hm => ⟨m, hm, rfl, rfl⟩
  · exact fun m hm => ⟨m, hm, rfl⟩

/-- Nobody's access is updated when a member is added. -/
theorem not_updates_addMember (r : AccessRequest) (w p : Uuid) (role : String) :
    ∀ e ∈ [(⟨r, .addMember w p role⟩ : AccessEvent)], ∀ w' p', ¬e.Updates w' p' := by
  intro e he w' p' h
  rw [List.mem_singleton.mp he] at h
  exact h

/-- A member that is added has access as the creator only, and one that is added
again keeps what it has. -/
theorem Accounts.joined {log : List AccessEvent} {s s' : World} {r : AccessRequest} {w p : Uuid}
    {role : String} (h : Accounts log s) (hs : RowsStay s s')
    (hpermits : role = "Admin" → AddsCreator s r w p) (hjoined : Joined s.chat.db s'.chat.db w p role) :
    Accounts (log ++ [⟨r, .addMember w p role⟩]) s' := by
  rcases hjoined with ⟨row, hkey, hrole, haccess, hnew, -, hd⟩ | ⟨hold, hd⟩
  · have hmembers : s'.chat.db.members = s.chat.db.members ++ [row] := by rw [hd]
    obtain ⟨hw, hp⟩ := Prod.mk.inj hkey
    constructor
    · intro m hm hm'
      rw [hmembers] at hm
      rcases List.mem_append.mp hm with hm | hm
      · exact (h.justified m hm hm').keep hs fun e he => not_updates_addMember r w p role e he _ _
      · -- the key is new, so its access has never been updated
        rw [List.mem_singleton.mp hm] at hm' ⊢
        have hadmin : role = "Admin" := by simpa [haccess] using hm'
        have hnever : ∀ e ∈ log ++ [⟨r, .addMember w p role⟩], ¬e.Updates w p := by
          intro e he hupdates
          rcases List.mem_append.mp he with he | he
          · exact hnew (h.known e he w p hupdates)
          · exact not_updates_addMember r w p role e he w p hupdates
        rw [hw, hp, hadmin]
        rw [hadmin] at hnever
        exact .created (lastUpdate_eq_none hnever)
          (List.mem_append_right log (List.mem_singleton_self _)) rfl ((hpermits hadmin).stay hs)
    · intro e he w' p' hupdates
      rcases List.mem_append.mp he with he | he
      · obtain ⟨m, hm, hkey'⟩ := h.known e he w' p' hupdates
        exact ⟨m, by rw [hmembers]; exact List.mem_append_left _ hm, hkey'⟩
      · exact absurd hupdates (not_updates_addMember r w p role e he w' p')
  · have hmembers : s'.chat.db.members = s.chat.db.members.map (assignRole w p role) := by rw [hd]
    have hsame := assignRole_fields w p role
    refine h.keep hs (not_updates_addMember r w p role) ?_ ?_
    · intro m' hm'
      rw [hmembers] at hm'
      obtain ⟨m, hm, rfl⟩ := List.mem_map.mp hm'
      exact ⟨m, hm, hsame m⟩
    · intro m hm
      refine ⟨assignRole w p role m, ?_, (hsame m).1⟩
      rw [hmembers]
      exact List.mem_map_of_mem hm

/-- The member with the key has the access of the update, all others keep theirs. -/
theorem members_of_switched {d d' : ChatDb} {w p : Uuid} {access : Bool}
    (h : Switched d d' w p access) :
    (∀ m' ∈ d'.members, (memberKey m' = (w, p) ∧ m'.hasAccess = access) ∨
      (memberKey m' ≠ (w, p) ∧ m' ∈ d.members)) ∧
      (∃ m' ∈ d'.members, memberKey m' = (w, p)) ∧
      ∀ m ∈ d.members, ∃ m' ∈ d'.members, memberKey m' = memberKey m := by
  rcases h with ⟨row, hkey, -, haccess, hnew, -, hd⟩ | ⟨⟨v, hv, hkey⟩, hd⟩
  · rw [hd]
    refine ⟨fun m' hm' => ?_, ⟨row, List.mem_append_right _ (List.mem_singleton_self _), hkey⟩,
      fun m hm => ⟨m, List.mem_append_left _ hm, rfl⟩⟩
    rcases List.mem_append.mp hm' with hm' | hm'
    · exact Or.inr ⟨fun hkey' => hnew ⟨m', hm', hkey'⟩, hm'⟩
    · rw [List.mem_singleton.mp hm']
      exact Or.inl ⟨hkey, haccess⟩
  · have hsame : ∀ m, memberKey (switchAccess w p access m) = memberKey m :=
      fun m => (switchAccess_fields w p access m).1
    rw [hd]
    refine ⟨fun m' hm' => ?_, ⟨_, List.mem_map_of_mem hv, (hsame v).trans hkey⟩,
      fun m hm => ⟨_, List.mem_map_of_mem hm, hsame m⟩⟩
    obtain ⟨m, hm, rfl⟩ := List.mem_map.mp hm'
    by_cases hkey' : memberKey m = (w, p)
    · have hset : switchAccess w p access m = { m with hasAccess := access } := if_pos hkey'
      exact Or.inl ⟨(hsame m).trans hkey', by rw [hset]⟩
    · have hset : switchAccess w p access m = m := if_neg hkey'
      rw [hset]
      exact Or.inr ⟨hkey', hm⟩

/-- A member whose access is updated has it from the update. -/
theorem Accounts.switched {log : List AccessEvent} {s s' : World} {r : AccessRequest} {w p : Uuid}
    {access : Bool} (h : Accounts log s) (hs : RowsStay s s') (hpermits : OwnerDecides s r w p access)
    (hswitched : Switched s.chat.db s'.chat.db w p access) :
    Accounts (log ++ [⟨r, .updateMemberAccess w p access⟩]) s' := by
  have hupdates : AccessEvent.Updates w p ⟨r, .updateMemberAccess w p access⟩ := rfl
  obtain ⟨hmembers, hupdated, hkept⟩ := members_of_switched hswitched
  constructor
  · intro m' hm' haccess
    rcases hmembers m' hm' with ⟨hkey, hset⟩ | ⟨hkey, hold⟩
    · obtain ⟨hw, hp⟩ := Prod.mk.inj hkey
      have htrue : access = true := hset.symm.trans haccess
      rw [hw, hp]
      rw [htrue] at hupdates hpermits ⊢
      exact .granted (lastUpdate_append_self hupdates) rfl (hpermits.stay hs)
    · refine (h.justified m' hold haccess).keep hs fun e he hother => ?_
      rw [List.mem_singleton.mp he] at hother
      exact hkey hother.symm
  · intro e he w' p' hother
    rcases List.mem_append.mp he with he | he
    · obtain ⟨m, hm, hkey⟩ := h.known e he w' p' hother
      obtain ⟨m', hm', hkey'⟩ := hkept m hm
      exact ⟨m', hm', hkey'.trans hkey⟩
    · rw [List.mem_singleton.mp he] at hother
      have hkey : (w, p) = (w', p') := hother
      rw [← hkey]
      exact hupdated

theorem no_updates {e : AccessEvent} (he : e ∈ ([] : List AccessEvent)) (w p : Uuid) :
    ¬e.Updates w p := absurd he List.not_mem_nil

/-- A procedure that the chat service serves keeps the account. -/
theorem Accounts.serve {log : List AccessEvent} {s : World} {r : AccessRequest} {rpc : Rpc}
    (h : Accounts log s) (hpermits : Permits r s (.chat rpc)) (env : RpcEnv)
    (hs : RowsStay s { s with chat := (rpc.serve env s.chat).2 }) :
    Accounts (log ++ if storesMember rpc env s.chat then [⟨r, rpc⟩] else [])
      { s with chat := (rpc.serve env s.chat).2 } := by
  -- what the other procedures leave of the members
  have spared : (∀ w p role, rpc ≠ .addMember w p role) →
      (∀ w p access, rpc ≠ .updateMemberAccess w p access) →
      storesMember rpc env s.chat = false →
        Accounts (log ++ if storesMember rpc env s.chat then [⟨r, rpc⟩] else [])
          { s with chat := (rpc.serve env s.chat).2 } := by
    intro hadd hupdate hstores
    rw [hstores]
    refine h.keep_same hs (fun _ => no_updates) ?_
    cases serve_change rpc env s.chat with
    | same hworkspaces hmembers => exact hmembers
    | created hbu hcompany hid hnew hworkspaces hmembers => exact hmembers
    | joined => exact absurd rfl (hadd _ _ _)
    | assigned => exact absurd rfl (hadd _ _ _)
    | admitted => exact absurd rfl (hupdate _ _ _)
    | switched => exact absurd rfl (hupdate _ _ _)
  cases rpc with
  | addMember w p role =>
    rcases serve_addMember_stores w p role env s.chat with ⟨hnone, hsame, -⟩ | ⟨hstored, hjoined⟩
    · rw [hnone]
      refine h.keep_same hs (fun _ => no_updates) ?_
      dsimp only
      rw [hsame]
    · rw [hstored]
      exact h.joined hs hpermits hjoined
  | updateMemberAccess w p access =>
    rcases serve_updateMemberAccess_stores w p access env s.chat with
      ⟨hnone, hsame, -⟩ | ⟨hstored, hswitched⟩
    · rw [hnone]
      refine h.keep_same hs (fun _ => no_updates) ?_
      dsimp only
      rw [hsame]
    · rw [hstored]
      exact h.switched hs hpermits hswitched
  | _ => exact spared (fun _ _ _ he => by cases he) (fun _ _ _ he => by cases he) rfl

/-- Every call that a request may make keeps the account. -/
theorem Accounts.answer {log : List AccessEvent} {s : World} {r : AccessRequest} {op : BackendCall}
    (h : Accounts log s) (hpermits : Permits r s op) (t : Turn BackendChoice Exn) :
    Accounts (log ++ memberWrites r op t s) (backendMachine.answer op t s).2 := by
  have hs := answer_rowsStay op t s
  by_cases hop : ∃ rpc, op = .chat rpc
  · obtain ⟨rpc, rfl⟩ := hop
    cases ht : t.choice? with
    | none =>
      have hwrites : memberWrites r (.chat rpc) t s = [] := by simp only [memberWrites, ht]
      rw [hwrites]
      refine h.keep_same hs (fun _ => no_updates) ?_
      rw [backendMachine.answer_state_none (.chat rpc) s ht]
    | some c =>
      have hwrites : memberWrites r (.chat rpc) t s =
          if storesMember rpc c.rpc s.chat then [⟨r, rpc⟩] else [] := by
        simp only [memberWrites, ht]
      have hstate : (backendMachine.answer (.chat rpc) t s).2 =
          { s with chat := (rpc.serve c.rpc s.chat).2 } :=
        backendMachine.answer_state_some (.chat rpc) s ht
      rw [hstate] at hs ⊢
      rw [hwrites]
      exact h.serve hpermits c.rpc hs
  · have hchat : ∀ rpc, op ≠ .chat rpc := fun rpc he => hop ⟨rpc, he⟩
    have hwrites : memberWrites r op t s = [] := by
      cases op with
      | chat rpc => exact absurd rfl (hchat rpc)
      | _ => rfl
    rw [hwrites]
    refine h.keep_same hs (fun _ => no_updates) ?_
    rw [answer_main_chat hchat]

/-- A request of `StaffService` gives nobody access. -/
theorem staff_grants_nothing {s : World} {r : AccessRequest} (hr : r.OnStaff) {op : BackendCall}
    (hpermits : Permits r s op) (t : Turn BackendChoice Exn) :
    ∀ m' ∈ (backendMachine.answer op t s).2.chat.db.members, m'.hasAccess = true →
      ∃ m ∈ s.chat.db.members, memberKey m = memberKey m' ∧ m.hasAccess = true := by
  intro m' hm' haccess
  by_cases hop : ∃ rpc, op = .chat rpc
  · obtain ⟨rpc, rfl⟩ := hop
    rcases answer_chat_state rpc t s with hsame | ⟨env, hserved⟩
    · rw [hsame] at hm'
      exact ⟨m', hm', rfl, haccess⟩
    · rw [hserved] at hm'
      cases serve_change rpc env s.chat with
      | same hworkspaces hmembers => exact ⟨m', hmembers ▸ hm', rfl, haccess⟩
      | created hbu hcompany hid hnew hworkspaces hmembers =>
        exact ⟨m', hmembers ▸ hm', rfl, haccess⟩
      | joined hkey hrole hset hnew hw hworkspaces hmembers =>
        rw [hmembers] at hm'
        rcases List.mem_append.mp hm' with hold | hlast
        · exact ⟨m', hold, rfl, haccess⟩
        · -- access comes with the role Admin only, which such a request does not give
          rw [List.mem_singleton.mp hlast, hset] at haccess
          obtain ⟨q, rfl, -⟩ := hpermits (eq_of_beq haccess)
          exact hr.elim
      | @assigned w p role hold hworkspaces hmembers =>
        rw [hmembers] at hm'
        obtain ⟨m, hm, rfl⟩ := List.mem_map.mp hm'
        obtain ⟨hkey, hsame⟩ := assignRole_fields w p role m
        exact ⟨m, hm, hkey.symm, hsame.symm.trans haccess⟩
      | admitted =>
        obtain ⟨caller, bu, rfl, -⟩ := hpermits
        exact hr.elim
      | switched =>
        obtain ⟨caller, bu, rfl, -⟩ := hpermits
        exact hr.elim
  · rw [answer_main_chat fun rpc he => hop ⟨rpc, he⟩] at hm'
    exact ⟨m', hm', rfl, haccess⟩

/-- Requests beside each other on the two databases, with the log of their member
writes. -/
abbrev AccessPool := Recorded backendSignature World Exn ActionResult AccessRequest AccessEvent

/-- What happens next to these requests. -/
abbrev AccessLabel := Label BackendChoice Exn AccessRequest

/-- One step of these requests. -/
abbrev AccessPool.step (settings : Settings) : AccessPool → AccessLabel → Option AccessPool :=
  Recorded.step backendMachine (AccessRequest.program settings) memberWrites

/-- The main database as it is, and a new chat database. -/
def AccessPool.initial (d : MainDb) : AccessPool := ⟨⟨⟨d, ChatState.initial⟩, []⟩, []⟩

/-- Chat access in a state of the installation. -/
structure AccessJustified (settings : Settings) (p : AccessPool) : Prop where
  /-- Whoever has access was granted it last by an Owner of the company, or was
  added as the creator and never updated. -/
  justified : ∀ m ∈ p.pool.state.chat.db.members, m.hasAccess = true →
    Justified p.pool.state p.log m.workspaceID m.personID
  /-- A step of a staff request, a re-enrolment or a role change among them, gives
  nobody access, also nobody from whom it was taken. -/
  neverGrants : ∀ i t p' r prog, p.pool.threads[i]? = some ⟨r, prog⟩ → r.OnStaff →
    AccessPool.step settings p (.turn i t) = some p' →
      ∀ m' ∈ p'.pool.state.chat.db.members, m'.hasAccess = true →
        ∃ m ∈ p.pool.state.chat.db.members, memberKey m = memberKey m' ∧ m.hasAccess = true

/-- The requests are under their guarantees, and the log accounts for the members. -/
abbrev Accounted (p : AccessPool) : Prop :=
  Recounts backendMachine accessRely AccessGuarantee (fun log s => Accounts log s) p

/-- Under the guarantees chat access is justified. -/
theorem Accounted.accessJustified (settings : Settings) {p : AccessPool} (h : Accounted p) :
    AccessJustified settings p where
  justified := h.history.justified
  neverGrants := by
    intro i t p' r prog hi hr hstep
    obtain ⟨hpool, -⟩ := Recorded.step_iff.mp hstep
    obtain ⟨r', op, next, hi', -, hnext⟩ := Pool.step_turn hpool
    cases hi.symm.trans hi'
    rw [hnext]
    exact staff_grants_nothing hr (h.governed.call hi t) t

/-- Every step keeps the account. -/
theorem Accounted.step (settings : Settings) (p : AccessPool) (l : AccessLabel) (p' : AccessPool)
    (hp : Accounted p) (h : AccessPool.step settings p l = some p') : Accounted p' :=
  Recounts.step hp (fun r s _ => program_guarantees settings r s)
    (fun _ op t s _ _ => answer_rowsStay op t s)
    (fun _ _ _ t _ haccounts hpermits => haccounts.answer hpermits t) h

/-- Chat access comes only from creation as the Admin or from an Owner of the same
company: from any main database and a new chat database, whatever requests run
beside each other and whatever fails. -/
theorem accessJustified_throughout (settings : Settings) (d : MainDb) (ls : List AccessLabel) :
    Throughout (AccessPool.step settings) (AccessJustified settings) (AccessPool.initial d) ls := by
  have hempty : Accounts [] (⟨d, ChatState.initial⟩ : World) :=
    ⟨fun _ hm => absurd hm List.not_mem_nil, fun _ he => absurd he List.not_mem_nil⟩
  have hinitial : Accounted (AccessPool.initial d) := ⟨Governed.initial trivial, hempty⟩
  have haccounted := throughout_invariant (Accounted.step settings) ls hinitial
  exact haccounted.mono fun p hp => hp.accessJustified settings

end AuraWellness.Backend.ChatPermissions
