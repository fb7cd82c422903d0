import AuraWellness.Chat.Membership
import AuraWellness.Chat.Procedures
import AuraWellness.Lib.RelyGuarantee
import AuraWellness.Backend.Runs

/-!
# A committed business unit has its chat workspace

Onboarding and the creation of a business unit create the workspace and its
Admin before they commit the rows of the main database. However such requests
interleave and wherever they fail, a business unit that is committed has one
workspace, of its own company, with its creator as Admin with access.
-/

namespace AuraWellness.Backend.Provisioning

open AuraWellness.Lib.Keyed AuraWellness.Lib.Calls AuraWellness.Lib.Transition
open AuraWellness.Lib.RelyGuarantee
open AuraWellness.Chat.Entities AuraWellness.Chat.Schema AuraWellness.Chat.Growth
open AuraWellness.Chat.Membership AuraWellness.Chat.Handlers AuraWellness.Chat.Procedures
open AuraWellness.Backend.Entities AuraWellness.Backend.Schema AuraWellness.Backend.Repositories
open AuraWellness.Backend.Services AuraWellness.Backend.Runs

/-- The requests that create a business unit. -/
inductive ProvisioningRequest
  | onboard (draws : Draws) (request : OnboardRequest)
  | createBusinessUnit (draws : Draws) (companyId ownerPersonId : Uuid) (name : String)

namespace ProvisioningRequest

/-- The program that serves the request. -/
def program : ProvisioningRequest → BackendProgram BackendResponse
  | onboard draws request => .onboarded <$> OnboardingService.onboard draws request
  | createBusinessUnit draws company owner name =>
    .businessUnit <$> BusinessUnitService.create draws company owner name

/-- The business unit of the request. -/
def unit : ProvisioningRequest → BusinessUnit
  | onboard draws request => (onboardRows draws request).2.1
  | createBusinessUnit draws company _ name => BusinessUnit.create (draws.stamps 0) company name

/-- The person who becomes the Admin of its workspace. -/
def owner : ProvisioningRequest → Uuid
  | onboard draws request => (onboardRows draws request).2.2.1.id
  | createBusinessUnit _ _ owner _ => owner

/-- The rows that the request commits. -/
def rows : ProvisioningRequest → List Insert
  | onboard draws request =>
    [.company (onboardRows draws request).1, .businessUnit (onboardRows draws request).2.1,
      .person (onboardRows draws request).2.2.1, .profile (onboardRows draws request).2.2.2]
  | createBusinessUnit draws company _ name =>
    [.businessUnit (BusinessUnit.create (draws.stamps 0) company name)]

/-- What the request answers when it succeeds. -/
def response : ProvisioningRequest → BackendResponse
  | onboard draws request => .onboarded ⟨(onboardRows draws request).1.id,
      (onboardRows draws request).2.1.id, (onboardRows draws request).2.2.1.id⟩
  | createBusinessUnit draws company _ name =>
    .businessUnit (BusinessUnit.create (draws.stamps 0) company name)

/-- What both requests do after their inserts: create the workspace, add its
Admin and commit. -/
def provision (r : ProvisioningRequest) : BackendProgram BackendResponse :=
  call (.chat (.createWorkspace r.unit.id r.unit.companyId r.unit.name)) >>= fun workspace =>
    call (.chat (.addMember workspace.id r.owner "Admin")) >>= fun _ =>
      call (.commit r.rows) >>= fun _ => pure r.response

/-- The inserts of the transaction before the provisioning. -/
def inserts : ProvisioningRequest → List BackendCall
  | onboard draws request =>
    let rows := onboardRows draws request
    [.addInTransaction [] (.company rows.1),
      .addInTransaction [.company rows.1] (.businessUnit rows.2.1),
      .addInTransaction [.company rows.1, .businessUnit rows.2.1] (.person rows.2.2.1),
      .addInTransaction [.company rows.1, .businessUnit rows.2.1, .person rows.2.2.1]
        (.profile rows.2.2.2)]
  | createBusinessUnit draws company _ name =>
    [.addInTransaction [] (.businessUnit (BusinessUnit.create (draws.stamps 0) company name))]

end ProvisioningRequest

/-- Make the calls one after the other and go on. -/
def performAll {α : Type} : List BackendCall → BackendProgram α → BackendProgram α
  | [], p => p
  | op :: ops, p => call op >>= fun _ => performAll ops p

/-- Every request makes its inserts and then provisions. -/
theorem program_eq (r : ProvisioningRequest) : r.program = performAll r.inserts r.provision := by
  cases r with
  | onboard draws request =>
    unfold ProvisioningRequest.program OnboardingService.onboard ChatServiceClient.createWorkspace
      ChatServiceClient.addWorkspaceMember
    simp only [Program.map_eq_bind, Program.bind_assoc]
    rfl
  | createBusinessUnit draws company owner name =>
    unfold ProvisioningRequest.program BusinessUnitService.create ChatServiceClient.createWorkspace
      ChatServiceClient.addWorkspaceMember
    simp only [Program.map_eq_bind, Program.bind_assoc]
    rfl

/-- The inserts are statements of an open transaction. -/
theorem inserts_queries (r : ProvisioningRequest) : ∀ op ∈ r.inserts, op.Queries := by
  intro op hop
  cases r with
  | onboard draws request =>
    simp only [ProvisioningRequest.inserts, List.mem_cons, List.not_mem_nil, or_false] at hop
    obtain rfl | rfl | rfl | rfl := hop <;> trivial
  | createBusinessUnit draws company owner name =>
    simp only [ProvisioningRequest.inserts, List.mem_singleton] at hop
    subst hop
    trivial

/-- A business unit of the database after a transaction was there before or is
one of its rows. -/
theorem insertAll_businessUnits {rows : List Insert} {d d' : MainDb}
    (h : d.insertAll rows = .ok d') {b : BusinessUnit} :
    b ∈ d'.businessUnits ↔ b ∈ d.businessUnits ∨ .businessUnit b ∈ rows := by
  induction rows generalizing d with
  | nil =>
    rw [insertAll_nil_ok.mp h]
    simp
  | cons row rows ih =>
    obtain ⟨m, hrow, hrows⟩ := insertAll_cons_ok.mp h
    rw [ih hrows]
    have hm : b ∈ m.businessUnits ↔ b ∈ d.businessUnits ∨ row = .businessUnit b := by
      cases row with
      | company c =>
        obtain ⟨-, hd⟩ := insertCompany_ok hrow
        rw [hd]
        simp
      | businessUnit u =>
        obtain ⟨-, -, hd⟩ := insertBusinessUnit_ok hrow
        rw [hd]
        simp [eq_comm]
      | person q =>
        obtain ⟨-, -, hd⟩ := insertPerson_ok hrow
        rw [hd]
        simp
      | profile q =>
        obtain ⟨-, -, -, -, hd⟩ := insertProfile_ok hrow
        rw [hd]
        simp
    rw [hm, List.mem_cons, or_assoc, eq_comm (a := row)]

/-- The one business unit that a request commits is its own. -/
theorem businessUnit_mem_rows {r : ProvisioningRequest} {b : BusinessUnit} :
    .businessUnit b ∈ r.rows ↔ b = r.unit := by
  cases r <;> simp [ProvisioningRequest.rows, ProvisioningRequest.unit]

/-- The workspace is not one of those that were there before the run. -/
def NewWorkspace (s₀ : World) (w : Uuid) : Prop := ¬∃ v ∈ s₀.chat.db.workspaces, v.id = w

/-- The workspace was created in the run for the business unit. -/
def HasWorkspace (s₀ : World) (d : ChatDb) (b : BusinessUnit) (w : Uuid) : Prop :=
  NewWorkspace s₀ w ∧
    ∃ v ∈ d.workspaces, v.id = w ∧ v.buID = b.id ∧ v.companyID = b.companyId

/-- The person has been added to the workspace of the business unit. -/
def Provided (s₀ : World) (d : ChatDb) (b : BusinessUnit) (owner : Uuid) : Prop :=
  ∃ w, HasWorkspace s₀ d b w ∧ IsMember d w owner

/-- The business unit has exactly one workspace, which is of its company, and the
person is an Admin with access there. -/
def Provisioned (d : ChatDb) (b : BusinessUnit) (owner : Uuid) : Prop :=
  ∃ w, w.companyID = b.companyId ∧ (∀ v, v ∈ d.workspaces ∧ v.buID = b.id ↔ v = w) ∧
    ∃ m ∈ d.members, memberKey m = (w.id, owner) ∧ m.role = "Admin" ∧ m.hasAccess = true

/-- The members of new workspaces are Admins with access. -/
def AdminsOnly (s₀ : World) (d : ChatDb) : Prop :=
  ∀ m ∈ d.members, NewWorkspace s₀ m.workspaceID → m.role = "Admin" ∧ m.hasAccess = true

/-- A workspace stays the one of its business unit. -/
theorem HasWorkspace.grows {s₀ : World} {d d' : ChatDb} {b : BusinessUnit} {w : Uuid}
    (h : HasWorkspace s₀ d b w) (hg : Grows d d') : HasWorkspace s₀ d' b w := by
  obtain ⟨hnew, v, hv, hfields⟩ := h
  exact ⟨hnew, v, hg.workspaces v hv, hfields⟩

/-- A person stays in the workspace. -/
theorem Provided.grows {s₀ : World} {d d' : ChatDb} {b : BusinessUnit} {owner : Uuid}
    (h : Provided s₀ d b owner) (hg : Grows d d') : Provided s₀ d' b owner := by
  obtain ⟨w, hw, hmember⟩ := h
  exact ⟨w, hw.grows hg, hmember.grows hg⟩

/-- While new workspaces have only Admins with access, the person is one. -/
theorem Provided.provisioned {s₀ : World} {d : ChatDb} {b : BusinessUnit} {owner : Uuid}
    (h : Provided s₀ d b owner) (hadmins : AdminsOnly s₀ d) : Provisioned d b owner := by
  obtain ⟨w, ⟨hnew, v, hv, rfl, hbu, hcompany⟩, m, hm, hkey⟩ := h
  have hworkspace : m.workspaceID = v.id := (Prod.mk.inj hkey).1
  refine ⟨v, hcompany, fun v' => ⟨fun hv' => ?_, fun he => ?_⟩, m, hm, hkey, ?_⟩
  · exact d.valid.workspaces_bu.eq hv'.1 hv (hv'.2.trans hbu.symm)
  · rw [he]
    exact ⟨hv, hbu⟩
  · exact hadmins m hm (by rw [hworkspace]; exact hnew)

/-- The procedures that provisioning uses. -/
def ProvisioningRpc : Rpc → Prop
  | .createWorkspace _ _ _ => True
  | .addMember _ _ role => role = "Admin"
  | _ => False

/-- They add no members but Admins with access. -/
theorem AdminsOnly.change {s₀ : World} {d d' : ChatDb} {rpc : Rpc} (h : AdminsOnly s₀ d)
    (hrpc : ProvisioningRpc rpc) (hchange : Change d d' rpc) : AdminsOnly s₀ d' := by
  intro m hm hnew
  cases hchange with
  | same hworkspaces hmembers => exact h m (hmembers ▸ hm) hnew
  | created hbu hcompany hid hnone hworkspaces hmembers => exact h m (hmembers ▸ hm) hnew
  | joined hkey hrole haccess hnone hw hworkspaces hmembers =>
    rw [hmembers] at hm
    obtain hold | hlast := List.mem_append.mp hm
    · exact h m hold hnew
    · rw [List.mem_singleton.mp hlast, hrole, haccess, (hrpc : _ = "Admin")]
      exact ⟨rfl, rfl⟩
  | assigned hold hworkspaces hmembers =>
    rw [hmembers] at hm
    obtain ⟨v, hv, rfl⟩ := List.mem_map.mp hm
    unfold assignRole at hnew ⊢
    split at hnew
    · rename_i hkey
      rw [if_pos hkey]
      exact ⟨hrpc, (h v hv hnew).2⟩
    · rename_i hkey
      rw [if_neg hkey]
      exact h v hv hnew
  | admitted => exact hrpc.elim
  | switched => exact hrpc.elim

/-- What the requests rely on: no member of a new workspace is anything but an
Admin with access, and chat rows stay. -/
def provisioningRely (s₀ : World) : Rely World where
  inv s := Grows s₀.chat.db s.chat.db ∧ AdminsOnly s₀ s.chat.db
  steps s s' := Grows s.chat.db s'.chat.db
  refl s := Grows.refl s.chat.db
  trans _ _ _ h h' := h.trans h'

/-- The guarantee of a request: a business unit that it commits is its own and
has its workspace by then. -/
def UnitGuarantee (s₀ : World) (r : ProvisioningRequest) (op : BackendCall)
    (t : Turn BackendChoice Exn) (s : World) : Prop :=
  ∀ b ∈ (backendMachine.answer op t s).2.main.businessUnits, b ∈ s.main.businessUnits ∨
    (b = r.unit ∧ Provided s₀ (backendMachine.answer op t s).2.chat.db b r.owner)

variable {s₀ : World} {r : ProvisioningRequest}

/-- Whatever a call is answered, chat rows stay. -/
theorem answer_grows (op : BackendCall) (t : Turn BackendChoice Exn) (s : World) :
    Grows s.chat.db (backendMachine.answer op t s).2.chat.db := by
  obtain h | ⟨c, h⟩ := backendMachine.answer_state op t s
  · rw [h]
    exact Grows.refl _
  · rw [h]
    exact exec_grows op c s

/-- A query keeps every guarantee. -/
theorem query_guarantee {op : BackendCall} (h : op.Queries) (t : Turn BackendChoice Exn)
    {s : World} (hs : (provisioningRely s₀).inv s) :
    (provisioningRely s₀).inv (backendMachine.answer op t s).2 ∧ UnitGuarantee s₀ r op t s := by
  unfold UnitGuarantee
  rw [query_state h]
  exact ⟨hs, fun b hb => Or.inl hb⟩

/-- A call to the chat service keeps every guarantee. -/
theorem chat_guarantee {rpc : Rpc} (hrpc : ProvisioningRpc rpc) (t : Turn BackendChoice Exn)
    {s : World} (hs : (provisioningRely s₀).inv s) :
    (provisioningRely s₀).inv (backendMachine.answer (.chat rpc) t s).2 ∧
      UnitGuarantee s₀ r (.chat rpc) t s := by
  refine ⟨⟨hs.1.trans (answer_grows _ t s), ?_⟩, fun b hb => Or.inl ?_⟩
  · obtain h | ⟨env, h⟩ := answer_chat_state rpc t s
    · rw [h]
      exact hs.2
    · rw [h]
      exact hs.2.change hrpc (serve_change rpc env s.chat)
  · rw [answer_chat_main] at hb
    exact hb

/-- A workspace whose creation succeeds is new and stored for its business unit. -/
theorem answer_createWorkspace_ok {bu company : Uuid} {name : String} {t : Turn BackendChoice Exn}
    {s : World} {w : ChatWorkspace}
    (h : (backendMachine.answer (.chat (.createWorkspace bu company name)) t s).1 = .ok w) :
    w ∈ (backendMachine.answer (.chat (.createWorkspace bu company name)) t s).2.chat.db.workspaces ∧
      w.buID = bu ∧ w.companyID = company ∧ ¬∃ v ∈ s.chat.db.workspaces, v.id = w.id := by
  obtain ⟨env, hserve, hstate⟩ := answer_chat_served h
  rw [hstate]
  rcases serve_createWorkspace bu company name env s.chat with
    ⟨-, e, he⟩ | ⟨row, hbu, hcompany, hid, -, hd, hreply⟩
  · cases he.symm.trans hserve
  · have hw : w = row := hreply w hserve
    subst hw
    refine ⟨?_, hbu, hcompany, hid⟩
    dsimp only
    rw [hd]
    exact List.mem_append_right _ (List.mem_singleton_self w)

/-- A workspace that has been created is the one of its business unit. -/
theorem createWorkspace_ok {b : BusinessUnit} {t : Turn BackendChoice Exn} {s : World}
    {w : ChatWorkspace} (hs : (provisioningRely s₀).inv s)
    (h : (backendMachine.answer (.chat (.createWorkspace b.id b.companyId b.name)) t s).1 = .ok w) :
    HasWorkspace s₀ (backendMachine.answer (.chat (.createWorkspace b.id b.companyId b.name)) t
      s).2.chat.db b w.id := by
  obtain ⟨hw, hbu, hcompany, hnew⟩ := answer_createWorkspace_ok h
  exact ⟨fun ⟨v, hv, hvid⟩ => hnew ⟨v, hs.1.workspaces v hv, hvid⟩, w, hw, rfl, hbu, hcompany⟩

/-- A person who has been added is a member. -/
theorem addMember_ok {w p : Uuid} {role : String} {t : Turn BackendChoice Exn} {s : World}
    {m : ChatWorkspaceMember}
    (h : (backendMachine.answer (.chat (.addMember w p role)) t s).1 = .ok m) :
    IsMember (backendMachine.answer (.chat (.addMember w p role)) t s).2.chat.db w p := by
  obtain ⟨env, hserve, hstate⟩ := answer_chat_served h
  rw [hstate]
  obtain ⟨-, e, he⟩ | hjoined := serve_addMember w p role env s.chat
  · cases he.symm.trans hserve
  · obtain ⟨m', hm', hkey, -⟩ := hjoined.exists_member
    exact ⟨m', hm', hkey⟩

/-- A business unit after a commit was there before or is one of its rows. -/
theorem answer_commit_businessUnits {rows : List Insert} {t : Turn BackendChoice Exn} {s : World}
    {b : BusinessUnit}
    (hb : b ∈ (backendMachine.answer (.commit rows) t s).2.main.businessUnits) :
    b ∈ s.main.businessUnits ∨ .businessUnit b ∈ rows := by
  obtain h | ⟨c, h⟩ := backendMachine.answer_state (.commit rows) t s
  · rw [h] at hb
    exact Or.inl hb
  · rw [h] at hb
    have hstore : b ∈ (storeMain s (s.main.insertAll rows)).2.main.businessUnits := hb
    cases hd : s.main.insertAll rows with
    | ok d =>
      rw [hd] at hstore
      exact (insertAll_businessUnits hd).mp hstore
    | error e =>
      rw [hd] at hstore
      exact Or.inl hstore

/-- Calls that keep the guarantee in every state, before a program that is under it. -/
theorem performAll_guarantees {α : Type} {R : Rely World}
    {G : BackendCall → Turn BackendChoice Exn → World → Prop} {ops : List BackendCall}
    (hops : ∀ op ∈ ops, ∀ t s, R.inv s → R.inv (backendMachine.answer op t s).2 ∧ G op t s)
    {p : BackendProgram α} (hp : ∀ s, Guarantees backendMachine R G p s) (s : World) :
    Guarantees backendMachine R G (performAll ops p) s := by
  induction ops generalizing s with
  | nil => exact hp s
  | cons op ops ih =>
    have hrest := ih fun op' h => hops op' (List.mem_cons_of_mem op h)
    exact Guarantees.perform_bind (fun s' t _ hinv => hops op List.mem_cons_self t s' hinv)
      fun s' t _ _ _ _ => hrest _

/-- The provisioning commits its business unit when its workspace has its Admin. -/
theorem provision_guarantees (s₀ : World) (r : ProvisioningRequest) (s : World) :
    Guarantees backendMachine (provisioningRely s₀) (UnitGuarantee s₀ r) r.provision s := by
  have hcreate : ProvisioningRpc (.createWorkspace r.unit.id r.unit.companyId r.unit.name) := trivial
  have hadd : ∀ w, ProvisioningRpc (.addMember w r.owner "Admin") := fun _ => rfl
  unfold ProvisioningRequest.provision
  refine Guarantees.perform_bind (fun s' t _ hinv => chat_guarantee hcreate t hinv)
    fun s₁ t₁ w _ hinv₁ hok₁ => ?_
  have hworkspace := createWorkspace_ok hinv₁ hok₁
  refine Guarantees.perform_bind (fun s' t _ hinv => chat_guarantee (hadd w.id) t hinv)
    fun s₂ t₂ m hs₂ hinv₂ hok₂ => ?_
  have hmember := addMember_ok hok₂
  have hkept := (hworkspace.grows hs₂).grows
    (answer_grows (.chat (.addMember w.id r.owner "Admin")) t₂ s₂)
  refine Guarantees.perform_bind (fun s₃ t₃ hs₃ hinv₃ => ?_) fun _ _ _ _ _ _ => trivial
  have hprovided : Provided s₀ s₃.chat.db r.unit r.owner := Provided.grows ⟨w.id, hkept, hmember⟩ hs₃
  have hcommit : ∀ rpc, BackendCall.commit r.rows ≠ .chat rpc := fun _ h => by cases h
  have hchat := answer_main_chat hcommit t₃ s₃
  constructor
  · refine (?_ : Grows s₀.chat.db _ ∧ AdminsOnly s₀ _)
    rw [hchat]
    exact hinv₃
  · intro b hb
    rw [hchat]
    obtain hold | hrow := answer_commit_businessUnits hb
    · exact Or.inl hold
    · rw [businessUnit_mem_rows.mp hrow]
      exact Or.inr ⟨rfl, hprovided⟩

/-- Requests that create business units, beside each other on the two databases. -/
abbrev Provisioners := Pool backendSignature World Exn BackendResponse ProvisioningRequest

/-- What happens next to these requests. -/
abbrev ProvisioningLabel := Label BackendChoice Exn ProvisioningRequest

/-- One step of these requests. -/
abbrev Provisioners.step : Provisioners → ProvisioningLabel → Option Provisioners :=
  Pool.step backendMachine ProvisioningRequest.program

/-- The two databases before the first of these requests. -/
def Provisioners.initial (s₀ : World) : Provisioners := ⟨s₀, []⟩

/-- The request at this position. -/
def Provisioners.requestAt (p : Provisioners) (i : ℕ) : Option ProvisioningRequest :=
  (p.threads[i]?).map Thread.req

/-- Every business unit committed in the run has its workspace. -/
structure UnitsProvisioned (s₀ : World) (p : Provisioners) : Prop where
  /-- When it becomes committed, by the request that creates it. -/
  committing : ∀ i t p', Provisioners.step p (.turn i t) = some p' →
    ∀ b ∈ p'.state.main.businessUnits, b ∉ p.state.main.businessUnits →
      ∃ r, p.requestAt i = some r ∧ b = r.unit ∧ Provisioned p'.state.chat.db b r.owner
  /-- From then on. -/
  committed : ∀ b ∈ p.state.main.businessUnits, b ∉ s₀.main.businessUnits →
    ∃ i r, p.requestAt i = some r ∧ b = r.unit ∧ Provisioned p.state.chat.db b r.owner

/-- The requests are under their guarantees, and what has been committed has its
workspace. -/
structure Governs (s₀ : World) (p : Provisioners) : Prop where
  governed : Governed backendMachine (provisioningRely s₀) (UnitGuarantee s₀) p
  provided : ∀ b ∈ p.state.main.businessUnits, b ∈ s₀.main.businessUnits ∨
    ∃ i r, p.requestAt i = some r ∧ b = r.unit ∧ Provided s₀ p.state.chat.db b r.owner

/-- What a step commits is the business unit of the request that makes the step. -/
theorem Governs.commits {p p' : Provisioners} {i : ℕ} {t : Turn BackendChoice Exn}
    (hp : Governs s₀ p) (h : Provisioners.step p (.turn i t) = some p') {b : BusinessUnit}
    (hb : b ∈ p'.state.main.businessUnits) : b ∈ p.state.main.businessUnits ∨
      ∃ r, p.requestAt i = some r ∧ b = r.unit ∧ Provided s₀ p'.state.chat.db b r.owner := by
  obtain ⟨r, op, next, hi, -, rfl⟩ := Pool.step_turn h
  obtain hold | ⟨hunit, hprovided⟩ := hp.governed.call hi t b hb
  · exact Or.inl hold
  · refine Or.inr ⟨r, ?_, hunit, hprovided⟩
    unfold Provisioners.requestAt
    rw [hi]
    rfl

/-- Every step keeps the guarantees. -/
theorem Governs.step (s₀ : World) (p : Provisioners) (l : ProvisioningLabel) (p' : Provisioners)
    (hp : Governs s₀ p) (h : Provisioners.step p l = some p') : Governs s₀ p' := by
  have hbody : ∀ r s, (provisioningRely s₀).inv s →
      Guarantees backendMachine (provisioningRely s₀) (UnitGuarantee s₀ r) r.program s := by
    intro r s _
    rw [program_eq]
    exact performAll_guarantees
      (fun op hop t _ hinv => query_guarantee (inserts_queries r op hop) t hinv)
      (provision_guarantees s₀ r) s
  obtain ⟨hgoverned, hsteps⟩ :=
    Governed.step hp.governed hbody (fun _ op t s _ _ => answer_grows op t s) h
  refine ⟨hgoverned, fun b hb => ?_⟩
  have kept : b ∈ p.state.main.businessUnits → b ∈ s₀.main.businessUnits ∨
      ∃ i r, p'.requestAt i = some r ∧ b = r.unit ∧ Provided s₀ p'.state.chat.db b r.owner := by
    intro hold
    obtain hinitial | ⟨i, r, hi, hunit, hprovided⟩ := hp.provided b hold
    · exact Or.inl hinitial
    · exact Or.inr ⟨i, r, Pool.step_request hi h, hunit, hprovided.grows hsteps⟩
  cases l with
  | start r =>
    cases h
    exact kept hb
  | turn i t =>
    obtain hold | ⟨r, hi, hunit, hprovided⟩ := hp.commits h hb
    · exact kept hold
    · exact Or.inr ⟨i, r, Pool.step_request hi h, hunit, hprovided⟩
  | crash i e =>
    obtain ⟨r, op, next, -, rfl⟩ := Pool.step_crash h
    exact kept hb

/-- Under the guarantees the committed business units have their workspaces. -/
theorem Governs.unitsProvisioned {p : Provisioners} (hp : Governs s₀ p) :
    UnitsProvisioned s₀ p where
  committing i t p' h b hb hnew := by
    obtain hold | ⟨r, hi, hunit, hprovided⟩ := hp.commits h hb
    · exact absurd hold hnew
    · have hp' := Governs.step s₀ p _ p' hp h
      exact ⟨r, hi, hunit, hprovided.provisioned hp'.governed.inv.2⟩
  committed b hb hnew := by
    obtain hold | ⟨i, r, hi, hunit, hprovided⟩ := hp.provided b hb
    · exact absurd hold hnew
    · exact ⟨i, r, hi, hunit, hprovided.provisioned hp.governed.inv.2⟩

/-- In every run of onboardings and creations of business units on any two
databases, whatever fails wherever, each business unit that becomes committed
has exactly one chat workspace, of its company and with its creator as Admin
with access. -/
theorem unitsProvisioned_throughout (s₀ : World) (ls : List ProvisioningLabel) :
    Throughout Provisioners.step (UnitsProvisioned s₀) (Provisioners.initial s₀) ls := by
  have hadmins : AdminsOnly s₀ s₀.chat.db := fun m hm hnew =>
    absurd (s₀.chat.db.valid.members_workspace m hm) hnew
  have hinitial : Governs s₀ (Provisioners.initial s₀) :=
    ⟨Governed.initial ⟨Grows.refl _, hadmins⟩, fun b hb => Or.inl hb⟩
  have hgoverned := throughout_invariant (Governs.step s₀) ls hinitial
  exact hgoverned.mono fun p hp => hp.unitsProvisioned

end AuraWellness.Backend.Provisioning
