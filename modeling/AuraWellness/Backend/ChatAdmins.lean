import AuraWellness.Backend.Provisioning
import AuraWellness.Backend.StaffCreation
import AuraWellness.Backend.Tenants

/-!
# When the creator of a business unit stays its chat Admin

Whoever onboards a company or creates a business unit is added to the workspace
as its Admin. New staff and enrolments are added as Members, also over an Admin
that is already there, so the creator stays Admin exactly as long as it is not
enrolled into the business unit.
-/

namespace AuraWellness.Backend.ChatAdmins

open AuraWellness.Lib.Calls AuraWellness.Lib.Transition AuraWellness.Lib.Keyed
open AuraWellness.Chat.Entities AuraWellness.Chat.Schema AuraWellness.Chat.Repositories
open AuraWellness.Chat.Handlers AuraWellness.Chat.Procedures
open AuraWellness.Backend.Entities AuraWellness.Backend.Schema AuraWellness.Backend.Repositories
open AuraWellness.Backend.Services AuraWellness.Backend.Runs AuraWellness.Backend.Tenants
open AuraWellness.Backend.Provisioning

/-- The person is an Admin in the workspace of the business unit. -/
def IsAdmin (d : ChatDb) (bu person : Uuid) : Prop :=
  ∃ w ∈ d.workspaces, w.buID = bu ∧
    ∃ m ∈ d.members, memberKey m = (w.id, person) ∧ m.role = "Admin"

instance (d : ChatDb) (bu person : Uuid) : Decidable (IsAdmin d bu person) := by
  unfold IsAdmin
  infer_instance

/-- The business unit that a request creates, and the person who creates it. -/
def creates : BackendRequest → List (Uuid × Uuid)
  | .onboard draws q => [((onboardRows draws q).2.1.id, (onboardRows draws q).2.2.1.id)]
  | .createBusinessUnit draws _ owner _ => [((draws.stamps 0).id, owner)]
  | _ => []

/-- The installation, and who created which business unit. -/
structure Installation where
  /-- The two databases. -/
  world : World
  /-- Each business unit that was created, with its creator. -/
  creators : List (Uuid × Uuid)

/-- One request that succeeds. -/
def Installation.step (settings : Settings) (s : Installation) (r : Served) : Option Installation :=
  let out := (r.request.program settings).run backendMachine r.env s.world
  match out.1 with
  | .ok _ => some ⟨out.2, s.creators ++ creates r.request⟩
  | .error _ => none

/-- The creators are Admins in the workspaces of their business units. -/
def CreatorsAdmin (s : Installation) : Prop :=
  ∀ c ∈ s.creators, IsAdmin s.world.chat.db c.1 c.2

instance (s : Installation) : Decidable (CreatorsAdmin s) := by
  unfold CreatorsAdmin
  infer_instance

/-- The request adds the creator of a business unit to it as a staff member, and
its lookup of the workspace succeeds. -/
def EnrolsCreator (s : Installation) (r : Served) : Prop :=
  match r.request with
  | .createStaff draws _ q => (q.buId, (draws.stamps 0).id) ∈ s.creators ∧
      Succeeds (.chat (.getWorkspaceByBuID q.buId)) (r.env 3) s.world
  | .enrollExisting _ _ q => (q.buId, q.personId) ∈ s.creators ∧
      Succeeds (.chat (.getWorkspaceByBuID q.buId)) (r.env 4) s.world
  | _ => False

instance (s : Installation) (r : Served) : Decidable (EnrolsCreator s r) := by
  obtain ⟨request, env⟩ := r
  cases request <;> unfold EnrolsCreator <;> infer_instance

/-- A new workspace leaves the Admins. -/
theorem IsAdmin.of_rows {d d' : ChatDb} {bu person : Uuid} (h : IsAdmin d bu person)
    (hworkspaces : ∀ w ∈ d.workspaces, w ∈ d'.workspaces) (hmembers : ∀ m ∈ d.members,
      m.role = "Admin" → ∃ m' ∈ d'.members, memberKey m' = memberKey m ∧ m'.role = "Admin") :
    IsAdmin d' bu person := by
  obtain ⟨w, hw, hbu, m, hm, hkey, hrole⟩ := h
  obtain ⟨m', hm', hkey', hrole'⟩ := hmembers m hm hrole
  exact ⟨w, hworkspaces w hw, hbu, m', hm', hkey'.trans hkey, hrole'⟩

/-- A procedure that adds no Member leaves the Admins. -/
theorem IsAdmin.change {d d' : ChatDb} {rpc : Rpc} {bu person : Uuid} (h : IsAdmin d bu person)
    (hrpc : ∀ w p role, rpc = .addMember w p role → role = "Admin") (hchange : Change d d' rpc) :
    IsAdmin d' bu person := by
  cases hchange with
  | same hworkspaces hmembers =>
    exact h.of_rows (fun w hw => hworkspaces ▸ hw) fun m hm hrole => ⟨m, hmembers ▸ hm, rfl, hrole⟩
  | created hbu hcompany hid hnew hworkspaces hmembers =>
    refine h.of_rows (fun w hw => ?_) fun m hm hrole => ⟨m, hmembers ▸ hm, rfl, hrole⟩
    rw [hworkspaces]
    exact List.mem_append_left _ hw
  | joined hkey hrole haccess hnew hw hworkspaces hmembers =>
    refine h.of_rows (fun w hw => hworkspaces ▸ hw) fun m hm hrole => ⟨m, ?_, rfl, hrole⟩
    rw [hmembers]
    exact List.mem_append_left _ hm
  | @assigned w p role hold hworkspaces hmembers =>
    refine h.of_rows (fun w hw => hworkspaces ▸ hw) fun m hm hadmin =>
      ⟨assignRole w p role m, ?_, (assignRole_fields w p role m).1, ?_⟩
    · rw [hmembers]
      exact List.mem_map_of_mem hm
    · unfold assignRole
      split
      · exact hrpc w p role rfl
      · exact hadmin
  | admitted hkey hrole haccess hnew hw hworkspaces hmembers =>
    refine h.of_rows (fun w hw => hworkspaces ▸ hw) fun m hm hrole => ⟨m, ?_, rfl, hrole⟩
    rw [hmembers]
    exact List.mem_append_left _ hm
  | @switched w p access hold hworkspaces hmembers =>
    obtain hfields := switchAccess_fields w p access
    refine h.of_rows (fun w hw => hworkspaces ▸ hw) fun m hm hadmin =>
      ⟨switchAccess w p access m, ?_, (hfields m).1, (hfields m).2.trans hadmin⟩
    rw [hmembers]
    exact List.mem_map_of_mem hm

/-- Whoever is added as a Member is no Admin of the workspace afterwards, and all
others are what they were. -/
theorem isAdmin_joined_iff {d d' : ChatDb} {w : ChatWorkspace} {p bu person : Uuid}
    (hw : w ∈ d.workspaces) (h : Joined d d' w.id p "Member") :
    IsAdmin d' bu person ↔ IsAdmin d bu person ∧ ¬(w.buID = bu ∧ p = person) := by
  have hmember : ("Member" : String) ≠ "Admin" := by decide
  -- the workspace of the key is the one of the business unit
  have hunit : ∀ v ∈ d.workspaces, v.id = w.id → v = w := fun v hv hid =>
    d.valid.workspaces_id.eq hv hw hid
  have hsame : ∀ v ∈ d.workspaces, v.buID = w.buID → v = w := fun v hv hbu =>
    d.valid.workspaces_bu.eq hv hw hbu
  rcases h with ⟨row, hkey, hrole, -, hnew, -, hd⟩ | ⟨-, hd⟩
  · have hmembers : d'.members = d.members ++ [row] := by rw [hd]
    have hworkspaces : d'.workspaces = d.workspaces := by rw [hd]
    constructor
    · rintro ⟨v, hv, hbu, m, hm, hmkey, hadmin⟩
      rw [hworkspaces] at hv
      rw [hmembers] at hm
      rcases List.mem_append.mp hm with hold | hlast
      · refine ⟨⟨v, hv, hbu, m, hold, hmkey, hadmin⟩, fun ⟨hwbu, hp⟩ => hnew ⟨m, hold, ?_⟩⟩
        rw [hmkey, hsame v hv (hbu.trans hwbu.symm), hp]
      · rw [List.mem_singleton.mp hlast, hrole] at hadmin
        exact absurd hadmin hmember
    · rintro ⟨hold, -⟩
      refine hold.of_rows (fun v hv => hworkspaces ▸ hv) fun m hm hadmin => ⟨m, ?_, rfl, hadmin⟩
      rw [hmembers]
      exact List.mem_append_left _ hm
  · have hmembers : d'.members = d.members.map (assignRole w.id p "Member") := by rw [hd]
    have hworkspaces : d'.workspaces = d.workspaces := by rw [hd]
    constructor
    · rintro ⟨v, hv, hbu, m', hm', hmkey, hadmin⟩
      rw [hworkspaces] at hv
      rw [hmembers] at hm'
      obtain ⟨m, hm, rfl⟩ := List.mem_map.mp hm'
      by_cases hkey : memberKey m = (w.id, p)
      · have hset : assignRole w.id p "Member" m = { m with role := "Member" } := if_pos hkey
        rw [hset] at hadmin
        exact absurd hadmin hmember
      · have hset : assignRole w.id p "Member" m = m := if_neg hkey
        rw [hset] at hmkey hadmin
        refine ⟨⟨v, hv, hbu, m, hm, hmkey, hadmin⟩, fun ⟨hwbu, hp⟩ => hkey ?_⟩
        rw [hmkey, hsame v hv (hbu.trans hwbu.symm), hp]
    · rintro ⟨⟨v, hv, hbu, m, hm, hmkey, hadmin⟩, hother⟩
      have hkey : memberKey m ≠ (w.id, p) := by
        intro hkey
        obtain ⟨hid, hp⟩ := Prod.mk.inj (hmkey.symm.trans hkey)
        rw [hunit v hv hid] at hbu
        exact hother ⟨hbu, hp.symm⟩
      have hset : assignRole w.id p "Member" m = m := if_neg hkey
      refine ⟨v, hworkspaces ▸ hv, hbu, m, ?_, hmkey, hadmin⟩
      rw [hmembers]
      exact List.mem_map.mpr ⟨m, hm, hset⟩

/-- A call that adds no Member leaves the Admins. -/
theorem exec_keepsAdmin {op : BackendCall}
    (hop : ∀ w p role, op = .chat (.addMember w p role) → role = "Admin") (c : BackendChoice)
    {s : World} {bu person : Uuid} (h : IsAdmin s.chat.db bu person) :
    IsAdmin (backendMachine.exec op c s).2.chat.db bu person := by
  by_cases hchat : ∃ rpc, op = .chat rpc
  · obtain ⟨rpc, rfl⟩ := hchat
    exact h.change (fun w p role he => hop w p role (congrArg _ he)) (serve_change rpc c.rpc s.chat)
  · have hkept := answer_main_chat (fun rpc he => hchat ⟨rpc, he⟩) (.serve c) s
    refine (?_ : IsAdmin (backendMachine.answer op (.serve c) s).2.chat.db bu person)
    rw [hkept]
    exact h

/-- Every call of a request that adds no Member leaves the Admins. -/
theorem run_keepsAdmin {settings : Settings} {r : BackendRequest} (env : ℕ → Turn BackendChoice Exn)
    (hr : ∀ w p role, Issues settings r (.chat (.addMember w p role)) → role = "Admin") (s : World)
    {bu person : Uuid} (h : IsAdmin s.chat.db bu person) :
    IsAdmin ((r.program settings).run backendMachine env s).2.chat.db bu person :=
  Program.run_preserves (I := fun t : World => IsAdmin t.chat.db bu person)
    (fun _ c _ hop ht => exec_keepsAdmin (fun w p role he => hr w p role (he ▸ hop)) c ht)
    (program_issues settings r) env h

/-- The queries at the start of a program that succeeds change nothing. -/
theorem run_performAll {α : Type} {ops : List BackendCall} (hops : ∀ op ∈ ops, op.Queries)
    (p : BackendProgram α) {env : ℕ → Turn BackendChoice Exn} {s : World} {a : α}
    (h : ((performAll ops p).run backendMachine env s).1 = .ok a) :
    ∃ env', (performAll ops p).run backendMachine env s = p.run backendMachine env' s := by
  induction ops generalizing env with
  | nil => exact ⟨env, rfl⟩
  | cons op ops ih =>
    obtain ⟨b, -, hrun⟩ := Program.run_perform_bind_ok h
    rw [query_state (hops op List.mem_cons_self)] at hrun
    have hrest : ((performAll ops p).run backendMachine (fun n => env (n + 1)) s).1 = .ok a :=
      (congrArg Prod.fst hrun).symm.trans h
    obtain ⟨env', henv⟩ := ih (fun op' h' => hops op' (List.mem_cons_of_mem op h')) hrest
    exact ⟨env', hrun.trans henv⟩

/-- Whoever has been added as the Admin of a business unit's workspace is it. -/
theorem isAdmin_of_added {w : ChatWorkspace} {p : Uuid} {t : Turn BackendChoice Exn} {s : World}
    {m : ChatWorkspaceMember} (hw : w ∈ s.chat.db.workspaces)
    (h : (backendMachine.answer (.chat (.addMember w.id p "Admin")) t s).1 = .ok m) :
    IsAdmin (backendMachine.answer (.chat (.addMember w.id p "Admin")) t s).2.chat.db w.buID p := by
  have hkept := (answer_grows (.chat (.addMember w.id p "Admin")) t s).workspaces w hw
  obtain ⟨env, hserve, hstate⟩ := answer_chat_served h
  rw [hstate] at hkept ⊢
  rcases serve_addMember w.id p "Admin" env s.chat with ⟨-, e, he⟩ | hjoined
  · cases he.symm.trans hserve
  · obtain ⟨m', hm', hkey, hrole⟩ := hjoined.exists_member
    exact ⟨w, hkept, rfl, m', hm', hkey, hrole⟩

/-- A request that has created a business unit has made the creator its Admin. -/
theorem run_provision_ok {q : ProvisioningRequest} {env : ℕ → Turn BackendChoice Exn} {s : World}
    {a : BackendResponse} (h : (q.program.run backendMachine env s).1 = .ok a) :
    IsAdmin (q.program.run backendMachine env s).2.chat.db q.unit.id q.owner := by
  rw [program_eq] at h ⊢
  obtain ⟨env', henv⟩ := run_performAll (inserts_queries q) q.provision h
  rw [henv] at h ⊢
  unfold ProvisioningRequest.provision at h ⊢
  obtain ⟨w, hcreate, hrun⟩ := Program.run_perform_bind_ok h
  obtain ⟨hw, hunit, -, -⟩ := answer_createWorkspace_ok hcreate
  rw [hrun] at h ⊢
  obtain ⟨m, hadd, hrun⟩ := Program.run_perform_bind_ok h
  have hadmin := isAdmin_of_added hw hadd
  rw [hunit] at hadmin
  rw [hrun] at h ⊢
  obtain ⟨b, -, hrun⟩ := Program.run_perform_bind_ok h
  have hcommit : ∀ rpc, BackendCall.commit q.rows ≠ .chat rpc := fun _ he => by cases he
  rw [hrun, Program.pure_eq, Program.run_ret, answer_main_chat hcommit]
  exact hadmin

/-- What an enrolment that has succeeded leaves of the chat service: nothing
changes when the lookup of the workspace, at this turn, finds none, and otherwise
the person has been added as a Member. -/
def Enrolled (s s' : World) (bu person : Uuid) (t : Turn BackendChoice Exn) : Prop :=
  (¬Succeeds (.chat (.getWorkspaceByBuID bu)) t s ∧ s'.chat = s.chat) ∨
    (Succeeds (.chat (.getWorkspaceByBuID bu)) t s ∧ ∃ w ∈ s.chat.db.workspaces, w.buID = bu ∧
      Joined s.chat.db s'.chat.db w.id person "Member")

/-- What happens to the main database before an enrolment does not matter to it. -/
theorem Enrolled.of_chat {s s₁ s' : World} {bu person : Uuid} {t : Turn BackendChoice Exn}
    (h : Enrolled s₁ s' bu person t) (hchat : s₁.chat = s.chat) : Enrolled s s' bu person t := by
  unfold Enrolled Succeeds at h ⊢
  rw [answer_chat_congr _ t hchat, hchat] at h
  exact h

/-- A member that has been added is there. -/
theorem run_addMember_ok {α : Type} {w p : Uuid} {role : String} {response a : α}
    {env : ℕ → Turn BackendChoice Exn} {s : World}
    (h : ((ChatServiceClient.addWorkspaceMember w p role >>= fun _ =>
      (pure response : BackendProgram α)).run backendMachine env s).1 = .ok a) :
    Joined s.chat.db ((ChatServiceClient.addWorkspaceMember w p role >>= fun _ =>
      (pure response : BackendProgram α)).run backendMachine env s).2.chat.db w p role := by
  unfold ChatServiceClient.addWorkspaceMember at h ⊢
  rw [Program.bind_assoc] at h ⊢
  obtain ⟨m, hm, hrun⟩ := Program.run_perform_bind_ok h
  obtain ⟨rpcEnv, hserve, hstate⟩ := answer_chat_served hm
  have hend : ((call (.chat (.addMember w p role)) >>= fun _ => (pure () : BackendProgram Unit) >>=
      fun _ => (pure response : BackendProgram α)).run backendMachine env s).2 =
      (backendMachine.answer (.chat (.addMember w p role)) (env 0) s).2 := by
    rw [hrun]
    rfl
  rw [hend, hstate]
  rcases serve_addMember w p role rpcEnv s.chat with ⟨-, e, he⟩ | hjoined
  · cases he.symm.trans hserve
  · exact hjoined

/-- The end of `CreateAsync` and `EnrollExistingAsync` when it succeeds. -/
theorem run_addProfile_ok {person : Person} {bu : BusinessUnit} {profile : BuStaffProfile}
    {env : ℕ → Turn BackendChoice Exn} {s : World} {a : StaffResponse}
    (h : ((StaffService.addProfile person bu profile).run backendMachine env s).1 = .ok a) :
    Enrolled s ((StaffService.addProfile person bu profile).run backendMachine env s).2 bu.id
      person.id (env 1) := by
  have hadd : ∀ rpc, BackendCall.add (.profile profile) ≠ .chat rpc := fun _ he => by cases he
  unfold StaffService.addProfile at h ⊢
  obtain ⟨_, -, hrun⟩ := Program.run_perform_bind_ok h
  rw [hrun] at h ⊢
  have hchat := answer_main_chat hadd (env 0) s
  obtain ⟨s₁, hs₁⟩ : ∃ s₁, s₁ = (backendMachine.answer (.add (.profile profile)) (env 0) s).2 :=
    ⟨_, rfl⟩
  rw [← hs₁] at h hchat ⊢
  rw [run_lookup] at h ⊢
  have hreply := answer_chat_congr (.getWorkspaceByBuID bu.id) (env 1) hchat
  dsimp only [Nat.zero_add] at h ⊢
  rw [hreply] at h ⊢
  cases hl : (backendMachine.answer (.chat (.getWorkspaceByBuID bu.id)) (env 1) s).1 with
  | ok w =>
    obtain ⟨hw, hbu⟩ := lookup_ok hl
    rw [hl] at h
    refine Or.inr ⟨succeeds_of_ok hl, w, hw, hbu, ?_⟩
    rw [← hchat]
    exact run_addMember_ok h
  | error e =>
    refine Or.inl ⟨not_succeeds hl, ?_⟩
    rw [hl] at h
    rcases lookupResult_error e with hnone | ⟨e', hthrow⟩
    · rw [hnone]
      exact hchat
    · rw [hthrow] at h
      cases h

/-- A new staff member is added to the workspace as a Member. -/
theorem run_createStaff_ok {settings : Settings} {draws : Draws} {company : Uuid}
    {q : CreateStaffRequest} {env : ℕ → Turn BackendChoice Exn} {s : World} {a : StaffResponse}
    (h : ((StaffService.create settings draws company q).run backendMachine env s).1 = .ok a) :
    Enrolled s ((StaffService.create settings draws company q).run backendMachine env s).2 q.buId
      (draws.stamps 0).id (env 3) := by
  have hlookup : BackendCall.Queries (.businessUnitGetById q.buId company) := trivial
  unfold StaffService.create at h ⊢
  obtain ⟨found, hfound, hrun⟩ := Program.run_perform_bind_ok h
  rw [hrun, query_state hlookup] at h ⊢
  cases found with
  | none => cases h
  | some bu =>
    obtain ⟨-, hid, -⟩ := businessUnitGetById_ok hfound
    dsimp only at h ⊢
    cases hrole : assignableRole q.role with
    | none =>
      rw [hrole] at h
      cases h
    | some role =>
      rw [hrole] at h
      dsimp only at h ⊢
      obtain ⟨_, -, hrun⟩ := Program.run_perform_bind_ok h
      rw [hrun] at h ⊢
      have hadd : ∀ rpc, BackendCall.add (.person (Person.create (draws.stamps 0) company q.firstName
          q.lastName)) ≠ .chat rpc := fun _ he => by cases he
      have hchat := answer_main_chat hadd (env 1) s
      rw [← hid]
      exact (run_addProfile_ok h).of_chat hchat

/-- An enrolled person is added to the workspace as a Member. -/
theorem run_enrollExisting_ok {settings : Settings} {draws : Draws} {company : Uuid}
    {q : EnrollExistingStaffRequest} {env : ℕ → Turn BackendChoice Exn} {s : World}
    {a : StaffResponse} (h : ((StaffService.enrollExisting settings draws company q).run
      backendMachine env s).1 = .ok a) :
    Enrolled s ((StaffService.enrollExisting settings draws company q).run backendMachine env s).2
      q.buId q.personId (env 4) := by
  have hunitLookup : BackendCall.Queries (.businessUnitGetById q.buId company) := trivial
  have hpersonLookup : BackendCall.Queries (.personGetById q.personId company) := trivial
  unfold StaffService.enrollExisting at h ⊢
  obtain ⟨found, hfound, hrun⟩ := Program.run_perform_bind_ok h
  rw [hrun, query_state hunitLookup] at h ⊢
  cases found with
  | none => cases h
  | some bu =>
    obtain ⟨-, hid, -⟩ := businessUnitGetById_ok hfound
    dsimp only at h ⊢
    obtain ⟨found, hfound, hrun⟩ := Program.run_perform_bind_ok h
    rw [hrun, query_state hpersonLookup] at h ⊢
    cases found with
    | none => cases h
    | some person =>
      obtain ⟨-, hpersonId, -⟩ := personGetById_ok hfound
      have hprofileLookup : BackendCall.Queries (.profileGetByPersonAndBu person.id bu.id) := trivial
      dsimp only at h ⊢
      obtain ⟨found, -, hrun⟩ := Program.run_perform_bind_ok h
      rw [hrun, query_state hprofileLookup] at h ⊢
      cases found with
      | some profile => cases h
      | none =>
        dsimp only at h ⊢
        cases hrole : assignableRole q.role with
        | none =>
          rw [hrole] at h
          cases h
        | some role =>
          rw [hrole] at h
          rw [← hid, ← hpersonId]
          exact run_addProfile_ok h

/-- An enrolment leaves all creators Admins exactly if it adds none of them. -/
theorem creatorsAdmin_enrolled_iff {s : Installation} {world : World} {bu person : Uuid}
    {t : Turn BackendChoice Exn} (hs : CreatorsAdmin s) (h : Enrolled s.world world bu person t) :
    CreatorsAdmin ⟨world, s.creators⟩ ↔ ¬((bu, person) ∈ s.creators ∧
      Succeeds (.chat (.getWorkspaceByBuID bu)) t s.world) := by
  rcases h with ⟨hmissed, hchat⟩ | ⟨hfound, w, hw, hbu, hjoined⟩
  · refine iff_of_true (fun c hc => ?_) fun h => hmissed h.2
    dsimp only
    rw [hchat]
    exact hs c hc
  · constructor
    · rintro hadmins ⟨hcreator, -⟩
      have hadmin := (isAdmin_joined_iff hw hjoined).mp (hadmins (bu, person) hcreator)
      exact hadmin.2 ⟨hbu, rfl⟩
    · intro hnot c hc
      refine (isAdmin_joined_iff hw hjoined).mpr ⟨hs c hc, fun ⟨hunit, hperson⟩ => ?_⟩
      have he : (bu, person) = c := Prod.ext (hbu.symm.trans hunit) hperson
      exact hnot ⟨he ▸ hc, hfound⟩

/-- A request that creates a business unit leaves all creators Admins. -/
theorem creatorsAdmin_provision {s : Installation} {q : ProvisioningRequest}
    {env : ℕ → Turn BackendChoice Exn} {a : BackendResponse} (hs : CreatorsAdmin s)
    (hrun : (q.program.run backendMachine env s.world).1 = .ok a)
    (hkeeps : ∀ bu person, IsAdmin s.world.chat.db bu person →
      IsAdmin (q.program.run backendMachine env s.world).2.chat.db bu person) :
    CreatorsAdmin ⟨(q.program.run backendMachine env s.world).2,
      s.creators ++ [(q.unit.id, q.owner)]⟩ := by
  intro c hc
  rcases List.mem_append.mp hc with hold | hnew
  · exact hkeeps c.1 c.2 (hs c hold)
  · rw [List.mem_singleton.mp hnew]
    exact run_provision_ok hrun

/-- A successful request leaves all creators Admins exactly if it enrols none of
them into the business unit they have created. -/
theorem creatorsAdmin_step_iff {settings : Settings} {s s' : Installation} {r : Served}
    (hs : CreatorsAdmin s) (h : Installation.step settings s r = some s') :
    CreatorsAdmin s' ↔ ¬EnrolsCreator s r := by
  obtain ⟨a, hok, hs'⟩ : ∃ a, ((r.request.program settings).run backendMachine r.env s.world).1 =
      .ok a ∧ s' = ⟨((r.request.program settings).run backendMachine r.env s.world).2,
        s.creators ++ creates r.request⟩ := by
    unfold Installation.step at h
    dsimp only at h
    split at h
    · rename_i a hok
      exact ⟨a, hok, (Option.some.inj h).symm⟩
    · cases h
  rw [hs']
  clear h hs'
  obtain ⟨request, env⟩ := r
  -- a request that adds no Member and creates no business unit
  have spared : (∀ w p role, Issues settings request (.chat (.addMember w p role)) →
      role = "Admin") → creates request = [] → ¬EnrolsCreator s ⟨request, env⟩ →
      (CreatorsAdmin ⟨((request.program settings).run backendMachine env s.world).2,
        s.creators ++ creates request⟩ ↔ ¬EnrolsCreator s ⟨request, env⟩) := by
    intro hissues hnone hnot
    refine iff_of_true ?_ hnot
    rw [hnone, List.append_nil]
    exact fun c hc => run_keepsAdmin env hissues s.world (hs c hc)
  cases request with
  | onboard draws q =>
    have hissues : ∀ w p role, Issues settings (.onboard draws q) (.chat (.addMember w p role)) →
        role = "Admin" := by
      intro w p role hi
      cases hi with
      | query hquery => exact hquery.elim
      | onboardMember => rfl
    refine iff_of_true ?_ id
    exact @creatorsAdmin_provision s (.onboard draws q) env a hs hok
      fun bu person hadmin => run_keepsAdmin env hissues s.world hadmin
  | createBusinessUnit draws company owner name =>
    have hissues : ∀ w p role, Issues settings (.createBusinessUnit draws company owner name)
        (.chat (.addMember w p role)) → role = "Admin" := by
      intro w p role hi
      cases hi with
      | query hquery => exact hquery.elim
      | unitMember => rfl
    refine iff_of_true ?_ id
    exact @creatorsAdmin_provision s (.createBusinessUnit draws company owner name) env a hs hok
      fun bu person hadmin => run_keepsAdmin env hissues s.world hadmin
  | createStaff draws company q =>
    obtain ⟨response, hresponse⟩ := Program.run_map_ok hok
    have henrolled := run_createStaff_ok hresponse
    have hstate : ((BackendRequest.program settings (.createStaff draws company q)).run backendMachine
        env s.world).2 = ((StaffService.create settings draws company q).run backendMachine env
          s.world).2 := congrArg Prod.snd (Program.run_map _ _ _ _ _)
    have hnone : creates (.createStaff draws company q) = [] := rfl
    rw [← hstate] at henrolled
    rw [hnone, List.append_nil]
    exact creatorsAdmin_enrolled_iff hs henrolled
  | enrollExisting draws company q =>
    obtain ⟨response, hresponse⟩ := Program.run_map_ok hok
    have henrolled := run_enrollExisting_ok hresponse
    have hstate : ((BackendRequest.program settings (.enrollExisting draws company q)).run
        backendMachine env s.world).2 = ((StaffService.enrollExisting settings draws company q).run
          backendMachine env s.world).2 := congrArg Prod.snd (Program.run_map _ _ _ _ _)
    have hnone : creates (.enrollExisting draws company q) = [] := rfl
    rw [← hstate] at henrolled
    rw [hnone, List.append_nil]
    exact creatorsAdmin_enrolled_iff hs henrolled
  | _ =>
    refine spared (fun w p role hi => ?_) rfl id
    cases hi with
    | query hquery => exact hquery.elim

/-- In every run of successful requests from databases as they are: the creators
of business units are chat Admins of them throughout the run exactly if no step
of it enrols a creator into the business unit it has created. -/
theorem creatorsAdmin_throughout_iff (settings : Settings) {world : World} {rs : List Served}
    {s' : Installation} (hrun : run (Installation.step settings) ⟨world, []⟩ rs = some s') :
    Throughout (Installation.step settings) CreatorsAdmin ⟨world, []⟩ rs ↔
      EachStep (Installation.step settings) (fun s r => ¬EnrolsCreator s r) ⟨world, []⟩ rs := by
  have hinitial : CreatorsAdmin ⟨world, []⟩ := fun c hc => absurd hc List.not_mem_nil
  exact throughout_iff_eachStep (J := fun _ => True) (fun _ _ _ _ _ _ => trivial)
    (fun _ _ _ _ hs h => creatorsAdmin_step_iff hs h) trivial hinitial hrun

/-- An owner onboards, creates a second business unit, and a staff member joins it. -/
def secondUnit : List Served :=
  [⟨.onboard (Draws.from 100) ⟨"Spa", none, none, "Ann", none, "ann@spa.test", "secret"⟩,
      servedWith 10⟩,
    ⟨.createBusinessUnit (Draws.from 200) 100 102 "Annex", servedWith 11⟩,
    ⟨.createStaff (Draws.from 300) 100 ⟨"Eve", "Ray", 200, "eve@spa.test", "Staff"⟩, servedWith 12⟩]

/-- The equivalence on that run. -/
theorem creatorsAdmin_secondUnit :
    Throughout (Installation.step Settings.plain) CreatorsAdmin ⟨World.initial, []⟩ secondUnit ↔
      EachStep (Installation.step Settings.plain) (fun s r => ¬EnrolsCreator s r)
        ⟨World.initial, []⟩ secondUnit := by
  have hrun : (run (Installation.step Settings.plain) ⟨World.initial, []⟩ secondUnit).isSome = true := by
    decide
  obtain ⟨s', hs'⟩ := Option.isSome_iff_exists.mp hrun
  exact creatorsAdmin_throughout_iff Settings.plain hs'

/-- The owner enrols into the business unit it has created, and is a Member there. -/
theorem creatorsAdmin_not_invariant :
    ¬∀ (settings : Settings) (rs : List Served) (s' : Installation),
      run (Installation.step settings) ⟨World.initial, []⟩ rs = some s' → CreatorsAdmin s' := by
  intro h
  have hrun : ((run (Installation.step Settings.plain) ⟨World.initial, []⟩ (secondUnit ++
      [⟨.enrollExisting (Draws.from 400) 100 ⟨102, 200, "ann@spa.test", "Admin"⟩,
        servedWith 13⟩])).any fun s => decide ¬CreatorsAdmin s) = true := by
    decide
  obtain ⟨s', hs', hnot⟩ := (Option.any_eq_true _ _).mp hrun
  exact of_decide_eq_true hnot (h Settings.plain _ s' hs')

end AuraWellness.Backend.ChatAdmins
