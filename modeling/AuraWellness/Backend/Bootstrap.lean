import AuraWellness.Backend.ChatAdmins
import AuraWellness.Backend.Resetting

/-!
# The chat workspace of the seed

At every start-up the backend looks the workspace of the seeded business unit up, and
creates it and adds the seeded person when there is none. A start-up that fails between
these two calls leaves a workspace without a member, and every later one takes it for
complete.
-/

namespace AuraWellness.Backend.Bootstrap

open AuraWellness.Lib.Calls AuraWellness.Lib.Transition AuraWellness.Lib.Keyed
open AuraWellness.Chat.Entities AuraWellness.Chat.Schema AuraWellness.Chat.Repositories
open AuraWellness.Chat.Handlers AuraWellness.Chat.Procedures
open AuraWellness.Backend.Schema AuraWellness.Backend.Repositories AuraWellness.Backend.Services
open AuraWellness.Backend.Runs AuraWellness.Backend.Provisioning AuraWellness.Backend.ChatAdmins
open AuraWellness.Backend.Resetting

/-- What `Program.cs` does when no workspace is found. -/
def createDemo : BackendProgram Unit := do
  let workspaceId ← ChatServiceClient.createWorkspace InitialDataSeed.buId
    InitialDataSeed.companyId "Aura Wellness Demo HQ"
  ChatServiceClient.addWorkspaceMember workspaceId InitialDataSeed.personId "Admin"

/-- The start-up block of `Program.cs`. -/
def startUp : BackendProgram Unit := do
  let workspace ← ChatServiceClient.getWorkspaceByBuId InitialDataSeed.buId
  if workspace.isNone then createDemo

/-- The workspaces of the seeded business unit. -/
def seedWorkspaces (d : ChatDb) : List ChatWorkspace :=
  d.workspaces.filter fun w => w.buID = InitialDataSeed.buId

/-- Their members. -/
def seedMembers (d : ChatDb) : List ChatWorkspaceMember :=
  d.members.filter fun m => ∃ w ∈ d.workspaces, w.buID = InitialDataSeed.buId ∧ w.id = m.workspaceID

/-- The backend between two start-ups. -/
structure Deployment where
  /-- The two databases. -/
  world : World
  /-- The last start-up has run the block to completion. -/
  completed : Bool

/-- What happens next. -/
inductive DeploymentLabel
  /-- A start-up, whose calls get these turns: one that is not served ends it. -/
  | startUp (env : ℕ → Turn BackendChoice Exn)
  /-- Other operations lead to these databases. -/
  | others (world : World)

/-- One step. Other operations do not touch the workspace of the seed and its members. -/
def Deployment.step (s : Deployment) : DeploymentLabel → Option Deployment
  | .startUp env =>
    let outcome := Bootstrap.startUp.run backendMachine env s.world
    some ⟨outcome.2, outcome.1.isOk⟩
  | .others world =>
    if seedWorkspaces world.chat.db = seedWorkspaces s.world.chat.db ∧
        seedMembers world.chat.db = seedMembers s.world.chat.db then
      some { s with world }
    else none

/-- There is exactly one workspace for the seeded business unit, and the seeded person is
an Admin in it. -/
def SeedWorkspace (d : ChatDb) : Prop :=
  (seedWorkspaces d).length = 1 ∧ IsAdmin d InitialDataSeed.buId InitialDataSeed.personId

instance (d : ChatDb) : Decidable (SeedWorkspace d) := by
  unfold SeedWorkspace
  infer_instance

/-- After a start-up that has run to completion the workspace of the seed is there. -/
def Bootstrapped (s : Deployment) : Prop := s.completed = true → SeedWorkspace s.world.chat.db

instance (s : Deployment) : Decidable (Bootstrapped s) := by
  unfold Bootstrapped
  infer_instance

/-- The workspace is there without the member. -/
def HalfDone (d : ChatDb) : Prop :=
  seedWorkspaces d ≠ [] ∧ ¬IsAdmin d InitialDataSeed.buId InitialDataSeed.personId

/-- A start-up finds the workspace that is there without the member. -/
def FindsHalfDone (s : Deployment) : DeploymentLabel → Prop
  | .startUp env => HalfDone s.world.chat.db ∧
      Succeeds (.chat (.getWorkspaceByBuID InitialDataSeed.buId)) (env 0) s.world
  | .others _ => False

/-- The reply to the call of a start-up that creates the workspace, and the state after it. -/
def created (env : ℕ → Turn BackendChoice Exn) (s : World) : Except Exn ChatWorkspace × World :=
  backendMachine.answer (.chat (.createWorkspace InitialDataSeed.buId InitialDataSeed.companyId
    "Aura Wellness Demo HQ")) (env 1) s

/-- The call of a start-up that adds the member reaches the database and is accepted. -/
def addsMember (env : ℕ → Turn BackendChoice Exn) (s : World) (w : ChatWorkspace) : Bool :=
  match (env 2).choice? with
  | some c => storesMember (.addMember w.id InitialDataSeed.personId "Admin") c.rpc s.chat
  | none => false

/-- A start-up finds no workspace, creates it, and ends before it has added the member. -/
def StopsBetween (s : Deployment) : DeploymentLabel → Prop
  | .startUp env => seedWorkspaces s.world.chat.db = [] ∧
      lookupResult (backendMachine.answer (.chat (.getWorkspaceByBuID InitialDataSeed.buId)) (env 0)
        s.world).1 = pure none ∧
      seedWorkspaces (created env s.world).2.chat.db ≠ [] ∧
      ∀ w, (created env s.world).1 = .ok w → addsMember env (created env s.world).2 w = false
  | .others _ => False

/-- There is a workspace for the seeded business unit. -/
theorem seedWorkspaces_ne_nil {d : ChatDb} :
    seedWorkspaces d ≠ [] ↔ ∃ w ∈ d.workspaces, w.buID = InitialDataSeed.buId := by
  unfold seedWorkspaces
  rw [ne_eq, List.filter_eq_nil_iff]
  simp

/-- An Admin of the seeded business unit is found among its workspaces and their members. -/
theorem isAdmin_iff {d : ChatDb} {person : Uuid} : IsAdmin d InitialDataSeed.buId person ↔
    ∃ w ∈ seedWorkspaces d, ∃ m ∈ seedMembers d, memberKey m = (w.id, person) ∧
      m.role = "Admin" := by
  unfold IsAdmin seedWorkspaces seedMembers
  constructor
  · rintro ⟨w, hw, hbu, m, hm, hkey, hrole⟩
    have hid : w.id = m.workspaceID := (Prod.mk.inj hkey).1.symm
    exact ⟨w, by simpa using ⟨hw, hbu⟩, m, by simpa using ⟨hm, w, hw, hbu, hid⟩, hkey, hrole⟩
  · rintro ⟨w, hw, m, hm, hkey, hrole⟩
    obtain ⟨hw, hbu⟩ := List.mem_filter.mp hw
    exact ⟨w, hw, of_decide_eq_true hbu, m, (List.mem_filter.mp hm).1, hkey, hrole⟩

/-- An Admin belongs to a workspace. -/
theorem seedWorkspaces_of_isAdmin {d : ChatDb} {person : Uuid}
    (h : IsAdmin d InitialDataSeed.buId person) : seedWorkspaces d ≠ [] := by
  obtain ⟨w, hw, hbu, -⟩ := h
  exact seedWorkspaces_ne_nil.mpr ⟨w, hw, hbu⟩

/-- Business units have one workspace at most, so only the member can be missing. -/
theorem seedWorkspace_iff {d : ChatDb} :
    SeedWorkspace d ↔ IsAdmin d InitialDataSeed.buId InitialDataSeed.personId := by
  refine ⟨And.right, fun h => ⟨?_, h⟩⟩
  have hle : (seedWorkspaces d).length ≤ 1 :=
    d.valid.workspaces_bu.length_filter_le_one InitialDataSeed.buId
  have hpos := List.length_pos_of_ne_nil (seedWorkspaces_of_isAdmin h)
  omega

/-- Creating the demo workspace is two calls. -/
theorem createDemo_eq : createDemo =
    call (.chat (.createWorkspace InitialDataSeed.buId InitialDataSeed.companyId
      "Aura Wellness Demo HQ")) >>= fun w =>
        ChatServiceClient.addWorkspaceMember w.id InitialDataSeed.personId "Admin" := by
  unfold createDemo ChatServiceClient.createWorkspace
  rw [Program.bind_assoc]
  rfl

/-- A start-up finds the workspace and is done, or finds none and creates it, or fails. -/
theorem run_startUp (env : ℕ → Turn BackendChoice Exn) (s : World) :
    let reply := (backendMachine.answer (.chat (.getWorkspaceByBuID InitialDataSeed.buId)) (env 0)
      s).1
    ((∃ w, reply = .ok w) ∧ seedWorkspaces s.chat.db ≠ [] ∧
        startUp.run backendMachine env s = (.ok (), s)) ∨
      (∃ e, reply = .error e) ∧
        (lookupResult reply = pure none ∧ startUp.run backendMachine env s =
            createDemo.run backendMachine (fun n => env (n + 1)) s ∨
          ∃ e, startUp.run backendMachine env s = (.error e, s)) := by
  dsimp only
  unfold startUp
  rw [run_lookup]
  cases hreply : (backendMachine.answer (.chat (.getWorkspaceByBuID InitialDataSeed.buId)) (env 0)
    s).1 with
  | ok w => exact .inl ⟨⟨w, rfl⟩, seedWorkspaces_ne_nil.mpr ⟨w, lookup_ok hreply⟩, rfl⟩
  | error e =>
    refine .inr ⟨⟨e, rfl⟩, ?_⟩
    obtain hnone | ⟨e', hthrow⟩ := lookupResult_error e
    · rw [hnone]
      exact .inl ⟨rfl, rfl⟩
    · rw [hthrow]
      exact .inr ⟨e', rfl⟩

/-- A start-up that creates the workspace and succeeds has made the seeded person its Admin. -/
theorem run_createDemo_ok {env : ℕ → Turn BackendChoice Exn} {s : World}
    (h : (createDemo.run backendMachine env s).1.isOk = true) :
    IsAdmin (createDemo.run backendMachine env s).2.chat.db InitialDataSeed.buId
      InitialDataSeed.personId := by
  cases hok : (createDemo.run backendMachine env s).1 with
  | error e =>
    rw [hok] at h
    cases h
  | ok a =>
    rw [createDemo_eq] at hok ⊢
    obtain ⟨w, hcreate, hrun⟩ := Program.run_perform_bind_ok hok
    obtain ⟨hw, hbu, -, -⟩ := answer_createWorkspace_ok hcreate
    rw [hrun] at hok ⊢
    unfold ChatServiceClient.addWorkspaceMember at hok ⊢
    obtain ⟨m, hadd, hrun⟩ := Program.run_perform_bind_ok hok
    have hadmin := isAdmin_of_added hw hadd
    rw [hbu] at hadmin
    rw [hrun]
    exact hadmin

/-- A step keeps the promise exactly if it is no start-up that finds the workspace without
the member. -/
theorem bootstrapped_step {s s' : Deployment} {l : DeploymentLabel} (hs : Bootstrapped s)
    (h : s.step l = some s') : Bootstrapped s' ↔ ¬FindsHalfDone s l := by
  cases l with
  | others world =>
    obtain ⟨⟨hworkspaces, hmembers⟩, ⟨⟩⟩ := Option.ite_none_right_eq_some.mp h
    refine iff_of_true (fun hcompleted => ?_) id
    have hbefore := hs hcompleted
    rw [seedWorkspace_iff, isAdmin_iff] at hbefore ⊢
    rw [hworkspaces, hmembers]
    exact hbefore
  | startUp env =>
    cases h
    unfold Bootstrapped FindsHalfDone
    obtain ⟨⟨w, hw⟩, hthere, hrun⟩ | ⟨⟨e, he⟩, hrun⟩ := run_startUp env s.world
    · have hsucceeds := succeeds_of_ok hw
      simp only [hrun, hsucceeds, HalfDone, seedWorkspace_iff]
      simp [Except.isOk, Except.toBool, hthere]
    · refine iff_of_true (fun hcompleted => ?_) fun hfinds => not_succeeds he hfinds.2
      rw [seedWorkspace_iff]
      obtain ⟨-, hrun⟩ | ⟨e', hrun⟩ := hrun
      · simp only [hrun] at hcompleted ⊢
        exact run_createDemo_ok hcompleted
      · simp only [hrun] at hcompleted
        cases hcompleted

/-- A start-up leaves the Admins. -/
theorem createDemo_keepsAdmin (env : ℕ → Turn BackendChoice Exn) {s : World} {bu person : Uuid}
    (h : IsAdmin s.chat.db bu person) :
    IsAdmin (createDemo.run backendMachine env s).2.chat.db bu person := by
  refine Program.run_preserves (I := fun t : World => IsAdmin t.chat.db bu person)
    (fun _ c _ hop ht => exec_keepsAdmin hop c ht) ?_ env h
  rw [createDemo_eq]
  refine Program.AllOps.perform_bind (fun _ _ _ he => by cases he) fun w => ?_
  refine Program.AllOps.perform_bind (fun _ _ role he => ?_) fun _ => trivial
  cases he
  rfl

/-- A member write that is stored makes the person an Admin, even when the reply is lost. -/
theorem isAdmin_of_addsMember {env : ℕ → Turn BackendChoice Exn} {s : World} {w : ChatWorkspace}
    (hw : w ∈ s.chat.db.workspaces) (hadds : addsMember env s w = true) :
    IsAdmin (backendMachine.answer (.chat (.addMember w.id InitialDataSeed.personId "Admin"))
      (env 2) s).2.chat.db w.buID InitialDataSeed.personId := by
  have hkept := (answer_grows (.chat (.addMember w.id InitialDataSeed.personId "Admin")) (env 2)
    s).workspaces w hw
  unfold addsMember at hadds
  cases hchoice : (env 2).choice? with
  | none =>
    rw [hchoice] at hadds
    cases hadds
  | some c =>
    rw [hchoice] at hadds
    rw [backendMachine.answer_state_some _ s hchoice] at hkept ⊢
    obtain ⟨hstored, -⟩ | ⟨-, hjoined⟩ :=
      serve_addMember_stores w.id InitialDataSeed.personId "Admin" c.rpc s.chat
    · exact absurd hadds (Bool.eq_false_iff.mp hstored)
    · obtain ⟨m, hm, hkey, hrole⟩ := hjoined.exists_member
      exact ⟨w, hkept, rfl, m, hm, hkey, hrole⟩

/-- A start-up that creates the workspace ends with an Admin, without a workspace, or between
its two calls. -/
theorem run_createDemo_cases {env : ℕ → Turn BackendChoice Exn} {s : World}
    (hstops : ¬(seedWorkspaces (created env s).2.chat.db ≠ [] ∧
      ∀ w, (created env s).1 = .ok w → addsMember env (created env s).2 w = false)) :
    let s' := (createDemo.run backendMachine (fun n => env (n + 1)) s).2
    seedWorkspaces s'.chat.db = [] ∨ IsAdmin s'.chat.db InitialDataSeed.buId
      InitialDataSeed.personId := by
  dsimp only
  have hcreated : backendMachine.answer (.chat (.createWorkspace InitialDataSeed.buId
    InitialDataSeed.companyId "Aura Wellness Demo HQ")) (env (0 + 1)) s = created env s := rfl
  rw [createDemo_eq, Program.run_perform_bind, hcreated]
  cases hreply : (created env s).1 with
  | error e =>
    refine .inl (by_contra fun hne => hstops ⟨hne, fun w hw => ?_⟩)
    cases hreply.symm.trans hw
  | ok w =>
    obtain ⟨hw, hbu, -, -⟩ := answer_createWorkspace_ok hreply
    have hadds : addsMember env (created env s).2 w = true := by
      by_contra hnot
      refine hstops ⟨seedWorkspaces_ne_nil.mpr ⟨w, hw, hbu⟩, fun v hv => ?_⟩
      cases hreply.symm.trans hv
      exact Bool.eq_false_iff.mpr hnot
    have hadmin := isAdmin_of_addsMember hw hadds
    rw [hbu] at hadmin
    refine .inr ?_
    dsimp only
    unfold ChatServiceClient.addWorkspaceMember
    rw [Program.run_perform_bind]
    cases hadd : (backendMachine.answer (.chat (.addMember w.id InitialDataSeed.personId "Admin"))
      (env 2) (created env s).2).1 <;> exact hadmin

/-- A step that does not stop between the two calls leaves no workspace without the member. -/
theorem halfDone_step {s s' : Deployment} {l : DeploymentLabel} (hs : ¬HalfDone s.world.chat.db)
    (hstops : ¬StopsBetween s l) (h : s.step l = some s') : ¬HalfDone s'.world.chat.db := by
  cases l with
  | others world =>
    obtain ⟨⟨hworkspaces, hmembers⟩, ⟨⟩⟩ := Option.ite_none_right_eq_some.mp h
    unfold HalfDone at hs ⊢
    rw [isAdmin_iff] at hs ⊢
    rwa [hworkspaces, hmembers]
  | startUp env =>
    cases h
    dsimp only
    obtain ⟨-, -, hrun⟩ | ⟨-, ⟨hnone, hrun⟩ | ⟨e', hrun⟩⟩ := run_startUp env s.world
    · rwa [hrun]
    · rw [hrun]
      by_cases hadmin : IsAdmin s.world.chat.db InitialDataSeed.buId InitialDataSeed.personId
      · exact fun hhalf => hhalf.2 (createDemo_keepsAdmin _ hadmin)
      · have hempty : seedWorkspaces s.world.chat.db = [] :=
          by_contra fun hne => hs ⟨hne, hadmin⟩
        obtain hnil | hadded := run_createDemo_cases fun hends => hstops ⟨hempty, hnone, hends⟩
        · exact fun hhalf => hhalf.1 hnil
        · exact fun hhalf => hhalf.2 hadded
    · rwa [hrun]

/-- After every start-up that runs to completion the workspace of the seed and its Admin are
there, exactly if no start-up finds the workspace without the member. That is so when none
stops between the call that creates the workspace and the one that adds the member. -/
theorem bootstrap_repairs_iff {world : World} {labels : List DeploymentLabel} {s : Deployment}
    (h : run Deployment.step ⟨world, false⟩ labels = some s) :
    (Throughout Deployment.step Bootstrapped ⟨world, false⟩ labels ↔
      EachStep Deployment.step (fun s l => ¬FindsHalfDone s l) ⟨world, false⟩ labels) ∧
    (¬HalfDone world.chat.db →
      EachStep Deployment.step (fun s l => ¬StopsBetween s l) ⟨world, false⟩ labels →
      Throughout Deployment.step Bootstrapped ⟨world, false⟩ labels) := by
  have hstart : Bootstrapped ⟨world, false⟩ := fun hcompleted => by cases hcompleted
  refine ⟨throughout_iff_eachStep (J := fun _ => True) (fun _ _ _ _ _ _ => trivial)
    (fun s l s' _ hs hstep => bootstrapped_step hs hstep) trivial hstart h, fun hnot hguard => ?_⟩
  refine (throughout_guarded (I := fun s => Bootstrapped s ∧ ¬HalfDone s.world.chat.db)
    (fun s l s' hs hstops hstep => ⟨?_, halfDone_step hs.2 hstops hstep⟩) ⟨hstart, hnot⟩
    hguard).mono fun s hs => hs.1
  refine (bootstrapped_step hs.1 hstep).mpr fun hfinds => ?_
  cases l with
  | startUp env => exact hs.2 hfinds.1
  | others world => exact hfinds

/-- On a new installation a start-up that is served sets the seed up. -/
theorem bootstrap_repairs_iff_served : ∃ s : Deployment,
    run Deployment.step ⟨World.seeded, false⟩ [.startUp (servedWith 30)] = some s ∧
      s.completed = true ∧
      Throughout Deployment.step Bootstrapped ⟨World.seeded, false⟩ [.startUp (servedWith 30)] := by
  refine ⟨_, rfl, by decide, (bootstrap_repairs_iff rfl).2 (fun hhalf => ?_) ⟨fun hstops => ?_,
    fun _ _ => trivial⟩⟩
  · exact hhalf.1 (by decide)
  · obtain ⟨w, hw, hadds⟩ : ∃ w, (created (servedWith 30) World.seeded).1 = .ok w ∧
        addsMember (servedWith 30) (created (servedWith 30) World.seeded).2 w = true :=
      ⟨_, rfl, by decide⟩
    exact absurd hadds (Bool.eq_false_iff.mp (hstops.2.2.2 w hw))

/-- The chat service stops after it has created the workspace. -/
def stopsAfterCreate : ℕ → Turn BackendChoice Exn
  | 0 => servedWith 30 0
  | 1 => servedWith 30 1
  | _ => .drop (.rpc ⟨.unavailable, "connection refused"⟩)

/-- The start-up after one that has stopped between the two calls leaves the workspace without
a member. -/
theorem not_bootstrapped : ∃ s : Deployment,
    run Deployment.step ⟨World.seeded, false⟩
      [.startUp stopsAfterCreate, .startUp (servedWith 31)] = some s ∧ ¬Bootstrapped s :=
  ⟨_, rfl, by decide⟩

end AuraWellness.Backend.Bootstrap
