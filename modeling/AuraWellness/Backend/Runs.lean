import AuraWellness.Backend.Services

/-!
# Runs of the installation

A step serves one request of the backend to its end, whatever the environment
answers to its calls: failures, lost replies and every order that queries
leave open. The chat tables only grow along a run.
-/

namespace AuraWellness.Backend.Runs

open AuraWellness.Lib.Calls AuraWellness.Lib.Transition
open AuraWellness.Chat.Entities AuraWellness.Chat.Schema AuraWellness.Chat.Repositories
open AuraWellness.Chat.Services AuraWellness.Chat.Growth AuraWellness.Chat.Handlers
open AuraWellness.Backend.Entities AuraWellness.Backend.Schema AuraWellness.Backend.Repositories
open AuraWellness.Backend.Services

/-- The requests that change one of the databases or that chat answers. The
identity of the caller, a person and a company, comes from the token. -/
inductive BackendRequest
  | onboard (draws : Draws) (request : OnboardRequest)
  | createBusinessUnit (draws : Draws) (companyId ownerPersonId : Uuid) (name : String)
  | createStaff (draws : Draws) (companyId : Uuid) (request : CreateStaffRequest)
  | enrollExisting (draws : Draws) (companyId : Uuid) (request : EnrollExistingStaffRequest)
  | updateRole (personId buId companyId : Uuid) (role : String)
  | changePassword (draws : Draws) (personId buId : Uuid) (currentPassword newPassword : String)
  | getWorkspace (buId companyId : Uuid)
  | updateAccess (buId personId : Uuid) (hasAccess : Bool) (companyId : Uuid)
  | getConversations (buId personId companyId : Uuid)
  | getOrCreateDM (buId personId targetPersonId companyId : Uuid)
  | getConversationMessages (buId conversationId personId companyId : Uuid) (limit : ℤ)
    (before : Option Time)
  | sendConversationMessage (buId conversationId personId : Uuid) (senderName content : String)
    (companyId : Uuid)
  | getMessages (buId personId companyId : Uuid) (limit : ℤ) (before : Option Time)
  | sendMessage (buId personId : Uuid) (senderName content : String) (companyId : Uuid)

/-- What a request answers when it succeeds. -/
inductive BackendResponse
  | done
  | onboarded (response : OnboardResponse)
  | businessUnit (bu : BusinessUnit)
  | staff (response : StaffResponse)
  | workspace (response : Option ChatWorkspaceResponse)
  | conversations (response : Option (List ChatConversationResponse))
  | conversation (response : Option ChatConversationResponse)
  | messages (response : Option (List ChatMessageDto))
  | message (response : Option ChatMessageDto)
  deriving DecidableEq, Repr

/-- The program that serves a request. -/
def BackendRequest.program (settings : Settings) :
    BackendRequest → BackendProgram BackendResponse
  | onboard draws request => .onboarded <$> OnboardingService.onboard draws request
  | createBusinessUnit draws company owner name =>
    .businessUnit <$> BusinessUnitService.create draws company owner name
  | createStaff draws company request => .staff <$> StaffService.create settings draws company request
  | enrollExisting draws company request =>
    .staff <$> StaffService.enrollExisting settings draws company request
  | updateRole person bu company role =>
    (fun _ => .done) <$> StaffService.updateRole person bu company role
  | changePassword draws person bu current new =>
    (fun _ => .done) <$> AuthService.changePassword settings draws person bu current new
  | getWorkspace bu company => .workspace <$> ChatAccessService.getWorkspace bu company
  | updateAccess bu person access company =>
    (fun _ => .done) <$> ChatAccessService.updateAccess bu person access company
  | getConversations bu person company =>
    .conversations <$> ChatAccessService.getConversations bu person company
  | getOrCreateDM bu person target company =>
    .conversation <$> ChatAccessService.getOrCreateDM bu person target company
  | getConversationMessages bu conv person company limit before =>
    .messages <$>
      ChatAccessService.getConversationMessages bu conv person company limit before
  | sendConversationMessage bu conv person name content company =>
    .message <$> ChatAccessService.sendConversationMessage bu conv person name content company
  | getMessages bu person company limit before =>
    .messages <$> ChatAccessService.getMessages bu person company limit before
  | sendMessage bu person name content company =>
    .message <$> ChatAccessService.sendMessage bu person name content company

/-- The company, business unit, person and profile of an onboarding. -/
def onboardRows (draws : Draws) (request : OnboardRequest) :
    Company × BusinessUnit × Person × BuStaffProfile :=
  let company := Company.create (draws.stamps 0) request.companyName (request.address.getD "")
    (request.contactNumber.getD "")
  let bu := BusinessUnit.create (draws.stamps 1) company.id (request.companyName ++ " HQ")
  let person := Person.create (draws.stamps 2) company.id request.ownerFirstName
    (request.ownerLastName.getD "")
  (company, bu, person, BuStaffProfile.create (draws.stamps 3) person.id bu.id request.ownerEmail
    (draws.hash request.ownerPassword) StaffRole.owner)

/-- The calls that a request can make. -/
inductive Issues (settings : Settings) : BackendRequest → BackendCall → Prop
  | query {r : BackendRequest} {op : BackendCall} (h : op.Queries) : Issues settings r op
  | onboardCommit {draws : Draws} {q : OnboardRequest} : Issues settings (.onboard draws q)
      (.commit [.company (onboardRows draws q).1, .businessUnit (onboardRows draws q).2.1,
        .person (onboardRows draws q).2.2.1, .profile (onboardRows draws q).2.2.2])
  | onboardWorkspace {draws : Draws} {q : OnboardRequest} : Issues settings (.onboard draws q)
      (.chat (.createWorkspace (onboardRows draws q).2.1.id (onboardRows draws q).1.id
        (onboardRows draws q).2.1.name))
  | onboardMember {draws : Draws} {q : OnboardRequest} {w : Uuid} :
      Issues settings (.onboard draws q)
        (.chat (.addMember w (onboardRows draws q).2.2.1.id "Admin"))
  | unitCommit {draws : Draws} {company owner : Uuid} {name : String} :
      Issues settings (.createBusinessUnit draws company owner name)
        (.commit [.businessUnit (BusinessUnit.create (draws.stamps 0) company name)])
  | unitWorkspace {draws : Draws} {company owner : Uuid} {name : String} :
      Issues settings (.createBusinessUnit draws company owner name)
        (.chat (.createWorkspace (draws.stamps 0).id company name))
  | unitMember {draws : Draws} {company owner : Uuid} {name : String} {w : Uuid} :
      Issues settings (.createBusinessUnit draws company owner name)
        (.chat (.addMember w owner "Admin"))
  | staffPerson {draws : Draws} {company : Uuid} {q : CreateStaffRequest} :
      Issues settings (.createStaff draws company q)
        (.add (.person (Person.create (draws.stamps 0) company q.firstName q.lastName)))
  | staffProfile {draws : Draws} {company bu : Uuid} {q : CreateStaffRequest} {role : StaffRole}
      (h : assignableRole q.role = some role) : Issues settings (.createStaff draws company q)
        (.add (.profile (BuStaffProfile.create (draws.stamps 1) (draws.stamps 0).id bu q.email
          (draws.hash settings.defaultPassword) role)))
  | staffMember {draws : Draws} {company w : Uuid} {q : CreateStaffRequest} :
      Issues settings (.createStaff draws company q)
        (.chat (.addMember w (draws.stamps 0).id "Member"))
  | enrollProfile {draws : Draws} {company bu person : Uuid} {q : EnrollExistingStaffRequest}
      {role : StaffRole} (h : assignableRole q.role = some role) :
      Issues settings (.enrollExisting draws company q)
        (.add (.profile (BuStaffProfile.create (draws.stamps 0) person bu q.email
          (draws.hash settings.defaultPassword) role)))
  | enrollMember {draws : Draws} {company w person : Uuid} {q : EnrollExistingStaffRequest} :
      Issues settings (.enrollExisting draws company q) (.chat (.addMember w person "Member"))
  | saveRole {person bu company id : Uuid} {text : String} {role : StaffRole}
      (h : assignableRole text = some role) :
      Issues settings (.updateRole person bu company text) (.profileSaveRole id role)
  | savePassword {draws : Draws} {person bu id : Uuid} {current new : String} :
      Issues settings (.changePassword draws person bu current new)
        (.profileSavePasswordHash id (draws.hash new))
  | access {bu person company w : Uuid} {access : Bool} :
      Issues settings (.updateAccess bu person access company)
        (.chat (.updateMemberAccess w person access))
  | conversationsGroup {bu person company w : Uuid} :
      Issues settings (.getConversations bu person company) (.chat (.getGroupConversation w))
  | dm {bu person target company w : Uuid} :
      Issues settings (.getOrCreateDM bu person target company)
        (.chat (.getOrCreateDM w person target))
  | send {bu conv person company w : Uuid} {name content : String} :
      Issues settings (.sendConversationMessage bu conv person name content company)
        (.chat (.sendMessage w conv person name content))
  | messagesGroup {bu person company w : Uuid} {limit : ℤ} {before : Option Time} :
      Issues settings (.getMessages bu person company limit before) (.chat (.getGroupConversation w))
  | sendGroup {bu person company w : Uuid} {name content : String} :
      Issues settings (.sendMessage bu person name content company)
        (.chat (.getGroupConversation w))
  | sendToGroup {bu conv person company w : Uuid} {name content : String} :
      Issues settings (.sendMessage bu person name content company)
        (.chat (.sendMessage w conv person name content))

/-- Every call keeps the rows of the chat database. -/
theorem exec_grows (op : BackendCall) (c : BackendChoice) (s : World) :
    Grows s.chat.db (op.exec c s).2.chat.db := by
  have same : ∀ t : World, t.chat = s.chat → Grows s.chat.db t.chat.db := by
    intro t ht
    rw [ht]
    exact Grows.refl _
  have stored : ∀ r : Except DbError MainDb, Grows s.chat.db (storeMain s r).2.chat.db := by
    intro r
    cases r <;> exact same _ rfl
  cases op with
  | chat rpc =>
    exact Rpc.serve_preserves (I := fun t => Grows s.chat.db t.db) rpc c.rpc
      (fun op choice t _ ht => ht.trans (exec_effect op choice t).grows) (Grows.refl _)
  | add row => exact stored _
  | commit rows => exact stored _
  | addInTransaction earlier row =>
    rw [BackendCall.exec]
    split <;> exact same _ rfl
  | _ => exact same _ rfl

/-- Every request keeps the rows of the chat database. -/
theorem run_grows {α : Type} (p : BackendProgram α) (env : ℕ → Turn BackendChoice Exn) (s : World) :
    Grows s.chat.db (p.run backendMachine env s).2.chat.db :=
  Program.run_preserves (P := fun _ => True) (I := fun t : World => Grows s.chat.db t.chat.db)
    (fun op c t _ ht => ht.trans (exec_grows op c t)) p.allOps_true env (Grows.refl _)

/-- A request and what its calls meet. -/
structure Served where
  /-- The request. -/
  request : BackendRequest
  /-- The answers to its calls in order. -/
  env : ℕ → Turn BackendChoice Exn

/-- Serve one request to its end. -/
def World.step (settings : Settings) (s : World) (r : Served) : Option World :=
  some ((r.request.program settings).run backendMachine r.env s).2

/-- Every request can be served in every state. -/
theorem run_exists (settings : Settings) (s : World) (rs : List Served) :
    ∃ s', run (World.step settings) s rs = some s' := by
  induction rs generalizing s with
  | nil => exact ⟨s, rfl⟩
  | cons r rs ih =>
    obtain ⟨s', hs'⟩ := ih ((r.request.program settings).run backendMachine r.env s).2
    exact ⟨s', run_cons.mpr ⟨_, rfl, hs'⟩⟩

/-- Requests that are served beside each other on the two databases. -/
abbrev BackendPool := Pool backendSignature World Exn BackendResponse BackendRequest

/-- What happens next to the backend. -/
abbrev BackendLabel := Label BackendChoice Exn BackendRequest

/-- One step of the backend: a request arrives, a request makes its next call, or
a request dies between two calls. -/
abbrev BackendPool.step (settings : Settings) : BackendPool → BackendLabel → Option BackendPool :=
  Pool.step backendMachine (BackendRequest.program settings)

/-- The backend that has just started on the two databases. -/
def BackendPool.initial (s : World) : BackendPool := ⟨s, []⟩

/-- All calls are served; every insert of a chat procedure generates this
identifier. -/
def servedWith (uuid : ℕ) : ℕ → Turn BackendChoice Exn := fun _ =>
  .serve ⟨fun _ => 0, ⟨fun _ => ⟨1, 0⟩, 0, fun _ => .serve (Choice.generating uuid 0)⟩⟩

/-- All calls are served; the inserts of a chat procedure generate identifiers
that count up from this one. -/
def servedFrom (first : ℕ) : ℕ → Turn BackendChoice Exn := fun _ =>
  .serve ⟨fun _ => 0, ⟨fun _ => ⟨1, 0⟩, 0, fun n => .serve (Choice.generating (first + n) 0)⟩⟩

/-- Settings whose hashes are the passwords themselves. -/
def Settings.plain : Settings := ⟨none, fun password hash => password = hash, fun _ => ""⟩

/-- Draws that start at this identifier. -/
def Draws.from (first : ℕ) : Draws := ⟨fun n => ⟨first + n, 0⟩, id⟩

/-- The environment answers the call with a success. -/
def Succeeds (op : BackendCall) (t : Turn BackendChoice Exn) (s : World) : Prop :=
  (backendMachine.answer op t s).1.isOk = true

instance (op : BackendCall) (t : Turn BackendChoice Exn) (s : World) : Decidable (Succeeds op t s) := by
  unfold Succeeds
  infer_instance

/-- A call that hands a reply on has succeeded. -/
theorem succeeds_of_ok {op : BackendCall} {t : Turn BackendChoice Exn} {s : World} {a : op.Reply}
    (h : (backendMachine.answer op t s).1 = .ok a) : Succeeds op t s := by
  unfold Succeeds
  rw [h]
  rfl

/-- A call that fails has not succeeded. -/
theorem not_succeeds {op : BackendCall} {t : Turn BackendChoice Exn} {s : World} {e : Exn}
    (h : (backendMachine.answer op t s).1 = .error e) : ¬Succeeds op t s := by
  unfold Succeeds
  rw [h]
  exact Bool.false_ne_true

/-- The lookup of a workspace is a query. -/
theorem getWorkspaceByBuId_allOps {P : BackendCall → Prop} {bu : Uuid}
    (h : P (.chat (.getWorkspaceByBuID bu))) :
    (ChatServiceClient.getWorkspaceByBuId bu).AllOps P := by
  refine Program.AllOps.attempt_bind h fun r => ?_
  cases r with
  | ok w => trivial
  | error e =>
    cases e with
    | rpc e =>
      dsimp only
      split <;> trivial
    | unauthorizedAccess message => trivial
    | invalidOperation message => trivial
    | database error => trivial

/-- What the client makes of the reply to its lookup of a workspace. -/
def lookupResult : Except Exn ChatWorkspace → BackendProgram (Option ChatWorkspace)
  | .ok workspace => pure (some workspace)
  | .error (.rpc e) => if e.code = .notFound then pure none else Program.throw (.rpc e)
  | .error e => Program.throw e

/-- The lookup of a workspace is one call. -/
theorem getWorkspaceByBuId_eq (bu : Uuid) : ChatServiceClient.getWorkspaceByBuId bu =
    tryCall (.chat (.getWorkspaceByBuID bu)) >>= lookupResult := by
  unfold ChatServiceClient.getWorkspaceByBuId
  congr 1
  funext r
  cases r with
  | ok w => rfl
  | error e => cases e <;> rfl

/-- A lookup of a workspace is one query whose reply is handed on. -/
theorem run_lookup {α : Type} (bu : Uuid) (f : Option ChatWorkspace → BackendProgram α)
    (env : ℕ → Turn BackendChoice Exn) (s : World) :
    (ChatServiceClient.getWorkspaceByBuId bu >>= f).run backendMachine env s =
      (lookupResult (backendMachine.answer (.chat (.getWorkspaceByBuID bu)) (env 0) s).1 >>= f).run
        backendMachine (fun n => env (n + 1)) s := by
  have hquery : BackendCall.Queries (.chat (.getWorkspaceByBuID bu)) := trivial
  have hrun : (ChatServiceClient.getWorkspaceByBuId bu >>= f).run backendMachine env s =
      (lookupResult (backendMachine.answer (.chat (.getWorkspaceByBuID bu)) (env 0) s).1 >>= f).run
        backendMachine (fun n => env (n + 1))
        (backendMachine.answer (.chat (.getWorkspaceByBuID bu)) (env 0) s).2 := by
    rw [getWorkspaceByBuId_eq]
    rfl
  rw [hrun, query_state hquery]

/-- A lookup that succeeds has found the stored workspace of the business unit. -/
theorem lookup_ok {bu : Uuid} {t : Turn BackendChoice Exn} {s : World} {w : ChatWorkspace}
    (h : (backendMachine.answer (.chat (.getWorkspaceByBuID bu)) t s).1 = .ok w) :
    w ∈ s.chat.db.workspaces ∧ w.buID = bu := by
  obtain ⟨c, -, hget⟩ := answer_chat_ok h
  have hreply : (chatMachine.answer (.workspaceGetByBuID bu) (c.rpc.turns 0) s.chat).1 = .ok w :=
    hget
  obtain ⟨choice, -, ha⟩ := Machine.answer_ok hreply
  rw [ha] at hreply
  exact getByBuID_ok hreply

/-- A failed lookup hands nothing on, or ends the program with an exception. -/
theorem lookupResult_error (e : Exn) :
    lookupResult (.error e) = pure none ∨ ∃ e', lookupResult (.error e) = Program.throw e' := by
  cases e with
  | rpc e =>
    unfold lookupResult
    dsimp only
    split
    · exact Or.inl rfl
    · exact Or.inr ⟨_, rfl⟩
  | unauthorizedAccess message => exact Or.inr ⟨_, rfl⟩
  | invalidOperation message => exact Or.inr ⟨_, rfl⟩
  | database error => exact Or.inr ⟨_, rfl⟩

/-- A lookup of a workspace ends in one of three ways and changes nothing: the
workspace of the business unit is handed on, nothing is handed on, or the
program ends. -/
theorem run_getWorkspaceByBuId {α : Type} (bu : Uuid) (f : Option ChatWorkspace → BackendProgram α)
    (env : ℕ → Turn BackendChoice Exn) (s : World) :
    (∃ w ∈ s.chat.db.workspaces, w.buID = bu ∧
      (ChatServiceClient.getWorkspaceByBuId bu >>= f).run backendMachine env s =
        (f (some w)).run backendMachine (fun n => env (n + 1)) s) ∨
    (ChatServiceClient.getWorkspaceByBuId bu >>= f).run backendMachine env s =
      (f none).run backendMachine (fun n => env (n + 1)) s ∨
    ∃ e, (ChatServiceClient.getWorkspaceByBuId bu >>= f).run backendMachine env s = (.error e, s) := by
  have hrun := run_lookup bu f env s
  cases hr : (backendMachine.answer (.chat (.getWorkspaceByBuID bu)) (env 0) s).1 with
  | ok w =>
    rw [hr] at hrun
    obtain ⟨hw, hbu⟩ := lookup_ok hr
    exact Or.inl ⟨w, hw, hbu, hrun⟩
  | error e =>
    rw [hr] at hrun
    obtain he | ⟨e', he⟩ := lookupResult_error e
    · rw [he] at hrun
      exact Or.inr (Or.inl hrun)
    · rw [he] at hrun
      exact Or.inr (Or.inr ⟨e', hrun⟩)

/-- A program that goes on with the workspace of a business unit, if there is one. -/
theorem withWorkspace_allOps {P : BackendCall → Prop} {α : Type} {bu : Uuid}
    {f : Option ChatWorkspace → BackendProgram α} (h : P (.chat (.getWorkspaceByBuID bu)))
    (hnone : (f none).AllOps P) (hsome : ∀ w, (f (some w)).AllOps P) :
    (ChatServiceClient.getWorkspaceByBuId bu >>= f).AllOps P := by
  refine Program.AllOps.bind (getWorkspaceByBuId_allOps h) fun w => ?_
  cases w with
  | none => exact hnone
  | some w => exact hsome w

/-- The messages of a conversation are only read. -/
theorem getConversationMessages_allOps {P : BackendCall → Prop}
    (h : ∀ op : BackendCall, op.Queries → P op) (bu conv person company : Uuid) (limit : ℤ)
    (before : Option Time) :
    (ChatAccessService.getConversationMessages bu conv person company limit before).AllOps P := by
  refine withWorkspace_allOps (h _ trivial) trivial fun w => ?_
  refine Program.AllOps.perform_bind (h _ trivial) fun members => ?_
  split
  · exact Program.AllOps.perform_bind (h _ trivial) fun _ => trivial
  · trivial

/-- A message is sent in the workspace that the lookup returned. -/
theorem sendConversationMessage_allOps {P : BackendCall → Prop}
    (h : ∀ op : BackendCall, op.Queries → P op) {bu conv person company : Uuid}
    {name content : String} (hsend : ∀ w, P (.chat (.sendMessage w conv person name content))) :
    (ChatAccessService.sendConversationMessage bu conv person name content company).AllOps P := by
  refine withWorkspace_allOps (h _ trivial) trivial fun w => ?_
  refine Program.AllOps.perform_bind (h _ trivial) fun members => ?_
  split
  · exact Program.AllOps.perform_bind (hsend w.id) fun _ => trivial
  · trivial

/-- Adding a profile and its chat member. -/
theorem addProfile_allOps {P : BackendCall → Prop} (h : ∀ op : BackendCall, op.Queries → P op)
    {person : Person} {bu : BusinessUnit} {profile : BuStaffProfile}
    (hadd : P (.add (.profile profile)))
    (hmember : ∀ w, P (.chat (.addMember w person.id "Member"))) :
    (StaffService.addProfile person bu profile).AllOps P := by
  refine Program.AllOps.perform_bind hadd fun _ => ?_
  refine withWorkspace_allOps (h _ trivial) trivial fun w => ?_
  exact Program.AllOps.bind
    (Program.AllOps.perform_bind (hmember w.id) fun _ => trivial) fun _ => trivial

/-- The participants of the listed conversations are only read. -/
theorem toConversationResponses_allOps {P : BackendCall → Prop}
    (h : ∀ op : BackendCall, op.Queries → P op) (persons : List Person)
    (convs : List ChatConversation) :
    (ChatAccessService.toConversationResponses persons convs).AllOps P := by
  induction convs with
  | nil => trivial
  | cons conv convs ih =>
    exact Program.AllOps.perform_bind (h _ trivial) fun _ =>
      Program.AllOps.bind ih fun _ => trivial

/-- A request makes only the calls of its kind. -/
theorem program_issues (settings : Settings) (r : BackendRequest) :
    (r.program settings).AllOps (Issues settings r) := by
  have query : ∀ op : BackendCall, op.Queries → Issues settings r op := fun op h => .query h
  cases r with
  | onboard draws q =>
    refine Program.AllOps.map _ ?_
    refine Program.AllOps.perform_bind (query _ trivial) fun _ => ?_
    refine Program.AllOps.perform_bind (query _ trivial) fun _ => ?_
    refine Program.AllOps.perform_bind (query _ trivial) fun _ => ?_
    refine Program.AllOps.perform_bind (query _ trivial) fun _ => ?_
    refine Program.AllOps.bind
      (Program.AllOps.perform_bind Issues.onboardWorkspace fun _ => trivial) fun w => ?_
    refine Program.AllOps.bind
      (Program.AllOps.perform_bind Issues.onboardMember fun _ => trivial) fun _ => ?_
    exact Program.AllOps.perform_bind Issues.onboardCommit fun _ => trivial
  | createBusinessUnit draws company owner name =>
    refine Program.AllOps.map _ ?_
    refine Program.AllOps.perform_bind (query _ trivial) fun _ => ?_
    refine Program.AllOps.bind
      (Program.AllOps.perform_bind Issues.unitWorkspace fun _ => trivial) fun w => ?_
    refine Program.AllOps.bind
      (Program.AllOps.perform_bind Issues.unitMember fun _ => trivial) fun _ => ?_
    exact Program.AllOps.perform_bind Issues.unitCommit fun _ => trivial
  | createStaff draws company q =>
    refine Program.AllOps.map _ (Program.AllOps.perform_bind (query _ trivial) fun bu => ?_)
    cases bu with
    | none => trivial
    | some bu =>
      dsimp only
      cases hrole : assignableRole q.role with
      | none => trivial
      | some role =>
        refine Program.AllOps.perform_bind Issues.staffPerson fun _ => ?_
        exact addProfile_allOps query (Issues.staffProfile hrole) fun _ => Issues.staffMember
  | enrollExisting draws company q =>
    refine Program.AllOps.map _ (Program.AllOps.perform_bind (query _ trivial) fun bu => ?_)
    cases bu with
    | none => trivial
    | some bu =>
      refine Program.AllOps.perform_bind (query _ trivial) fun person => ?_
      cases person with
      | none => trivial
      | some person =>
        refine Program.AllOps.perform_bind (query _ trivial) fun existing => ?_
        cases existing with
        | some p => trivial
        | none =>
          dsimp only
          cases hrole : assignableRole q.role with
          | none => trivial
          | some role =>
            exact addProfile_allOps query (Issues.enrollProfile hrole) fun _ => Issues.enrollMember
  | updateRole person bu company text =>
    refine Program.AllOps.map _ (Program.AllOps.perform_bind (query _ trivial) fun row => ?_)
    cases row with
    | none => trivial
    | some row =>
      obtain ⟨profile, owner⟩ := row
      dsimp only
      split
      · trivial
      cases hrole : assignableRole text with
      | none => trivial
      | some role =>
        dsimp only
        split
        · trivial
        · exact Program.allOps_perform (Issues.saveRole hrole)
  | changePassword draws person bu current new =>
    refine Program.AllOps.map _ (Program.AllOps.perform_bind (query _ trivial) fun row => ?_)
    cases row with
    | none => trivial
    | some row =>
      obtain ⟨profile, owner⟩ := row
      dsimp only
      split
      · trivial
      split
      · trivial
      · exact Program.allOps_perform Issues.savePassword
  | getWorkspace bu company =>
    refine Program.AllOps.map _ (Program.AllOps.perform_bind (query _ trivial) fun row => ?_)
    cases row with
    | none => trivial
    | some row =>
      refine withWorkspace_allOps (query _ trivial) trivial fun w => ?_
      refine Program.AllOps.perform_bind (query _ trivial) fun members => ?_
      exact Program.AllOps.perform_bind (query _ trivial) fun _ => trivial
  | updateAccess bu person access company =>
    refine Program.AllOps.map _ (Program.AllOps.perform_bind (query _ trivial) fun row => ?_)
    cases row with
    | none => trivial
    | some row =>
      refine Program.AllOps.perform_bind (query _ trivial) fun person => ?_
      cases person with
      | none => trivial
      | some person =>
        refine withWorkspace_allOps (query _ trivial) trivial fun w => ?_
        exact Program.AllOps.perform_bind Issues.access fun _ => trivial
  | getConversations bu person company =>
    refine Program.AllOps.map _ (withWorkspace_allOps (query _ trivial) trivial fun w => ?_)
    refine Program.AllOps.perform_bind Issues.conversationsGroup fun _ => ?_
    refine Program.AllOps.perform_bind (query _ trivial) fun convs => ?_
    refine Program.AllOps.perform_bind (query _ trivial) fun persons => ?_
    exact Program.AllOps.bind (toConversationResponses_allOps query persons convs) fun _ => trivial
  | getOrCreateDM bu person target company =>
    refine Program.AllOps.map _ (withWorkspace_allOps (query _ trivial) trivial fun w => ?_)
    refine Program.AllOps.perform_bind Issues.dm fun conv => ?_
    refine Program.AllOps.perform_bind (query _ trivial) fun participants => ?_
    exact Program.AllOps.perform_bind (query _ trivial) fun _ => trivial
  | getConversationMessages bu conv person company limit before =>
    exact Program.AllOps.map _ (getConversationMessages_allOps query _ _ _ _ _ _)
  | sendConversationMessage bu conv person name content company =>
    exact Program.AllOps.map _ (sendConversationMessage_allOps query fun w => Issues.send)
  | getMessages bu person company limit before =>
    refine Program.AllOps.map _ (withWorkspace_allOps (query _ trivial) trivial fun w => ?_)
    refine Program.AllOps.perform_bind Issues.messagesGroup fun conv => ?_
    exact getConversationMessages_allOps query _ _ _ _ _ _
  | sendMessage bu person name content company =>
    refine Program.AllOps.map _ (withWorkspace_allOps (query _ trivial) trivial fun w => ?_)
    refine Program.AllOps.perform_bind Issues.sendGroup fun conv => ?_
    exact sendConversationMessage_allOps query fun w => Issues.sendToGroup

end AuraWellness.Backend.Runs
