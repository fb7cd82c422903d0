import AuraWellness.Chat.Handlers
import AuraWellness.Backend.Schema

/-!
# The repositories of the backend and its two databases

The calls of the backend's services are single statements on the main database
and remote procedure calls to the chat service. Statements of a transaction
carry the rows that the transaction has inserted before, and only its commit
makes them visible.
-/

namespace AuraWellness.Backend.Repositories

open AuraWellness.Lib.Calls AuraWellness.Lib.Ranked
open AuraWellness.Chat.Entities AuraWellness.Chat.Schema AuraWellness.Chat.Repositories
open AuraWellness.Chat.Services AuraWellness.Chat.Handlers
open AuraWellness.Backend.Entities AuraWellness.Backend.Schema

/-- The exceptions of the services. -/
inductive Exn
  /-- `UnauthorizedAccessException`. -/
  | unauthorizedAccess (message : String)
  /-- `InvalidOperationException`. -/
  | invalidOperation (message : String)
  /-- `RpcException`. -/
  | rpc (error : RpcError)
  /-- `DbUpdateException` and errors of the connection. -/
  | database (error : DbError)
  deriving DecidableEq, Repr

/-- What the environment chooses while it serves one backend call. -/
structure BackendChoice where
  /-- The order of rows that a query leaves open. -/
  tie : Uuid → ℕ
  /-- How a remote procedure call is served. -/
  rpc : RpcEnv

/-- The person of a profile, which the foreign key provides. -/
def personOf (d : MainDb) (p : BuStaffProfile) : Option Person :=
  d.persons.find? fun q => q.id = p.personId

/-- The business unit of a profile, which the foreign key provides. -/
def businessUnitOf (d : MainDb) (p : BuStaffProfile) : Option BusinessUnit :=
  d.businessUnits.find? fun b => b.id = p.buId

/-- A profile with `Include(p => p.Person)`. -/
def withPerson (d : MainDb) (p : BuStaffProfile) : Option (BuStaffProfile × Person) :=
  (personOf d p).map fun q => (p, q)

/-- A profile with its person and its business unit. -/
def withBoth (d : MainDb) (p : BuStaffProfile) :
    Option (BuStaffProfile × Person × BusinessUnit) :=
  (personOf d p).bind fun q => (businessUnitOf d p).map fun b => (p, q, b)

/-- `BusinessUnitRepository.GetByIdAsync`. -/
def BusinessUnitRepository.getById (d : MainDb) (id companyId : Uuid) : Option BusinessUnit :=
  d.businessUnits.find? fun b => b.id = id ∧ b.companyId = companyId

/-- `BusinessUnitRepository.GetByCompanyAsync`. -/
def BusinessUnitRepository.getByCompany (d : MainDb) (tie : Uuid → ℕ) (companyId : Uuid) :
    List BusinessUnit :=
  sortOn (tieRank BusinessUnit.createdAt tie BusinessUnit.id)
    (d.businessUnits.filter fun b => b.companyId = companyId)

/-- `PersonRepository.GetByIdAsync`. -/
def PersonRepository.getById (d : MainDb) (id companyId : Uuid) : Option Person :=
  d.persons.find? fun p => p.id = id ∧ p.companyId = companyId

/-- `PersonRepository.GetByCompanyAsync`. -/
def PersonRepository.getByCompany (d : MainDb) (tie : Uuid → ℕ) (companyId : Uuid) :
    List Person :=
  sortOn (tieRank Person.createdAt tie Person.id)
    (d.persons.filter fun p => p.companyId = companyId)

/-- `BuStaffProfileRepository.GetByPersonAndBuAsync`: the first row delivered. -/
def BuStaffProfileRepository.getByPersonAndBu (d : MainDb) (tie : Uuid → ℕ)
    (personId buId : Uuid) : Option (BuStaffProfile × Person) :=
  (sortOn (tieRank (fun _ => ()) tie BuStaffProfile.id)
    (d.profiles.filter fun p => p.personId = personId ∧ p.buId = buId)).head?.bind (withPerson d)

/-- `BuStaffProfileRepository.GetByEmailMultipleAsync`. -/
def BuStaffProfileRepository.getByEmailMultiple (d : MainDb) (tie : Uuid → ℕ) (email : String) :
    List (BuStaffProfile × Person × BusinessUnit) :=
  (sortOn (tieRank (fun _ => ()) tie BuStaffProfile.id)
    (d.profiles.filter fun p => p.email = email)).filterMap (withBoth d)

/-- `BuStaffProfileRepository.GetByCompanyAsync`. -/
def BuStaffProfileRepository.getByCompany (d : MainDb) (tie : Uuid → ℕ) (companyId : Uuid) :
    List (BuStaffProfile × Person × BusinessUnit) :=
  ((sortOn (tieRank BuStaffProfile.createdAt tie BuStaffProfile.id) d.profiles).filterMap
    (withBoth d)).filter fun row => row.2.1.companyId = companyId

/-- The calls of the backend's services. -/
inductive BackendCall
  | businessUnitGetById (id companyId : Uuid)
  | businessUnitGetByCompany (companyId : Uuid)
  | personGetById (id companyId : Uuid)
  | personGetByCompany (companyId : Uuid)
  | profileGetByPersonAndBu (personId buId : Uuid)
  | profileGetByEmailMultiple (email : String)
  | profileGetByCompany (companyId : Uuid)
  | add (row : Insert)
  | addInTransaction (earlier : List Insert) (row : Insert)
  | commit (rows : List Insert)
  | profileSaveRole (id : Uuid) (role : StaffRole)
  | profileSavePasswordHash (id : Uuid) (passwordHash : String)
  | chat (rpc : Rpc)

/-- What each call returns. -/
abbrev BackendCall.Reply : BackendCall → Type
  | businessUnitGetById _ _ => Option BusinessUnit
  | businessUnitGetByCompany _ => List BusinessUnit
  | personGetById _ _ => Option Person
  | personGetByCompany _ => List Person
  | profileGetByPersonAndBu _ _ => Option (BuStaffProfile × Person)
  | profileGetByEmailMultiple _ => List (BuStaffProfile × Person × BusinessUnit)
  | profileGetByCompany _ => List (BuStaffProfile × Person × BusinessUnit)
  | add _ => Unit
  | addInTransaction _ _ => Unit
  | commit _ => Unit
  | profileSaveRole _ _ => Unit
  | profileSavePasswordHash _ _ => Unit
  | chat rpc => rpc.Reply

/-- The signature of the backend's services. -/
abbrev backendSignature : Signature := ⟨BackendCall, BackendCall.Reply⟩

/-- The two databases. -/
structure World where
  /-- The main database. -/
  main : MainDb
  /-- The chat service. -/
  chat : ChatState

/-- The installation with empty databases. -/
def World.initial : World := ⟨MainDb.empty, ChatState.initial⟩

/-- The installation right after its migrations. -/
def World.seeded : World := ⟨MainDb.seed, ChatState.initial⟩

/-- Store what a write to the main database returned. -/
def storeMain (s : World) : Except DbError MainDb → Except Exn Unit × World
  | .ok d => (.ok (), { s with main := d })
  | .error e => (.error (.database e), s)

/-- The effect and the reply of one call. -/
def BackendCall.exec : (op : BackendCall) → BackendChoice → World → Except Exn op.Reply × World
  | businessUnitGetById id company, _, s =>
    (.ok (BusinessUnitRepository.getById s.main id company), s)
  | businessUnitGetByCompany company, c, s =>
    (.ok (BusinessUnitRepository.getByCompany s.main c.tie company), s)
  | personGetById id company, _, s => (.ok (PersonRepository.getById s.main id company), s)
  | personGetByCompany company, c, s =>
    (.ok (PersonRepository.getByCompany s.main c.tie company), s)
  | profileGetByPersonAndBu person bu, c, s =>
    (.ok (BuStaffProfileRepository.getByPersonAndBu s.main c.tie person bu), s)
  | profileGetByEmailMultiple email, c, s =>
    (.ok (BuStaffProfileRepository.getByEmailMultiple s.main c.tie email), s)
  | profileGetByCompany company, c, s =>
    (.ok (BuStaffProfileRepository.getByCompany s.main c.tie company), s)
  | add row, _, s => storeMain s (s.main.insert row)
  | addInTransaction earlier row, _, s =>
    match s.main.insertAll (earlier ++ [row]) with
    | .ok _ => (.ok (), s)
    | .error e => (.error (.database e), s)
  | commit rows, _, s => storeMain s (s.main.insertAll rows)
  | profileSaveRole id role, _, s => (.ok (), { s with main := s.main.setRole id role })
  | profileSavePasswordHash id hash, _, s =>
    (.ok (), { s with main := s.main.setPasswordHash id hash })
  | chat rpc, c, s =>
    let reply := rpc.serve c.rpc s.chat
    (reply.1.mapError .rpc, { s with chat := reply.2 })

/-- The machine that answers the calls of the backend; all of them leave the
process. -/
abbrev backendMachine : Machine backendSignature World BackendChoice Exn :=
  ⟨BackendCall.exec, fun _ => true⟩

/-- Calls that change neither database: reads, and the statements of a
transaction before its commit. -/
def BackendCall.Queries : BackendCall → Prop
  | .businessUnitGetById _ _ | .businessUnitGetByCompany _ | .personGetById _ _
  | .personGetByCompany _ | .profileGetByPersonAndBu _ _ | .profileGetByEmailMultiple _
  | .profileGetByCompany _ | .addInTransaction _ _ => True
  | .chat (.getWorkspaceByBuID _) | .chat (.listMembers _) | .chat (.listConversations _ _)
  | .chat (.getConversationParticipants _) | .chat (.listMessages _ _ _) => True
  | _ => False

/-- Queries change neither database, whatever they are answered. -/
theorem BackendCall.Queries.exec_state {op : BackendCall} (h : op.Queries) (c : BackendChoice)
    (s : World) : (op.exec c s).2 = s := by
  cases op with
  | businessUnitGetById id company => rfl
  | businessUnitGetByCompany company => rfl
  | personGetById id company => rfl
  | personGetByCompany company => rfl
  | profileGetByPersonAndBu person bu => rfl
  | profileGetByEmailMultiple email => rfl
  | profileGetByCompany company => rfl
  | addInTransaction earlier row =>
    rw [BackendCall.exec]
    split <;> rfl
  | add row => exact h.elim
  | commit rows => exact h.elim
  | profileSaveRole id role => exact h.elim
  | profileSavePasswordHash id hash => exact h.elim
  | chat rpc =>
    have hs : rpc.Reads → ({ s with chat := (rpc.serve c.rpc s.chat).2 } : World) = s := fun hr => by
      rw [hr.serve_state]
    cases rpc with
    | getWorkspaceByBuID bu => exact hs trivial
    | listMembers w => exact hs trivial
    | listConversations w p => exact hs trivial
    | getConversationParticipants conv => exact hs trivial
    | listMessages conv before limit => exact hs trivial
    | createWorkspace bu company name => exact h.elim
    | getWorkspaceByID id => exact h.elim
    | addMember w p role => exact h.elim
    | updateMemberAccess w p access => exact h.elim
    | getOrCreateDM w a b => exact h.elim
    | getGroupConversation w => exact h.elim
    | sendMessage conv w p name content => exact h.elim

/-- A query leaves the two databases. -/
theorem query_state {op : BackendCall} (h : op.Queries) (t : Turn BackendChoice Exn) (s : World) :
    (backendMachine.answer op t s).2 = s := by
  obtain hs | ⟨c, hs⟩ := backendMachine.answer_state op t s
  · exact hs
  · rw [hs]
    exact h.exec_state c s

/-- A chat procedure that succeeds was served and its program returned. -/
theorem answer_chat_ok {rpc : Rpc} {t : Turn BackendChoice Exn} {s : World} {a : rpc.Reply}
    (h : (backendMachine.answer (.chat rpc) t s).1 = .ok a) :
    ∃ c : BackendChoice, t = .serve c ∧
      ((rpc.program c.rpc.stamps c.rpc.now).run chatMachine c.rpc.turns s.chat).1 = .ok a := by
  obtain ⟨c, ht, ha⟩ := Machine.answer_ok h
  rw [ha] at h
  exact ⟨c, ht, mapError_eq_ok.mp (mapError_eq_ok.mp h)⟩

/-- A page of messages that arrives is what the repository lists. -/
theorem listMessages_ok {conv : Uuid} {before : Option Time} {limit : ℤ}
    {t : Turn BackendChoice Exn} {s : World} {page : List ChatMessage}
    (h : (backendMachine.answer (.chat (.listMessages conv before limit)) t s).1 = .ok page) :
    ∃ (c : BackendChoice) (choice : Choice), t = .serve c ∧ c.rpc.turns 0 = .serve choice ∧
      MessageRepo.list s.chat.db choice conv (defaultBefore c.rpc.now before) (clampLimit limit) =
        .ok page := by
  obtain ⟨c, ht, hrun⟩ := answer_chat_ok h
  have hreply : (chatMachine.answer (.messageList conv (defaultBefore c.rpc.now before)
      (clampLimit limit)) (c.rpc.turns 0) s.chat).1 = .ok page := hrun
  obtain ⟨choice, hturn, ha⟩ := Machine.answer_ok hreply
  rw [ha] at hreply
  exact ⟨c, choice, ht, hturn, hreply⟩

/-- So is a list of conversations. -/
theorem listConversations_ok {w p : Uuid} {t : Turn BackendChoice Exn} {s : World}
    {convs : List ChatConversation}
    (h : (backendMachine.answer (.chat (.listConversations w p)) t s).1 = .ok convs) :
    ∃ choice, convs = ConversationRepo.listByWorkspaceAndPerson s.chat.db choice w p := by
  obtain ⟨c, -, hrun⟩ := answer_chat_ok h
  have hreply : (chatMachine.answer (.conversationListByWorkspaceAndPerson w p) (c.rpc.turns 0)
      s.chat).1 = .ok convs := hrun
  obtain ⟨choice, -, ha⟩ := Machine.answer_ok hreply
  rw [ha] at hreply
  cases hreply
  exact ⟨choice, rfl⟩

/-- A write to the main database that succeeds was accepted and is stored. -/
theorem storeMain_ok {s : World} {r : Except DbError MainDb} {a : Unit}
    (h : (storeMain s r).1 = .ok a) :
    ∃ d, r = .ok d ∧ (storeMain s r).2 = { s with main := d } := by
  cases r with
  | ok d => exact ⟨d, rfl, rfl⟩
  | error e => cases h

/-- An insert that succeeds is stored. -/
theorem answer_add_ok {row : Insert} {t : Turn BackendChoice Exn} {s : World} {a : Unit}
    (h : (backendMachine.answer (.add row) t s).1 = .ok a) :
    ∃ d, s.main.insert row = .ok d ∧
      (backendMachine.answer (.add row) t s).2 = { s with main := d } := by
  obtain ⟨c, -, ha⟩ := Machine.answer_ok h
  rw [ha] at h ⊢
  exact storeMain_ok h

/-- A commit that succeeds has stored the rows of its transaction. -/
theorem answer_commit_ok {rows : List Insert} {t : Turn BackendChoice Exn} {s : World} {a : Unit}
    (h : (backendMachine.answer (.commit rows) t s).1 = .ok a) :
    ∃ d, s.main.insertAll rows = .ok d ∧
      (backendMachine.answer (.commit rows) t s).2 = { s with main := d } := by
  obtain ⟨c, -, ha⟩ := Machine.answer_ok h
  rw [ha] at h ⊢
  exact storeMain_ok h

/-- A chat procedure leaves the main database, and the chat service as its
program does, if it is served. -/
theorem answer_chat_state (rpc : Rpc) (t : Turn BackendChoice Exn) (s : World) :
    (backendMachine.answer (.chat rpc) t s).2 = s ∨
      ∃ env, (backendMachine.answer (.chat rpc) t s).2 =
        { s with chat := (rpc.serve env s.chat).2 } := by
  obtain h | ⟨c, h⟩ := backendMachine.answer_state (.chat rpc) t s
  · exact Or.inl h
  · exact Or.inr ⟨c.rpc, h⟩

/-- A chat procedure leaves the main database. -/
theorem answer_chat_main (rpc : Rpc) (t : Turn BackendChoice Exn) (s : World) :
    (backendMachine.answer (.chat rpc) t s).2.main = s.main := by
  obtain h | ⟨env, h⟩ := answer_chat_state rpc t s
  · rw [h]
  · rw [h]

/-- A chat procedure that succeeds was served, and its success is the service's. -/
theorem answer_chat_served {rpc : Rpc} {t : Turn BackendChoice Exn} {s : World} {a : rpc.Reply}
    (h : (backendMachine.answer (.chat rpc) t s).1 = .ok a) :
    ∃ env, (rpc.serve env s.chat).1 = .ok a ∧
      (backendMachine.answer (.chat rpc) t s).2 = { s with chat := (rpc.serve env s.chat).2 } := by
  obtain ⟨c, -, ha⟩ := Machine.answer_ok h
  rw [ha] at h ⊢
  exact ⟨c.rpc, mapError_eq_ok.mp h, rfl⟩

/-- The reply of a chat procedure depends on the chat service only. -/
theorem answer_chat_congr (rpc : Rpc) (t : Turn BackendChoice Exn) {s s' : World}
    (h : s.chat = s'.chat) :
    (backendMachine.answer (.chat rpc) t s).1 = (backendMachine.answer (.chat rpc) t s').1 := by
  refine Machine.answer_congr (fun c => ?_) t
  refine (?_ : (rpc.serve c.rpc s.chat).1.mapError Exn.rpc = (rpc.serve c.rpc s'.chat).1.mapError _)
  rw [h]

/-- Calls to the main database leave the chat service. -/
theorem answer_main_chat {op : BackendCall} (h : ∀ rpc, op ≠ .chat rpc) (t : Turn BackendChoice Exn)
    (s : World) : (backendMachine.answer op t s).2.chat = s.chat := by
  have stored : ∀ r : Except DbError MainDb, (storeMain s r).2.chat = s.chat := by
    intro r
    cases r <;> rfl
  by_cases hquery : op.Queries
  · rw [query_state hquery]
  obtain he | ⟨c, he⟩ := backendMachine.answer_state op t s
  · rw [he]
  · rw [he]
    cases op with
    | add row => exact stored _
    | commit rows => exact stored _
    | profileSaveRole id role => rfl
    | profileSavePasswordHash id hash => rfl
    | chat rpc => exact absurd rfl (h rpc)
    | _ => exact absurd trivial hquery

/-- A program of the backend's services. -/
abbrev BackendProgram (α : Type) := Program backendSignature Exn α

/-- Make a call whose exception ends the program. -/
abbrev call (op : BackendCall) : BackendProgram op.Reply :=
  Program.perform (S := backendSignature) op

/-- Make a call and go on with its reply or its exception. -/
abbrev tryCall (op : BackendCall) : BackendProgram (Except Exn op.Reply) :=
  Program.attempt (S := backendSignature) op

end AuraWellness.Backend.Repositories
