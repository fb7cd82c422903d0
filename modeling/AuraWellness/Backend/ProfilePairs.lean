import AuraWellness.Lib.Reservation
import AuraWellness.Backend.StaffCreation
import AuraWellness.Backend.ChatPermissions
import AuraWellness.Backend.Login
import AuraWellness.Backend.Noninterference

/-!
# One profile for a person in a business unit

`EnrollExistingAsync` looks for a profile of the person in the business unit and
inserts one when there is none; no index keeps the pair unique. From its lookup
to its insert the request holds the pair. The pairs stay unique exactly as long
as no lookup misses while another request is about to insert the pair.
-/

namespace AuraWellness.Backend.ProfilePairs

open AuraWellness.Lib.Calls AuraWellness.Lib.Transition AuraWellness.Lib.Keyed
open AuraWellness.Lib.Ranked AuraWellness.Lib.Reservation
open AuraWellness.Chat.Entities
open AuraWellness.Backend.Entities AuraWellness.Backend.Schema AuraWellness.Backend.Repositories
open AuraWellness.Backend.Services AuraWellness.Backend.Runs AuraWellness.Backend.StaffCreation
open AuraWellness.Backend.Login (profileRow insert_profiles insertAll_profiles answer_store
  storeMain_isOk)
open AuraWellness.Backend.ChatPermissions (answer_rowsStay)
open AuraWellness.Backend.Tenants (personGetById_ok)
open AuraWellness.Backend.Noninterference (HasProfile getByPersonAndBu_none getByPersonAndBu_some)

/-- The person and the business unit of a profile. -/
abbrev pair (p : BuStaffProfile) : Uuid × Uuid := (p.personId, p.buId)

/-- No two rows of `bu_staff_profiles` have the same person and business unit. -/
def OneProfile (d : MainDb) : Prop := UniqueColumn pair d.profiles

instance (d : MainDb) : Decidable (OneProfile d) := by
  unfold OneProfile
  infer_instance

/-- The pair of the profile that a call inserts alone. -/
def insertedPair : BackendCall → Option (Uuid × Uuid)
  | .add (.profile p) => some (pair p)
  | _ => none

/-- The pair of the profile that the program is about to insert. -/
def inserts {α : Type} : BackendProgram α → Option (Uuid × Uuid)
  | .call op _ => insertedPair op
  | .ret _ => none

/-- The role that an enrolment gives the profile it inserts. -/
def enrolledRole : BackendRequest → Option StaffRole
  | .enrollExisting _ _ request => assignableRole request.role
  | _ => none

/-- The request inserts a profile when it finds none. -/
def Enrols (r : BackendRequest) : Prop := (enrolledRole r).isSome = true

instance (r : BackendRequest) : Decidable (Enrols r) :=
  inferInstanceAs (Decidable (_ = true))

/-- The pair that a call looks up for an enrolment. -/
def enrolledPair (r : BackendRequest) : BackendCall → Option (Uuid × Uuid)
  | .profileGetByPersonAndBu person bu => if Enrols r then some (person, bu) else none
  | _ => none

/-- The pair that the program of an enrolment is about to look up. -/
def looksUp {α : Type} (r : BackendRequest) : BackendProgram α → Option (Uuid × Uuid)
  | .call op _ => enrolledPair r op
  | .ret _ => none

/-- When the step is the lookup of an enrolment that finds no profile, no request
is about to insert one for the same person and business unit. -/
def MissAlone (p : BackendPool) : BackendLabel → Prop
  | .turn i (.serve _) => ∀ th ∈ p.threads[i]?, ∀ k ∈ looksUp th.req th.prog,
      ¬HasProfile p.state.main.toMainTables k.1 k.2 → ∀ th' ∈ p.threads, inserts th'.prog ≠ some k
  | _ => True

instance (p : BackendPool) (l : BackendLabel) : Decidable (MissAlone p l) := by
  unfold MissAlone
  split <;> infer_instance

/-- The insert of a profile, when a request comes to it, is made and stored. -/
def InsertsStored (p : BackendPool) : BackendLabel → Prop
  | .start _ => True
  | .turn i t => ∀ th ∈ p.threads[i]?, match th.prog with
      | .call (.add (.profile row)) _ => ¬StoresNothing (.profile row) t p.state
      | _ => True
  | .crash i _ => ∀ th ∈ p.threads[i]?, inserts th.prog = none

/-- The program waits neither for the lookup of an enrolment nor for the insert of
a profile. -/
def Idle {α : Type} (r : BackendRequest) (q : BackendProgram α) : Prop :=
  looksUp r q = none ∧ inserts q = none

/-- What may follow each call of a request: an enrolment looks up the pair of the
person it has found, and a profile is inserted for the pair whose lookup has
missed or for the person just stored. -/
inductive Orderly {α : Type} (r : BackendRequest) :
    (op : BackendCall) → (Except Exn op.Reply → BackendProgram α) → Prop
  /-- The person of an enrolment. -/
  | person {id company : Uuid} {next : Except Exn (Option Person) → BackendProgram α}
    (h : ∀ reply, Idle r (next reply) ∨ ∃ q bu, reply = .ok (some q) ∧
      looksUp r (next reply) = some (q.id, bu) ∧ inserts (next reply) = none) :
    Orderly r (.personGetById id company) next
  /-- The lookup of an enrolment. -/
  | lookup {person bu : Uuid}
    {next : Except Exn (Option (BuStaffProfile × Person)) → BackendProgram α} (hr : Enrols r)
    (hfound : ∀ reply, reply ≠ .ok none → Idle r (next reply))
    (hmissed : looksUp r (next (.ok none)) = none ∧ inserts (next (.ok none)) = some (person, bu)) :
    Orderly r (.profileGetByPersonAndBu person bu) next
  /-- The person of a new member of staff. -/
  | stored {q : Person} {next : Except Exn Unit → BackendProgram α}
    (h : ∀ reply, Idle r (next reply) ∨ ∃ bu, reply = .ok () ∧
      looksUp r (next reply) = none ∧ inserts (next reply) = some (q.id, bu)) :
    Orderly r (.add (.person q)) next
  /-- Every other call. -/
  | other {op : BackendCall} {next : Except Exn op.Reply → BackendProgram α}
    (hop : enrolledPair r op = none) (h : ∀ reply, Idle r (next reply)) : Orderly r op next

variable {α β : Type} {r : BackendRequest}

theorem Idle.map {q : BackendProgram α} (f : α → β) (h : Idle r q) : Idle r (f <$> q) := by
  cases q with
  | ret result => cases result <;> exact ⟨rfl, rfl⟩
  | call op next => exact h

theorem looksUp_map (f : α → β) (q : BackendProgram α) : looksUp r (f <$> q) = looksUp r q := by
  cases q with
  | ret result => cases result <;> rfl
  | call op next => rfl

theorem inserts_map (f : α → β) (q : BackendProgram α) : inserts (f <$> q) = inserts q := by
  cases q with
  | ret result => cases result <;> rfl
  | call op next => rfl

/-- Wrapping the result of a program leaves its calls in order. -/
theorem Orderly.map {op : BackendCall} {next : Except Exn op.Reply → BackendProgram α} (f : α → β)
    (h : Orderly r op next) : Orderly r op fun reply => f <$> next reply := by
  cases h with
  | person h =>
    refine Orderly.person fun reply => (h reply).imp (Idle.map f) ?_
    rintro ⟨q, bu, hreply, hlooks, hinserts⟩
    exact ⟨q, bu, hreply, (looksUp_map f _).trans hlooks, (inserts_map f _).trans hinserts⟩
  | lookup hr hfound hmissed =>
    refine Orderly.lookup hr (fun reply hreply => (hfound reply hreply).map f) ?_
    exact ⟨(looksUp_map f _).trans hmissed.1, (inserts_map f _).trans hmissed.2⟩
  | stored h =>
    refine Orderly.stored fun reply => (h reply).imp (Idle.map f) ?_
    rintro ⟨bu, hreply, hlooks, hinserts⟩
    exact ⟨bu, hreply, (looksUp_map f _).trans hlooks, (inserts_map f _).trans hinserts⟩
  | other hop h => exact Orderly.other hop fun reply => (h reply).map f

/-- Calls that neither look a pair up for an enrolment nor insert a profile. -/
def Plain (r : BackendRequest) (op : BackendCall) : Prop :=
  enrolledPair r op = none ∧ insertedPair op = none

theorem idle_of_plain {q : BackendProgram α} (h : q.AllOps (Plain r)) : Idle r q := by
  cases q with
  | ret result => exact ⟨rfl, rfl⟩
  | call op next => exact h.1

/-- A call that inserts a profile. -/
theorem insertedPair_eq_some {op : BackendCall} {k : Uuid × Uuid} (h : insertedPair op = some k) :
    ∃ p, op = .add (.profile p) ∧ pair p = k := by
  cases op with
  | add row =>
    cases row with
    | profile p => exact ⟨p, rfl, Option.some.inj h⟩
    | _ => cases h
  | _ => cases h

/-- A query inserts nothing. -/
theorem insertedPair_of_query {op : BackendCall} (h : op.Queries) : insertedPair op = none := by
  cases op with
  | add row => exact h.elim
  | _ => rfl

/-- Plain calls are in order. -/
theorem orderly_of_plain {q : BackendProgram α} (h : q.AllOps (Plain r)) :
    q.EveryCall (Orderly r) :=
  h.everyCall fun _ _ hop hnext => Orderly.other hop.1 fun reply => idle_of_plain (hnext reply)

/-- The calls of a request that is no enrolment and inserts no profile on its own
are in order. -/
theorem orderly_of_not_enrols (hr : ¬Enrols r) {q : BackendProgram α}
    (h : q.AllOps fun op => insertedPair op = none) : q.EveryCall (Orderly r) := by
  refine orderly_of_plain (h.mono fun op hop => ⟨?_, hop⟩)
  cases op with
  | profileGetByPersonAndBu person bu => exact if_neg hr
  | _ => rfl

/-- After the profile the chat member is added. -/
theorem orderly_addProfile (person : Person) (bu : BusinessUnit) (profile : BuStaffProfile) :
    (StaffService.addProfile person bu profile).EveryCall (Orderly r) := by
  have hmember : ∀ w : ChatWorkspace, (do
      ChatServiceClient.addWorkspaceMember w.id person.id "Member"
      pure (toStaffResponse profile person bu) : BackendProgram StaffResponse).AllOps (Plain r) :=
    fun w => Program.AllOps.bind (Program.AllOps.perform_bind ⟨rfl, rfl⟩ fun _ => trivial)
      fun _ => trivial
  unfold StaffService.addProfile
  refine Program.EveryCall.perform_bind (Orderly.other rfl fun reply => ?_) fun _ =>
    orderly_of_plain (withWorkspace_allOps ⟨rfl, rfl⟩ trivial hmember)
  cases reply with
  | ok u => exact idle_of_plain (withWorkspace_allOps ⟨rfl, rfl⟩ trivial hmember)
  | error e => exact ⟨rfl, rfl⟩

/-- A new member of staff gets its profile right after its person. -/
theorem orderly_create (settings : Settings) (draws : Draws) (company : Uuid)
    (request : CreateStaffRequest) :
    (StaffService.create settings draws company request).EveryCall (Orderly r) := by
  unfold StaffService.create
  refine Program.EveryCall.perform_bind (Orderly.other rfl fun reply => ?_) fun bu => ?_
  · cases reply with
    | error e => exact ⟨rfl, rfl⟩
    | ok bu =>
      cases bu with
      | none => exact ⟨rfl, rfl⟩
      | some bu =>
        dsimp only [Program.ret_ok_bind]
        cases assignableRole request.role with
        | none => exact ⟨rfl, rfl⟩
        | some role => exact ⟨rfl, rfl⟩
  · cases bu with
    | none => trivial
    | some bu =>
      dsimp only
      cases assignableRole request.role with
      | none => trivial
      | some role =>
        refine Program.EveryCall.perform_bind (Orderly.stored fun reply => ?_)
          fun _ => orderly_addProfile _ _ _
        cases reply with
        | error e => exact Or.inl ⟨rfl, rfl⟩
        | ok u => exact Or.inr ⟨bu.id, rfl, rfl, rfl⟩

/-- An enrolment inserts the profile whose lookup has missed. -/
theorem orderly_enrollExisting (settings : Settings) (draws : Draws) (company : Uuid)
    (request : EnrollExistingStaffRequest) :
    (StaffService.enrollExisting settings draws company request).EveryCall
      (Orderly (.enrollExisting draws company request)) := by
  unfold StaffService.enrollExisting
  refine Program.EveryCall.perform_bind (Orderly.other rfl fun reply => ?_) fun bu => ?_
  · cases reply with
    | error e => exact ⟨rfl, rfl⟩
    | ok bu => cases bu <;> exact ⟨rfl, rfl⟩
  cases bu with
  | none => trivial
  | some bu =>
    -- without an assignable role the lookup is followed by nothing
    by_cases hrole : (assignableRole request.role).isSome = true
    · obtain ⟨role, hrole'⟩ := Option.isSome_iff_exists.mp hrole
      refine Program.EveryCall.perform_bind (Orderly.person fun reply => ?_) fun person => ?_
      · cases reply with
        | error e => exact Or.inl ⟨rfl, rfl⟩
        | ok person =>
          cases person with
          | none => exact Or.inl ⟨rfl, rfl⟩
          | some person => exact Or.inr ⟨person, bu.id, rfl, if_pos hrole, rfl⟩
      · cases person with
        | none => trivial
        | some person =>
          rw [hrole']
          refine Program.EveryCall.perform_bind
            (Orderly.lookup hrole (fun reply hreply => ?_) ⟨rfl, rfl⟩) fun existing => ?_
          · cases reply with
            | error e => exact ⟨rfl, rfl⟩
            | ok existing =>
              cases existing with
              | none => exact absurd rfl hreply
              | some row => exact ⟨rfl, rfl⟩
          · cases existing with
            | some row => trivial
            | none => exact orderly_addProfile _ _ _
    · have hnone : assignableRole request.role = none := by simpa using hrole
      have hr : ¬Enrols (.enrollExisting draws company request) := hrole
      refine orderly_of_not_enrols hr ?_
      rw [hnone]
      refine Program.AllOps.perform_bind rfl fun person => ?_
      cases person with
      | none => trivial
      | some person =>
        refine Program.AllOps.perform_bind rfl fun existing => ?_
        cases existing <;> trivial

/-- Every request makes its calls in order. -/
theorem orderly_program (settings : Settings) (r : BackendRequest) :
    (r.program settings).EveryCall (Orderly r) := by
  have hissues := program_issues settings r
  cases r with
  | createStaff draws company request =>
    exact (orderly_create settings draws company request).map _ fun _ _ h => h.map _
  | enrollExisting draws company request =>
    exact (orderly_enrollExisting settings draws company request).map _ fun _ _ h => h.map _
  | _ =>
    refine orderly_of_not_enrols ?_ (hissues.mono fun op hop => ?_)
    · exact Bool.false_ne_true
    · cases hop with
      | query h => exact insertedPair_of_query h
      | _ => rfl

/-- A request starts idle. -/
theorem idle_program (settings : Settings) (r : BackendRequest) :
    Idle r (r.program settings) := by
  cases r <;> exact ⟨rfl, rfl⟩

/-- The pairs of the stored profiles. -/
def pairs (s : World) : List (Uuid × Uuid) := s.main.profiles.map pair

theorem mem_pairs_iff {s : World} {k : Uuid × Uuid} :
    k ∈ pairs s ↔ HasProfile s.main.toMainTables k.1 k.2 := by
  unfold pairs HasProfile
  rw [List.mem_map]
  exact exists_congr fun p => and_congr_right fun _ => Prod.ext_iff

/-- The person of the pair is stored. -/
def PersonStored (s : World) (k : Uuid × Uuid) : Prop := ∃ q ∈ s.main.persons, q.id = k.1

/-- The foreign key gives every profile its person. -/
theorem personStored_of_mem {s : World} {k : Uuid × Uuid} (h : k ∈ pairs s) : PersonStored s k := by
  obtain ⟨p, hp, rfl⟩ := List.mem_map.mp h
  exact s.main.valid.profiles_person p hp

/-- Profiles that are rewritten in place keep their pairs. -/
theorem pairs_rewritten {rows : List BuStaffProfile} {id : Uuid}
    {f : BuStaffProfile → BuStaffProfile} (hf : ∀ p, pair (f p) = pair p) :
    (rows.map fun p => if p.id = id then f p else p).map pair = rows.map pair := by
  rw [List.map_map]
  refine List.map_congr_left fun p _ => ?_
  rw [Function.comp_apply]
  split
  · exact hf p
  · rfl

/-- The pairs that a call appends: that of the profile which it inserts alone, or
one of a person that is not stored yet. -/
structure Appends (op : BackendCall) (s : World) (new : List (Uuid × Uuid)) : Prop where
  distinct : new.Nodup
  free : ∀ k ∈ new, insertedPair op = some k ∨ ¬PersonStored s k

theorem Appends.nil (op : BackendCall) (s : World) : Appends op s [] :=
  ⟨List.nodup_nil, fun _ hk => by cases hk⟩

/-- The insert of a row appends the pair of its profile, if it stores it. -/
theorem answer_add_pairs (row : Insert) (t : Turn BackendChoice Exn) (s : World) :
    ∃ new, pairs (backendMachine.answer (.add row) t s).2 = pairs s ++ new ∧
      Appends (.add row) s new := by
  obtain ⟨-, hsame, -⟩ | ⟨-, d, hd, hstored⟩ := answer_add_cases row t s
  · rw [hsame]
    exact ⟨[], (List.append_nil _).symm, Appends.nil _ s⟩
  · have hrows := insert_profiles hd
    rw [hstored]
    unfold pairs
    rw [hrows, List.map_append]
    refine ⟨_, rfl, ?_⟩
    cases row with
    | profile p =>
      refine ⟨List.nodup_singleton _, fun k hk => Or.inl ?_⟩
      rw [List.mem_singleton.mp hk]
      rfl
    | _ => exact Appends.nil _ s

/-- A transaction appends the pairs of its profiles, if it is accepted. -/
theorem answer_commit_pairs {rows : List Insert} {s : World}
    (hnew : ∀ d, s.main.insertAll rows = .ok d →
      Appends (.commit rows) s ((rows.filterMap profileRow).map pair))
    (t : Turn BackendChoice Exn) :
    ∃ new, pairs (backendMachine.answer (.commit rows) t s).2 = pairs s ++ new ∧
      Appends (.commit rows) s new := by
  have hexec : ∀ c, ((BackendCall.commit rows).exec c s).1.isOk = (s.main.insertAll rows).isOk ∧
      ((BackendCall.commit rows).exec c s).2 = (storeMain s (s.main.insertAll rows)).2 :=
    fun c => ⟨storeMain_isOk s _, rfl⟩
  obtain ⟨-, hsame⟩ | ⟨-, d, hd, hstored⟩ := answer_store hexec t
  · rw [hsame]
    exact ⟨[], (List.append_nil _).symm, Appends.nil _ s⟩
  · refine ⟨_, ?_, hnew d hd⟩
    rw [hstored]
    unfold pairs
    rw [insertAll_profiles hd, List.map_append]

/-- Every call of a request appends its pairs and leaves the others. -/
theorem answer_pairs {settings : Settings} {op : BackendCall} (hop : Issues settings r op)
    (t : Turn BackendChoice Exn) (s : World) :
    ∃ new, pairs (backendMachine.answer op t s).2 = pairs s ++ new ∧ Appends op s new := by
  have same : pairs (backendMachine.answer op t s).2 = pairs s →
      ∃ new, pairs (backendMachine.answer op t s).2 = pairs s ++ new ∧ Appends op s new :=
    fun h => ⟨[], h.trans (List.append_nil _).symm, Appends.nil op s⟩
  have chat : ∀ {rpc}, op = .chat rpc →
      ∃ new, pairs (backendMachine.answer op t s).2 = pairs s ++ new ∧ Appends op s new := by
    rintro rpc rfl
    refine same ?_
    unfold pairs
    rw [answer_chat_main]
  have rewritten : (∀ c, pairs (op.exec c s).2 = pairs s) →
      ∃ new, pairs (backendMachine.answer op t s).2 = pairs s ++ new ∧ Appends op s new := by
    intro h
    obtain he | ⟨c, he⟩ := backendMachine.answer_state op t s
    · exact same (by rw [he])
    · exact same (he ▸ h c)
  cases hop with
  | query h => exact same (by rw [query_state h])
  | onboardCommit =>
    refine answer_commit_pairs (fun d hd => ?_) t
    refine ⟨List.nodup_singleton _, fun k hk => Or.inr ?_⟩
    obtain ⟨d₁, d₂, d₃, hcompany, hunit, hperson, -⟩ := insertAll_four_ok hd
    obtain ⟨-, h₁⟩ := insertCompany_ok hcompany
    obtain ⟨-, -, h₂⟩ := insertBusinessUnit_ok hunit
    obtain ⟨hfresh, -⟩ := insertPerson_ok hperson
    rw [h₂, h₁] at hfresh
    rw [List.mem_singleton.mp hk]
    exact hfresh
  | unitCommit => exact answer_commit_pairs (fun d hd => Appends.nil _ s) t
  | staffPerson => exact answer_add_pairs _ t s
  | staffProfile h => exact answer_add_pairs _ t s
  | enrollProfile h => exact answer_add_pairs _ t s
  | saveRole h => exact rewritten fun c => pairs_rewritten fun _ => rfl
  | savePassword => exact rewritten fun c => pairs_rewritten fun _ => rfl
  | onboardWorkspace => exact chat rfl
  | onboardMember => exact chat rfl
  | unitWorkspace => exact chat rfl
  | unitMember => exact chat rfl
  | staffMember => exact chat rfl
  | enrollMember => exact chat rfl
  | access => exact chat rfl
  | conversationsGroup => exact chat rfl
  | dm => exact chat rfl
  | send => exact chat rfl
  | messagesGroup => exact chat rfl
  | sendGroup => exact chat rfl
  | sendToGroup => exact chat rfl

/-- What is left of the program of a request: its calls and their order, and the
persons of the pair that it looks up or is about to insert. -/
structure Tracked (settings : Settings) (r : BackendRequest) (s : World)
    (q : BackendProgram BackendResponse) : Prop where
  calls : q.AllOps (Issues settings r)
  order : q.EveryCall (Orderly r)
  person : ∀ k, looksUp r q = some k ∨ inserts q = some k → PersonStored s k

theorem tracked_of_idle {settings : Settings} {s : World} {q : BackendProgram BackendResponse}
    (hcalls : q.AllOps (Issues settings r)) (horder : q.EveryCall (Orderly r)) (h : Idle r q) :
    Tracked settings r s q := by
  refine ⟨hcalls, horder, ?_⟩
  rintro k (hk | hk)
  · cases h.1.symm.trans hk
  · cases h.2.symm.trans hk

/-- Persons stay, whatever the calls of other requests are answered. -/
theorem Tracked.stay {settings : Settings} {s : World} {q : BackendProgram BackendResponse}
    (h : Tracked settings r s q) (op : BackendCall) (t : Turn BackendChoice Exn) :
    Tracked settings r (backendMachine.answer op t s).2 q := by
  refine ⟨h.calls, h.order, fun k hk => ?_⟩
  obtain ⟨q, hq, hid⟩ := h.person k hk
  exact ⟨q, (answer_rowsStay op t s).persons q hq, hid⟩

variable {settings : Settings} {s : World} {op : BackendCall}
  {next : Except Exn op.Reply → BackendProgram BackendResponse}

/-- After its own call a program is still on track. -/
theorem Tracked.turn (h : Tracked settings r s (.call op next)) (t : Turn BackendChoice Exn) :
    Tracked settings r (backendMachine.answer op t s).2
      (next (backendMachine.answer op t s).1) := by
  have hcalls := h.calls.2 (backendMachine.answer op t s).1
  have horder := h.order.2 (backendMachine.answer op t s).1
  cases h.order.1 with
  | other hop hidle => exact tracked_of_idle hcalls horder (hidle _)
  | @person id company next hnext =>
    obtain hidle | ⟨q, bu, hreply, hlooks, hinserts⟩ :=
      hnext (backendMachine.answer (.personGetById id company) t s).1
    · exact tracked_of_idle hcalls horder hidle
    · obtain ⟨hq, -, -⟩ := personGetById_ok hreply
      refine ⟨hcalls, horder, ?_⟩
      rintro k (hk | hk)
      · cases hlooks.symm.trans hk
        exact ⟨q, (answer_rowsStay _ t s).persons q hq, rfl⟩
      · cases hinserts.symm.trans hk
  | @lookup person bu next hr hfound hmissed =>
    by_cases hreply : (backendMachine.answer (.profileGetByPersonAndBu person bu) t s).1 = .ok none
    · refine ⟨hcalls, horder, ?_⟩
      rw [hreply]
      rintro k (hk | hk)
      · cases hmissed.1.symm.trans hk
      · cases hmissed.2.symm.trans hk
        obtain ⟨q, hq, hid⟩ := h.person (person, bu) (Or.inl (if_pos hr))
        exact ⟨q, (answer_rowsStay _ t s).persons q hq, hid⟩
    · exact tracked_of_idle hcalls horder (hfound _ hreply)
  | @stored q next hnext =>
    obtain hidle | ⟨bu, hreply, hlooks, hinserts⟩ :=
      hnext (backendMachine.answer (.add (.person q)) t s).1
    · exact tracked_of_idle hcalls horder hidle
    · obtain ⟨d, hd, hstate⟩ := answer_add_ok hreply
      obtain ⟨-, -, hrows⟩ := insertPerson_ok hd
      refine ⟨hcalls, horder, ?_⟩
      rintro k (hk | hk)
      · cases hlooks.symm.trans hk
      · cases hinserts.symm.trans hk
        refine ⟨q, ?_, rfl⟩
        rw [hstate]
        dsimp only
        rw [hrows]
        exact List.mem_append_right _ (List.mem_singleton_self _)

/-- Where a pair comes from that a request is about to insert: nothing was stored
for it, and either its lookup has just missed or its person was not stored. -/
theorem Tracked.holds (h : Tracked settings r s (.call op next)) {t : Turn BackendChoice Exn}
    {k : Uuid × Uuid} (hk : inserts (next (backendMachine.answer op t s).1) = some k) :
    pairs (backendMachine.answer op t s).2 = pairs s ∧ k ∉ pairs s ∧
      ((enrolledPair r op = some k ∧ ∃ c, t = .serve c) ∨ ¬PersonStored s k) := by
  cases h.order.1 with
  | other hop hidle => cases (hidle _).2.symm.trans hk
  | @person id company next hnext =>
    obtain hidle | ⟨q, bu, -, -, hinserts⟩ :=
      hnext (backendMachine.answer (.personGetById id company) t s).1
    · cases hidle.2.symm.trans hk
    · cases hinserts.symm.trans hk
  | @lookup person bu next hr hfound hmissed =>
    have hquery : BackendCall.Queries (.profileGetByPersonAndBu person bu) := trivial
    by_cases hreply : (backendMachine.answer (.profileGetByPersonAndBu person bu) t s).1 = .ok none
    · rw [hreply] at hk
      cases hmissed.2.symm.trans hk
      obtain ⟨c, ht, ha⟩ := Machine.answer_ok hreply
      refine ⟨by rw [query_state hquery], fun hmem => ?_, Or.inl ⟨if_pos hr, c, ht⟩⟩
      obtain ⟨profile, owner, hfind, -⟩ := getByPersonAndBu_some (mem_pairs_iff.mp hmem) c.tie
      rw [ha] at hreply
      cases hfind.symm.trans (Except.ok.inj hreply)
    · cases (hfound _ hreply).2.symm.trans hk
  | @stored q next hnext =>
    obtain hidle | ⟨bu, hreply, -, hinserts⟩ :=
      hnext (backendMachine.answer (.add (.person q)) t s).1
    · cases hidle.2.symm.trans hk
    · cases hinserts.symm.trans hk
      obtain ⟨d, hd, hstate⟩ := answer_add_ok hreply
      obtain ⟨hfresh, -, hrows⟩ := insertPerson_ok hd
      refine ⟨?_, fun hmem => hfresh (personStored_of_mem hmem), Or.inr hfresh⟩
      rw [hstate]
      unfold pairs
      dsimp only
      rw [hrows]

/-- The pair that a request is about to insert. -/
abbrev held (th : Thread backendSignature Exn BackendResponse BackendRequest) :
    Option (Uuid × Uuid) := inserts th.prog

/-- Every request of the backend is on track. -/
def OnTrack (settings : Settings) (p : BackendPool) : Prop :=
  p.Each fun _ r s q => Tracked settings r s q

theorem onTrack_start (settings : Settings) (s : World) :
    OnTrack settings (BackendPool.initial s) :=
  fun _ _ hi => by cases hi

/-- Requests stay on track in every step. -/
theorem onTrack_step {p p' : BackendPool} {l : BackendLabel} (hp : OnTrack settings p)
    (h : BackendPool.step settings p l = some p') : OnTrack settings p' := by
  obtain ⟨_, -, htrack⟩ := Pool.step_modular (fun (_ : Unit) _ => True)
    (fun _ _ r s q => Tracked settings r s q)
    (fun _ _ r _ _ => tracked_of_idle (program_issues settings r) (orderly_program settings r)
      (idle_program settings r))
    (fun _ _ _ _ _ _ _ _ => tracked_of_idle trivial trivial ⟨rfl, rfl⟩)
    (fun _ _ _ _ op _ t _ hq => ⟨(), trivial, hq.turn t, fun _ _ _ _ hq' => hq'.stay op t⟩)
    ⟨(), trivial, hp⟩ h
  exact htrack

/-- Nobody else is about to insert a pair whose person is not stored. -/
theorem nobodyElse_of_fresh {p : BackendPool} (hp : OnTrack settings p) {i : ℕ} {k : Uuid × Uuid}
    (hk : ¬PersonStored p.state k) : NobodyElse held p i k :=
  fun _ _ _ hj hth => hk ((hp _ _ hj).person k (Or.inr hth))

/-- A turn meets the guard exactly if nobody else is about to insert the pair that
its request comes to insert. -/
theorem missAlone_iff {p : BackendPool} (hp : OnTrack settings p) {i : ℕ}
    (hi : p.threads[i]? = some ⟨r, .call op next⟩) (t : Turn BackendChoice Exn) :
    MissAlone p (.turn i t) ↔
      ∀ k, inserts (next (backendMachine.answer op t p.state).1) = some k →
        NobodyElse held p i k := by
  have htrack := hp i _ hi
  constructor
  · intro h k hk
    obtain ⟨-, hfresh, ⟨hlooks, c, rfl⟩ | hperson⟩ := htrack.holds hk
    · exact fun j th _ hj => h _ hi k hlooks (fun hmem => hfresh (mem_pairs_iff.mpr hmem)) th
        (List.mem_of_getElem? hj)
    · exact nobodyElse_of_fresh hp hperson
  · intro h
    cases t with
    | drop e => trivial
    | lost c e => trivial
    | serve c =>
      intro th hth k hlooks hnone th' hth' hinserts
      cases hi.symm.trans hth
      obtain ⟨j, hj⟩ := List.getElem?_of_mem hth'
      cases htrack.order.1 with
      | other hop hidle => cases hop.symm.trans hlooks
      | person hnext => cases hlooks
      | stored hnext => cases hlooks
      | @lookup person bu next hr hfound hmissed =>
        cases (if_pos hr).symm.trans hlooks
        have hreply : (backendMachine.answer (.profileGetByPersonAndBu person bu) (.serve c)
            p.state).1 = .ok none := congrArg Except.ok (getByPersonAndBu_none hnone c.tie)
        have hne : j ≠ i := by
          rintro rfl
          cases hi.symm.trans hj
          cases hinserts
        refine h (person, bu) ?_ j th' hne hj hinserts
        rw [hreply]
        exact hmissed.2

/-- A step keeps the pairs reserved exactly if it is no lookup of an enrolment that
misses while another request is about to insert the pair. -/
theorem reserved_step_iff {p p' : BackendPool} {l : BackendLabel} (hp : OnTrack settings p)
    (hr : Reserved held pairs p) (h : BackendPool.step settings p l = some p') :
    Reserved held pairs p' ↔ MissAlone p l := by
  cases l with
  | start r =>
    cases h
    exact iff_of_true ((reserved_start_iff (idle_program settings r).2).mpr hr) trivial
  | crash i e =>
    obtain ⟨r, op, next, hi, rfl⟩ := Pool.step_crash h
    refine iff_of_true ?_ trivial
    refine (hr.turn_iff hi (List.append_nil _).symm List.nodup_nil
      (fun k hk => by cases hk) fun k hk => by cases hk).mpr fun k hk => by cases hk
  | turn i t =>
    obtain ⟨r, op, next, hi, -, rfl⟩ := Pool.step_turn h
    have htrack := hp i _ hi
    obtain ⟨new, hnew, happends⟩ := answer_pairs htrack.calls.1 t p.state
    have hfree : ∀ k ∈ new, k ∉ pairs p.state ∧ NobodyElse held p i k := by
      intro k hk
      obtain hown | hfresh := happends.free k hk
      · exact ⟨hr.free i _ k hi hown,
          fun j th hne hj hth => hne (hr.alone j i th _ k hj hi hth hown)⟩
      · exact ⟨fun hmem => hfresh (personStored_of_mem hmem), nobodyElse_of_fresh hp hfresh⟩
    rw [missAlone_iff hp hi]
    refine hr.turn_iff hi hnew happends.distinct hfree fun k hk => ?_
    obtain ⟨hsame, hfresh, -⟩ := htrack.holds hk
    rw [hsame]
    exact hfresh

/-- When inserts are stored, pairs that are reserved after a step were reserved
before it. -/
theorem reserved_before {p p' : BackendPool} {l : BackendLabel} (hp : OnTrack settings p)
    (hl : InsertsStored p l) (h : BackendPool.step settings p l = some p')
    (hr : Reserved held pairs p') : Reserved held pairs p := by
  cases l with
  | start r =>
    cases h
    exact (reserved_start_iff (idle_program settings r).2).mp hr
  | crash i e =>
    obtain ⟨r, op, next, hi, rfl⟩ := Pool.step_crash h
    refine hr.before hi (List.append_nil _).symm fun k hk => ?_
    cases (hl _ hi).symm.trans hk
  | turn i t =>
    obtain ⟨r, op, next, hi, -, rfl⟩ := Pool.step_turn h
    have stored : ∀ p₁, op = .add (.profile p₁) →
        pairs (backendMachine.answer op t p.state).2 = pairs p.state ++ [pair p₁] := by
      rintro p₁ rfl
      obtain ⟨hnothing, -⟩ | ⟨-, d, hd, hstored⟩ := answer_add_cases (.profile p₁) t p.state
      · exact absurd hnothing (hl _ hi)
      · have hrows := insert_profiles hd
        rw [hstored]
        unfold pairs
        rw [hrows, List.map_append]
        rfl
    cases hpair : insertedPair op with
    | none =>
      obtain ⟨new, hnew, -⟩ := answer_pairs (hp i _ hi).calls.1 t p.state
      refine hr.before hi hnew fun k hk => ?_
      cases hpair.symm.trans hk
    | some k =>
      obtain ⟨p₁, rfl, rfl⟩ := insertedPair_eq_some hpair
      refine hr.before hi (stored p₁ rfl) fun k hk => ?_
      cases hpair.symm.trans hk
      exact List.mem_singleton_self _

/-- In every run of requests in which no lookup of an enrolment misses while
another request is about to insert the pair, no reachable state has two profiles of
one person in one business unit; and only in such runs, once all inserts that
requests have come to are stored. -/
theorem oneProfile_iff_missAlone (settings : Settings) {s : World} {ls : List BackendLabel}
    {p : BackendPool} (hs : OneProfile s.main)
    (hrun : run (BackendPool.step settings) (BackendPool.initial s) ls = some p) :
    (EachStep (BackendPool.step settings) MissAlone (BackendPool.initial s) ls →
      Throughout (BackendPool.step settings) (fun p => OneProfile p.state.main)
        (BackendPool.initial s)
        ls) ∧
    (EachStep (BackendPool.step settings) InsertsStored (BackendPool.initial s) ls →
      (∀ th ∈ p.threads, inserts th.prog = none) → OneProfile p.state.main →
      EachStep (BackendPool.step settings) MissAlone (BackendPool.initial s) ls) := by
  have hstart : Reserved held pairs (BackendPool.initial s) :=
    reserved_of_idle hs fun _ hth => by cases hth
  have hiff :
      Throughout (BackendPool.step settings) (Reserved held pairs) (BackendPool.initial s) ls ↔
      EachStep (BackendPool.step settings) MissAlone (BackendPool.initial s) ls :=
    throughout_iff_eachStep (J := OnTrack settings) (fun _ _ _ hp _ h => onTrack_step hp h)
      (fun _ _ _ hp hr h => reserved_step_iff hp hr h) (onTrack_start settings s) hstart hrun
  refine ⟨fun h => (hiff.mpr h).mono fun _ hr => hr.unique, fun hstored hidle hend => ?_⟩
  have hr : Reserved held pairs p := reserved_of_idle hend hidle
  refine hiff.mp (Throughout.mono (throughout_not_within (J := OnTrack settings)
    (fun _ _ _ hp _ h => onTrack_step hp h)
    (fun _ _ _ hp hnot hl h hr => hnot (reserved_before hp hl h hr))
    (onTrack_start settings s) hstored hrun (not_not_intro hr)) fun _ => not_not.mp)

/-- The owner of the seeded company creates a second business unit and is then
enrolled there twice, with one email each; the labels say in which order the two
enrolments make their calls. -/
def enrolledTwice (turns : List BackendLabel) : List BackendLabel :=
  .start (.createBusinessUnit (Draws.from 100) 0x10000000000000000000000000000001
      0x30000000000000000000000000000001 "Spa") ::
    List.replicate 4 (.turn 0 (servedWith 10 0)) ++
  [.start (.enrollExisting (Draws.from 200) 0x10000000000000000000000000000001
      ⟨0x30000000000000000000000000000001, 100, "a@spa.test", "Staff"⟩),
    .start (.enrollExisting (Draws.from 300) 0x10000000000000000000000000000001
      ⟨0x30000000000000000000000000000001, 100, "b@spa.test", "Staff"⟩)] ++ turns

/-- Two enrolments one after the other: the second is refused. -/
theorem oneProfile_inTurn :
    ∃ p, run (BackendPool.step Settings.plain) (BackendPool.initial World.seeded)
        (enrolledTwice (List.replicate 4 (.turn 1 (servedWith 20 0)) ++
          List.replicate 3 (.turn 2 (servedWith 30 0)))) = some p ∧ OneProfile p.state.main := by
  have hrun : (run (BackendPool.step Settings.plain) (BackendPool.initial World.seeded)
      (enrolledTwice (List.replicate 4 (.turn 1 (servedWith 20 0)) ++
        List.replicate 3 (.turn 2 (servedWith 30 0))))).isSome = true := by decide
  obtain ⟨p, hp⟩ := Option.isSome_iff_exists.mp hrun
  exact ⟨p, hp, ((oneProfile_iff_missAlone Settings.plain (by decide) hp).1 (by decide)).last hp⟩

/-- Two enrolments whose lookups both miss before the first insert store two
profiles. -/
theorem oneProfile_not_invariant :
    ¬∀ settings ls p,
      run (BackendPool.step settings) (BackendPool.initial World.seeded) ls = some p →
      OneProfile p.state.main := by
  intro h
  have hrun : ((run (BackendPool.step Settings.plain) (BackendPool.initial World.seeded)
      (enrolledTwice (List.replicate 3 (.turn 1 (servedWith 20 0)) ++
        List.replicate 4 (.turn 2 (servedWith 30 0)) ++ [.turn 1 (servedWith 20 0)]))).map
      fun p => decide (OneProfile p.state.main)) = some false := by decide
  obtain ⟨p, hp, hbad⟩ := Option.map_eq_some_iff.mp hrun
  exact of_decide_eq_false hbad (h Settings.plain _ p hp)

end AuraWellness.Backend.ProfilePairs
