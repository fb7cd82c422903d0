import Mathlib.Data.Sym.Sym2
import AuraWellness.Chat.Growth

/-!
# Direct conversations

`GetOrCreateDMConversation` is a lookup followed by three separate inserts. A
ghost map from conversations to the pair and the thread that created them
shows that a returned conversation has exactly the two participants asked for,
in every interleaving and with crashes and failed calls. That there is only one
such conversation depends on lookups not falling into another call's creation.
-/

namespace AuraWellness.Chat.DirectMessages

open AuraWellness.Lib.Transition AuraWellness.Lib.Calls AuraWellness.Lib.Ranked
open AuraWellness.Chat.Entities AuraWellness.Chat.Schema AuraWellness.Chat.Repositories
open AuraWellness.Chat.Services AuraWellness.Chat.Growth

/-- A direct conversation that the lookup selects. -/
theorem mem_dmsOf {d : ChatDb} {w a b : Uuid} {c : ChatConversation} :
    c ∈ ConversationRepo.dmsOf d w a b ↔ c ∈ d.conversations ∧ c.workspaceID = w ∧ c.type = .dm ∧
      Participates d c.id a ∧ Participates d c.id b := by
  simp [ConversationRepo.dmsOf]

/-- A lookup that succeeds returns one of the selected conversations. -/
theorem getDMByParticipants_ok {d : ChatDb} {choice : Choice} {w a b : Uuid}
    {c : ChatConversation} (h : ConversationRepo.getDMByParticipants d choice w a b = .ok c) :
    c ∈ ConversationRepo.dmsOf d w a b :=
  mem_sortOn.mp (scanRow_ok h)

/-- A lookup that is served and fails has found no conversation. -/
theorem getDMByParticipants_error {d : ChatDb} {choice : Choice} {w a b : Uuid} {e : GoError}
    (h : ConversationRepo.getDMByParticipants d choice w a b = .error e) :
    ConversationRepo.dmsOf d w a b = [] :=
  eq_nil_of_sortOn_eq_nil (scanRow_error h).1

/-- Where a `GetOrCreateDMConversation` call stands. -/
inductive Stage
  /-- Before the lookup. -/
  | looking
  /-- The lookup has missed. -/
  | creating
  /-- The conversation is stored and nobody takes part yet. -/
  | addingFirst (created : ChatConversation)
  /-- The first person takes part. -/
  | addingSecond (created : ChatConversation)
  /-- The call has returned a conversation. -/
  | returned (conv : ChatConversation)
  /-- The call has returned an error. -/
  | failed (err : GoError)

/-- The rest of the program at each stage. -/
def Stage.program (stamps : ℕ → Stamp) (w a b : Uuid) : Stage → ServiceProgram Response
  | looking => (Call.getOrCreateDMConversation w a b).program stamps
  | creating => .conversation <$> do
    let created ← perform (.conversationCreate ⟨(stamps 0).id, w, .dm, (stamps 0).now⟩)
    ConversationService.addBothParticipants stamps created a b
  | addingFirst created => .conversation <$> do
    perform (.conversationAddParticipant ⟨(stamps 1).id, created.id, a, (stamps 1).now⟩)
    let pB ← Program.ofExcept (newConversationParticipant (stamps 2) created.id b)
    perform (.conversationAddParticipant pB)
    return created
  | addingSecond created => .conversation <$> do
    perform (.conversationAddParticipant ⟨(stamps 2).id, created.id, b, (stamps 2).now⟩)
    return created
  | returned conv => .ret (.ok (.conversation conv))
  | failed err => .ret (.error err)

/-- A call for a direct conversation starts before its lookup. -/
theorem body_looking {r : Request} {w a b : Uuid} (h : r.call = .getOrCreateDMConversation w a b) :
    body r = Stage.looking.program r.stamps w a b := by
  unfold body
  rw [h]
  rfl

/-- The error that refuses a nil identifier. -/
abbrev required (field : String) : GoError := errorsNew (field ++ " is required")

/-- The call that a stage waits for and the stage that each reply leads to. -/
inductive Stage.Calls (stamps : ℕ → Stamp) (w a b : Uuid) :
    Stage → (op : ServiceCall) → (Except GoError op.Reply → Stage) → Prop
  | looking : Calls stamps w a b .looking (.conversationGetDMByParticipants w a b)
      fun
        | .ok conv => .returned conv
        | .error _ => if w = Uuid.nil then .failed (required "workspaceID") else .creating
  | creating : Calls stamps w a b .creating
      (.conversationCreate ⟨(stamps 0).id, w, .dm, (stamps 0).now⟩)
      fun
        | .ok created =>
          if created.id = Uuid.nil then .failed (required "conversationID")
          else if a = Uuid.nil then .failed (required "personID") else .addingFirst created
        | .error err => .failed err
  | addingFirst (created : ChatConversation) : Calls stamps w a b (.addingFirst created)
      (.conversationAddParticipant ⟨(stamps 1).id, created.id, a, (stamps 1).now⟩)
      fun
        | .ok () =>
          if created.id = Uuid.nil then .failed (required "conversationID")
          else if b = Uuid.nil then .failed (required "personID") else .addingSecond created
        | .error err => .failed err
  | addingSecond (created : ChatConversation) : Calls stamps w a b (.addingSecond created)
      (.conversationAddParticipant ⟨(stamps 2).id, created.id, b, (stamps 2).now⟩)
      fun
        | .ok () => .returned created
        | .error err => .failed err

/-- A constructor of a direct conversation refuses only a nil workspace. -/
theorem newConversation_dm (stamp : Stamp) (w : Uuid) :
    newConversation stamp w "dm" =
      if w = Uuid.nil then .error (required "workspaceID")
      else .ok ⟨stamp.id, w, .dm, stamp.now⟩ := by
  unfold newConversation requireID
  split <;> rfl

/-- The participant constructor refuses only nil identifiers. -/
theorem newConversationParticipant_eq (stamp : Stamp) (conv person : Uuid) :
    newConversationParticipant stamp conv person =
      if conv = Uuid.nil then .error (required "conversationID")
      else if person = Uuid.nil then .error (required "personID")
      else .ok ⟨stamp.id, conv, person, stamp.now⟩ := by
  unfold newConversationParticipant requireID
  split
  · rfl
  split <;> rfl

/-- A stage that waits for a call goes on to the stages of its replies. -/
theorem Stage.program_call {stamps : ℕ → Stamp} {w a b : Uuid} {stage : Stage} {op : ServiceCall}
    {next : Except GoError op.Reply → ServiceProgram Response}
    (h : stage.program stamps w a b = .call op next) :
    ∃ after, Stage.Calls stamps w a b stage op after ∧
      ∀ r, next r = (after r).program stamps w a b := by
  cases stage with
  | looking =>
    cases h
    refine ⟨_, Stage.Calls.looking, fun r => ?_⟩
    cases r with
    | ok conv => rfl
    | error err =>
      refine (?_ : Program.bind (Program.bind (.ret (newConversation (stamps 0) w "dm")) _) _ = _)
      rw [newConversation_dm]
      dsimp only
      split <;> rfl
  | creating =>
    cases h
    refine ⟨_, Stage.Calls.creating, fun r => ?_⟩
    cases r with
    | ok created =>
      refine (?_ : Program.bind (Program.bind
        (.ret (newConversationParticipant (stamps 1) created.id a)) _) _ = _)
      rw [newConversationParticipant_eq]
      dsimp only
      split
      · rfl
      split <;> rfl
    | error err => rfl
  | addingFirst created =>
    cases h
    refine ⟨_, Stage.Calls.addingFirst created, fun r => ?_⟩
    cases r with
    | ok u =>
      refine (?_ : Program.bind (Program.bind
        (.ret (newConversationParticipant (stamps 2) created.id b)) _) _ = _)
      rw [newConversationParticipant_eq]
      dsimp only
      split
      · rfl
      split <;> rfl
    | error err => rfl
  | addingSecond created =>
    cases h
    refine ⟨_, Stage.Calls.addingSecond created, fun r => ?_⟩
    cases r with
    | ok u => rfl
    | error err => rfl
  | returned conv => cases h
  | failed err => cases h

/-- Who created a conversation: the pair asked for and the thread that asked. -/
structure Origin where
  /-- The two persons of the creating call. -/
  pair : Sym2 Uuid
  /-- The position of the creating thread. -/
  thread : ℕ

/-- Every participant is one of the two persons its conversation is for. -/
def PairsKept (origin : Uuid → Origin) (s : ChatState) : Prop :=
  ∀ c x, Participates s.db c x → x ∈ (origin c).pair

/-- A stored direct conversation of the workspace whose creating thread is
known. -/
structure Created (origin : Uuid → Origin) (i : ℕ) (s : ChatState) (w a b : Uuid)
    (c : ChatConversation) : Prop where
  stored : c ∈ s.db.conversations
  workspace : c.workspaceID = w
  type : c.type = .dm
  origin : origin c.id = ⟨s(a, b), i⟩

/-- What a call knows about the database at each stage. -/
def Stage.Ok (origin : Uuid → Origin) (i : ℕ) (s : ChatState) (w a b : Uuid) : Stage → Prop
  | addingFirst c => Created origin i s w a b c ∧ a ≠ Uuid.nil ∧ ∀ x, ¬Participates s.db c.id x
  | addingSecond c => Created origin i s w a b c ∧ a ≠ Uuid.nil ∧ b ≠ Uuid.nil ∧
      Participates s.db c.id a ∧ ∀ x, Participates s.db c.id x → x = a
  | returned c => c ∈ ConversationRepo.dmsOf s.db w a b
  | _ => True

/-- A state that only gained rows, none of them participants of conversations
of this thread, and kept the origin of every conversation. -/
structure Extends (origin origin' : Uuid → Origin) (j : ℕ) (s s' : ChatState) : Prop where
  grows : Grows s.db s'.db
  kept : ∀ c ∈ s.db.conversations, origin' c.id = origin c.id
  others : ∀ c x, (origin c).thread = j → Participates s'.db c x → Participates s.db c x

/-- What a call knows survives the calls of the other threads. -/
theorem Stage.Ok.extends {origin origin' : Uuid → Origin} {j : ℕ} {s s' : ChatState}
    {w a b : Uuid} {stage : Stage} (h : stage.Ok origin j s w a b)
    (he : Extends origin origin' j s s') : stage.Ok origin' j s' w a b := by
  have created : ∀ {c}, Created origin j s w a b c → Created origin' j s' w a b c := fun hc =>
    ⟨he.grows.conversations _ hc.stored, hc.workspace, hc.type,
      (he.kept _ hc.stored).trans hc.origin⟩
  have nobody : ∀ {c x}, Created origin j s w a b c → Participates s'.db c.id x →
      Participates s.db c.id x := fun hc hx => he.others _ _ (by rw [hc.origin]) hx
  cases stage with
  | addingFirst c =>
    obtain ⟨hc, ha, hnone⟩ := h
    exact ⟨created hc, ha, fun x hx => hnone x (nobody hc hx)⟩
  | addingSecond c =>
    obtain ⟨hc, ha, hb, hpa, honly⟩ := h
    exact ⟨created hc, ha, hb, he.grows.participates hpa, fun x hx => honly x (nobody hc hx)⟩
  | returned c =>
    obtain ⟨hstored, hw, htype, hpa, hpb⟩ := mem_dmsOf.mp h
    exact mem_dmsOf.mpr ⟨he.grows.conversations c hstored, hw, htype, he.grows.participates hpa,
      he.grows.participates hpb⟩
  | looking => trivial
  | creating => trivial
  | failed err => trivial

/-- The local assertion of a thread. -/
def Local (origin : Uuid → Origin) (i : ℕ) (r : Request) (s : ChatState)
    (q : ServiceProgram Response) : Prop :=
  q.AllOps (Makes r.call) ∧ ∀ w a b, r.call = .getOrCreateDMConversation w a b →
    ∃ stage : Stage, q = stage.program r.stamps w a b ∧ stage.Ok origin i s w a b

theorem body_local (origin : Uuid → Origin) (i : ℕ) (r : Request) (s : ChatState) :
    Local origin i r s (body r) := by
  exact ⟨body_makes r, fun w a b hcall => ⟨.looking, body_looking hcall, trivial⟩⟩

theorem local_failed (origin : Uuid → Origin) (i : ℕ) (r : Request) (s : ChatState)
    (e : GoError) : Local origin i r s (.ret (.error e)) :=
  ⟨trivial, fun _ _ _ _ => ⟨.failed e, rfl, trivial⟩⟩

theorem Local.extends {origin origin' : Uuid → Origin} {j : ℕ} {r : Request} {s s' : ChatState}
    {q : ServiceProgram Response} (h : Local origin j r s q)
    (he : Extends origin origin' j s s') : Local origin' j r s' q := by
  refine ⟨h.1, fun w a b hcall => ?_⟩
  obtain ⟨stage, hq, hok⟩ := h.2 w a b hcall
  exact ⟨stage, hq, hok.extends he⟩

/-- A call that adds no participant extends the state for every thread. -/
theorem extends_of_not_add {origin : Uuid → Origin} {op : ServiceCall} {t : Turn Choice GoError}
    {s : ChatState} (hop : ∀ p, op ≠ .conversationAddParticipant p) (j : ℕ) :
    Extends origin origin j s (chatMachine.answer op t s).2 :=
  ⟨answer_grows op t s, fun _ _ => rfl, fun _ _ _ hx => participates_of_not_add hop hx⟩

/-- A call that adds no participant keeps the pairs. -/
theorem pairsKept_of_not_add {origin : Uuid → Origin} {op : ServiceCall} {t : Turn Choice GoError}
    {s : ChatState} (hop : ∀ p, op ≠ .conversationAddParticipant p) (h : PairsKept origin s) :
    PairsKept origin (chatMachine.answer op t s).2 :=
  fun c x hx => h c x (participates_of_not_add hop hx)

/-- A participant takes part in a stored conversation. -/
theorem participates_stored {d : ChatDb} {c x : Uuid} (h : Participates d c x) :
    ∃ v ∈ d.conversations, v.id = c := by
  obtain ⟨p, hp, hc, -⟩ := h
  rw [← hc]
  exact d.valid.participants_conversation p hp

/-- Adding one person of the pair to a conversation of thread `i` keeps the
pairs and extends the state for every other thread. -/
theorem extends_of_add {origin : Uuid → Origin} {p : ChatConversationParticipant}
    {t : Turn Choice GoError} {s : ChatState} {i : ℕ} (h : PairsKept origin s)
    (hthread : (origin p.conversationID).thread = i)
    (hpair : p.personID ∈ (origin p.conversationID).pair) :
    PairsKept origin (chatMachine.answer (.conversationAddParticipant p) t s).2 ∧
      ∀ j, j ≠ i → Extends origin origin j s
        (chatMachine.answer (.conversationAddParticipant p) t s).2 := by
  refine ⟨fun c x hx => ?_, fun j hj => ⟨answer_grows _ t s, fun _ _ => rfl, fun c x hc hx => ?_⟩⟩
  all_goals obtain hold | ⟨hconv, hperson⟩ := answer_add_participates hx
  · exact h c x hold
  · rw [← hconv, ← hperson]
    exact hpair
  · exact hold
  · rw [← hconv, hthread] at hc
    exact absurd hc.symm hj

/-- A new conversation has an origin of its own and nobody in it. -/
theorem extends_of_create {origin : Uuid → Origin} {row created : ChatConversation}
    {t : Turn Choice GoError} {s : ChatState} (fresh : Origin) (h : PairsKept origin s)
    (hr : (chatMachine.answer (.conversationCreate row) t s).1 = .ok created) :
    PairsKept (Function.update origin created.id fresh)
        (chatMachine.answer (.conversationCreate row) t s).2 ∧
      (∀ j, Extends origin (Function.update origin created.id fresh) j s
        (chatMachine.answer (.conversationCreate row) t s).2) ∧
      ∀ x, ¬Participates (chatMachine.answer (.conversationCreate row) t s).2.db created.id x := by
  have hop : ∀ p, ServiceCall.conversationCreate row ≠ .conversationAddParticipant p :=
    fun p hp => by cases hp
  obtain ⟨-, -, -, -, hnew⟩ := answer_create_ok hr
  have hkept : ∀ c, (∃ v ∈ s.db.conversations, v.id = c) →
      Function.update origin created.id fresh c = origin c := by
    rintro c ⟨v, hv, hvc⟩
    refine Function.update_of_ne (fun he => hnew ⟨v, hv, ?_⟩) _ _
    rw [hvc, he]
  refine ⟨fun c x hx => ?_, fun j => ⟨answer_grows _ t s, fun c hc => hkept c.id ⟨c, hc, rfl⟩,
    fun c x _ hx => participates_of_not_add hop hx⟩, fun x hx => ?_⟩
  · have hold := participates_of_not_add hop hx
    rw [hkept c (participates_stored hold)]
    exact h c x hold
  · exact hnew (participates_stored (participates_of_not_add hop hx))

/-- What the call of a stage leaves behind: the pairs are kept, the next stage knows
what it has to, and the state was extended for every other thread. -/
theorem Stage.Ok.answered {origin : Uuid → Origin} {i : ℕ} {s : ChatState} {stamps : ℕ → Stamp}
    {w a b : Uuid} {stage : Stage} {op : ServiceCall} {after : Except GoError op.Reply → Stage}
    (t : Turn Choice GoError) (hs : PairsKept origin s)
    (hcalls : Stage.Calls stamps w a b stage op after) (hok : stage.Ok origin i s w a b) :
    ∃ origin', PairsKept origin' (chatMachine.answer op t s).2 ∧
      (after (chatMachine.answer op t s).1).Ok origin' i (chatMachine.answer op t s).2 w a b ∧
      ∀ j, j ≠ i → Extends origin origin' j s (chatMachine.answer op t s).2 := by
  cases hcalls with
  | looking =>
    have hop : ∀ p, ServiceCall.conversationGetDMByParticipants w a b ≠
        .conversationAddParticipant p := fun p hp => by cases hp
    refine ⟨origin, pairsKept_of_not_add hop hs, ?_, fun j _ => extends_of_not_add hop j⟩
    cases hr : (chatMachine.answer (.conversationGetDMByParticipants w a b) t s).1 with
    | ok conv =>
      obtain ⟨choice, -, ha⟩ := Machine.answer_ok hr
      rw [ha] at hr ⊢
      exact getDMByParticipants_ok hr
    | error e =>
      dsimp only
      split <;> trivial
  | creating =>
    have hop : ∀ p, ServiceCall.conversationCreate ⟨(stamps 0).id, w, .dm, (stamps 0).now⟩ ≠
        .conversationAddParticipant p := fun p hp => by cases hp
    cases hr : (chatMachine.answer
      (.conversationCreate ⟨(stamps 0).id, w, .dm, (stamps 0).now⟩) t s).1 with
    | ok created =>
      obtain ⟨hstored, hw, htype, -, -⟩ := answer_create_ok hr
      obtain ⟨hpairs, hextends, hnobody⟩ := extends_of_create ⟨s(a, b), i⟩ hs hr
      refine ⟨_, hpairs, ?_, fun j _ => hextends j⟩
      dsimp only
      split
      · trivial
      split
      · trivial
      · rename_i ha
        exact ⟨⟨hstored, hw, htype, Function.update_self _ _ _⟩, ha, hnobody⟩
    | error e =>
      exact ⟨origin, pairsKept_of_not_add hop hs, trivial, fun j _ => extends_of_not_add hop j⟩
  | addingFirst created =>
    obtain ⟨hc, ha, hnone⟩ := hok
    have hadd := extends_of_add (t := t)
      (p := ⟨(stamps 1).id, created.id, a, (stamps 1).now⟩) hs
      (by rw [hc.origin] : (origin created.id).thread = i)
      (by rw [hc.origin]; exact Sym2.mem_mk_left a b)
    refine ⟨origin, hadd.1, ?_, hadd.2⟩
    cases hr : (chatMachine.answer (.conversationAddParticipant
      ⟨(stamps 1).id, created.id, a, (stamps 1).now⟩) t s).1 with
    | ok u =>
      dsimp only
      split
      · trivial
      split
      · trivial
      · rename_i hb
        refine ⟨⟨(answer_grows _ t s).conversations created hc.stored, hc.workspace, hc.type,
          hc.origin⟩, ha, hb, answer_addParticipant_ok hr, fun x hx => ?_⟩
        obtain hold | ⟨-, hperson⟩ := answer_add_participates hx
        · exact absurd hold (hnone x)
        · exact hperson.symm
    | error e => trivial
  | addingSecond created =>
    obtain ⟨hc, ha, hb, hpa, honly⟩ := hok
    have hadd := extends_of_add (t := t)
      (p := ⟨(stamps 2).id, created.id, b, (stamps 2).now⟩) hs
      (by rw [hc.origin] : (origin created.id).thread = i)
      (by rw [hc.origin]; exact Sym2.mem_mk_right a b)
    refine ⟨origin, hadd.1, ?_, hadd.2⟩
    cases hr : (chatMachine.answer (.conversationAddParticipant
      ⟨(stamps 2).id, created.id, b, (stamps 2).now⟩) t s).1 with
    | ok u =>
      have hg := answer_grows (.conversationAddParticipant
        ⟨(stamps 2).id, created.id, b, (stamps 2).now⟩) t s
      exact mem_dmsOf.mpr ⟨hg.conversations created hc.stored, hc.workspace, hc.type,
        hg.participates hpa, answer_addParticipant_ok hr⟩
    | error e => trivial

/-- What the calls of a request leave behind: the pairs are kept, the thread
knows its stage, and the state was extended for every other thread. -/
theorem local_turn {origin : Uuid → Origin} {i : ℕ} {r : Request} {s : ChatState}
    {op : ServiceCall} {next : Except GoError op.Reply → ServiceProgram Response}
    (t : Turn Choice GoError) (hs : PairsKept origin s) (h : Local origin i r s (.call op next)) :
    ∃ origin', PairsKept origin' (chatMachine.answer op t s).2 ∧
      Local origin' i r (chatMachine.answer op t s).2 (next (chatMachine.answer op t s).1) ∧
      ∀ j, j ≠ i → Extends origin origin' j s (chatMachine.answer op t s).2 := by
  obtain ⟨hmakes, hrest⟩ := h.1
  by_cases hdm : ∃ w a b, r.call = .getOrCreateDMConversation w a b
  · obtain ⟨w, a, b, hcall⟩ := hdm
    obtain ⟨stage, hq, hok⟩ := h.2 w a b hcall
    obtain ⟨after, hcalls, hnext⟩ := stage.program_call hq.symm
    obtain ⟨origin', hpairs, hok', hothers⟩ := hok.answered t hs hcalls
    refine ⟨origin', hpairs, ⟨hrest _, fun w' a' b' hcall' => ?_⟩, hothers⟩
    cases hcall.symm.trans hcall'
    exact ⟨_, hnext _, hok'⟩
  · have hop : ∀ p, op ≠ .conversationAddParticipant p := by
      rintro p rfl
      exact hdm hmakes.getOrCreateDM_of_add
    exact ⟨origin, pairsKept_of_not_add hop hs,
      ⟨hrest _, fun w a b hcall => absurd ⟨w, a, b, hcall⟩ hdm⟩,
      fun j _ => extends_of_not_add hop j⟩

/-- Some origin map explains the state of the service. -/
def Explained (p : Service) : Prop :=
  ∃ origin, PairsKept origin p.state ∧ p.Each (Local origin)

theorem explained_initial : Explained Service.initial := by
  refine ⟨fun _ => ⟨s(Uuid.nil, Uuid.nil), 0⟩, fun c x hx => ?_, fun i th hi => ?_⟩
  · obtain ⟨p, hp, -⟩ := hx
    cases hp
  · cases hi

theorem explained_step (p : Service) (l : ServiceLabel) (p' : Service) (hp : Explained p)
    (h : Service.step p l = some p') : Explained p' :=
  Pool.step_modular PairsKept Local (fun g i r s _ => body_local g i r s)
    (fun g i r s _ _ e _ => local_failed g i r s e)
    (fun g i r s op next t hs hl => by
      obtain ⟨g', hs', hown, hothers⟩ := local_turn t hs hl
      exact ⟨g', hs', hown, fun j r' q hj hq => hq.extends (hothers j hj)⟩) hp h

/-- A conversation of two distinct persons that both take part in it has no
other participants. -/
theorem PairsKept.exact {origin : Uuid → Origin} {s : ChatState} (h : PairsKept origin s)
    {w a b : Uuid} {c : ChatConversation} (hab : a ≠ b)
    (hc : c ∈ ConversationRepo.dmsOf s.db w a b) (x : Uuid) :
    Participates s.db c.id x ↔ x = a ∨ x = b := by
  obtain ⟨-, -, -, ha, hb⟩ := mem_dmsOf.mp hc
  have hpair : (origin c.id).pair = s(a, b) :=
    (Sym2.mem_and_mem_iff hab).mp ⟨h c.id a ha, h c.id b hb⟩
  constructor
  · intro hx
    have hmem := h c.id x hx
    rw [hpair] at hmem
    exact Sym2.mem_iff.mp hmem
  · rintro (rfl | rfl)
    · exact ha
    · exact hb

/-- A returned conversation is one that the lookup for the pair selects. -/
theorem returned_mem_dmsOf {p : Service} (h : Explained p) {i : ℕ} {r : Request} {w a b : Uuid}
    {c : ChatConversation} (hcall : r.call = .getOrCreateDMConversation w a b)
    (hi : p.threads[i]? = some ⟨r, .ret (.ok (.conversation c))⟩) :
    c ∈ ConversationRepo.dmsOf p.state.db w a b := by
  obtain ⟨origin, -, hlocal⟩ := h
  obtain ⟨stage, hq, hok⟩ := (hlocal i _ hi).2 w a b hcall
  cases stage with
  | returned conv =>
    cases hq
    exact hok
  | failed err => cases hq
  | looking => cases hq
  | creating => cases hq
  | addingFirst created => cases hq
  | addingSecond created => cases hq

/-- In every run, with crashes and failed calls, the conversation that a
successful `GetOrCreateDMConversation` of two distinct persons returned is a
direct conversation of the workspace, and its participants are those two. -/
theorem returned_dm_exact {ls later : List ServiceLabel} {p p' : Service} {i : ℕ} {r : Request}
    {w a b : Uuid} {c : ChatConversation} (h : run Service.step Service.initial ls = some p)
    (hcall : r.call = .getOrCreateDMConversation w a b) (hab : a ≠ b)
    (hi : p.threads[i]? = some ⟨r, .ret (.ok (.conversation c))⟩)
    (hlater : run Service.step p later = some p') :
    c ∈ p'.state.db.conversations ∧ c.type = .dm ∧ c.workspaceID = w ∧
      ∀ x, Participates p'.state.db c.id x ↔ x = a ∨ x = b := by
  have hexp : Explained p' := run_invariant explained_step
    (run_invariant explained_step explained_initial h) hlater
  have hc := returned_mem_dmsOf hexp hcall (Pool.run_returned hi hlater)
  obtain ⟨origin, hpairs, -⟩ := hexp
  obtain ⟨hstored, hw, htype, -, -⟩ := mem_dmsOf.mp hc
  exact ⟨hstored, htype, hw, hpairs.exact hab hc⟩

/-- Person 1 opens the direct conversation with person 2 in workspace 10. -/
def openDM : List ServiceLabel :=
  [.start (Call.createWorkspace 9 3 "HQ").request, served 0 10 0,
    .start (Call.getOrCreateDMConversation 10 1 2).request,
    served 1 1 0, served 1 30 0, served 1 40 0, served 1 41 0]

/-- The conversation that person 1 gets has the participants 1 and 2. -/
theorem returned_dm_exact_openDM :
    ∃ p, run Service.step Service.initial openDM = some p ∧
      ∀ x, Participates p.state.db 30 x ↔ x = 1 ∨ x = 2 := by
  have hrun : (run Service.step Service.initial openDM).isSome = true := by decide
  obtain ⟨p, hp⟩ := Option.isSome_iff_exists.mp hrun
  have hthread : (run Service.step Service.initial openDM).bind (fun q => q.threads[1]?) =
      some ⟨(Call.getOrCreateDMConversation 10 1 2).request,
        .ret (.ok (.conversation ⟨30, 10, .dm, 0⟩))⟩ := rfl
  rw [hp] at hthread
  have hexact := returned_dm_exact hp rfl (by decide : (1 : Uuid) ≠ 2) hthread
    (rfl : run Service.step p [] = some p)
  exact ⟨p, hp, hexact.2.2.2⟩

end AuraWellness.Chat.DirectMessages
