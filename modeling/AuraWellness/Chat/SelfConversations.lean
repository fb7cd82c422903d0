import AuraWellness.Chat.OnePerPair

/-!
# A direct conversation with oneself

The lookup of `GetOrCreateDMConversation` asks for two participants with one condition
each. For a person who asks twice for oneself the two conditions are one, and every direct
conversation in which the person takes part meets it. What such a call returns is the
person's own conversation only as long as the person shares none.
-/

namespace AuraWellness.Chat.SelfConversations

open AuraWellness.Lib.Calls AuraWellness.Lib.Transition AuraWellness.Lib.Ranked
open AuraWellness.Lib.Keyed AuraWellness.Chat.Entities AuraWellness.Chat.Schema
open AuraWellness.Chat.Repositories AuraWellness.Chat.Services AuraWellness.Chat.Growth
open AuraWellness.Chat.DirectMessages AuraWellness.Chat.OnePerPair

/-- The participant that the thread is about to add. -/
def adding (th : ServiceThread) : Option ChatConversationParticipant :=
  match th.prog with
  | .call (.conversationAddParticipant row) _ => some row
  | _ => none

/-- Nobody but the person takes part in the conversation, and no call is about to add
anybody else to it. -/
def OnlyFor (p : Service) (personID conversationID : Uuid) : Prop :=
  (∀ row ∈ p.state.db.participants, row.conversationID = conversationID →
    row.personID = personID) ∧
  ∀ th ∈ p.threads, ∀ row ∈ adding th, row.conversationID = conversationID →
    row.personID = personID

instance (p : Service) (a c : Uuid) : Decidable (OnlyFor p a c) := by
  unfold OnlyFor
  infer_instance

/-- A direct conversation of the workspace of which the person is, and stays, the only
participant. -/
structure OwnConversation (p : Service) (workspaceID personID : Uuid) (c : ChatConversation) :
    Prop where
  stored : c ∈ p.state.db.conversations
  type : c.type = .dm
  workspace : c.workspaceID = workspaceID
  participates : Participates p.state.db c.id personID
  only : OnlyFor p personID c.id

/-- The participants of the person's own conversation. -/
theorem OwnConversation.exact {p : Service} {w a : Uuid} {c : ChatConversation}
    (h : OwnConversation p w a c) (x : Uuid) : Participates p.state.db c.id x ↔ x = a := by
  constructor
  · rintro ⟨row, hrow, hconv, rfl⟩
    exact h.only.1 row hrow hconv
  · rintro rfl
    exact h.participates

/-- The conversation to which a call is about to add a participant. -/
def Stage.target : Stage → Option Uuid
  | .addingFirst created => some created.id
  | .addingSecond created => some created.id
  | _ => none

/-- What a call adds at a stage is for the target of the stage. -/
theorem adding_program {r : Request} {w a b : Uuid} {stage : Stage}
    {row : ChatConversationParticipant}
    (h : row ∈ adding ⟨r, stage.program r.stamps w a b⟩) :
    Stage.target stage = some row.conversationID := by
  cases stage <;> cases h <;> rfl

/-- Only calls for direct conversations add participants. -/
theorem adding_call {r : Request} {q : ServiceProgram Response}
    {row : ChatConversationParticipant} (h : q.AllOps (Makes r.call)) (hrow : row ∈ adding ⟨r, q⟩) :
    ∃ w a b, r.call = .getOrCreateDMConversation w a b := by
  unfold adding at hrow
  split at hrow
  · rename_i row' next hq
    dsimp only at hq
    rw [hq] at h
    exact Makes.getOrCreateDM_of_add h.1
  · cases hrow

/-- A thread adds participants to the conversation that it has created itself. -/
theorem adding_thread {origin : Uuid → Origin} {i : ℕ} {r : Request} {s : ChatState}
    {q : ServiceProgram Response} {row : ChatConversationParticipant}
    (h : Local origin i r s q) (hrow : row ∈ adding ⟨r, q⟩) :
    (origin row.conversationID).thread = i := by
  obtain ⟨w, a, b, hcall⟩ := adding_call h.1 hrow
  obtain ⟨stage, rfl, hok⟩ := h.2 w a b hcall
  have htarget := adding_program hrow
  cases stage with
  | addingFirst created => rw [← Option.some.inj htarget, hok.1.origin]
  | addingSecond created => rw [← Option.some.inj htarget, hok.1.origin]
  | looking => cases htarget
  | creating => cases htarget
  | returned conv => cases htarget
  | failed err => cases htarget

/-- Nobody takes part yet in the conversation to which a turn makes a thread add. -/
theorem adding_next {origin : Uuid → Origin} {i : ℕ} {r : Request} {s : ChatState}
    {op : ServiceCall} {next : Except GoError op.Reply → ServiceProgram Response}
    {t : Turn Choice GoError} {row : ChatConversationParticipant}
    (h : Local origin i r s (.call op next))
    (hrow : row ∈ adding ⟨r, next (chatMachine.answer op t s).1⟩) (x : Uuid) :
    ¬Participates s.db row.conversationID x := by
  obtain ⟨w, a, b, hcall⟩ := adding_call (h.1.2 _) hrow
  obtain ⟨stage, hq, hok⟩ := h.2 w a b hcall
  obtain ⟨after, hcalls, hnext⟩ := stage.program_call hq.symm
  rw [hnext] at hrow
  have htarget := adding_program hrow
  generalize row.conversationID = id at htarget
  cases hcalls with
  | looking =>
    dsimp only at htarget
    split at htarget
    · cases htarget
    · split at htarget <;> cases htarget
  | creating =>
    dsimp only at htarget
    split at htarget
    · rename_i created hr
      obtain ⟨-, -, -, -, hnew⟩ := answer_create_ok hr
      split at htarget
      · cases htarget
      split at htarget
      · cases htarget
      · cases htarget
        exact fun hx => hnew (participates_stored hx)
    · cases htarget
  | addingFirst created =>
    obtain ⟨-, -, hnobody⟩ := hok
    dsimp only at htarget
    split at htarget
    · split at htarget
      · cases htarget
      split at htarget
      · cases htarget
      · cases htarget
        exact hnobody x
    · cases htarget
  | addingSecond created =>
    dsimp only at htarget
    split at htarget <;> cases htarget

/-- A thread that has just started adds nobody yet. -/
theorem adding_body (r : Request) : adding ⟨r, body r⟩ = none := by
  cases hrow : adding ⟨r, body r⟩ with
  | none => rfl
  | some row =>
    obtain ⟨w, a, b, hcall⟩ := adding_call (body_makes r) hrow
    rw [body_looking hcall] at hrow
    cases hrow

/-- The person's own conversation stays so in every step. -/
theorem ownConversation_step {p p' : Service} {l : ServiceLabel} {w a : Uuid}
    {c : ChatConversation} (hp : Explained p) (hc : OwnConversation p w a c)
    (h : Service.step p l = some p') : OwnConversation p' w a c := by
  obtain ⟨origin, -, hlocal⟩ := hp
  obtain ⟨hparticipants, hcoming⟩ := hc.only
  cases l with
  | start r =>
    cases h
    refine ⟨hc.stored, hc.type, hc.workspace, hc.participates, hparticipants, fun th hth row hrow => ?_⟩
    obtain hold | hnew := List.mem_append.mp hth
    · exact hcoming th hold row hrow
    · rw [List.mem_singleton.mp hnew, adding_body] at hrow
      cases hrow
  | turn i t =>
    obtain ⟨r, op, next, hi, -, rfl⟩ := Pool.step_turn h
    have hg := answer_grows op t p.state
    refine ⟨hg.conversations c hc.stored, hc.type, hc.workspace, hg.participates hc.participates,
      fun row hrow hconv => ?_, fun th hth row hrow hconv => ?_⟩
    · obtain ⟨old, hold, hoc, hop⟩ | ⟨added, rfl, hac, hap⟩ :=
        answer_participates ⟨row, hrow, hconv, rfl⟩
      · rw [← hop]
        exact hparticipants old hold hoc
      · rw [← hap]
        exact hcoming _ (List.mem_of_getElem? hi) added rfl hac
    · obtain hold | rfl := List.mem_or_eq_of_mem_set hth
      · exact hcoming th hold row hrow hconv
      · exact absurd (hconv ▸ hc.participates) (adding_next (hlocal i _ hi) hrow a)
  | crash i e =>
    obtain ⟨r, op, next, hi, rfl⟩ := Pool.step_crash h
    refine ⟨hc.stored, hc.type, hc.workspace, hc.participates, hparticipants,
      fun th hth row hrow hconv => ?_⟩
    obtain hold | rfl := List.mem_or_eq_of_mem_set hth
    · exact hcoming th hold row hrow hconv
    · cases hrow

/-- The conversation that a call creates for one person is the person's own when the call
has added the person for the second time. -/
theorem ownConversation_created {origin : Uuid → Origin} {p : Service} {i : ℕ} {r : Request}
    {w a : Uuid} {created : ChatConversation} {t : Turn Choice GoError}
    {q : ServiceProgram Response} (hlocal : p.Each (Local origin))
    (hok : Stage.Ok origin i p.state w a a (.addingSecond created))
    (hq : adding ⟨r, q⟩ = none) :
    OwnConversation ⟨(chatMachine.answer (.conversationAddParticipant
      ⟨(r.stamps 2).id, created.id, a, (r.stamps 2).now⟩) t p.state).2,
      p.threads.set i ⟨r, q⟩⟩ w a created := by
  obtain ⟨hc, -, -, hperson, honly⟩ := hok
  have hg := answer_grows (.conversationAddParticipant
    ⟨(r.stamps 2).id, created.id, a, (r.stamps 2).now⟩) t p.state
  refine ⟨hg.conversations created hc.stored, hc.type, hc.workspace, hg.participates hperson,
    fun row hrow hconv => ?_, fun th hth row hrow hconv => ?_⟩
  · obtain hold | ⟨-, hadded⟩ := answer_add_participates ⟨row, hrow, hconv, rfl⟩
    · exact honly row.personID hold
    · exact hadded.symm
  · obtain ⟨j, hj⟩ := List.mem_iff_getElem?.mp hth
    obtain ⟨-, rfl⟩ | ⟨hne, hj⟩ := getElem?_set_cases hj
    · rw [hq] at hrow
      cases hrow
    · have hthread := adding_thread (hlocal j th hj) hrow
      rw [hconv, hc.origin] at hthread
      exact absurd hthread.symm hne

/-- The thread has looked up for its call, and what it has returned is the person's own. -/
structure Served (p : Service) (i : ℕ) (r : Request) (workspaceID personID : Uuid) : Prop where
  explained : Explained p
  thread : ∃ q, p.threads[i]? = some ⟨r, q⟩ ∧ lookingUp ⟨r, q⟩ = none ∧
    ∀ c, q = .ret (.ok (.conversation c)) → OwnConversation p workspaceID personID c

/-- A turn of the thread itself after its lookup. -/
theorem served_turn {p p' : Service} {i : ℕ} {t : Turn Choice GoError} {r : Request} {w a : Uuid}
    (hcall : r.call = .getOrCreateDMConversation w a a) (hp : Served p i r w a)
    (h : Service.step p (.turn i t) = some p') : Served p' i r w a := by
  refine ⟨explained_step p _ p' hp.explained h, ?_⟩
  obtain ⟨q, hi, hlooked, -⟩ := hp.thread
  obtain ⟨r', op, next, hi', -, rfl⟩ := Pool.step_turn h
  cases hi.symm.trans hi'
  obtain ⟨origin, -, hlocal⟩ := hp.explained
  have hthread : Local origin i r p.state (.call op next) := hlocal i _ hi
  obtain ⟨stage, hq, hok⟩ := hthread.2 w a a hcall
  obtain ⟨after, hcalls, hnext⟩ := stage.program_call hq.symm
  refine ⟨_, List.getElem?_set_self (List.getElem?_eq_some_iff.mp hi).1, ?_⟩
  rw [hnext]
  cases hcalls with
  | looking => cases hlooked
  | creating =>
    -- the call fails or goes on, and has returned nothing yet
    dsimp only
    repeat' split
    all_goals exact ⟨rfl, fun c hc => by cases hc⟩
  | addingFirst created =>
    dsimp only
    repeat' split
    all_goals exact ⟨rfl, fun c hc => by cases hc⟩
  | addingSecond created =>
    dsimp only
    split
    · refine ⟨rfl, fun c hc => ?_⟩
      cases hc
      exact ownConversation_created hlocal hok rfl
    · exact ⟨rfl, fun c hc => by cases hc⟩

/-- Every step after the lookup. -/
theorem served_step {p p' : Service} {l : ServiceLabel} {i : ℕ} {r : Request} {w a : Uuid}
    (hcall : r.call = .getOrCreateDMConversation w a a) (hp : Served p i r w a)
    (h : Service.step p l = some p') : Served p' i r w a := by
  obtain ⟨q, hi, hlooked, hreturned⟩ := hp.thread
  have hexplained := explained_step p l p' hp.explained h
  have other : p'.threads[i]? = some ⟨r, q⟩ → Served p' i r w a := fun hi' =>
    ⟨hexplained, q, hi', hlooked, fun c hc => ownConversation_step hp.explained (hreturned c hc) h⟩
  cases l with
  | start r' =>
    cases h
    exact other ((List.getElem?_append_left (List.getElem?_eq_some_iff.mp hi).1).trans hi)
  | turn j t =>
    by_cases hj : j = i
    · subst hj
      exact served_turn hcall hp h
    · obtain ⟨r', op, next, -, -, he⟩ := Pool.step_turn h
      refine other ?_
      rw [he]
      exact (List.getElem?_set_ne hj).trans hi
  | crash j e =>
    obtain ⟨r', op, next, hj, he⟩ := Pool.step_crash h
    by_cases hji : j = i
    · subst hji
      cases hi.symm.trans hj
      refine ⟨hexplained, .ret (.error e), ?_, rfl, fun c hc => by cases hc⟩
      rw [he]
      exact List.getElem?_set_self (List.getElem?_eq_some_iff.mp hi).1
    · refine other ?_
      rw [he]
      exact (List.getElem?_set_ne hji).trans hi

/-- The turn with which a call for one person looks up. -/
theorem served_lookup {p p' : Service} {i : ℕ} {t : Turn Choice GoError} {r : Request} {w a : Uuid}
    (hcall : r.call = .getOrCreateDMConversation w a a) (hp : Explained p)
    (hi : p.threads[i]? = some ⟨r, body r⟩)
    (hown : ∀ c ∈ p.state.db.conversations, c.workspaceID = w → c.type = .dm →
      Participates p.state.db c.id a → OnlyFor p a c.id)
    (h : Service.step p (.turn i t) = some p') : Served p' i r w a := by
  have hexplained := explained_step p _ p' hp h
  obtain ⟨r', op, next, hi', -, rfl⟩ := Pool.step_turn h
  rw [body_looking hcall] at hi
  obtain ⟨rfl, hq⟩ := Thread.mk.inj (Option.some.inj (hi.symm.trans hi'))
  obtain ⟨after, hcalls, hnext⟩ := Stage.looking.program_call hq
  refine ⟨hexplained, _, List.getElem?_set_self (List.getElem?_eq_some_iff.mp hi).1, ?_⟩
  rw [hnext]
  cases hcalls with
  | looking =>
    dsimp only
    split
    · rename_i conv hok
      refine ⟨rfl, fun c hc => ?_⟩
      cases hc
      obtain ⟨choice, -, ha⟩ := Machine.answer_ok hok
      rw [ha] at hok ⊢
      obtain ⟨hstored, hw, htype, hperson, -⟩ := mem_dmsOf.mp (getDMByParticipants_ok hok)
      obtain ⟨hparticipants, hcoming⟩ := hown conv hstored hw htype hperson
      refine ⟨hstored, htype, hw, hperson, hparticipants, fun th hth row hrow => ?_⟩
      obtain hold | rfl := List.mem_or_eq_of_mem_set hth
      · exact hcoming th hold row hrow
      · cases hrow
    · split
      · exact ⟨rfl, fun c hc => by cases hc⟩
      · exact ⟨rfl, fun c hc => by cases hc⟩

/-- The lookup of a call for one person may return any direct conversation of the
workspace in which the person takes part. -/
theorem lookup_any {p : Service} {i : ℕ} {r : Request} {w a : Uuid} {c : ChatConversation}
    (hcall : r.call = .getOrCreateDMConversation w a a)
    (hi : p.threads[i]? = some ⟨r, body r⟩) (hc : c ∈ ConversationRepo.dmsOf p.state.db w a a) :
    ∃ answer, Service.step p (.turn i answer) =
      some ⟨p.state, p.threads.set i ⟨r, .ret (.ok (.conversation c))⟩⟩ := by
  have hid : ∀ v ∈ ConversationRepo.dmsOf p.state.db w a a, v.id = c.id → v = c := fun v hv he =>
    p.state.db.valid.conversations_id.eq (mem_dmsOf.mp hv).1 (mem_dmsOf.mp hc).1 he
  let choice : Choice := ⟨1, by decide, 0, fun id => if id = c.id then 0 else 1⟩
  have hfirst : (sortOn (tieRank (fun _ => ()) choice.tie ChatConversation.id)
      (ConversationRepo.dmsOf p.state.db w a a)).head? = some c := by
    refine head?_sortOn_preferred ChatConversation.id hc hid fun id hother => ?_
    simp [choice, hother]
  obtain ⟨rest, hrest⟩ := List.head?_eq_some_iff.mp hfirst
  have hlookup : ConversationRepo.getDMByParticipants p.state.db choice w a a = .ok c := by
    unfold ConversationRepo.getDMByParticipants
    rw [hrest]
    rfl
  refine ⟨.serve choice, ?_⟩
  rw [body_looking hcall] at hi
  refine (Pool.step_serve hi choice).trans ?_
  have hexec : chatMachine.exec (.conversationGetDMByParticipants w a a) choice p.state =
      (.ok c, p.state) := by
    rw [← hlookup]
    rfl
  rw [hexec]
  rfl

/-- What a thread is about to add to a stored conversation may be added next. -/
theorem add_next {p : Service} {j : ℕ} {th : ServiceThread} {row : ChatConversationParticipant}
    (hj : p.threads[j]? = some th) (hrow : row ∈ adding th)
    (hc : ∃ c ∈ p.state.db.conversations, c.id = row.conversationID) :
    ∃ answer p', Service.step p (.turn j answer) = some p' ∧
      Participates p'.state.db row.conversationID row.personID ∧
      ∀ k th', k ≠ j → p.threads[k]? = some th' → p'.threads[k]? = some th' := by
  obtain ⟨r, q⟩ := th
  unfold adding at hrow
  split at hrow
  · rename_i row' next hq
    dsimp only at hq
    subst hq
    cases hrow
    obtain ⟨id, hid, hfresh⟩ := exists_fresh
      (p.state.db.participants.map ChatConversationParticipant.id)
    have hnew : ¬∃ v ∈ p.state.db.participants, v.id = id := fun ⟨v, hv, he⟩ =>
      hfresh (List.mem_map.mpr ⟨v, hv, he⟩)
    let choice : Choice := ⟨id, hid, 0, fun _ => 0⟩
    obtain ⟨d, hinsert⟩ : ∃ d, p.state.db.insertParticipant choice row = .ok ((), d) :=
      insertParticipant_accepts hnew hc
    have hok : (chatMachine.answer (.conversationAddParticipant row) (.serve choice)
        p.state).1 = .ok () := by
      have hexec : chatMachine.exec (.conversationAddParticipant row) choice p.state =
          commitWrite "add participant" p.state (p.state.db.insertParticipant choice row) := rfl
      refine (?_ : (chatMachine.exec _ choice p.state).1 = _)
      rw [hexec, hinsert]
      rfl
    exact ⟨.serve choice, _, Pool.step_serve hj choice, answer_addParticipant_ok hok,
      fun k th' hk hth' => (List.getElem?_set_ne (Ne.symm hk)).trans hth'⟩
  · cases hrow

/-- In every reachable state in which a call for one person is about to look up: whatever
happens then, what the call returns when it succeeds is a direct conversation of the
workspace with that person as its only participant, exactly if nobody else takes part, or
is about to be added, in any direct conversation of the workspace in which the person takes
part. -/
theorem selfConversation_iff {p : Service} {i : ℕ} {r : Request} {w a : Uuid}
    (hp : Reachable Service.step Service.initial p)
    (hcall : r.call = .getOrCreateDMConversation w a a)
    (hi : p.threads[i]? = some ⟨r, body r⟩) :
    (∀ answer later p' c, run Service.step p (.turn i answer :: later) = some p' →
      p'.threads[i]? = some ⟨r, .ret (.ok (.conversation c))⟩ →
      c ∈ p'.state.db.conversations ∧ c.type = .dm ∧ c.workspaceID = w ∧
        ∀ x, Participates p'.state.db c.id x ↔ x = a) ↔
    ∀ c ∈ p.state.db.conversations, c.workspaceID = w → c.type = .dm →
      Participates p.state.db c.id a → OnlyFor p a c.id := by
  have hexplained : Explained p := hp.invariant explained_step explained_initial
  constructor
  · intro h c hstored hw htype hperson
    obtain ⟨answer, hlookup⟩ := lookup_any hcall hi
      (mem_dmsOf.mpr ⟨hstored, hw, htype, hperson, hperson⟩)
    have hreturned := List.getElem?_set_self (a := ⟨r, .ret (.ok (.conversation c))⟩)
      (List.getElem?_eq_some_iff.mp hi).1
    constructor
    · intro row hrow hconv
      obtain ⟨-, -, -, hexact⟩ := h answer [] _ c (run_cons.mpr ⟨_, hlookup, rfl⟩) hreturned
      exact (hexact row.personID).mp ⟨row, hrow, hconv, rfl⟩
    · intro th hth row hrow hconv
      obtain ⟨j, hj⟩ := List.mem_iff_getElem?.mp hth
      have hne : j ≠ i := by
        rintro rfl
        cases hi.symm.trans hj
        rw [adding_body] at hrow
        cases hrow
      obtain ⟨answer', p', hadd, hadded, hkept⟩ := add_next
        (p := ⟨p.state, p.threads.set i ⟨r, .ret (.ok (.conversation c))⟩⟩)
        ((List.getElem?_set_ne (Ne.symm hne)).trans hj) hrow ⟨c, hstored, hconv.symm⟩
      obtain ⟨-, -, -, hexact⟩ := h answer [.turn j answer'] p' c
        (run_cons.mpr ⟨_, hlookup, run_cons.mpr ⟨p', hadd, rfl⟩⟩)
        (hkept i _ (Ne.symm hne) hreturned)
      rw [hconv] at hadded
      exact (hexact row.personID).mp hadded
  · intro h answer later p' c hrun hreturned
    obtain ⟨next, hlookup, hlater⟩ := run_cons.mp hrun
    have hserved : Served p' i r w a := run_invariant (I := fun q => Served q i r w a)
      (fun _ _ _ hq hl => served_step hcall hq hl)
      (served_lookup hcall hexplained hi h hlookup) hlater
    obtain ⟨q, hq, -, hown⟩ := hserved.thread
    cases hreturned.symm.trans hq
    have hc := hown c rfl
    exact ⟨hc.stored, hc.type, hc.workspace, hc.exact⟩

/-- Person 1 asks for a direct conversation with oneself in the new workspace 10. -/
def openSelf : List ServiceLabel :=
  [.start (Call.createWorkspace 9 3 "HQ").request, served 0 10 0,
    .start (Call.getOrCreateDMConversation 10 1 1).request]

/-- Where the workspace has no direct conversations, the person gets an own one. -/
theorem selfConversation_iff_openSelf :
    ∃ p, run Service.step Service.initial openSelf = some p ∧
      ∀ answer later p' c, run Service.step p (.turn 1 answer :: later) = some p' →
        p'.threads[1]? = some ⟨(Call.getOrCreateDMConversation 10 1 1).request,
          .ret (.ok (.conversation c))⟩ →
        c ∈ p'.state.db.conversations ∧ c.type = .dm ∧ c.workspaceID = 10 ∧
          ∀ x, Participates p'.state.db c.id x ↔ x = 1 := by
  have hrun : (run Service.step Service.initial openSelf).isSome = true := by decide
  obtain ⟨p, hp⟩ := Option.isSome_iff_exists.mp hrun
  have hthread : (run Service.step Service.initial openSelf).bind (fun q => q.threads[1]?) =
      some ⟨(Call.getOrCreateDMConversation 10 1 1).request,
        body (Call.getOrCreateDMConversation 10 1 1).request⟩ := rfl
  have hnone : (run Service.step Service.initial openSelf).map
      (fun q => q.state.db.conversations) = some [] := rfl
  rw [hp] at hthread hnone
  have hempty : p.state.db.conversations = [] := Option.some.inj hnone
  refine ⟨p, hp, (selfConversation_iff ⟨openSelf, hp⟩ rfl hthread).mpr fun c hc => ?_⟩
  rw [hempty] at hc
  cases hc

/-- Person 1, who has a direct conversation with person 2, asks for one with oneself. -/
def openDMThenSelf : List ServiceLabel :=
  openDM ++ [.start (Call.getOrCreateDMConversation 10 1 1).request, served 2 1 0]

/-- The call returns the conversation with person 2. -/
theorem selfConversation_not_always :
    ¬∀ (p : Service) (i : ℕ) (r : Request) (w a : Uuid) (c : ChatConversation),
      Reachable Service.step Service.initial p → r.call = .getOrCreateDMConversation w a a →
      p.threads[i]? = some ⟨r, .ret (.ok (.conversation c))⟩ →
      c ∈ p.state.db.conversations ∧ c.type = .dm ∧ c.workspaceID = w ∧
        ∀ x, Participates p.state.db c.id x ↔ x = a := by
  intro h
  have hrun : (run Service.step Service.initial openDMThenSelf).isSome = true := by decide
  obtain ⟨p, hp⟩ := Option.isSome_iff_exists.mp hrun
  have hthread : (run Service.step Service.initial openDMThenSelf).bind (fun q => q.threads[2]?) =
      some ⟨(Call.getOrCreateDMConversation 10 1 1).request,
        .ret (.ok (.conversation ⟨30, 10, .dm, 0⟩))⟩ := rfl
  have hother : (run Service.step Service.initial openDMThenSelf).map
      (fun q => decide (Participates q.state.db 30 2)) = some true := by decide
  rw [hp] at hthread hother
  obtain ⟨-, -, -, hexact⟩ := h p 2 _ 10 1 _ ⟨openDMThenSelf, hp⟩ rfl hthread
  have htwo : Participates p.state.db 30 2 := of_decide_eq_true (Option.some.inj hother)
  exact absurd ((hexact 2).mp htwo) (by decide)

end AuraWellness.Chat.SelfConversations
