import AuraWellness.Chat.DirectMessages

/-!
# One direct conversation for each pair

Two calls for one pair that both look before either has finished create two
conversations, which no index forbids. When no lookup for a pair falls into
another call's creation for that pair, there is at most one conversation and
every successful call returns it.
-/

namespace AuraWellness.Chat.OnePerPair

open AuraWellness.Lib.Transition AuraWellness.Lib.Calls
open AuraWellness.Chat.Entities AuraWellness.Chat.Schema AuraWellness.Chat.Repositories
open AuraWellness.Chat.Services AuraWellness.Chat.Growth AuraWellness.Chat.DirectMessages

/-- No repository call of the step fails for the environment's sake, and nothing
crashes. -/
def Faultless : ServiceLabel → Prop
  | .start _ => True
  | .turn _ (.serve _) => True
  | _ => False

instance : DecidablePred Faultless := fun l => by
  unfold Faultless
  split <;> infer_instance

/-- A thread of the service. -/
abbrev ServiceThread := Thread serviceSignature GoError Response Request

/-- The workspace and the pair that a call asks a direct conversation for. -/
def pairAsked : Call → Option (Uuid × Sym2 Uuid)
  | .getOrCreateDMConversation w a b => some (w, s(a, b))
  | _ => none

/-- The thread is about to insert a conversation or a participant. -/
def inserts (th : ServiceThread) : Bool :=
  match th.prog with
  | .call (.conversationCreate _) _ => true
  | .call (.conversationAddParticipant _) _ => true
  | _ => false

/-- The arguments of the lookup that the thread is about to make. -/
def lookingUp (th : ServiceThread) : Option (Uuid × Uuid × Uuid) :=
  match th.prog with
  | .call (.conversationGetDMByParticipants w a b) _ => some (w, a, b)
  | _ => none

/-- The thread serves a `GetOrCreateDMConversation` for this workspace and pair
and has still to make one of its inserts, the lookup being done. -/
def Building (th : ServiceThread) (w : Uuid) (pair : Sym2 Uuid) : Prop :=
  pairAsked th.req.call = some (w, pair) ∧ inserts th = true

instance (th : ServiceThread) (w : Uuid) (pair : Sym2 Uuid) : Decidable (Building th w pair) := by
  unfold Building
  infer_instance

/-- When the step is a lookup for two distinct persons, no call for the same
workspace and pair is between its lookup and its last insert. -/
def LookupAlone (p : Service) : ServiceLabel → Prop
  | .turn i _ => ∀ th ∈ p.threads[i]?, ∀ k ∈ lookingUp th,
    k.2.1 ≠ k.2.2 → k.2.1 ≠ Uuid.nil → k.2.2 ≠ Uuid.nil →
    ∀ th' ∈ p.threads, ¬Building th' k.1 s(k.2.1, k.2.2)
  | _ => True

instance (p : Service) (l : ServiceLabel) : Decidable (LookupAlone p l) := by
  unfold LookupAlone
  split <;> infer_instance

/-- The stages between the lookup and the last insert. -/
def Stage.Builds : Stage → Prop
  | .creating | .addingFirst _ | .addingSecond _ => True
  | _ => False

/-- A call builds at the stages between its lookup and its last insert, and
only for the pair it was asked for. -/
theorem building_iff {r : Request} {w a b : Uuid} {stage : Stage}
    (hcall : r.call = .getOrCreateDMConversation w a b) {w' : Uuid} {pair : Sym2 Uuid} :
    Building ⟨r, stage.program r.stamps w a b⟩ w' pair ↔
      Stage.Builds stage ∧ w' = w ∧ pair = s(a, b) := by
  have hinserts : inserts ⟨r, stage.program r.stamps w a b⟩ = true ↔ Stage.Builds stage := by
    cases stage with
    | creating => exact ⟨fun _ => trivial, fun _ => rfl⟩
    | addingFirst created => exact ⟨fun _ => trivial, fun _ => rfl⟩
    | addingSecond created => exact ⟨fun _ => trivial, fun _ => rfl⟩
    | looking => exact ⟨fun h => (by cases h), fun h => h.elim⟩
    | returned conv => exact ⟨fun h => (by cases h), fun h => h.elim⟩
    | failed err => exact ⟨fun h => (by cases h), fun h => h.elim⟩
  unfold Building
  rw [hinserts, hcall]
  constructor
  · rintro ⟨hasked, hbuilds⟩
    cases hasked
    exact ⟨hbuilds, rfl, rfl⟩
  · rintro ⟨hbuilds, rfl, rfl⟩
    exact ⟨rfl, hbuilds⟩

/-- A thread that does not serve a direct conversation builds none. -/
theorem building_call {th : ServiceThread} {w : Uuid} {pair : Sym2 Uuid}
    (h : Building th w pair) :
    ∃ a b, th.req.call = .getOrCreateDMConversation w a b ∧ s(a, b) = pair := by
  obtain ⟨hasked, -⟩ := h
  unfold pairAsked at hasked
  split at hasked
  · rename_i w' a b hcall
    cases hasked
    exact ⟨a, b, hcall, rfl⟩
  · cases hasked

/-- At most one conversation for each pair, at most one call building it, and
none while a call builds. -/
structure UniquePairs (p : Service) : Prop where
  explained : Explained p
  unique : ∀ w a b c c', a ≠ b → c ∈ ConversationRepo.dmsOf p.state.db w a b →
    c' ∈ ConversationRepo.dmsOf p.state.db w a b → c = c'
  alone : ∀ (i j : ℕ) th th' w a b, a ≠ b → a ≠ Uuid.nil → b ≠ Uuid.nil →
    p.threads[i]? = some th → p.threads[j]? = some th' →
    Building th w s(a, b) → Building th' w s(a, b) → i = j
  first : ∀ (i : ℕ) th w a b c, a ≠ b → a ≠ Uuid.nil → b ≠ Uuid.nil → p.threads[i]? = some th →
    Building th w s(a, b) → c ∉ ConversationRepo.dmsOf p.state.db w a b

/-- A conversation that one step has completed is new for its pair only through
the last insert; every other call keeps the selected conversations. -/
theorem dmsOf_of_not_add {op : ServiceCall} {t : Turn Choice GoError} {s : ChatState}
    (hop : ∀ p, op ≠ .conversationAddParticipant p) {w a b : Uuid} {c : ChatConversation}
    (h : c ∈ ConversationRepo.dmsOf (chatMachine.answer op t s).2.db w a b) :
    c ∈ ConversationRepo.dmsOf s.db w a b := by
  obtain ⟨hstored, hw, htype, ha, hb⟩ := mem_dmsOf.mp h
  have ha' := participates_of_not_add hop ha
  obtain hc | ⟨c₀, -, -, -, hnew⟩ := answer_conversation hstored
  · exact mem_dmsOf.mpr ⟨hc, hw, htype, ha', participates_of_not_add hop hb⟩
  · exact absurd (participates_stored ha') hnew

/-- Adding a participant selects at most the conversation that it is added to. -/
theorem dmsOf_of_add {q : ChatConversationParticipant} {t : Turn Choice GoError} {s : ChatState}
    {w a b : Uuid} {c : ChatConversation}
    (h : c ∈ ConversationRepo.dmsOf
      (chatMachine.answer (.conversationAddParticipant q) t s).2.db w a b) :
    c ∈ ConversationRepo.dmsOf s.db w a b ∨ (c ∈ s.db.conversations ∧ c.id = q.conversationID) := by
  obtain ⟨hstored, hw, htype, ha, hb⟩ := mem_dmsOf.mp h
  obtain hc | ⟨c₀, hc₀, -, -, -⟩ := answer_conversation hstored
  · by_cases hid : c.id = q.conversationID
    · exact Or.inr ⟨hc, hid⟩
    · have hold : ∀ x, Participates
          (chatMachine.answer (.conversationAddParticipant q) t s).2.db c.id x →
          Participates s.db c.id x := fun x hx => by
        obtain hx | ⟨hconv, -⟩ := answer_add_participates hx
        · exact hx
        · exact absurd hconv.symm hid
      exact Or.inl (mem_dmsOf.mpr ⟨hc, hw, htype, hold a ha, hold b hb⟩)
  · cases hc₀

/-- The first participant of a conversation selects no conversation. -/
theorem dmsOf_of_add_first {q : ChatConversationParticipant} {t : Turn Choice GoError}
    {s : ChatState} {w a b : Uuid} {c : ChatConversation}
    (hnone : ∀ x, ¬Participates s.db q.conversationID x) (hab : a ≠ b)
    (h : c ∈ ConversationRepo.dmsOf
      (chatMachine.answer (.conversationAddParticipant q) t s).2.db w a b) :
    c ∈ ConversationRepo.dmsOf s.db w a b := by
  obtain hold | ⟨-, hid⟩ := dmsOf_of_add h
  · exact hold
  · obtain ⟨-, -, -, ha, hb⟩ := mem_dmsOf.mp h
    have only : ∀ {x}, Participates s.db c.id x ∨ (q.conversationID = c.id ∧ q.personID = x) →
        x = q.personID := by
      rintro x (hx | ⟨-, hx⟩)
      · rw [hid] at hx
        exact absurd hx (hnone x)
      · exact hx.symm
    have hax : a = q.personID := only (answer_add_participates ha)
    have hbx : b = q.personID := only (answer_add_participates hb)
    exact absurd (hax.trans hbx.symm) hab

/-- The second participant of a conversation selects it for the two. -/
theorem dmsOf_of_add_second {q : ChatConversationParticipant} {t : Turn Choice GoError}
    {s : ChatState} {w a b first : Uuid} {c : ChatConversation}
    (honly : ∀ x, Participates s.db q.conversationID x → x = first) (hab : a ≠ b)
    (h : c ∈ ConversationRepo.dmsOf
      (chatMachine.answer (.conversationAddParticipant q) t s).2.db w a b) :
    c ∈ ConversationRepo.dmsOf s.db w a b ∨
      (c ∈ s.db.conversations ∧ c.id = q.conversationID ∧ s(a, b) = s(first, q.personID)) := by
  obtain hold | ⟨hstored, hid⟩ := dmsOf_of_add h
  · exact Or.inl hold
  · obtain ⟨-, -, -, ha, hb⟩ := mem_dmsOf.mp h
    have only : ∀ {x}, Participates s.db c.id x ∨ (q.conversationID = c.id ∧ q.personID = x) →
        x ∈ s(first, q.personID) := by
      rintro x (hx | ⟨-, hx⟩)
      · rw [hid] at hx
        rw [honly x hx]
        exact Sym2.mem_mk_left first q.personID
      · rw [← hx]
        exact Sym2.mem_mk_right first q.personID
    have hax : a ∈ s(first, q.personID) := only (answer_add_participates ha)
    have hbx : b ∈ s(first, q.personID) := only (answer_add_participates hb)
    exact Or.inr ⟨hstored, hid, ((Sym2.mem_and_mem_iff hab).mp ⟨hax, hbx⟩).symm⟩

/-- A turn that selects no new conversation and starts no building. -/
theorem UniquePairs.keep {p : Service} (h : UniquePairs p) {i : ℕ} {r : Request}
    {q q' : ServiceProgram Response} {s' : ChatState} (hi : p.threads[i]? = some ⟨r, q⟩)
    (hexp : Explained ⟨s', p.threads.set i ⟨r, q'⟩⟩)
    (hdms : ∀ w a b c, a ≠ b → c ∈ ConversationRepo.dmsOf s'.db w a b →
      c ∈ ConversationRepo.dmsOf p.state.db w a b)
    (hbuild : ∀ w pair, Building ⟨r, q'⟩ w pair → Building ⟨r, q⟩ w pair) :
    UniquePairs ⟨s', p.threads.set i ⟨r, q'⟩⟩ := by
  have before : ∀ {j : ℕ} {th w pair}, (p.threads.set i ⟨r, q'⟩)[j]? = some th → Building th w pair →
      ∃ th₀, p.threads[j]? = some th₀ ∧ Building th₀ w pair := by
    intro j th w pair hj hb
    obtain ⟨rfl, rfl⟩ | ⟨-, hj⟩ := getElem?_set_cases hj
    · exact ⟨_, hi, hbuild w pair hb⟩
    · exact ⟨th, hj, hb⟩
  refine ⟨hexp, ?_, ?_, ?_⟩
  · intro w a b c c' hab hc hc'
    exact h.unique w a b c c' hab (hdms w a b c hab hc) (hdms w a b c' hab hc')
  · intro j k th th' w a b hab ha hb hj hk hbj hbk
    obtain ⟨th₀, hj₀, hbj₀⟩ := before hj hbj
    obtain ⟨th₁, hk₁, hbk₁⟩ := before hk hbk
    exact h.alone j k th₀ th₁ w a b hab ha hb hj₀ hk₁ hbj₀ hbk₁
  · intro j th w a b c hab ha hb hj hbj hc
    obtain ⟨th₀, hj₀, hbj₀⟩ := before hj hbj
    exact h.first j th₀ w a b c hab ha hb hj₀ hbj₀ (hdms w a b c hab hc)

/-- A turn in which a lookup misses while nobody builds for its pair. -/
theorem UniquePairs.miss {p : Service} (h : UniquePairs p) {i : ℕ} {r : Request}
    {q' : ServiceProgram Response} {w₀ a₀ b₀ : Uuid}
    (hexp : Explained ⟨p.state, p.threads.set i ⟨r, q'⟩⟩)
    (hempty : ConversationRepo.dmsOf p.state.db w₀ a₀ b₀ = [])
    (halone : a₀ ≠ b₀ → a₀ ≠ Uuid.nil → b₀ ≠ Uuid.nil →
      ∀ th ∈ p.threads, ¬Building th w₀ s(a₀, b₀))
    (hbuild : ∀ w pair, Building ⟨r, q'⟩ w pair → w = w₀ ∧ pair = s(a₀, b₀)) :
    UniquePairs ⟨p.state, p.threads.set i ⟨r, q'⟩⟩ := by
  have nobody : ∀ {a b}, a ≠ b → a ≠ Uuid.nil → b ≠ Uuid.nil → s(a, b) = s(a₀, b₀) →
      ∀ th ∈ p.threads, ¬Building th w₀ s(a₀, b₀) := by
    intro a b hab ha hb he
    obtain ⟨rfl, rfl⟩ | ⟨rfl, rfl⟩ := Sym2.eq_iff.mp he
    · exact halone hab ha hb
    · exact halone hab.symm hb ha
  refine ⟨hexp, h.unique, ?_, ?_⟩
  · intro j k th th' w a b hab ha hb hj hk hbj hbk
    obtain ⟨rfl, rfl⟩ | ⟨-, hj'⟩ := getElem?_set_cases hj
    all_goals obtain ⟨rfl, rfl⟩ | ⟨-, hk'⟩ := getElem?_set_cases hk
    · rfl
    · obtain ⟨rfl, he⟩ := hbuild _ _ hbj
      rw [he] at hbk
      exact absurd hbk (nobody hab ha hb he th' (List.mem_of_getElem? hk'))
    · obtain ⟨rfl, he⟩ := hbuild _ _ hbk
      rw [he] at hbj
      exact absurd hbj (nobody hab ha hb he th (List.mem_of_getElem? hj'))
    · exact h.alone j k th th' w a b hab ha hb hj' hk' hbj hbk
  · intro j th w a b c hab ha hb hj hbj hc
    obtain ⟨rfl, rfl⟩ | ⟨-, hj⟩ := getElem?_set_cases hj
    · obtain ⟨rfl, he⟩ := hbuild _ _ hbj
      have hc₀ : c ∈ ConversationRepo.dmsOf p.state.db w a₀ b₀ := by
        obtain ⟨hs, hw, ht, hpa, hpb⟩ := mem_dmsOf.mp hc
        obtain ⟨rfl, rfl⟩ | ⟨rfl, rfl⟩ := Sym2.eq_iff.mp he
        · exact hc
        · exact mem_dmsOf.mpr ⟨hs, hw, ht, hpb, hpa⟩
      rw [hempty] at hc₀
      cases hc₀
    · exact h.first j th w a b c hab ha hb hj hbj hc

/-- A turn in which the only builder of a pair makes its last insert. -/
theorem UniquePairs.finish {p : Service} (h : UniquePairs p) {i : ℕ} {r : Request}
    {q q' : ServiceProgram Response} {s' : ChatState} {w₀ a₀ b₀ : Uuid} (c₀ : ChatConversation)
    (hi : p.threads[i]? = some ⟨r, q⟩) (hexp : Explained ⟨s', p.threads.set i ⟨r, q'⟩⟩)
    (ha₀ : a₀ ≠ Uuid.nil) (hb₀ : b₀ ≠ Uuid.nil) (hwas : Building ⟨r, q⟩ w₀ s(a₀, b₀))
    (hdms : ∀ w a b c, a ≠ b → c ∈ ConversationRepo.dmsOf s'.db w a b →
      c ∈ ConversationRepo.dmsOf p.state.db w a b ∨ (c = c₀ ∧ w = w₀ ∧ s(a, b) = s(a₀, b₀)))
    (hdone : ∀ w pair, ¬Building ⟨r, q'⟩ w pair) :
    UniquePairs ⟨s', p.threads.set i ⟨r, q'⟩⟩ := by
  have nonnil : ∀ {a b}, s(a, b) = s(a₀, b₀) → a ≠ Uuid.nil ∧ b ≠ Uuid.nil := by
    intro a b he
    obtain ⟨rfl, rfl⟩ | ⟨rfl, rfl⟩ := Sym2.eq_iff.mp he
    · exact ⟨ha₀, hb₀⟩
    · exact ⟨hb₀, ha₀⟩
  have hwas' : ∀ {w a b}, w = w₀ → s(a, b) = s(a₀, b₀) → Building ⟨r, q⟩ w s(a, b) := by
    intro w a b hw he
    rw [hw, he]
    exact hwas
  have before : ∀ {j : ℕ} {th w pair}, (p.threads.set i ⟨r, q'⟩)[j]? = some th →
      Building th w pair → j ≠ i ∧ p.threads[j]? = some th := by
    intro j th w pair hj hb
    obtain ⟨rfl, rfl⟩ | hj := getElem?_set_cases hj
    · exact absurd hb (hdone w pair)
    · exact hj
  refine ⟨hexp, ?_, ?_, ?_⟩
  · intro w a b c c' hab hc hc'
    obtain hold | ⟨rfl, hw, he⟩ := hdms w a b c hab hc
    all_goals obtain hold' | ⟨rfl, hw', he'⟩ := hdms w a b c' hab hc'
    · exact h.unique w a b c c' hab hold hold'
    · obtain ⟨ha, hb⟩ := nonnil he'
      exact absurd hold (h.first i _ w a b c hab ha hb hi (hwas' hw' he'))
    · obtain ⟨ha, hb⟩ := nonnil he
      exact absurd hold' (h.first i _ w a b c' hab ha hb hi (hwas' hw he))
    · rfl
  · intro j k th th' w a b hab ha hb hj hk hbj hbk
    exact h.alone j k th th' w a b hab ha hb (before hj hbj).2 (before hk hbk).2 hbj hbk
  · intro j th w a b c hab ha hb hj hbj hc
    obtain ⟨hji, hj⟩ := before hj hbj
    obtain hold | ⟨-, hw, he⟩ := hdms w a b c hab hc
    · exact h.first j th w a b c hab ha hb hj hbj hold
    · exact hji (h.alone j i th _ w a b hab ha hb hj hi hbj (hwas' hw he))

/-- A call that has just started builds nothing yet. -/
theorem UniquePairs.start {p : Service} {r : Request} (h : UniquePairs p)
    (hexp : Explained ⟨p.state, p.threads ++ [⟨r, body r⟩]⟩) :
    UniquePairs ⟨p.state, p.threads ++ [⟨r, body r⟩]⟩ := by
  have before : ∀ {j : ℕ} {th w pair}, (p.threads ++ [⟨r, body r⟩])[j]? = some th →
      Building th w pair → p.threads[j]? = some th := by
    intro j th w pair hj hb
    obtain ⟨-, rfl⟩ | hj := getElem?_concat_cases hj
    · obtain ⟨a, b, hcall, -⟩ := building_call hb
      rw [body_looking hcall] at hb
      exact ((building_iff hcall).mp hb).1.elim
    · exact hj
  refine ⟨hexp, h.unique, ?_, ?_⟩
  · intro j k th th' w a b hab ha hb hj hk hbj hbk
    exact h.alone j k th th' w a b hab ha hb (before hj hbj) (before hk hbk) hbj hbk
  · intro j th w a b c hab ha hb hj hbj
    exact h.first j th w a b c hab ha hb (before hj hbj) hbj

/-- A served turn of a call for a direct conversation keeps one conversation for each
pair, if its lookup is alone. -/
theorem UniquePairs.answered {p : Service} (h : UniquePairs p) {origin : Uuid → Origin} {i : ℕ}
    {r : Request} {w a b : Uuid} {stage : Stage} {op : ServiceCall}
    {after : Except GoError op.Reply → Stage} {choice : Choice}
    (hcall : r.call = .getOrCreateDMConversation w a b)
    (hi : p.threads[i]? = some ⟨r, stage.program r.stamps w a b⟩)
    (hcalls : Stage.Calls r.stamps w a b stage op after) (hok : stage.Ok origin i p.state w a b)
    (hlook : LookupAlone p (.turn i (.serve choice)))
    (hexp : Explained ⟨(chatMachine.answer op (.serve choice) p.state).2, p.threads.set i
      ⟨r, (after (chatMachine.answer op (.serve choice) p.state).1).program r.stamps w a b⟩⟩) :
    UniquePairs ⟨(chatMachine.answer op (.serve choice) p.state).2, p.threads.set i
      ⟨r, (after (chatMachine.answer op (.serve choice) p.state).1).program r.stamps w a b⟩⟩ := by
  cases hcalls with
  | looking =>
    cases hr : (chatMachine.answer (.conversationGetDMByParticipants w a b)
      (.serve choice) p.state).1 with
    | ok conv =>
      rw [hr] at hexp
      exact h.keep hi hexp (fun _ _ _ _ _ hc => hc)
        fun w' pair hb => ((building_iff hcall).mp hb).1.elim
    | error e =>
      rw [hr] at hexp
      exact h.miss hexp (getDMByParticipants_error hr) (hlook _ hi (w, a, b) rfl)
        fun w' pair hb => ((building_iff hcall).mp hb).2
  | creating =>
    refine h.keep hi hexp (fun _ _ _ _ _ hc => dmsOf_of_not_add (fun q hq => by cases hq) hc)
      fun w' pair hb => ?_
    obtain ⟨-, hw', hpair⟩ := (building_iff hcall).mp hb
    exact (building_iff hcall).mpr ⟨trivial, hw', hpair⟩
  | addingFirst created =>
    obtain ⟨hc, ha, hnone⟩ := hok
    refine h.keep hi hexp (fun w' a' b' c' hab hc' => dmsOf_of_add_first hnone hab hc')
      fun w' pair hb => ?_
    obtain ⟨-, hw', hpair⟩ := (building_iff hcall).mp hb
    exact (building_iff hcall).mpr ⟨trivial, hw', hpair⟩
  | addingSecond created =>
    obtain ⟨hc, ha, hb, hpa, honly⟩ := hok
    have hwas : Building ⟨r, (Stage.addingSecond created).program r.stamps w a b⟩ w s(a, b) :=
      (building_iff hcall).mpr ⟨trivial, rfl, rfl⟩
    refine h.finish created hi hexp ha hb hwas (fun w' a' b' c' hab hc' => ?_)
      fun w' pair hb => ?_
    · obtain hold | ⟨hstored, hid, hpair⟩ := dmsOf_of_add_second honly hab hc'
      · exact Or.inl hold
      · obtain ⟨-, hw', -, -, -⟩ := mem_dmsOf.mp hc'
        have he : c' = created :=
          p.state.db.valid.conversations_id.eq hstored hc.stored hid
        refine Or.inr ⟨he, ?_, hpair⟩
        rw [← hw', he, hc.workspace]
    · have hbuilds := ((building_iff hcall).mp hb).1
      cases hr : (chatMachine.answer (.conversationAddParticipant
        ⟨(r.stamps 2).id, created.id, b, (r.stamps 2).now⟩) (.serve choice) p.state).1 with
      | ok u =>
        rw [hr] at hbuilds
        exact hbuilds
      | error e =>
        rw [hr] at hbuilds
        exact hbuilds

/-- A faultless step whose lookup, if it is one, is alone keeps one conversation
for each pair. -/
theorem UniquePairs.step {p p' : Service} {l : ServiceLabel} (h : UniquePairs p)
    (hfault : Faultless l) (hlook : LookupAlone p l) (hstep : Service.step p l = some p') :
    UniquePairs p' := by
  have hexp : Explained p' := explained_step p l p' h.explained hstep
  cases l with
  | crash i e => exact hfault.elim
  | start r =>
    cases hstep
    exact h.start hexp
  | turn i t =>
    obtain ⟨choice, rfl⟩ : ∃ choice, t = .serve choice := by
      cases t with
      | serve choice => exact ⟨choice, rfl⟩
      | drop e => exact hfault.elim
      | lost choice e => exact hfault.elim
    obtain ⟨r, op, next, hi, -, rfl⟩ := Pool.step_turn hstep
    obtain ⟨origin, -, hlocal⟩ := h.explained
    obtain ⟨hops, hstage⟩ := hlocal i _ hi
    by_cases hdm : ∃ w a b, r.call = .getOrCreateDMConversation w a b
    · obtain ⟨w, a, b, hcall⟩ := hdm
      obtain ⟨stage, hq, hok⟩ := hstage w a b hcall
      dsimp only at hq
      obtain ⟨after, hcalls, hnext⟩ := stage.program_call hq.symm
      have hi' : p.threads[i]? = some ⟨r, stage.program r.stamps w a b⟩ := by
        rw [hi, ← hq]
      rw [hnext (chatMachine.answer op (.serve choice) p.state).1] at hexp ⊢
      exact h.answered hcall hi' hcalls hok hlook hexp
    · refine h.keep hi hexp (fun w a b c _ hc => dmsOf_of_not_add ?_ hc) ?_
      · rintro q rfl
        exact hdm (Makes.getOrCreateDM_of_add hops.1)
      · intro w pair hb
        obtain ⟨a, b, hcall, -⟩ := building_call hb
        exact absurd ⟨w, a, b, hcall⟩ hdm

theorem uniquePairs_initial : UniquePairs Service.initial := by
  refine ⟨explained_initial, ?_, ?_, ?_⟩
  · intro w a b c c' _ hc
    cases hc
  · intro i j th th' w a b _ _ _ hi
    cases hi
  · intro i th w a b c _ _ _ hi
    cases hi

/-- The calls for one workspace and one pair of distinct persons agree: at most
one conversation has both as participants, and every successful call has
returned the same conversation. -/
def PairsAgree (p : Service) : Prop :=
  (∀ w a b c c', a ≠ b → c ∈ ConversationRepo.dmsOf p.state.db w a b →
    c' ∈ ConversationRepo.dmsOf p.state.db w a b → c.id = c'.id) ∧
  ∀ (i j : ℕ) r r' w a b a' b' c c', a ≠ b → s(a', b') = s(a, b) →
    r.call = .getOrCreateDMConversation w a b → r'.call = .getOrCreateDMConversation w a' b' →
    p.threads[i]? = some ⟨r, .ret (.ok (.conversation c))⟩ →
    p.threads[j]? = some ⟨r', .ret (.ok (.conversation c'))⟩ → c.id = c'.id

/-- In every run without failing calls in which each lookup for a pair is made
while no other call builds for that pair, the calls for a pair agree. -/
theorem pairsAgree_of_lookupAlone {ls : List ServiceLabel} {p : Service}
    (hG : EachStep Service.step (fun q l => Faultless l ∧ LookupAlone q l) Service.initial ls)
    (h : run Service.step Service.initial ls = some p) : PairsAgree p := by
  have hu : UniquePairs p := run_guarded (fun s l s' hs hl hstep => hs.step hl.1 hl.2 hstep)
    uniquePairs_initial hG h
  refine ⟨?_, ?_⟩
  · intro w a b c c' hab hc hc'
    rw [hu.unique w a b c c' hab hc hc']
  · intro i j r r' w a b a' b' c c' hab he hcall hcall' hi hj
    have hc := returned_mem_dmsOf hu.explained hcall hi
    have hc' := returned_mem_dmsOf hu.explained hcall' hj
    have hswap : c' ∈ ConversationRepo.dmsOf p.state.db w a b := by
      obtain ⟨rfl, rfl⟩ | ⟨rfl, rfl⟩ := Sym2.eq_iff.mp he
      · exact hc'
      · obtain ⟨hs, hw, ht, ha, hb⟩ := mem_dmsOf.mp hc'
        exact mem_dmsOf.mpr ⟨hs, hw, ht, hb, ha⟩
    rw [hu.unique w a b c c' hab hc hswap]

/-- Persons 1 and 2 open their direct conversation at the same time. -/
def raceDM : List ServiceLabel :=
  [.start (Call.createWorkspace 9 3 "HQ").request, served 0 10 0,
    .start (Call.getOrCreateDMConversation 10 1 2).request,
    .start (Call.getOrCreateDMConversation 10 2 1).request,
    served 1 1 0, served 2 1 0, served 1 30 0, served 2 31 0,
    served 1 40 0, served 1 41 0, served 2 42 0, served 2 43 0]

/-- Two calls for one pair can create two conversations. -/
theorem pairsAgree_not_invariant :
    ¬∀ ls p, (∀ l ∈ ls, Faultless l) → run Service.step Service.initial ls = some p →
      PairsAgree p := by
  intro h
  have hfaultless : ∀ l ∈ raceDM, Faultless l := by decide
  have hrun : ((run Service.step Service.initial raceDM).map
      fun p => ConversationRepo.dmsOf p.state.db 10 1 2) =
        some [⟨30, 10, .dm, 0⟩, ⟨31, 10, .dm, 0⟩] := by decide
  obtain ⟨p, hp, hdms⟩ := Option.map_eq_some_iff.mp hrun
  have hids := (h raceDM p hfaultless hp).1 10 1 2 ⟨30, 10, .dm, 0⟩ ⟨31, 10, .dm, 0⟩ (by decide)
    (by rw [hdms]; decide) (by rw [hdms]; decide)
  exact absurd hids (by decide)

/-- The calls agree when person 2 opens the conversation after person 1. -/
theorem pairsAgree_openDM :
    ∃ p, run Service.step Service.initial (openDM ++
        [.start (Call.getOrCreateDMConversation 10 2 1).request, served 2 1 0]) = some p ∧
      PairsAgree p := by
  have hrun : (run Service.step Service.initial (openDM ++
      [.start (Call.getOrCreateDMConversation 10 2 1).request, served 2 1 0])).isSome = true := by
    decide
  obtain ⟨p, hp⟩ := Option.isSome_iff_exists.mp hrun
  exact ⟨p, hp, pairsAgree_of_lookupAlone (by decide) hp⟩

end AuraWellness.Chat.OnePerPair
