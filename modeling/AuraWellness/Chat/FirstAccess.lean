import AuraWellness.Chat.OnePerPair
import AuraWellness.Chat.LookupOutcomes

/-!
# The first accesses to a group conversation

`GetOrCreateGroupConversation` looks the group conversation up and inserts it
when there is none; the unique index lets one of several inserts through. A call
whose insert loses returns the index's error and does not look up again. Calls
whose lookups miss one after the other's insert all return the one conversation.
-/

namespace AuraWellness.Chat.FirstAccess

open AuraWellness.Lib.Transition AuraWellness.Lib.Calls AuraWellness.Lib.Keyed
open AuraWellness.Lib.Ranked
open AuraWellness.Chat.Entities AuraWellness.Chat.Schema AuraWellness.Chat.Repositories
open AuraWellness.Chat.Services AuraWellness.Chat.Growth AuraWellness.Chat.OnePerPair
open AuraWellness.Chat.DirectMessages (required)
open AuraWellness.Chat.LookupOutcomes (newConversation_group groupError_text_iff)

/-- The step belongs to a `GetOrCreateGroupConversation` for this workspace. All
calls are answered and generated identifiers are unused, so a lookup fails only
without rows and an insert only at the unique index. -/
def ByFirstAccess (w : Uuid) (p : Service) : ServiceLabel → Prop
  | .start r => r.call = .getOrCreateGroupConversation w
  | .turn _ (.serve choice) => ¬∃ v ∈ p.state.db.conversations, v.id = choice.uuid
  | _ => False

instance (w : Uuid) (p : Service) : (l : ServiceLabel) → Decidable (ByFirstAccess w p l)
  | .start r => inferInstanceAs (Decidable (r.call = .getOrCreateGroupConversation w))
  | .turn _ (.serve choice) =>
    inferInstanceAs (Decidable (¬∃ v ∈ p.state.db.conversations, v.id = choice.uuid))
  | .turn _ (.drop _) => inferInstanceAs (Decidable False)
  | .turn _ (.lost _ _) => inferInstanceAs (Decidable False)
  | .crash _ _ => inferInstanceAs (Decidable False)

/-- The thread is about to look the group conversation up. -/
def looksUp (th : ServiceThread) : Bool :=
  match th.prog with
  | .call (.conversationGetGroupByWorkspace _) _ => true
  | _ => false

/-- When the step is a lookup that misses, no call is between its own lookup and
its insert. -/
def MissAlone (w : Uuid) (p : Service) : ServiceLabel → Prop
  | .turn i _ => ∀ th ∈ p.threads[i]?, looksUp th = true →
      ¬GroupExists p.state.db w → ∀ th' ∈ p.threads, inserts th' = false
  | _ => True

instance (w : Uuid) (p : Service) : (l : ServiceLabel) → Decidable (MissAlone w p l)
  | .turn i _ => inferInstanceAs (Decidable (∀ th ∈ p.threads[i]?, looksUp th = true →
      ¬GroupExists p.state.db w → ∀ th' ∈ p.threads, inserts th' = false))
  | .start _ => inferInstanceAs (Decidable True)
  | .crash _ _ => inferInstanceAs (Decidable True)

/-- Where a `GetOrCreateGroupConversation` call stands. -/
inductive GroupStage
  /-- Before the lookup. -/
  | looking
  /-- The lookup has missed. -/
  | creating
  /-- The call has returned a conversation. -/
  | returned (conv : ChatConversation)
  /-- The call has returned an error. -/
  | failed (err : GoError)

/-- The rest of the program at each stage. -/
def GroupStage.program (stamps : ℕ → Stamp) (w : Uuid) : GroupStage → ServiceProgram Response
  | looking => (Call.getOrCreateGroupConversation w).program stamps
  | creating => .conversation <$>
      perform (.conversationCreate ⟨(stamps 0).id, w, .group, (stamps 0).now⟩)
  | returned conv => .ret (.ok (.conversation conv))
  | failed err => .ret (.error err)

theorem body_looking {r : Request} {w : Uuid} (h : r.call = .getOrCreateGroupConversation w) :
    body r = GroupStage.looking.program r.stamps w := by
  unfold body
  rw [h]
  rfl

/-- The call that a stage waits for and the stage that each reply leads to. -/
inductive GroupStage.Calls (stamps : ℕ → Stamp) (w : Uuid) :
    GroupStage → (op : ServiceCall) → (Except GoError op.Reply → GroupStage) → Prop
  | looking : Calls stamps w .looking (.conversationGetGroupByWorkspace w)
      fun
        | .ok conv => .returned conv
        | .error err =>
          if err.text ≠ "get group conversation: " ++ errNoRows.text then .failed err
          else if w = Uuid.nil then .failed (required "workspaceID") else .creating
  | creating : Calls stamps w .creating
      (.conversationCreate ⟨(stamps 0).id, w, .group, (stamps 0).now⟩)
      fun
        | .ok created => .returned created
        | .error err => .failed err

/-- A stage that waits for a call goes on to the stages of its replies. -/
theorem GroupStage.program_call {stamps : ℕ → Stamp} {w : Uuid} {stage : GroupStage}
    {op : ServiceCall} {next : Except GoError op.Reply → ServiceProgram Response}
    (h : stage.program stamps w = .call op next) :
    ∃ after, GroupStage.Calls stamps w stage op after ∧
      ∀ r, next r = (after r).program stamps w := by
  cases stage with
  | looking =>
    cases h
    refine ⟨_, GroupStage.Calls.looking, fun r => ?_⟩
    cases r with
    | ok conv => rfl
    | error err =>
      dsimp only [Program.bind]
      rw [newConversation_group]
      by_cases htext : err.text ≠ "get group conversation: " ++ errNoRows.text
      · rw [if_pos htext, if_pos htext]
        rfl
      · rw [if_neg htext, if_neg htext]
        split <;> rfl
  | creating =>
    cases h
    refine ⟨_, GroupStage.Calls.creating, fun r => ?_⟩
    cases r with
    | ok created => rfl
    | error err => rfl
  | returned conv => cases h
  | failed err => cases h

/-- The workspace is stored, and every thread is a call for its group
conversation that has returned, if anything, that conversation. -/
structure Calling (w : Uuid) (p : Service) : Prop where
  workspace : ∃ v ∈ p.state.db.workspaces, v.id = w
  threads : ∀ th ∈ p.threads, ∃ stage : GroupStage, th.prog = stage.program th.req.stamps w ∧
    ∀ c, stage = .returned c → c ∈ p.state.db.conversations ∧ c.workspaceID = w ∧ c.type = .group

/-- What one step of the first accesses has done. -/
inductive Did (w : Uuid) (p : Service) : ServiceLabel → Service → Prop
  /-- A call arrived. -/
  | started (r : Request) :
    Did w p (.start r) ⟨p.state, p.threads ++ [⟨r, GroupStage.looking.program r.stamps w⟩]⟩
  /-- A lookup found the conversation. -/
  | found {i : ℕ} {t : Turn Choice GoError} {r : Request} {c : ChatConversation}
    (hi : p.threads[i]? = some ⟨r, GroupStage.looking.program r.stamps w⟩)
    (hc : c ∈ p.state.db.conversations) (hw : c.workspaceID = w) (htype : c.type = .group) :
    Did w p (.turn i t)
      ⟨p.state, p.threads.set i ⟨r, (GroupStage.returned c).program r.stamps w⟩⟩
  /-- A lookup missed. -/
  | missed {i : ℕ} {t : Turn Choice GoError} {r : Request}
    (hi : p.threads[i]? = some ⟨r, GroupStage.looking.program r.stamps w⟩)
    (hnone : ¬GroupExists p.state.db w) :
    Did w p (.turn i t) ⟨p.state, p.threads.set i ⟨r, GroupStage.creating.program r.stamps w⟩⟩
  /-- An insert stored the conversation. -/
  | created {i : ℕ} {t : Turn Choice GoError} {r : Request} {row : ChatConversation}
    {s' : ChatState} (hi : p.threads[i]? = some ⟨r, GroupStage.creating.program r.stamps w⟩)
    (hnone : ¬GroupExists p.state.db w) (hgrows : Grows p.state.db s'.db)
    (hrow : row ∈ s'.db.conversations) (hw : row.workspaceID = w) (htype : row.type = .group) :
    Did w p (.turn i t) ⟨s', p.threads.set i ⟨r, (GroupStage.returned row).program r.stamps w⟩⟩
  /-- An insert lost at the unique index. -/
  | lost {i : ℕ} {t : Turn Choice GoError} {r : Request} {e : GoError}
    (hi : p.threads[i]? = some ⟨r, GroupStage.creating.program r.stamps w⟩)
    (hexists : GroupExists p.state.db w) :
    Did w p (.turn i t) ⟨p.state, p.threads.set i ⟨r, (GroupStage.failed e).program r.stamps w⟩⟩

/-- A lookup that is served replies with the stored group conversation or that
there is none. -/
theorem answer_getGroup (d : ChatState) (w : Uuid) (choice : Choice) :
    (∃ c ∈ d.db.conversations, c.workspaceID = w ∧ c.type = .group ∧
      chatMachine.answer (.conversationGetGroupByWorkspace w) (.serve choice) d = (.ok c, d)) ∨
    (¬GroupExists d.db w ∧
      chatMachine.answer (.conversationGetGroupByWorkspace w) (.serve choice) d =
        (.error (errorf "get group conversation" errNoRows), d)) := by
  obtain ⟨-, c, hget⟩ | ⟨hnone, hget⟩ := getGroupByWorkspace_cases d.db choice w
  · obtain ⟨hc, hgroup⟩ := List.mem_filter.mp (mem_sortOn.mp (scanRow_ok hget))
    obtain ⟨hw, htype⟩ : c.workspaceID = w ∧ c.type = .group := by simpa using hgroup
    refine Or.inl ⟨c, hc, hw, htype, ?_⟩
    exact congrArg (fun reply => (reply, d)) hget
  · exact Or.inr ⟨hnone, congrArg (fun reply => (reply, d)) hget⟩

/-- An insert that is served with an unused identifier stores the conversation
unless the workspace has its group conversation already. -/
theorem answer_createGroup {s : ChatState} {w : Uuid} {choice : Choice} {c : ChatConversation}
    (hworkspace : ∃ v ∈ s.db.workspaces, v.id = w)
    (hid : ¬∃ v ∈ s.db.conversations, v.id = choice.uuid) (hw : c.workspaceID = w)
    (htype : c.type = .group) :
    (¬GroupExists s.db w ∧
      ∃ row, (chatMachine.answer (.conversationCreate c) (.serve choice) s).1 = .ok row) ∨
    (GroupExists s.db w ∧
      ∃ e, chatMachine.answer (.conversationCreate c) (.serve choice) s = (.error e, s)) := by
  obtain ⟨row, d, hr, hc⟩ | ⟨e, hr, hc⟩ :=
    commitWrite_cases "create conversation" s (s.db.insertConversation choice c)
  · obtain ⟨-, hgroup, -, -, -⟩ := insertConversation_ok_iff.mp hr
    refine Or.inl ⟨?_, row, congrArg Prod.fst hc⟩
    rintro ⟨v, hv, hvw, hvtype⟩
    exact hgroup ⟨htype, v, hv, hvtype, hvw.trans hw.symm⟩
  · refine Or.inr ⟨?_, _, hc⟩
    by_contra hnone
    obtain ⟨row, d, hok⟩ := insertConversation_accepts (c := c) hid
      (fun ⟨_, v, hv, hvtype, hvw⟩ => hnone ⟨v, hv, hvw.trans hw, hvtype⟩)
      (by rw [hw]; exact hworkspace)
    cases hr.symm.trans hok

/-- Every step of the first accesses does one of these. -/
theorem step_did {w : Uuid} {p p' : Service} {l : ServiceLabel} (hp : Calling w p)
    (hl : ByFirstAccess w p l) (h : Service.step p l = some p') : Did w p l p' := by
  cases l with
  | crash i e => exact hl.elim
  | start r =>
    cases h
    rw [body_looking hl]
    exact Did.started r
  | turn i t =>
    obtain ⟨choice, rfl⟩ : ∃ choice, t = .serve choice := by
      cases t with
      | serve choice => exact ⟨choice, rfl⟩
      | drop e => exact hl.elim
      | lost choice e => exact hl.elim
    obtain ⟨r, op, next, hi, -, rfl⟩ := Pool.step_turn h
    obtain ⟨stage, hq, -⟩ := hp.threads _ (List.mem_of_getElem? hi)
    dsimp only at hq
    obtain ⟨after, hcalls, hnext⟩ := stage.program_call hq.symm
    rw [hq] at hi
    rw [hnext]
    cases hcalls with
    | looking =>
      obtain ⟨c, hc, hw, htype, ha⟩ | ⟨hnone, ha⟩ := answer_getGroup p.state w choice
      · rw [ha]
        exact Did.found hi hc hw htype
      · have hnil : w ≠ Uuid.nil := by
          obtain ⟨v, hv, rfl⟩ := hp.workspace
          exact p.state.db.valid.workspaces_generated v hv
        rw [ha]
        dsimp only
        rw [if_neg (not_not_intro (groupError_text_iff.mpr rfl)), if_neg hnil]
        exact Did.missed hi hnone
    | creating =>
      obtain ⟨hnone, row, hrow⟩ | ⟨hexists, e, ha⟩ := answer_createGroup hp.workspace hl
        (c := ⟨(r.stamps 0).id, w, .group, (r.stamps 0).now⟩) rfl rfl
      · obtain ⟨hstored, hw, htype, -, -⟩ := answer_create_ok hrow
        rw [hrow]
        exact Did.created hi hnone (answer_grows _ _ p.state) hstored hw htype
      · rw [ha]
        exact Did.lost hi hexists

/-- A step of the first accesses leads from calls to calls. -/
theorem calling_step {w : Uuid} {p p' : Service} {l : ServiceLabel} (hp : Calling w p)
    (h : Did w p l p') : Calling w p' := by
  have replaced : ∀ {s' : ChatState} {i : ℕ} {r : Request} {stage : GroupStage},
      Grows p.state.db s'.db →
      (∀ c, stage = .returned c → c ∈ s'.db.conversations ∧ c.workspaceID = w ∧ c.type = .group) →
      Calling w ⟨s', p.threads.set i ⟨r, stage.program r.stamps w⟩⟩ := by
    intro s' i r stage hgrows hstage
    obtain ⟨v, hv, hvw⟩ := hp.workspace
    refine ⟨⟨v, hgrows.workspaces v hv, hvw⟩, fun th hth => ?_⟩
    obtain hth | rfl := List.mem_or_eq_of_mem_set hth
    · obtain ⟨stage', hq, hok⟩ := hp.threads th hth
      refine ⟨stage', hq, fun c hc => ?_⟩
      obtain ⟨hstored, hcw, htype⟩ := hok c hc
      exact ⟨hgrows.conversations c hstored, hcw, htype⟩
    · exact ⟨stage, rfl, hstage⟩
  cases h with
  | started r =>
    refine ⟨hp.workspace, forall_mem_concat hp.threads ⟨.looking, rfl, fun c hc => ?_⟩⟩
    cases hc
  | found hi hc hw htype =>
    refine replaced (Grows.refl _) fun c' hc' => ?_
    cases hc'
    exact ⟨hc, hw, htype⟩
  | missed hi hnone => exact replaced (Grows.refl _) fun c' hc' => by cases hc'
  | created hi hnone hgrows hrow hw htype =>
    refine replaced hgrows fun c' hc' => ?_
    cases hc'
    exact ⟨hrow, hw, htype⟩
  | lost hi hexists => exact replaced (Grows.refl _) fun c' hc' => by cases hc'

/-- No call has failed, and only one call is about to insert, while there is no
group conversation yet. -/
structure Uncontended (w : Uuid) (p : Service) : Prop where
  noError : ∀ (i : ℕ) r e, p.threads[i]? ≠ some (⟨r, .ret (.error e)⟩ : ServiceThread)
  missing : ∀ (i : ℕ) th, p.threads[i]? = some th → inserts th = true → ¬GroupExists p.state.db w
  alone : ∀ (i j : ℕ) th th', p.threads[i]? = some th → p.threads[j]? = some th' →
    inserts th = true → inserts th' = true → i = j

/-- A step that gives one thread a stage that is no error and starts no insert,
and that stores nothing unless no other thread is inserting. -/
theorem Uncontended.replace {w : Uuid} {p : Service} (h : Uncontended w p) {s' : ChatState} {i : ℕ}
    {th : ServiceThread} (herror : ∀ e, th.prog ≠ .ret (.error e)) (hdone : inserts th = false)
    (hstored : GroupExists s'.db w → ¬GroupExists p.state.db w →
      ∀ j th', j ≠ i → p.threads[j]? = some th' → inserts th' = false) :
    Uncontended w ⟨s', p.threads.set i th⟩ := by
  have inserting : ∀ {j : ℕ} {th'}, (p.threads.set i th)[j]? = some th' → inserts th' = true →
      j ≠ i ∧ p.threads[j]? = some th' := by
    intro j th' hj hins
    obtain ⟨rfl, rfl⟩ | hj := getElem?_set_cases hj
    · cases hdone.symm.trans hins
    · exact hj
  refine ⟨fun j r e hj => ?_, fun j th' hj hins hexists => ?_, fun j k th₁ th₂ hj hk h₁ h₂ => ?_⟩
  · obtain ⟨-, he⟩ | ⟨-, hj⟩ := getElem?_set_cases hj
    · exact herror e (by rw [← he])
    · exact h.noError j r e hj
  · obtain ⟨hne, hj⟩ := inserting hj hins
    cases (hstored hexists (h.missing j th' hj hins) j th' hne hj).symm.trans hins
  · exact h.alone j k th₁ th₂ (inserting hj h₁).2 (inserting hk h₂).2 h₁ h₂

/-- A step keeps the calls uncontended exactly if it is no lookup that misses
while another call is about to insert. -/
theorem uncontended_step_iff {w : Uuid} {p p' : Service} {l : ServiceLabel} (hp : Uncontended w p)
    (h : Did w p l p') : Uncontended w p' ↔ MissAlone w p l := by
  cases h with
  | started r =>
    refine ⟨fun _ => trivial, fun _ => ?_⟩
    have before : ∀ {j : ℕ} {th}, (p.threads ++ [⟨r, GroupStage.looking.program r.stamps w⟩])[j]? =
        some th → inserts th = true → p.threads[j]? = some th := by
      intro j th hj hins
      obtain ⟨-, rfl⟩ | hj := getElem?_concat_cases hj
      · cases hins
      · exact hj
    refine ⟨fun j r' e hj => ?_, fun j th hj hins => hp.missing j th (before hj hins) hins,
      fun j k th₁ th₂ hj hk h₁ h₂ => hp.alone j k th₁ th₂ (before hj h₁) (before hk h₂) h₁ h₂⟩
    obtain ⟨-, he⟩ | hj := getElem?_concat_cases hj
    · cases he
    · exact hp.noError j r' e hj
  | @found i t r c hi hc hw htype =>
    refine ⟨fun _ th _ _ hnone => absurd ⟨c, hc, hw, htype⟩ hnone, fun _ => ?_⟩
    exact hp.replace (fun e he => by cases he) rfl
      (fun _ hnone => absurd ⟨c, hc, hw, htype⟩ hnone)
  | @missed i t r hi hnone =>
    have hlt : i < p.threads.length := (List.getElem?_eq_some_iff.mp hi).1
    constructor
    · intro h th _ _ _ th' hth'
      by_contra hins
      rw [Bool.not_eq_false] at hins
      obtain ⟨j, hj⟩ := List.getElem?_of_mem hth'
      have hne : i ≠ j := by
        rintro rfl
        cases hi.symm.trans hj
        cases hins
      exact hne (h.alone i j ⟨r, GroupStage.creating.program r.stamps w⟩ th'
        (List.getElem?_set_self hlt) ((List.getElem?_set_ne hne).trans hj) rfl hins)
    · intro h
      have nobody : ∀ {j : ℕ} {th'}, p.threads[j]? = some th' → inserts th' = true → False := by
        intro j th' hj hins
        cases (h _ hi rfl hnone th' (List.mem_of_getElem? hj)).symm.trans hins
      have only : ∀ {j : ℕ} {th'},
          (p.threads.set i ⟨r, GroupStage.creating.program r.stamps w⟩)[j]? = some th' →
          inserts th' = true → j = i := by
        intro j th' hj hins
        obtain ⟨rfl, -⟩ | ⟨-, hj⟩ := getElem?_set_cases hj
        · rfl
        · exact (nobody hj hins).elim
      refine ⟨fun j r' e hj => ?_, fun j th' hj hins => hnone,
        fun j k th₁ th₂ hj hk h₁ h₂ => (only hj h₁).trans (only hk h₂).symm⟩
      obtain ⟨-, he⟩ | ⟨-, hj⟩ := getElem?_set_cases hj
      · cases he
      · exact hp.noError j r' e hj
  | @created i t r row s' hi hnone hgrows hrow hw htype =>
    refine ⟨fun _ th hth hlooks => ?_, fun _ => ?_⟩
    · cases hi.symm.trans hth
      cases hlooks
    · refine hp.replace (fun e he => by cases he) rfl fun _ _ j th' hne hj => ?_
      by_contra hins
      exact hne (hp.alone j i th' _ hj hi (by rwa [Bool.not_eq_false] at hins) rfl)
  | @lost i t r e hi hexists => exact absurd hexists (hp.missing i _ hi rfl)

/-- Calls that are uncontended after a lookup were so before it. -/
theorem Uncontended.looked {w : Uuid} {p : Service} {i : ℕ} {r : Request} {th : ServiceThread}
    (h : Uncontended w ⟨p.state, p.threads.set i th⟩)
    (hi : p.threads[i]? = some ⟨r, GroupStage.looking.program r.stamps w⟩) : Uncontended w p := by
  have kept : ∀ {j : ℕ} {th'}, j ≠ i → p.threads[j]? = some th' →
      (p.threads.set i th)[j]? = some th' :=
    fun hne hj => (List.getElem?_set_ne (Ne.symm hne)).trans hj
  have inserting : ∀ {j : ℕ} {th'}, p.threads[j]? = some th' → inserts th' = true → j ≠ i := by
    rintro j th' hj hins rfl
    cases hi.symm.trans hj
    cases hins
  refine ⟨fun j r' e hj => ?_,
    fun j th' hj hins => h.missing j th' (kept (inserting hj hins) hj) hins,
    fun j k th₁ th₂ hj hk h₁ h₂ => h.alone j k th₁ th₂ (kept (inserting hj h₁) hj)
      (kept (inserting hk h₂) hk) h₁ h₂⟩
  refine h.noError j r' e (kept ?_ hj)
  rintro rfl
  cases hi.symm.trans hj

/-- Calls that have become contended stay so: one of the inserts fails. -/
theorem uncontended_before {w : Uuid} {p p' : Service} {l : ServiceLabel} (h : Did w p l p')
    (hp : Uncontended w p') : Uncontended w p := by
  cases h with
  | started r =>
    have later : ∀ {j : ℕ} {th}, p.threads[j]? = some th →
        (p.threads ++ [⟨r, GroupStage.looking.program r.stamps w⟩])[j]? = some th := by
      intro j th hj
      obtain ⟨hlt, -⟩ := List.getElem?_eq_some_iff.mp hj
      exact (List.getElem?_append_left hlt).trans hj
    exact ⟨fun j r' e hj => hp.noError j r' e (later hj),
      fun j th hj hins => hp.missing j th (later hj) hins,
      fun j k th₁ th₂ hj hk h₁ h₂ => hp.alone j k th₁ th₂ (later hj) (later hk) h₁ h₂⟩
  | found hi hc hw htype => exact hp.looked hi
  | missed hi hnone => exact hp.looked hi
  | @created i t r row s' hi hnone hgrows hrow hw htype =>
    have only : ∀ {j : ℕ} {th}, p.threads[j]? = some th → inserts th = true → j = i := by
      intro j th hj hins
      by_contra hne
      exact hp.missing j th ((List.getElem?_set_ne (Ne.symm hne)).trans hj) hins
        ⟨row, hrow, hw, htype⟩
    refine ⟨fun j r' e hj => ?_, fun j th hj hins => hnone,
      fun j k th₁ th₂ hj hk h₁ h₂ => (only hj h₁).trans (only hk h₂).symm⟩
    have hne : i ≠ j := by
      rintro rfl
      cases hi.symm.trans hj
    exact hp.noError j r' e ((List.getElem?_set_ne hne).trans hj)
  | @lost i t r e hi hexists =>
    have hlt : i < p.threads.length := (List.getElem?_eq_some_iff.mp hi).1
    exact absurd (List.getElem?_set_self hlt) (hp.noError i r e)

/-- A `GetOrCreateGroupConversation` makes at most two calls. -/
theorem body_callsAtMost {r : Request} {w : Uuid} (h : r.call = .getOrCreateGroupConversation w) :
    (body r).CallsAtMost 2 := by
  rw [body_looking h]
  obtain ⟨op, next, hq⟩ : ∃ op next, GroupStage.looking.program r.stamps w = .call op next :=
    ⟨_, _, rfl⟩
  obtain ⟨after, hcalls, hnext⟩ := GroupStage.program_call hq
  rw [hq]
  intro reply
  rw [hnext]
  cases hcalls with
  | looking =>
    cases reply with
    | ok c => trivial
    | error e =>
      dsimp only
      split
      · trivial
      split
      · trivial
      · intro reply
        cases reply with
        | ok c => trivial
        | error e => trivial

/-- Every call that has had two turns has returned, every call that has returned
has returned a conversation, and all have returned the same one. -/
structure AllAnswered (ls : List ServiceLabel) (p : Service) : Prop where
  returned : ∀ (i : ℕ) th, p.threads[i]? = some th → 2 ≤ turnsOf i ls →
    ∃ result, th.prog = .ret result
  succeeded : ∀ (i : ℕ) r result, p.threads[i]? = some (⟨r, .ret result⟩ : ServiceThread) →
    ∃ c, result = .ok (.conversation c)
  agreed : ∀ (i j : ℕ) r r' c c',
    p.threads[i]? = some (⟨r, .ret (.ok (.conversation c))⟩ : ServiceThread) →
    p.threads[j]? = some (⟨r', .ret (.ok (.conversation c'))⟩ : ServiceThread) → c.id = c'.id

variable {w : Uuid} {s : ChatState} {ls : List ServiceLabel} {p : Service}

/-- First accesses start as calls, and uncontended. -/
theorem calling_start (hw : ∃ v ∈ s.db.workspaces, v.id = w) : Calling w ⟨s, []⟩ :=
  ⟨hw, fun _ h => by cases h⟩

theorem uncontended_start : Uncontended w ⟨s, []⟩ :=
  ⟨fun _ _ _ h => (by cases h), fun _ _ h => (by cases h), fun _ _ _ _ h => (by cases h)⟩

/-- The calls of a run of first accesses stay uncontended exactly if no lookup
misses while another call is about to insert. -/
theorem throughout_uncontended_iff (hw : ∃ v ∈ s.db.workspaces, v.id = w)
    (hcalls : EachStep Service.step (ByFirstAccess w) ⟨s, []⟩ ls)
    (hrun : run Service.step ⟨s, []⟩ ls = some p) :
    Throughout Service.step (Uncontended w) ⟨s, []⟩ ls ↔
      EachStep Service.step (MissAlone w) ⟨s, []⟩ ls :=
  throughout_iff_eachStep_within
    (fun _ _ _ hp _ hl h => calling_step hp (step_did hp hl h))
    (fun _ _ _ hp hu hl h => uncontended_step_iff hu (step_did hp hl h))
    (calling_start hw) uncontended_start hcalls hrun

/-- In a run of first accesses all calls are calls for the group conversation. -/
theorem calling_run (hw : ∃ v ∈ s.db.workspaces, v.id = w)
    (hcalls : EachStep Service.step (ByFirstAccess w) ⟨s, []⟩ ls)
    (hrun : run Service.step ⟨s, []⟩ ls = some p) : Calling w p :=
  run_guarded (fun _ _ _ hp hl h => calling_step hp (step_did hp hl h)) (calling_start hw) hcalls
    hrun

/-- What a call of the first accesses is at the end of a run. -/
theorem exists_stage (h : Calling w p) {i : ℕ} {r : Request} {q : ServiceProgram Response}
    (hi : p.threads[i]? = some ⟨r, q⟩) : ∃ stage : GroupStage, q = stage.program r.stamps w ∧
      ∀ c, stage = .returned c →
        c ∈ p.state.db.conversations ∧ c.workspaceID = w ∧ c.type = .group :=
  h.threads _ (List.mem_of_getElem? hi)

/-- Every label of a run of first accesses that starts a request starts such a
call. -/
theorem started_calls {q : Service} (hcalls : EachStep Service.step (ByFirstAccess w) q ls)
    (hrun : run Service.step q ls = some p) {r : Request} (hr : .start r ∈ ls) :
    r.call = .getOrCreateGroupConversation w := by
  induction ls generalizing q with
  | nil => cases hr
  | cons l ls ih =>
    obtain ⟨m, hstep, hrest⟩ := run_cons.mp hrun
    obtain rfl | hr := List.mem_cons.mp hr
    · exact hcalls.1
    · exact ih (hcalls.2 m hstep) hrest hr

/-- Uncontended calls are all answered with the one group conversation. -/
theorem allAnswered_of_uncontended (hw : ∃ v ∈ s.db.workspaces, v.id = w)
    (hcalls : EachStep Service.step (ByFirstAccess w) ⟨s, []⟩ ls)
    (hrun : run Service.step ⟨s, []⟩ ls = some p) (hp : Uncontended w p) : AllAnswered ls p := by
  have hcalling := calling_run hw hcalls hrun
  have hgroup : ∀ {i : ℕ} {r c},
      p.threads[i]? = some (⟨r, .ret (.ok (.conversation c))⟩ : ServiceThread) →
      c ∈ p.state.db.conversations ∧ c.workspaceID = w ∧ c.type = .group := by
    intro i r c hi
    obtain ⟨stage, hq, hok⟩ := exists_stage hcalling hi
    cases stage with
    | returned c' =>
      cases hq
      exact hok c rfl
    | failed e => cases hq
    | looking => cases hq
    | creating => cases hq
  refine ⟨fun i th hi hturns => ?_, fun i r result hi => ?_, fun i j r r' c c' hi hj => ?_⟩
  · exact Pool.run_returned_of_turns (fun th hth => by cases hth)
      (fun r hr => body_callsAtMost (started_calls hcalls hrun hr)) hrun hi hturns
  · obtain ⟨stage, hq, -⟩ := exists_stage hcalling hi
    cases stage with
    | returned c =>
      cases hq
      exact ⟨c, rfl⟩
    | failed e =>
      cases hq
      exact absurd hi (hp.noError i r e)
    | looking => cases hq
    | creating => cases hq
  · obtain ⟨hc, hcw, hctype⟩ := hgroup hi
    obtain ⟨hc', hcw', hctype'⟩ := hgroup hj
    have he := p.state.db.valid.conversations_group.eq
      (List.mem_filter.mpr ⟨hc, by simp [hctype]⟩) (List.mem_filter.mpr ⟨hc', by simp [hctype']⟩)
      (hcw.trans hcw'.symm)
    rw [he]

/-- When all calls have returned and succeeded, no call was contended. -/
theorem uncontended_of_allAnswered
    (hreturned : ∀ th ∈ p.threads, ∃ result, th.prog = .ret result) (h : AllAnswered ls p) :
    Uncontended w p := by
  have idle : ∀ {i : ℕ} {th}, p.threads[i]? = some th → inserts th = false := by
    rintro i ⟨r, q⟩ hi
    obtain ⟨result, rfl⟩ := hreturned _ (List.mem_of_getElem? hi)
    rfl
  refine ⟨fun i r e hi => ?_, fun i th hi hins => ?_, fun i j th th' hi hj hins => ?_⟩
  · obtain ⟨c, hc⟩ := h.succeeded i r _ hi
    cases hc
  · cases (idle hi).symm.trans hins
  · cases (idle hi).symm.trans hins

/-- In every run of first accesses in which no lookup misses while another call
is about to insert, every call is answered with the one group conversation; and
only in such runs, once all calls have returned. -/
theorem allAnswered_iff_missAlone (hw : ∃ v ∈ s.db.workspaces, v.id = w)
    (hcalls : EachStep Service.step (ByFirstAccess w) ⟨s, []⟩ ls)
    (hrun : run Service.step ⟨s, []⟩ ls = some p) :
    (EachStep Service.step (MissAlone w) ⟨s, []⟩ ls → AllAnswered ls p) ∧
      ((∀ th ∈ p.threads, ∃ result, th.prog = .ret result) → AllAnswered ls p →
        EachStep Service.step (MissAlone w) ⟨s, []⟩ ls) := by
  refine ⟨fun h => ?_, fun hreturned h => ?_⟩
  · have hu := ((throughout_uncontended_iff hw hcalls hrun).mpr h).last hrun
    exact allAnswered_of_uncontended hw hcalls hrun hu
  · have hu : Uncontended w p := uncontended_of_allAnswered hreturned h
    refine (throughout_uncontended_iff hw hcalls hrun).mp (Throughout.mono (throughout_not_within
      (fun _ _ _ hp hl h => calling_step hp (step_did hp hl h))
      (fun _ _ _ hp hnot hl h hu => hnot (uncontended_before (step_did hp hl h) hu))
      (calling_start hw) hcalls hrun (not_not_intro hu)) fun _ => not_not.mp)

/-- The chat service with one workspace and nothing else. -/
def oneWorkspace : ChatState :=
  (ServiceCall.exec (.workspaceCreate ⟨1, 9, 3, "HQ", 0⟩) (Choice.generating 10 0)
    ChatState.initial).2

/-- A call for the group conversation of the workspace arrives. -/
def access : ServiceLabel := .start (Call.getOrCreateGroupConversation 10).request

/-- Two calls of which the second arrives when the first has returned. -/
theorem allAnswered_inTurn :
    ∃ p, run Service.step ⟨oneWorkspace, []⟩
        [access, served 0 1 0, served 0 30 0, access, served 1 2 0] = some p ∧
      AllAnswered [access, served 0 1 0, served 0 30 0, access, served 1 2 0] p := by
  have hrun : (run Service.step ⟨oneWorkspace, []⟩
      [access, served 0 1 0, served 0 30 0, access, served 1 2 0]).isSome = true := by decide
  obtain ⟨p, hp⟩ := Option.isSome_iff_exists.mp hrun
  exact ⟨p, hp, (allAnswered_iff_missAlone (w := 10) (by decide) (by decide) hp).1 (by decide)⟩

/-- The text of the error that a call has returned. -/
def failure (th : ServiceThread) : String :=
  match th.prog with
  | .ret (.error e) => e.text
  | _ => ""

/-- Of two first accesses whose lookups both miss, one fails. -/
theorem allAnswered_not_invariant :
    ¬∀ w s ls p, (∃ v ∈ s.db.workspaces, v.id = w) →
      EachStep Service.step (ByFirstAccess w) ⟨s, []⟩ ls →
      run Service.step ⟨s, []⟩ ls = some p → AllAnswered ls p := by
  intro h
  have hrun : ((run Service.step ⟨oneWorkspace, []⟩
      [access, access, served 0 1 0, served 1 1 0, served 0 30 0, served 1 31 0]).map fun p =>
        (p.threads[1]?).map failure) = some (some ("create conversation: " ++
          (uniqueViolation "idx_conversations_group_unique").text)) := by decide
  obtain ⟨p, hp, hthread⟩ := Option.map_eq_some_iff.mp hrun
  obtain ⟨⟨r, q⟩, hi, htext⟩ := Option.map_eq_some_iff.mp hthread
  have hall := h 10 oneWorkspace _ p (by decide) (by decide) hp
  obtain ⟨result, rfl⟩ : ∃ result, q = .ret result := hall.returned 1 _ hi (by decide)
  obtain ⟨c, rfl⟩ := hall.succeeded 1 r result hi
  have hempty : "" = "create conversation: " ++
    (uniqueViolation "idx_conversations_group_unique").text := htext
  exact absurd hempty (by decide)

end AuraWellness.Chat.FirstAccess
