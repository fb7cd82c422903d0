import AuraWellness.Chat.Membership
import AuraWellness.Backend.Runs

/-!
# Participants of conversations across the backend

Only `GetOrCreateDMAsync` leads to a procedure that adds participants, for a
target that the client chooses. Participants stay members of their workspaces
in every run whose calls name members of the workspace they address.
-/

namespace AuraWellness.Backend.Participants

open AuraWellness.Lib.Calls AuraWellness.Lib.Transition
open AuraWellness.Chat.Entities AuraWellness.Chat.Schema AuraWellness.Chat.Repositories
open AuraWellness.Chat.Services AuraWellness.Chat.Growth AuraWellness.Chat.Handlers
open AuraWellness.Chat.Membership
open AuraWellness.Backend.Entities AuraWellness.Backend.Schema AuraWellness.Backend.Repositories
open AuraWellness.Backend.Services AuraWellness.Backend.Runs

/-- Calls that lead to no new participant. -/
def AddsNoParticipant (op : BackendCall) : Prop := ∀ w a b, op ≠ .chat (.getOrCreateDM w a b)

/-- A query leads to no new participant. -/
theorem addsNoParticipant_of_queries {op : BackendCall} (h : op.Queries) : AddsNoParticipant op := by
  intro w a b he
  rw [he] at h
  exact h

/-- Such a call keeps every participant a member. -/
theorem exec_keeps {op : BackendCall} (hop : AddsNoParticipant op) (c : BackendChoice) {s : World}
    (hs : ParticipantsAreMembers s.chat.db) : ParticipantsAreMembers (op.exec c s).2.chat.db := by
  cases op with
  | chat rpc =>
    refine Rpc.serve_preserves (I := fun t => ParticipantsAreMembers t.db) rpc c.rpc
      (fun op choice t hmakes ht => ?_) hs
    refine exec_keeps_members (fun p hp => ?_) choice ht
    rw [hp] at hmakes
    generalize hcall : rpc.call c.rpc.now = call at hmakes
    cases hmakes with
    | dmAdd hperson =>
      cases rpc with
      | getOrCreateDM w a b => exact hop w a b rfl
      | _ => cases hcall
  | add row =>
    rw [BackendCall.exec, storeMain.eq_def]
    split <;> exact hs
  | commit rows =>
    rw [BackendCall.exec, storeMain.eq_def]
    split <;> exact hs
  | addInTransaction earlier row =>
    rw [BackendCall.exec]
    split <;> exact hs
  | _ => exact hs

/-- A request that leads to no new participant keeps every participant a member. -/
theorem run_keeps {α : Type} {p : BackendProgram α} (hp : p.AllOps AddsNoParticipant)
    (env : ℕ → Turn BackendChoice Exn) {s : World} (hs : ParticipantsAreMembers s.chat.db) :
    ParticipantsAreMembers (p.run backendMachine env s).2.chat.db :=
  Program.run_preserves (I := fun t : World => ParticipantsAreMembers t.chat.db)
    (fun _ c _ hop ht => exec_keeps hop c ht) hp env hs

/-- The caller and the target of the request are members of every workspace
that it can address; nobody is added for nil, and no target after a nil caller. -/
def TargetsMembers (s : World) (r : Served) : Prop :=
  match r.request with
  | .getOrCreateDM bu person target _ =>
    ∀ w ∈ s.chat.db.workspaces, w.buID = bu → person ≠ Uuid.nil →
      IsMember s.chat.db w.id person ∧ (target ≠ Uuid.nil → IsMember s.chat.db w.id target)
  | _ => True

/-- The procedure behind `GetOrCreateDMAsync` keeps every participant a member
when it is asked for members. -/
theorem exec_getOrCreateDM_keeps {w a b : Uuid} (t : Turn BackendChoice Exn) {s : World}
    (hs : ParticipantsAreMembers s.chat.db)
    (hmember : a ≠ Uuid.nil → IsMember s.chat.db w a ∧ (b ≠ Uuid.nil → IsMember s.chat.db w b)) :
    ParticipantsAreMembers
      (backendMachine.answer (.chat (.getOrCreateDM w a b)) t s).2.chat.db := by
  obtain h | ⟨c, h⟩ := backendMachine.answer_state (.chat (.getOrCreateDM w a b)) t s
  · rw [h]
    exact hs
  rw [h]
  have hadds := getOrCreateDM_addsPair c.rpc.stamps w a b c.rpc.turns s.chat
  refine hs.grows hadds.grows fun conv x hx => ?_
  obtain hold | ⟨⟨v, hv, hid, hw⟩, ha, hx⟩ := hadds.participants conv x hx
  · exact Or.inl hold
  have hmembers := hmember ha
  refine Or.inr ⟨v, hv, hid, ?_⟩
  rw [hw]
  obtain rfl | ⟨rfl, hb⟩ := hx
  · exact hmembers.1.grows hadds.grows
  · exact (hmembers.2 hb).grows hadds.grows

/-- A call for a direct conversation between members keeps every participant a
member. -/
theorem getOrCreateDM_keeps {bu person target company : Uuid} (env : ℕ → Turn BackendChoice Exn)
    {s : World} (hs : ParticipantsAreMembers s.chat.db)
    (htargets : ∀ w ∈ s.chat.db.workspaces, w.buID = bu → person ≠ Uuid.nil →
      IsMember s.chat.db w.id person ∧ (target ≠ Uuid.nil → IsMember s.chat.db w.id target)) :
    ParticipantsAreMembers ((ChatAccessService.getOrCreateDM bu person target company).run
      backendMachine env s).2.chat.db := by
  unfold ChatAccessService.getOrCreateDM
  obtain ⟨w, hw, hbu, hrun⟩ | hrun | ⟨e, hrun⟩ := run_getWorkspaceByBuId bu _ env s
  · rw [hrun]
    have hdm := exec_getOrCreateDM_keeps (env 1) hs (htargets w hw hbu)
    refine (?_ : ParticipantsAreMembers (Program.run backendMachine (call _ >>= _) _ s).2.chat.db)
    rw [Program.run_perform_bind]
    split
    · -- what follows the procedure only reads
      refine run_keeps ?_ _ hdm
      refine Program.AllOps.perform_bind (addsNoParticipant_of_queries trivial) fun _ => ?_
      exact Program.AllOps.perform_bind (addsNoParticipant_of_queries trivial) fun _ => trivial
    · exact hdm
  · rw [hrun]
    exact hs
  · rw [hrun]
    exact hs

/-- A request that targets members keeps every participant a member. -/
theorem step_keeps {settings : Settings} {s s' : World} {r : Served}
    (hs : ParticipantsAreMembers s.chat.db) (hr : TargetsMembers s r)
    (h : World.step settings s r = some s') : ParticipantsAreMembers s'.chat.db := by
  obtain ⟨request, env⟩ := r
  cases h
  by_cases hdm : ∃ bu person target company, request = .getOrCreateDM bu person target company
  · obtain ⟨bu, person, target, company, rfl⟩ := hdm
    refine (?_ : ParticipantsAreMembers ((BackendResponse.conversation <$>
      ChatAccessService.getOrCreateDM bu person target company).run backendMachine env s).2.chat.db)
    rw [Program.run_map]
    exact getOrCreateDM_keeps env hs hr
  · refine run_keeps ((program_issues settings request).mono fun op hop w a b he => ?_) env hs
    rw [he] at hop
    generalize hcall : BackendCall.chat (.getOrCreateDM w a b) = call at hop
    cases hop with
    | query hq =>
      rw [← hcall] at hq
      exact hq
    | dm => exact hdm ⟨_, _, _, _, rfl⟩
    | _ => cases hcall

/-- Whether the request targets members can be checked. -/
instance (s : World) (r : Served) : Decidable (TargetsMembers s r) := by
  unfold TargetsMembers
  split <;> infer_instance

/-- Participants are members throughout every run whose requests target members. -/
theorem participantsAreMembers_throughout (settings : Settings) (main : MainDb) (rs : List Served)
    (hr : EachStep (World.step settings) TargetsMembers ⟨main, ChatState.initial⟩ rs) :
    Throughout (World.step settings) (fun s => ParticipantsAreMembers s.chat.db)
      ⟨main, ChatState.initial⟩ rs := by
  have hinitial : ParticipantsAreMembers ChatState.initial.db := by
    intro c hc
    cases hc
  exact throughout_guarded (fun _ _ _ hs hr h => step_keeps hs hr h) hinitial hr

/-- The owner of a new company adds a colleague and opens a conversation. -/
def conversationWithColleague : List Served :=
  [⟨.onboard (Draws.from 100) ⟨"Spa", none, none, "Ann", none, "ann@spa.test", "secret"⟩,
      servedFrom 10⟩,
    ⟨.createStaff (Draws.from 200) 100 ⟨"Ben", "Lee", 101, "ben@spa.test", "Staff"⟩,
      servedFrom 20⟩,
    ⟨.getOrCreateDM 101 102 200 100, servedFrom 30⟩]

/-- Participants are members throughout the run of colleagues. -/
theorem participantsAreMembers_throughout_colleague :
    Throughout (World.step Settings.plain) (fun s => ParticipantsAreMembers s.chat.db)
      ⟨MainDb.empty, ChatState.initial⟩ conversationWithColleague :=
  participantsAreMembers_throughout Settings.plain MainDb.empty conversationWithColleague
    (by decide)

/-- The owner of a new company opens a conversation with an unknown person. -/
def conversationWithStranger : List Served :=
  [⟨.onboard (Draws.from 100) ⟨"Spa", none, none, "Ann", none, "ann@spa.test", "secret"⟩,
      servedFrom 10⟩,
    ⟨.getOrCreateDM 101 102 5 100, servedFrom 30⟩]

/-- The conversation with a stranger has a participant who is not a member. -/
theorem participantsAreMembers_not_invariant :
    ¬∀ settings rs s', run (World.step settings) World.initial rs = some s' →
      ParticipantsAreMembers s'.chat.db := by
  intro h
  have hrun : ((run (World.step Settings.plain) World.initial conversationWithStranger).map
      fun s => decide (ParticipantsAreMembers s.chat.db)) = some false := by decide
  obtain ⟨s', hs', hbad⟩ := Option.map_eq_some_iff.mp hrun
  exact of_decide_eq_false hbad (h Settings.plain conversationWithStranger s' hs')

end AuraWellness.Backend.Participants
