import AuraWellness.Backend.Provisioning

/-!
# Workspaces without a business unit

The rollback of a provisioning takes back the rows of the main database and
nothing of the chat service. A workspace that a call has created stays when the
call fails later. Where no call fails after it has created its workspace,
every workspace ends up with its business unit.
-/

namespace AuraWellness.Backend.Orphans

open AuraWellness.Lib.Calls AuraWellness.Lib.Transition
open AuraWellness.Chat.Entities AuraWellness.Chat.Schema AuraWellness.Chat.Handlers
open AuraWellness.Chat.Procedures
open AuraWellness.Backend.Entities AuraWellness.Backend.Schema AuraWellness.Backend.Repositories
open AuraWellness.Backend.Services AuraWellness.Backend.Runs AuraWellness.Backend.Provisioning

/-- The workspace has a committed business unit of its company. -/
def Settled (s : World) (w : ChatWorkspace) : Prop :=
  ∃ b ∈ s.main.businessUnits, b.id = w.buID ∧ b.companyId = w.companyID

/-- Every workspace has one. -/
def Consistent (s : World) : Prop := ∀ w ∈ s.chat.db.workspaces, Settled s w

instance (s : World) : Decidable (Consistent s) := by
  unfold Consistent Settled
  infer_instance

/-- The program has returned. -/
def Returned : BackendProgram BackendResponse → Bool
  | .ret _ => true
  | .call _ _ => false

/-- No call is in progress. -/
def Quiescent (p : Provisioners) : Prop := ∀ th ∈ p.threads, Returned th.prog = true

instance (p : Provisioners) : Decidable (Quiescent p) := by
  unfold Quiescent
  infer_instance

/-- The calls that a request makes once its workspace exists. -/
def AfterWorkspace : BackendCall → Bool
  | .chat (.addMember _ _ _) => true
  | .commit _ => true
  | _ => false

/-- The call that creates a workspace. -/
def CreatesWorkspace : BackendCall → Bool
  | .chat (.createWorkspace _ _ _) => true
  | _ => false

/-- The environment lets the call create no workspace. -/
def CreatesNone (op : BackendCall) (t : Turn BackendChoice Exn) (s : World) : Prop :=
  (backendMachine.answer op t s).2.chat.db.workspaces = s.chat.db.workspaces

/-- A call is carried through: a workspace that is created is also reported, and
what follows succeeds. -/
def CarriedCall (op : BackendCall) (t : Turn BackendChoice Exn) (s : World) : Prop :=
  (AfterWorkspace op = true → Succeeds op t s) ∧
    (CreatesWorkspace op = true → Succeeds op t s ∨ CreatesNone op t s)

instance (op : BackendCall) (t : Turn BackendChoice Exn) (s : World) :
    Decidable (CarriedCall op t s) := by
  unfold CarriedCall Succeeds CreatesNone
  infer_instance

/-- No request fails or dies after it has created its workspace. -/
def Carried (p : Provisioners) : ProvisioningLabel → Prop
  | .start _ => True
  | .turn i t =>
    match p.threads[i]? with
    | some ⟨_, .call op _⟩ => CarriedCall op t p.state
    | _ => True
  | .crash i _ =>
    match p.threads[i]? with
    | some ⟨_, .call op _⟩ => AfterWorkspace op = false
    | _ => True

instance (p : Provisioners) (l : ProvisioningLabel) : Decidable (Carried p l) := by
  unfold Carried
  cases l with
  | start r => exact isTrue trivial
  | turn i t =>
    dsimp only
    split <;> infer_instance
  | crash i e =>
    dsimp only
    split <;> infer_instance

theorem carried_turn {p : Provisioners} {i : ℕ} {t : Turn BackendChoice Exn}
    {r : ProvisioningRequest} {op : BackendCall}
    {next : Except Exn op.Reply → BackendProgram BackendResponse}
    (hi : p.threads[i]? = some ⟨r, .call op next⟩) (h : Carried p (.turn i t)) :
    CarriedCall op t p.state := by
  simpa only [Carried, hi] using h

theorem carried_crash {p : Provisioners} {i : ℕ} {e : Exn} {r : ProvisioningRequest}
    {op : BackendCall} {next : Except Exn op.Reply → BackendProgram BackendResponse}
    (hi : p.threads[i]? = some ⟨r, .call op next⟩) (h : Carried p (.crash i e)) :
    AfterWorkspace op = false := by
  simpa only [Carried, hi] using h

/-- The workspace of the request exists, and what is left adds its Admin and
commits. -/
def Owes (r : ProvisioningRequest) : BackendProgram BackendResponse → Prop
  | .ret _ => False
  | .call op next =>
    (op = .commit r.rows ∧ ∀ a, ∃ b, next (.ok a) = .ret (.ok b)) ∨
      ((∃ w, op = .chat (.addMember w r.owner "Admin")) ∧ ∀ a, Owes r (next (.ok a)))

/-- The request has created nothing yet, or has returned. -/
def Awaits (r : ProvisioningRequest) : BackendProgram BackendResponse → Prop
  | .ret _ => True
  | .call op next =>
    (op.Queries ∧ ∀ a, Awaits r (next a)) ∨
      (op = .chat (.createWorkspace r.unit.id r.unit.companyId r.unit.name) ∧
        (∀ a, Owes r (next (.ok a))) ∧ ∀ e, ∃ e', next (.error e) = .ret (.error e'))

/-- The request succeeds if it is carried through. -/
def Bound (r : ProvisioningRequest) (p : BackendProgram BackendResponse) : Prop :=
  Owes r p ∨ ∃ b, p = .ret (.ok b)

/-- A request starts with nothing created. -/
theorem awaits_program (r : ProvisioningRequest) : Awaits r r.program := by
  have hprovision : Awaits r r.provision :=
    Or.inr ⟨rfl, fun _ => Or.inr ⟨⟨_, rfl⟩, fun _ => Or.inl ⟨rfl, fun _ => ⟨_, rfl⟩⟩⟩,
      fun e => ⟨e, rfl⟩⟩
  have hall : ∀ ops : List BackendCall, (∀ op ∈ ops, op.Queries) →
      Awaits r (performAll ops r.provision) := by
    intro ops hops
    induction ops with
    | nil => exact hprovision
    | cons op ops ih =>
      refine Or.inl ⟨hops op List.mem_cons_self, fun a => ?_⟩
      cases a with
      | ok a => exact ih fun op' h => hops op' (List.mem_cons_of_mem op h)
      | error e => trivial
  rw [program_eq]
  exact hall r.inserts (inserts_queries r)

/-- A request that owes a business unit has created its workspace. -/
theorem Owes.afterWorkspace {r : ProvisioningRequest} {op : BackendCall}
    {next : Except Exn op.Reply → BackendProgram BackendResponse} (h : Owes r (.call op next)) :
    AfterWorkspace op = true := by
  obtain ⟨rfl, -⟩ | ⟨⟨w, rfl⟩, -⟩ := h
  · rfl
  · rfl

/-- A query is made before. -/
theorem afterWorkspace_of_queries {op : BackendCall} (h : op.Queries) :
    AfterWorkspace op = false := by
  unfold AfterWorkspace
  split
  · exact h.elim
  · exact h.elim
  · rfl

/-- What a call that is carried through does to the state and to what is left. -/
inductive Outcome (r : ProvisioningRequest) (s s' : World)
    (before after : BackendProgram BackendResponse) : Prop
  /-- Nothing has happened yet. -/
  | unchanged (hbefore : ¬Owes r before) (hstate : s' = s) (hafter : Awaits r after)
  /-- The workspace has been created. -/
  | created {row : ChatWorkspace} (hafter : Owes r after) (hmain : s'.main = s.main)
    (hbu : row.buID = r.unit.id) (hcompany : row.companyID = r.unit.companyId)
    (hworkspaces : s'.chat.db.workspaces = s.chat.db.workspaces ++ [row])
  /-- The Admin has been added. -/
  | joined (hbefore : Owes r before) (hafter : Owes r after) (hmain : s'.main = s.main)
    (hworkspaces : s'.chat.db.workspaces = s.chat.db.workspaces)
  /-- The rows have been committed. -/
  | committed (hbefore : Owes r before) (hafter : ∃ b, after = .ret (.ok b))
    (hmain : s.main.insertAll r.rows = .ok s'.main) (hchat : s'.chat = s.chat)

/-- Adding a member leaves the workspaces. -/
theorem answer_addMember_workspaces (w p : Uuid) (role : String) (t : Turn BackendChoice Exn)
    (s : World) :
    (backendMachine.answer (.chat (.addMember w p role)) t s).2.chat.db.workspaces =
      s.chat.db.workspaces := by
  obtain h | ⟨env, h⟩ := answer_chat_state (.addMember w p role) t s
  · rw [h]
  · rw [h]
    cases serve_change (.addMember w p role) env s.chat with
    | same hworkspaces hmembers => exact hworkspaces
    | joined hkey hrole haccess hnew hw hworkspaces hmembers => exact hworkspaces
    | assigned hold hworkspaces hmembers => exact hworkspaces

/-- The creation of a workspace that is carried through. -/
theorem createWorkspace_outcome {r : ProvisioningRequest}
    {next : Except Exn ChatWorkspace → BackendProgram BackendResponse}
    {t : Turn BackendChoice Exn} {s : World}
    {before : BackendProgram BackendResponse} (hbefore : ¬Owes r before)
    (hcarried : CarriedCall (.chat (.createWorkspace r.unit.id r.unit.companyId r.unit.name)) t s)
    (hok : ∀ a, Owes r (next (.ok a))) (herror : ∀ e, ∃ e', next (.error e) = .ret (.error e')) :
    let answer :=
      backendMachine.answer (.chat (.createWorkspace r.unit.id r.unit.companyId r.unit.name)) t s
    Outcome r s answer.2 before (next answer.1) := by
  have hmain := answer_chat_main (.createWorkspace r.unit.id r.unit.companyId r.unit.name) t s
  dsimp only
  cases hr : (backendMachine.answer
      (.chat (.createWorkspace r.unit.id r.unit.companyId r.unit.name)) t s).1 with
  | ok w =>
    obtain ⟨env, hserve, hstate⟩ := answer_chat_served hr
    obtain ⟨-, e, he⟩ | ⟨row, hbu, hcompany, -, -, hd, -⟩ :=
      serve_createWorkspace r.unit.id r.unit.companyId r.unit.name env s.chat
    · cases he.symm.trans hserve
    · refine Outcome.created (hok w) hmain hbu hcompany ?_
      rw [hstate]
      dsimp only
      rw [hd]
  | error e =>
    obtain ⟨e', he'⟩ := herror e
    have hnone : CreatesNone (.chat (.createWorkspace r.unit.id r.unit.companyId r.unit.name)) t s :=
      (hcarried.2 rfl).resolve_left (not_succeeds hr)
    refine Outcome.unchanged hbefore ?_ ?_
    · obtain h | ⟨env, h⟩ :=
        answer_chat_state (.createWorkspace r.unit.id r.unit.companyId r.unit.name) t s
      · exact h
      · obtain ⟨hs, -⟩ | ⟨row, -, -, -, -, hd, -⟩ :=
          serve_createWorkspace r.unit.id r.unit.companyId r.unit.name env s.chat
        · rw [h, hs]
        · -- the workspace that the service stored would show
          unfold CreatesNone at hnone
          rw [h] at hnone
          dsimp only at hnone
          rw [hd] at hnone
          simp at hnone
    · rw [he']
      trivial

/-- Every call of a request that is carried through has one of the outcomes. -/
theorem carried_outcome {r : ProvisioningRequest} {op : BackendCall}
    {next : Except Exn op.Reply → BackendProgram BackendResponse} {t : Turn BackendChoice Exn}
    {s : World} (hcarried : CarriedCall op t s)
    (h : Awaits r (.call op next) ∨ Owes r (.call op next)) :
    Outcome r s (backendMachine.answer op t s).2 (.call op next)
      (next (backendMachine.answer op t s).1) := by
  have succeeds : AfterWorkspace op = true → ∃ a, (backendMachine.answer op t s).1 = .ok a := by
    intro hafter
    cases hr : (backendMachine.answer op t s).1 with
    | ok a => exact ⟨a, rfl⟩
    | error e => exact absurd (hcarried.1 hafter) (not_succeeds hr)
  obtain (⟨hquery, hnext⟩ | ⟨rfl, hok, herror⟩) | howes := h
  · refine Outcome.unchanged (fun howes => ?_) (query_state hquery t s) (hnext _)
    exact Bool.false_ne_true ((afterWorkspace_of_queries hquery).symm.trans howes.afterWorkspace)
  · refine createWorkspace_outcome (fun howes => ?_) hcarried hok herror
    exact Bool.false_ne_true howes.afterWorkspace
  · obtain ⟨rfl, hnext⟩ | ⟨⟨w, rfl⟩, hnext⟩ := id howes
    · obtain ⟨a, ha⟩ := succeeds rfl
      obtain ⟨d, hd, hstate⟩ := answer_commit_ok ha
      rw [ha]
      refine Outcome.committed howes (hnext a) ?_ ?_
      · rw [hstate]
        exact hd
      · rw [hstate]
    · obtain ⟨a, ha⟩ := succeeds rfl
      rw [ha]
      exact Outcome.joined howes (hnext a) (answer_chat_main _ t s)
        (answer_addMember_workspaces w r.owner "Admin" t s)

/-- The workspace has its business unit, or a request that will commit it. -/
def Owed (p : Provisioners) (w : ChatWorkspace) : Prop :=
  Settled p.state w ∨ ∃ (i : ℕ) (r : ProvisioningRequest) (prog : BackendProgram BackendResponse),
    p.threads[i]? = some ⟨r, prog⟩ ∧ Owes r prog ∧
      r.unit.id = w.buID ∧ r.unit.companyId = w.companyID

/-- What holds while every request is carried through. -/
structure InHand (p : Provisioners) : Prop where
  threads : ∀ (i : ℕ) th, p.threads[i]? = some th → Awaits th.req th.prog ∨ Owes th.req th.prog
  workspaces : ∀ w ∈ p.state.chat.db.workspaces, Owed p w

/-- A workspace keeps its business unit. -/
theorem Settled.mono {s s' : World} {w : ChatWorkspace} (h : Settled s w)
    (hmain : ∀ b ∈ s.main.businessUnits, b ∈ s'.main.businessUnits) : Settled s' w := by
  obtain ⟨b, hb, hfields⟩ := h
  exact ⟨b, hmain b hb, hfields⟩

/-- A request that has returned with a success awaits nothing more. -/
theorem awaits_of_returned {r : ProvisioningRequest} {p : BackendProgram BackendResponse}
    (h : ∃ b, p = .ret (.ok b)) : Awaits r p := by
  obtain ⟨b, rfl⟩ := h
  trivial

/-- What an outcome leaves of the program. -/
theorem Outcome.after {r : ProvisioningRequest} {s s' : World}
    {before after : BackendProgram BackendResponse} (h : Outcome r s s' before after) :
    Awaits r after ∨ Owes r after := by
  cases h with
  | unchanged hbefore hstate hafter => exact Or.inl hafter
  | created hafter hmain hbu hcompany hworkspaces => exact Or.inr hafter
  | joined hbefore hafter hmain hworkspaces => exact Or.inr hafter
  | committed hbefore hafter hmain hchat => exact Or.inl (awaits_of_returned hafter)

/-- An outcome that changes something binds the request to succeed. -/
theorem Outcome.bound {r : ProvisioningRequest} {s s' : World}
    {before after : BackendProgram BackendResponse} (h : Outcome r s s' before after) :
    s' = s ∨ Bound r after := by
  cases h with
  | unchanged hbefore hstate hafter => exact Or.inl hstate
  | created hafter hmain hbu hcompany hworkspaces => exact Or.inr (Or.inl hafter)
  | joined hbefore hafter hmain hworkspaces => exact Or.inr (Or.inl hafter)
  | committed hbefore hafter hmain hchat => exact Or.inr (Or.inr hafter)

/-- An outcome keeps the business units. -/
theorem Outcome.businessUnits {r : ProvisioningRequest} {s s' : World}
    {before after : BackendProgram BackendResponse} (h : Outcome r s s' before after) :
    ∀ b ∈ s.main.businessUnits, b ∈ s'.main.businessUnits := by
  intro b hb
  cases h with
  | unchanged hbefore hstate hafter => rwa [hstate]
  | created hafter hmain hbu hcompany hworkspaces => rwa [hmain]
  | joined hbefore hafter hmain hworkspaces => rwa [hmain]
  | committed hbefore hafter hmain hchat => exact (insertAll_businessUnits hmain).mpr (Or.inl hb)

/-- A turn that is carried through keeps the workspaces in hand. -/
theorem InHand.turn {p : Provisioners} (hp : InHand p) {i : ℕ} {r : ProvisioningRequest}
    {s' : World} {before after : BackendProgram BackendResponse}
    (hi : p.threads[i]? = some ⟨r, before⟩) (h : Outcome r p.state s' before after) :
    InHand ⟨s', p.threads.set i ⟨r, after⟩⟩ := by
  have hown : (p.threads.set i ⟨r, after⟩)[i]? = some ⟨r, after⟩ := by
    rw [List.getElem?_set_self', hi]
    rfl
  refine ⟨fun j th hj => ?_, fun w hw => ?_⟩
  · obtain ⟨rfl, rfl⟩ | ⟨-, hj⟩ := getElem?_set_cases hj
    · exact h.after
    · exact hp.threads j th hj
  · -- an old workspace is still in hand unless this request has just settled it
    have old : w ∈ p.state.chat.db.workspaces → (Owes r before → Owes r after ∨
        .businessUnit r.unit ∈ r.rows ∧ p.state.main.insertAll r.rows = .ok s'.main) →
        Owed ⟨s', p.threads.set i ⟨r, after⟩⟩ w := by
      intro hold hkeeps
      obtain hsettled | ⟨j, r', prog, hj, howes, hunit⟩ := hp.workspaces w hold
      · exact Or.inl (hsettled.mono h.businessUnits)
      · by_cases hij : i = j
        · subst hij
          cases hi.symm.trans hj
          obtain hafter | ⟨hrow, hmain⟩ := hkeeps howes
          · exact Or.inr ⟨i, r, after, hown, hafter, hunit⟩
          · exact Or.inl ⟨r.unit, (insertAll_businessUnits hmain).mpr (Or.inr hrow), hunit⟩
        · exact Or.inr ⟨j, r', prog, (List.getElem?_set_ne hij).trans hj, howes, hunit⟩
    cases h with
    | unchanged hbefore hstate hafter =>
      rw [hstate] at hw
      exact old hw fun howes => absurd howes hbefore
    | created hafter hmain hbu hcompany hworkspaces =>
      rw [hworkspaces] at hw
      obtain hold | hlast := List.mem_append.mp hw
      · exact old hold fun _ => Or.inl hafter
      · rw [List.mem_singleton.mp hlast]
        exact Or.inr ⟨i, r, after, hown, hafter, hbu.symm, hcompany.symm⟩
    | joined hbefore hafter hmain hworkspaces =>
      rw [hworkspaces] at hw
      exact old hw fun _ => Or.inl hafter
    | committed hbefore hafter hmain hchat =>
      rw [hchat] at hw
      exact old hw fun _ => Or.inr ⟨businessUnit_mem_rows.mpr rfl, hmain⟩

/-- Every step of a run in which each request is carried through keeps the
workspaces in hand. -/
theorem InHand.step (p : Provisioners) (l : ProvisioningLabel) (p' : Provisioners) (hp : InHand p)
    (hcarried : Carried p l) (h : Provisioners.step p l = some p') : InHand p' := by
  cases l with
  | start r =>
    cases h
    refine ⟨fun j th hj => ?_, fun w hw => ?_⟩
    · obtain ⟨-, rfl⟩ | hj := getElem?_concat_cases hj
      · exact Or.inl (awaits_program r)
      · exact hp.threads j th hj
    · obtain hsettled | ⟨j, r', prog, hj, howes, hunit⟩ := hp.workspaces w hw
      · exact Or.inl hsettled
      · obtain ⟨hlt, -⟩ := List.getElem?_eq_some_iff.mp hj
        exact Or.inr ⟨j, r', prog, (List.getElem?_append_left hlt).trans hj, howes, hunit⟩
  | turn i t =>
    obtain ⟨r, op, next, hi, -, rfl⟩ := Pool.step_turn h
    exact hp.turn hi (carried_outcome (carried_turn hi hcarried) (hp.threads i _ hi))
  | crash i e =>
    obtain ⟨r, op, next, hi, rfl⟩ := Pool.step_crash h
    have hbefore : ¬Owes r (.call op next) := fun howes =>
      Bool.false_ne_true ((carried_crash hi hcarried).symm.trans howes.afterWorkspace)
    exact hp.turn hi (Outcome.unchanged hbefore rfl trivial)

/-- When no call is in progress, every workspace in hand has its business unit. -/
theorem InHand.consistent {p : Provisioners} (hp : InHand p) (hquiescent : Quiescent p) :
    Consistent p.state := by
  intro w hw
  obtain hsettled | ⟨i, r, prog, hi, howes, -⟩ := hp.workspaces w hw
  · exact hsettled
  · have hreturned := hquiescent _ (List.mem_of_getElem? hi)
    cases prog with
    | ret result => exact howes.elim
    | call op next => cases hreturned

/-- A request that is bound to succeed stays so while it is carried through. -/
theorem bound_step {p p' : Provisioners} {l : ProvisioningLabel} (hp : InHand p)
    (hcarried : Carried p l) (h : Provisioners.step p l = some p') {i : ℕ}
    {r : ProvisioningRequest}
    (hbound : ∃ prog, p.threads[i]? = some ⟨r, prog⟩ ∧ Bound r prog) :
    ∃ prog, p'.threads[i]? = some ⟨r, prog⟩ ∧ Bound r prog := by
  obtain ⟨prog, hi, hprog⟩ := hbound
  cases l with
  | start r' =>
    cases h
    obtain ⟨hlt, -⟩ := List.getElem?_eq_some_iff.mp hi
    exact ⟨prog, (List.getElem?_append_left hlt).trans hi, hprog⟩
  | turn j t =>
    obtain ⟨r', op, next, hj, -, rfl⟩ := Pool.step_turn h
    by_cases hij : j = i
    · subst hij
      cases hi.symm.trans hj
      have hown : (p.threads.set j ⟨r, next (backendMachine.answer op t p.state).1⟩)[j]? =
          some ⟨r, next (backendMachine.answer op t p.state).1⟩ := by
        rw [List.getElem?_set_self', hj]
        rfl
      refine ⟨_, hown, ?_⟩
      have howes : Owes r (.call op next) := hprog.resolve_right fun ⟨b, hb⟩ => by cases hb
      cases carried_outcome (carried_turn hj hcarried) (hp.threads j _ hj) with
      | unchanged hbefore hstate hafter => exact absurd howes hbefore
      | created hafter hmain hbu hcompany hworkspaces => exact Or.inl hafter
      | joined hbefore hafter hmain hworkspaces => exact Or.inl hafter
      | committed hbefore hafter hmain hchat => exact Or.inr hafter
    · exact ⟨prog, (List.getElem?_set_ne hij).trans hi, hprog⟩
  | crash j e =>
    obtain ⟨r', op, next, hj, rfl⟩ := Pool.step_crash h
    have hij : j ≠ i := by
      rintro rfl
      cases hi.symm.trans hj
      obtain howes | ⟨b, hb⟩ := hprog
      · exact Bool.false_ne_true ((carried_crash hj hcarried).symm.trans howes.afterWorkspace)
      · cases hb
    exact ⟨prog, (List.getElem?_set_ne hij).trans hi, hprog⟩

/-- A step of a request changes nothing or binds it to succeed. -/
theorem turn_unchanged_or_bound {p p' : Provisioners} {i : ℕ} {t : Turn BackendChoice Exn}
    (hp : InHand p) (hcarried : Carried p (.turn i t))
    (h : Provisioners.step p (.turn i t) = some p') :
    p'.state = p.state ∨ ∃ r prog, p'.threads[i]? = some ⟨r, prog⟩ ∧ Bound r prog := by
  obtain ⟨r, op, next, hi, -, rfl⟩ := Pool.step_turn h
  have houtcome := carried_outcome (carried_turn hi hcarried) (hp.threads i _ hi)
  obtain hstate | hbound := houtcome.bound
  · exact Or.inl hstate
  · refine Or.inr ⟨r, _, ?_, hbound⟩
    rw [List.getElem?_set_self', hi]
    rfl

/-- The request at this position has ended with an exception. -/
def HasThrown (p : Provisioners) (i : ℕ) : Prop :=
  ∃ r e, p.threads[i]? = some ⟨r, .ret (.error e)⟩

/-- A call that has thrown by the end of the run has changed nothing: each step
that it made left both systems as they were. -/
def ThrowsCleanly (p : Provisioners) (ls : List ProvisioningLabel) : Prop :=
  ∀ as i t bs q q' p', ls = as ++ .turn i t :: bs → run Provisioners.step p as = some q →
    Provisioners.step q (.turn i t) = some q' → run Provisioners.step q' bs = some p' →
    HasThrown p' i → q'.state = q.state

/-- A request that is bound to succeed does not throw. -/
theorem not_hasThrown_of_bound {p p' : Provisioners} {ls : List ProvisioningLabel} {i : ℕ}
    {r : ProvisioningRequest} (hp : InHand p)
    (hbound : ∃ prog, p.threads[i]? = some ⟨r, prog⟩ ∧ Bound r prog)
    (hcarried : EachStep Provisioners.step Carried p ls)
    (hrun : run Provisioners.step p ls = some p') : ¬HasThrown p' i := by
  have hkept : InHand p' ∧ ∃ prog, p'.threads[i]? = some ⟨r, prog⟩ ∧ Bound r prog :=
    run_guarded (I := fun q => InHand q ∧ ∃ prog, q.threads[i]? = some ⟨r, prog⟩ ∧ Bound r prog)
      (fun q l q' hq hl h => ⟨hq.1.step q l q' hl h, bound_step hq.1 hl h hq.2⟩)
      ⟨hp, hbound⟩ hcarried hrun
  rintro ⟨r', e, hthrown⟩
  obtain ⟨-, prog, hi, hprog⟩ := hkept
  cases hi.symm.trans hthrown
  obtain howes | ⟨b, hb⟩ := hprog
  · exact howes
  · cases hb

/-- When every request of a run is carried through, then once no call is in
progress each workspace has its business unit, and a call that has thrown has
changed nothing. -/
theorem consistent_of_carried {s₀ : World} {ls : List ProvisioningLabel} (hs₀ : Consistent s₀)
    (hcarried : EachStep Provisioners.step Carried (Provisioners.initial s₀) ls) :
    Throughout Provisioners.step (fun p => Quiescent p → Consistent p.state)
        (Provisioners.initial s₀) ls ∧ ThrowsCleanly (Provisioners.initial s₀) ls := by
  have hinitial : InHand (Provisioners.initial s₀) :=
    ⟨fun i th hi => (by cases hi), fun w hw => Or.inl (hs₀ w hw)⟩
  constructor
  · have hinHand := throughout_guarded InHand.step hinitial hcarried
    exact hinHand.mono fun p hp => hp.consistent
  · intro as i t bs q q' p' hls hq hq' hp' hthrown
    rw [hls] at hcarried
    have hqInHand := run_guarded InHand.step hinitial hcarried.start hq
    have hrest := hcarried.rest hq
    have hq'InHand := hqInHand.step q _ q' hrest.1 hq'
    obtain hstate | ⟨r, prog, hi, hbound⟩ := turn_unchanged_or_bound hqInHand hrest.1 hq'
    · exact hstate
    · exact absurd hthrown
        (not_hasThrown_of_bound hq'InHand ⟨prog, hi, hbound⟩ (hrest.2 q' hq') hp')

/-- An onboarding makes its first calls, all of them served. -/
def onboarding (calls : ℕ) : List ProvisioningLabel :=
  .start (.onboard (Draws.from 100) ⟨"Spa", none, none, "Ann", none, "ann@spa.test", "secret"⟩) ::
    List.replicate calls (.turn 0 (servedWith 10 0))

/-- The chat service cannot be reached. -/
def unavailable : Exn := .rpc ⟨.unavailable, "connection refused"⟩

/-- An onboarding whose last chat call fails leaves a workspace without a
business unit. -/
theorem consistent_not_invariant :
    ¬∀ ls p, run Provisioners.step (Provisioners.initial World.initial) ls = some p →
      Quiescent p → Consistent p.state := by
  intro h
  have hrun : ((run Provisioners.step (Provisioners.initial World.initial)
      (onboarding 5 ++ [.turn 0 (.drop unavailable)])).any
        fun p => decide (Quiescent p ∧ ¬Consistent p.state)) = true := by decide
  obtain ⟨p, hp, hbad⟩ := (Option.any_eq_true _ _).mp hrun
  obtain ⟨hquiescent, horphan⟩ := of_decide_eq_true hbad
  exact horphan (h _ p hp hquiescent)

/-- An onboarding that fails at its first chat call, and one that succeeds. -/
def failureThenSuccess : List ProvisioningLabel :=
  onboarding 4 ++ .turn 0 (.drop unavailable) ::
    .start (.onboard (Draws.from 200) ⟨"Gym", none, none, "Bob", none, "bob@gym.test", "secret"⟩) ::
      List.replicate 7 (.turn 1 (servedWith 10 0))

/-- The run of these two is carried through. -/
theorem consistent_of_carried_failure :
    Throughout Provisioners.step (fun p => Quiescent p → Consistent p.state)
        (Provisioners.initial World.initial) failureThenSuccess ∧
      ThrowsCleanly (Provisioners.initial World.initial) failureThenSuccess :=
  consistent_of_carried (by decide) (by decide)

end AuraWellness.Backend.Orphans
