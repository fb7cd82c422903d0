import AuraWellness.Chat.Membership
import AuraWellness.Backend.Runs

/-!
# Requests whose calls are all answered

When no call of a request fails on its way, the replies of the chat service
are functions of its database: the workspace of a business unit, the access of
its members, a page of messages, and the group conversation, which is created
at the first lookup.
-/

namespace AuraWellness.Backend.Answers

open AuraWellness.Lib.Calls AuraWellness.Lib.Ranked AuraWellness.Lib.Keyed
open AuraWellness.Chat.Entities AuraWellness.Chat.Schema AuraWellness.Chat.Repositories
open AuraWellness.Chat.Services AuraWellness.Chat.Growth AuraWellness.Chat.Handlers
open AuraWellness.Chat.Membership
open AuraWellness.Backend.Entities AuraWellness.Backend.Schema AuraWellness.Backend.Repositories
open AuraWellness.Backend.Services AuraWellness.Backend.Runs

/-- Every call is served, and so is every call of the procedures behind it. -/
def Answered (env : ℕ → Turn BackendChoice Exn) : Prop :=
  ∀ n, ∃ c, env n = .serve c ∧ ∀ k, ∃ choice, c.rpc.turns k = .serve choice

/-- The calls after the first one are answered. -/
theorem Answered.rest {env : ℕ → Turn BackendChoice Exn} (h : Answered env) :
    Answered fun n => env (n + 1) := fun n => h (n + 1)

theorem answered_servedFrom (first : ℕ) : Answered (servedFrom first) :=
  fun _ => ⟨_, rfl, fun _ => ⟨_, rfl⟩⟩

/-- The workspace of a business unit. -/
def workspaceOf (d : ChatDb) (buId : Uuid) : Option ChatWorkspace :=
  d.workspaces.find? fun w => w.buID = buId

/-- The workspace of a business unit is the stored one. -/
theorem workspaceOf_eq_some {d : ChatDb} {bu : Uuid} {w : ChatWorkspace} :
    workspaceOf d bu = some w ↔ w ∈ d.workspaces ∧ w.buID = bu :=
  find?_eq_some_iff d.valid.workspaces_bu

/-- A business unit without a workspace. -/
theorem workspaceOf_eq_none {d : ChatDb} {bu : Uuid} :
    workspaceOf d bu = none ↔ ¬∃ w ∈ d.workspaces, w.buID = bu :=
  find?_eq_none_iff

/-- An answered procedure serves its program on the chat database. -/
theorem Answered.answer_chat {env : ℕ → Turn BackendChoice Exn} (h : Answered env) (rpc : Rpc)
    (s : World) : ∃ renv : RpcEnv, (∀ k, ∃ choice, renv.turns k = .serve choice) ∧
      backendMachine.answer (.chat rpc) (env 0) s =
        ((rpc.serve renv s.chat).1.mapError .rpc, { s with chat := (rpc.serve renv s.chat).2 }) := by
  obtain ⟨c, hc, hturns⟩ := h 0
  refine ⟨c.rpc, hturns, ?_⟩
  rw [hc]
  rfl

/-- An answered lookup hands on the workspace of the business unit. -/
theorem Answered.run_getWorkspaceByBuId {α : Type} {env : ℕ → Turn BackendChoice Exn}
    (h : Answered env) (bu : Uuid) (f : Option ChatWorkspace → BackendProgram α) (s : World) :
    (ChatServiceClient.getWorkspaceByBuId bu >>= f).run backendMachine env s =
      (f (workspaceOf s.chat.db bu)).run backendMachine (fun n => env (n + 1)) s := by
  obtain ⟨renv, hturns, hanswer⟩ := h.answer_chat (.getWorkspaceByBuID bu) s
  obtain ⟨choice, hchoice⟩ := hturns 0
  have hperform : (perform (.workspaceGetByBuID bu)).run chatMachine renv.turns s.chat =
      (WorkspaceRepo.getByBuID s.chat.db bu, s.chat) := by
    rw [Program.run_perform, hchoice]
    rfl
  have hserve : (Rpc.getWorkspaceByBuID bu).serve renv s.chat =
      ((WorkspaceRepo.getByBuID s.chat.db bu).mapError toGrpcError, s.chat) :=
    Rpc.serve_eq hperform
  rw [run_lookup, hanswer, hserve]
  unfold WorkspaceRepo.getByBuID workspaceOf
  cases s.chat.db.workspaces.find? (fun w => w.buID = bu) with
  | none => rfl
  | some w => rfl

/-- An answered procedure that succeeds hands its reply on. -/
theorem run_chat_ok {α : Type} {env : ℕ → Turn BackendChoice Exn} {rpc : Rpc}
    {f : rpc.Reply → BackendProgram α} {s : World} {a : rpc.Reply} {t : ChatState}
    (h : backendMachine.answer (.chat rpc) (env 0) s = (.ok a, { s with chat := t })) :
    (call (.chat rpc) >>= f).run backendMachine env s =
      (f a).run backendMachine (fun n => env (n + 1)) { s with chat := t } := by
  rw [Program.run_perform_bind, h]

/-- Answered members are the members of the workspace. -/
theorem Answered.run_listMembers {α : Type} {env : ℕ → Turn BackendChoice Exn} (h : Answered env)
    (w : Uuid) (f : List ChatWorkspaceMember → BackendProgram α) (s : World) :
    ∃ choice, (ChatServiceClient.getWorkspaceMembers w >>= f).run backendMachine env s =
      (f (MemberRepo.listByWorkspace s.chat.db choice w)).run backendMachine
        (fun n => env (n + 1)) s := by
  obtain ⟨renv, hturns, hanswer⟩ := h.answer_chat (.listMembers w) s
  obtain ⟨choice, hchoice⟩ := hturns 0
  have hperform : (perform (.memberListByWorkspace w)).run chatMachine renv.turns s.chat =
      (.ok (MemberRepo.listByWorkspace s.chat.db choice w), s.chat) := by
    rw [Program.run_perform, hchoice]
    rfl
  have hserve : (Rpc.listMembers w).serve renv s.chat =
      ((Except.ok (MemberRepo.listByWorkspace s.chat.db choice w)).mapError toGrpcError, s.chat) :=
    Rpc.serve_eq hperform
  rw [hserve] at hanswer
  exact ⟨choice, run_chat_ok hanswer⟩

/-- An answered page of messages is the page of the conversation. -/
theorem run_listMessages {α : Type} (env : ℕ → Turn BackendChoice Exn) {c : BackendChoice}
    {choice : Choice} (hc : env 0 = .serve c) (hchoice : c.rpc.turns 0 = .serve choice)
    (conv : Uuid) (limit : ℤ) (before : Option Time) (f : List ChatMessage → BackendProgram α)
    (s : World) :
    ∃ page, MessageRepo.list s.chat.db choice conv (defaultBefore c.rpc.now before)
        (clampLimit limit) = .ok page ∧
      (ChatServiceClient.getMessages conv limit before >>= f).run backendMachine env s =
        (f page).run backendMachine (fun n => env (n + 1)) s := by
  have hlimit : ¬clampLimit limit < 0 := by
    have hbounds := clampLimit_bounds limit
    omega
  obtain ⟨page, hpage⟩ : ∃ page, MessageRepo.list s.chat.db choice conv
      (defaultBefore c.rpc.now before) (clampLimit limit) = .ok page := ⟨_, if_neg hlimit⟩
  have hperform : (perform (.messageList conv (defaultBefore c.rpc.now before)
      (clampLimit limit))).run chatMachine c.rpc.turns s.chat = (.ok page, s.chat) := by
    rw [Program.run_perform, hchoice, ← hpage]
    rfl
  have hserve : (Rpc.listMessages conv before limit).serve c.rpc s.chat =
      ((Except.ok page).mapError toGrpcError, s.chat) := Rpc.serve_eq hperform
  have hanswer : backendMachine.answer (.chat (.listMessages conv before limit)) (env 0) s =
      (.ok page, { s with chat := s.chat }) := by
    rw [hc]
    refine (?_ : (Except.mapError Exn.rpc _, _) = _)
    rw [hserve]
    rfl
  exact ⟨page, hpage, run_chat_ok hanswer⟩

/-- The check of the backend on listed members is the access of the database. -/
theorem memberHasAccess_listByWorkspace {d : ChatDb} {choice : Choice} {w p : Uuid} :
    memberHasAccess (MemberRepo.listByWorkspace d choice w) p = true ↔ HasAccess d w p := by
  have hlisted : ∀ m, m ∈ MemberRepo.listByWorkspace d choice w ↔
      m ∈ d.members ∧ m.workspaceID = w := by
    intro m
    simp [MemberRepo.listByWorkspace, mem_sortOn]
  unfold memberHasAccess HasAccess
  split
  · rename_i hnone
    constructor
    · intro h
      cases h
    · rintro ⟨m, hm, hkey, -⟩
      have hw := (Prod.mk.inj hkey).1
      have hp := (Prod.mk.inj hkey).2
      exact absurd (by simpa using hp) (List.find?_eq_none.mp hnone m ((hlisted m).mpr ⟨hm, hw⟩))
  · rename_i member hfound
    have hp : member.personID = p := by simpa using List.find?_some hfound
    obtain ⟨hm, hw⟩ := (hlisted member).mp (List.mem_of_find?_eq_some hfound)
    constructor
    · intro haccess
      exact ⟨member, hm, by rw [memberKey, hw, hp], haccess⟩
    · rintro ⟨m, hm', hkey, haccess⟩
      have he : m = member := d.valid.members_key.eq hm' hm (by rw [hkey, memberKey, hw, hp])
      rw [← he]
      exact haccess

/-- The check of the backend on members that a procedure has listed. -/
theorem listed_access_iff {w person : Uuid} {t : Turn BackendChoice Exn} {s : World}
    {members : List ChatWorkspaceMember}
    (h : (backendMachine.answer (.chat (.listMembers w)) t s).1 = .ok members) :
    memberHasAccess members person = true ↔ HasAccess s.chat.db w person := by
  obtain ⟨c, -, hrun⟩ := answer_chat_ok h
  have hreply : (chatMachine.answer (.memberListByWorkspace w) (c.rpc.turns 0) s.chat).1 =
      .ok members := hrun
  obtain ⟨choice, -, ha⟩ := Machine.answer_ok hreply
  rw [ha] at hreply
  cases hreply
  exact memberHasAccess_listByWorkspace

/-- An existing group conversation is handed on. -/
theorem Answered.run_getGroup_stored {α : Type} {env : ℕ → Turn BackendChoice Exn}
    (h : Answered env) {w : Uuid} {s : World} (hg : GroupExists s.chat.db w)
    (f : ChatConversation → BackendProgram α) :
    ∃ c, (ChatServiceClient.getGroupConversation w >>= f).run backendMachine env s =
      (f c).run backendMachine (fun n => env (n + 1)) s := by
  obtain ⟨renv, hturns, hanswer⟩ := h.answer_chat (.getGroupConversation w) s
  obtain ⟨choice, hchoice⟩ := hturns 0
  obtain ⟨c, hrun⟩ := run_getOrCreateGroup_stored renv.stamps hchoice hg
  have hserve : (Rpc.getGroupConversation w).serve renv s.chat =
      ((Except.ok c).mapError toGrpcError, s.chat) := Rpc.serve_eq hrun
  rw [hserve] at hanswer
  exact ⟨c, run_chat_ok hanswer⟩

/-- A missing group conversation is created and handed on, unless the generated
identifier is taken. -/
theorem Answered.run_getGroup_new {α : Type} {env : ℕ → Turn BackendChoice Exn} (h : Answered env)
    {w : Uuid} {s : World} (hw : w ≠ Uuid.nil) (hg : ¬GroupExists s.chat.db w)
    (f : ChatConversation → BackendProgram α) :
    (∃ e t, (ChatServiceClient.getGroupConversation w >>= f).run backendMachine env s =
      (.error (.rpc e), t)) ∨
    ∃ c t, c ∉ s.chat.db.conversations ∧ c ∈ t.db.conversations ∧
      (ChatServiceClient.getGroupConversation w >>= f).run backendMachine env s =
        (f c).run backendMachine (fun n => env (n + 1)) { s with chat := t } := by
  obtain ⟨renv, hturns, hanswer⟩ := h.answer_chat (.getGroupConversation w) s
  obtain ⟨choice, hchoice⟩ := hturns 0
  have hrun := run_getOrCreateGroup_new renv.stamps hchoice hw hg
  generalize hcreate : chatMachine.answer (.conversationCreate
    ⟨(renv.stamps 0).id, w, .group, (renv.stamps 0).now⟩) (renv.turns 1) s.chat = reply at hrun
  obtain ⟨r, t⟩ := reply
  have hserve : (Rpc.getGroupConversation w).serve renv s.chat = (r.mapError toGrpcError, t) :=
    Rpc.serve_eq hrun
  rw [hserve] at hanswer
  cases r with
  | ok c =>
    obtain ⟨hstored, -, -, -, hid⟩ := answer_create_ok (congrArg Prod.fst hcreate)
    rw [hcreate] at hstored
    exact Or.inr ⟨c, t, fun hc => hid ⟨c, hc, rfl⟩, hstored, run_chat_ok hanswer⟩
  | error e =>
    refine Or.inl ⟨toGrpcError e, { s with chat := t }, ?_⟩
    refine (Program.run_perform_bind backendMachine _ _ _ _).trans ?_
    rw [hanswer]
    rfl

end AuraWellness.Backend.Answers
