import AuraWellness.Chat.Handlers

/-!
# What a remote procedure does to workspaces and members

One procedure creates workspaces and two write members. Each makes one
statement and so changes one row or nothing, and when it succeeds it has
changed that row.
-/

namespace AuraWellness.Chat.Procedures

open AuraWellness.Lib.Calls
open AuraWellness.Chat.Entities AuraWellness.Chat.Schema AuraWellness.Chat.Repositories
open AuraWellness.Chat.Services AuraWellness.Chat.Growth AuraWellness.Chat.Handlers

/-- `DO UPDATE SET role` on the member with this key. -/
def assignRole (w p : Uuid) (role : String) (v : ChatWorkspaceMember) : ChatWorkspaceMember :=
  if memberKey v = (w, p) then { v with role } else v

/-- A new role leaves the key and the access. -/
theorem assignRole_fields (w p : Uuid) (role : String) (v : ChatWorkspaceMember) :
    memberKey (assignRole w p role v) = memberKey v ∧
      (assignRole w p role v).hasAccess = v.hasAccess := by
  unfold assignRole
  split <;> exact ⟨rfl, rfl⟩

/-- `DO UPDATE SET has_access` on the member with this key. -/
def switchAccess (w p : Uuid) (access : Bool) (v : ChatWorkspaceMember) : ChatWorkspaceMember :=
  if memberKey v = (w, p) then { v with hasAccess := access } else v

/-- A new access leaves the key and the role. -/
theorem switchAccess_fields (w p : Uuid) (access : Bool) (v : ChatWorkspaceMember) :
    memberKey (switchAccess w p access v) = memberKey v ∧
      (switchAccess w p access v).role = v.role := by
  unfold switchAccess
  split <;> exact ⟨rfl, rfl⟩

/-- The change of workspaces and members behind a procedure. -/
inductive Change (d d' : ChatDb) : Rpc → Prop
  /-- Nothing of them changes. -/
  | same {rpc : Rpc} (hworkspaces : d'.workspaces = d.workspaces)
    (hmembers : d'.members = d.members) : Change d d' rpc
  /-- A workspace for a business unit that had none. -/
  | created {bu company : Uuid} {name : String} {row : ChatWorkspace} (hbu : row.buID = bu)
    (hcompany : row.companyID = company) (hid : ¬∃ v ∈ d.workspaces, v.id = row.id)
    (hnew : ¬∃ v ∈ d.workspaces, v.buID = bu)
    (hworkspaces : d'.workspaces = d.workspaces ++ [row]) (hmembers : d'.members = d.members) :
    Change d d' (.createWorkspace bu company name)
  /-- A member, who has access as an Admin. -/
  | joined {w p : Uuid} {role : String} {row : ChatWorkspaceMember} (hkey : memberKey row = (w, p))
    (hrole : row.role = role) (haccess : row.hasAccess = (role == "Admin"))
    (hnew : ¬∃ v ∈ d.members, memberKey v = (w, p)) (hw : ∃ v ∈ d.workspaces, v.id = w)
    (hworkspaces : d'.workspaces = d.workspaces) (hmembers : d'.members = d.members ++ [row]) :
    Change d d' (.addMember w p role)
  /-- The role of the member that is already there. -/
  | assigned {w p : Uuid} {role : String} (hold : ∃ v ∈ d.members, memberKey v = (w, p))
    (hworkspaces : d'.workspaces = d.workspaces)
    (hmembers : d'.members = d.members.map (assignRole w p role)) :
    Change d d' (.addMember w p role)
  /-- A member whose access is the first thing known of it. -/
  | admitted {w p : Uuid} {access : Bool} {row : ChatWorkspaceMember}
    (hkey : memberKey row = (w, p)) (hrole : row.role = "Member") (haccess : row.hasAccess = access)
    (hnew : ¬∃ v ∈ d.members, memberKey v = (w, p)) (hw : ∃ v ∈ d.workspaces, v.id = w)
    (hworkspaces : d'.workspaces = d.workspaces) (hmembers : d'.members = d.members ++ [row]) :
    Change d d' (.updateMemberAccess w p access)
  /-- The access of the member that is already there. -/
  | switched {w p : Uuid} {access : Bool} (hold : ∃ v ∈ d.members, memberKey v = (w, p))
    (hworkspaces : d'.workspaces = d.workspaces)
    (hmembers : d'.members = d.members.map (switchAccess w p access)) :
    Change d d' (.updateMemberAccess w p access)

/-- A write that reaches the database and is accepted stores its table and hands
its row on; otherwise nothing changes and the call fails. -/
theorem answer_write_effective (op : ServiceCall) {label : String}
    {write : Choice → ChatState → Except GoError (op.Reply × ChatDb)}
    (hexec : ∀ c s, op.exec c s = commitWrite label s (write c s)) (t : Turn Choice GoError)
    (s : ChatState) :
    (chatMachine.effective op t s = false ∧ (chatMachine.answer op t s).2 = s ∧
        ∃ e, (chatMachine.answer op t s).1 = .error e) ∨
      (chatMachine.effective op t s = true ∧ ∃ c row d, write c s = .ok (row, d) ∧
        (chatMachine.answer op t s).2 = { s with db := d } ∧
        ∀ a, (chatMachine.answer op t s).1 = .ok a → a = row) := by
  unfold Machine.effective
  cases t with
  | serve c =>
    have ha : chatMachine.answer op (.serve c) s = commitWrite label s (write c s) := hexec c s
    obtain ⟨row, d, hwrite, hc⟩ | ⟨e, -, hc⟩ := commitWrite_cases label s (write c s)
    · dsimp only [Turn.choice?]
      rw [ha, hexec, hc]
      exact Or.inr ⟨rfl, c, row, d, hwrite, rfl, fun a h => (Except.ok.inj h).symm⟩
    · dsimp only [Turn.choice?]
      rw [ha, hexec, hc]
      exact Or.inl ⟨rfl, rfl, _, rfl⟩
  | drop e => exact Or.inl ⟨rfl, rfl, e, rfl⟩
  | lost c e =>
    have ha : chatMachine.answer op (.lost c e) s = (.error e, (commitWrite label s (write c s)).2) :=
      congrArg (fun x => (Except.error e, x.2)) (hexec c s)
    obtain ⟨row, d, hwrite, hc⟩ | ⟨e', -, hc⟩ := commitWrite_cases label s (write c s)
    · dsimp only [Turn.choice?]
      rw [ha, hexec, hc]
      exact Or.inr ⟨rfl, c, row, d, hwrite, rfl, fun a h => by cases h⟩
    · dsimp only [Turn.choice?]
      rw [ha, hexec, hc]
      exact Or.inl ⟨rfl, rfl, _, rfl⟩

/-- A write that reaches the database stores its table and hands its row on;
otherwise nothing changes and the call fails. -/
theorem answer_write (op : ServiceCall) {label : String}
    {write : Choice → ChatState → Except GoError (op.Reply × ChatDb)}
    (hexec : ∀ c s, op.exec c s = commitWrite label s (write c s)) (t : Turn Choice GoError)
    (s : ChatState) :
    ((chatMachine.answer op t s).2 = s ∧ ∃ e, (chatMachine.answer op t s).1 = .error e) ∨
      ∃ c row d, write c s = .ok (row, d) ∧ (chatMachine.answer op t s).2 = { s with db := d } ∧
        ∀ a, (chatMachine.answer op t s).1 = .ok a → a = row :=
  (answer_write_effective op hexec t s).imp And.right And.right

/-- `CreateWorkspace` fails without effect, or it has stored a new workspace,
which is what it hands on. -/
theorem serve_createWorkspace (bu company : Uuid) (name : String) (env : RpcEnv) (s : ChatState) :
    let reply := (Rpc.createWorkspace bu company name).serve env s
    (reply.2 = s ∧ ∃ e, reply.1 = .error e) ∨
      ∃ row, row.buID = bu ∧ row.companyID = company ∧ (¬∃ v ∈ s.db.workspaces, v.id = row.id) ∧
        (¬∃ v ∈ s.db.workspaces, v.buID = bu) ∧
        reply.2.db.toTables = { s.db.toTables with workspaces := s.db.workspaces ++ [row] } ∧
        ∀ a, reply.1 = .ok a → a = row := by
  dsimp only
  cases hnew : newWorkspace (env.stamps 0) bu company name with
  | error e =>
    have hrun : (Rpc.createWorkspace bu company name).serve env s = (.error (toGrpcError e), s) := by
      refine Rpc.serve_eq (r := .error e) ?_
      simp [Rpc.program, WorkspaceService.createWorkspace, hnew]
    rw [hrun]
    exact Or.inl ⟨rfl, _, rfl⟩
  | ok w =>
    have hrun : (Rpc.createWorkspace bu company name).serve env s =
        ((chatMachine.answer (.workspaceCreate w) (env.turns 0) s).1.mapError toGrpcError,
          (chatMachine.answer (.workspaceCreate w) (env.turns 0) s).2) := by
      refine Rpc.serve_eq ?_
      simp only [Rpc.program, WorkspaceService.createWorkspace, hnew, Program.ofExcept_eq,
        Program.ret_ok_bind]
      rfl
    rw [hrun]
    obtain ⟨-, -, -, rfl⟩ := newWorkspace_ok.mp hnew
    obtain ⟨hs, e, he⟩ | ⟨c, row, d, hwrite, hs, ha⟩ :=
      answer_write (.workspaceCreate _) (fun _ _ => rfl) (env.turns 0) s
    · refine Or.inl ⟨hs, toGrpcError e, ?_⟩
      dsimp only
      rw [he]
      rfl
    · obtain ⟨-, hid, hbu, hrow, hd⟩ := insertWorkspace_ok_iff.mp hwrite
      refine Or.inr ⟨row, ?_, ?_, ?_, hbu, ?_, fun a h => ha a (mapError_eq_ok.mp h)⟩
      · rw [hrow]
      · rw [hrow]
      · rw [hrow]
        exact hid
      · dsimp only
        rw [hs]
        exact hd

/-- What `AddMember` leaves of the members: one more, or a new role of an old one. -/
def Joined (d d' : ChatDb) (w p : Uuid) (role : String) : Prop :=
  (∃ row, memberKey row = (w, p) ∧ row.role = role ∧ row.hasAccess = (role == "Admin") ∧
    (¬∃ v ∈ d.members, memberKey v = (w, p)) ∧ (∃ v ∈ d.workspaces, v.id = w) ∧
    d'.toTables = { d.toTables with members := d.members ++ [row] }) ∨
  ((∃ v ∈ d.members, memberKey v = (w, p)) ∧
    d'.toTables = { d.toTables with members := d.members.map (assignRole w p role) })

/-- The member write of a procedure reaches the database and is accepted. -/
def storesMember (rpc : Rpc) (env : RpcEnv) (s : ChatState) : Bool :=
  match rpc with
  | .addMember w p role =>
    match newMember (env.stamps 0) w p role with
    | .ok m => chatMachine.effective (.memberUpsert m) (env.turns 0) s
    | .error _ => false
  | .updateMemberAccess w p access =>
    chatMachine.effective (.memberUpdateAccess w p access) (env.turns 0) s
  | _ => false

/-- `AddMember` fails without effect, or it has written the member. -/
theorem serve_addMember_stores (w p : Uuid) (role : String) (env : RpcEnv) (s : ChatState) :
    let reply := (Rpc.addMember w p role).serve env s
    let stored := storesMember (.addMember w p role) env s
    (stored = false ∧ reply.2 = s ∧ ∃ e, reply.1 = .error e) ∨
      (stored = true ∧ Joined s.db reply.2.db w p role) := by
  dsimp only [storesMember]
  cases hnew : newMember (env.stamps 0) w p role with
  | error e =>
    have hrun : (Rpc.addMember w p role).serve env s = (.error (toGrpcError e), s) := by
      refine Rpc.serve_eq (r := .error e) ?_
      simp [Rpc.program, WorkspaceService.addMember, hnew]
    rw [hrun]
    exact Or.inl ⟨rfl, rfl, _, rfl⟩
  | ok m =>
    have hrun : (Rpc.addMember w p role).serve env s =
        ((chatMachine.answer (.memberUpsert m) (env.turns 0) s).1.mapError toGrpcError,
          (chatMachine.answer (.memberUpsert m) (env.turns 0) s).2) := by
      refine Rpc.serve_eq ?_
      simp only [Rpc.program, WorkspaceService.addMember, hnew, Program.ofExcept_eq,
        Program.ret_ok_bind]
      rfl
    rw [hrun]
    obtain ⟨-, -, -, rfl⟩ := newMember_ok.mp hnew
    obtain ⟨hnone, hs, e, he⟩ | ⟨hstored, c, row, d, hwrite, hs, -⟩ :=
      answer_write_effective (.memberUpsert _) (fun _ _ => rfl) (env.turns 0) s
    · refine Or.inl ⟨hnone, hs, toGrpcError e, ?_⟩
      dsimp only
      rw [he]
      rfl
    · refine Or.inr ⟨hstored, ?_⟩
      dsimp only
      rw [hs]
      obtain ⟨-, ⟨hkey, hrow, hw, hd⟩ | ⟨hkey, hd⟩⟩ := upsert_ok hwrite
      · exact Or.inl ⟨row, by rw [hrow], by rw [hrow], by rw [hrow], hkey, hw, hd⟩
      · exact Or.inr ⟨hkey, hd⟩

/-- `AddMember` fails without effect, or it has written the member. -/
theorem serve_addMember (w p : Uuid) (role : String) (env : RpcEnv) (s : ChatState) :
    let reply := (Rpc.addMember w p role).serve env s
    (reply.2 = s ∧ ∃ e, reply.1 = .error e) ∨ Joined s.db reply.2.db w p role :=
  (serve_addMember_stores w p role env s).imp And.right And.right

/-- Whoever has been added has a member row. -/
theorem Joined.exists_member {d d' : ChatDb} {w p : Uuid} {role : String}
    (h : Joined d d' w p role) : ∃ m ∈ d'.members, memberKey m = (w, p) ∧ m.role = role := by
  obtain ⟨row, hkey, hrole, -, -, -, hd⟩ | ⟨⟨v, hv, hkey⟩, hd⟩ := h
  · refine ⟨row, ?_, hkey, hrole⟩
    rw [hd]
    exact List.mem_append_right _ (List.mem_singleton_self row)
  · have hassigned : assignRole w p role v = { v with role } := if_pos hkey
    refine ⟨assignRole w p role v, ?_, ?_, ?_⟩
    · rw [hd]
      exact List.mem_map_of_mem hv
    · rw [hassigned]
      exact hkey
    · rw [hassigned]

/-- What `UpdateMemberAccess` leaves of the members: one more without a special
role, or a new access of an old one. -/
def Switched (d d' : ChatDb) (w p : Uuid) (access : Bool) : Prop :=
  (∃ row, memberKey row = (w, p) ∧ row.role = "Member" ∧ row.hasAccess = access ∧
    (¬∃ v ∈ d.members, memberKey v = (w, p)) ∧ (∃ v ∈ d.workspaces, v.id = w) ∧
    d'.toTables = { d.toTables with members := d.members ++ [row] }) ∨
  ((∃ v ∈ d.members, memberKey v = (w, p)) ∧
    d'.toTables = { d.toTables with members := d.members.map (switchAccess w p access) })

/-- `UpdateMemberAccess` fails without effect, or it has written the access. -/
theorem serve_updateMemberAccess_stores (w p : Uuid) (access : Bool) (env : RpcEnv)
    (s : ChatState) :
    let reply := (Rpc.updateMemberAccess w p access).serve env s
    let stored := storesMember (.updateMemberAccess w p access) env s
    (stored = false ∧ reply.2 = s ∧ ∃ e, reply.1 = .error e) ∨
      (stored = true ∧ Switched s.db reply.2.db w p access) := by
  dsimp only [storesMember]
  have hrun : (Rpc.updateMemberAccess w p access).serve env s =
      ((chatMachine.answer (.memberUpdateAccess w p access) (env.turns 0) s).1.mapError toGrpcError,
        (chatMachine.answer (.memberUpdateAccess w p access) (env.turns 0) s).2) := rfl
  rw [hrun]
  obtain ⟨hnone, hs, e, he⟩ | ⟨hstored, c, row, d, hwrite, hs, -⟩ :=
    answer_write_effective (.memberUpdateAccess w p access) (fun _ _ => rfl) (env.turns 0) s
  · refine Or.inl ⟨hnone, hs, toGrpcError e, ?_⟩
    dsimp only
    rw [he]
    rfl
  · refine Or.inr ⟨hstored, ?_⟩
    dsimp only
    rw [hs]
    obtain ⟨hkey, hrow, hw, hd⟩ | ⟨hkey, hd⟩ := updateAccess_ok hwrite
    · exact Or.inl ⟨row, by rw [hrow], by rw [hrow], by rw [hrow], hkey, hw, hd⟩
    · exact Or.inr ⟨hkey, hd⟩

/-- `UpdateMemberAccess` fails without effect, or it has written the access. -/
theorem serve_updateMemberAccess (w p : Uuid) (access : Bool) (env : RpcEnv) (s : ChatState) :
    let reply := (Rpc.updateMemberAccess w p access).serve env s
    (reply.2 = s ∧ ∃ e, reply.1 = .error e) ∨ Switched s.db reply.2.db w p access :=
  (serve_updateMemberAccess_stores w p access env s).imp And.right And.right

/-- Repository calls that write neither workspaces nor members. -/
def Spares : ServiceCall → Prop
  | .workspaceCreate _ | .memberUpsert _ | .memberUpdateAccess _ _ _ => False
  | _ => True

/-- Such calls leave both tables. -/
theorem exec_spares {op : ServiceCall} (hop : Spares op) (c : Choice) (s : ChatState) :
    (op.exec c s).2.db.workspaces = s.db.workspaces ∧ (op.exec c s).2.db.members = s.db.members := by
  have heffect := exec_effect op c s
  obtain ⟨d', hd'⟩ : ∃ d', d' = (op.exec c s).2.db := ⟨_, rfl⟩
  rw [← hd'] at heffect ⊢
  cases heffect with
  | same => exact ⟨rfl, rfl⟩
  | workspaceCreate h => exact hop.elim
  | memberUpsert h => exact hop.elim
  | memberUpdateAccess h => exact hop.elim
  | messageSave h =>
    obtain ⟨-, -, -, -, hd⟩ := insertMessage_ok_iff.mp h
    constructor <;> rw [hd]
  | conversationCreate h =>
    obtain ⟨-, -, -, -, hd⟩ := insertConversation_ok_iff.mp h
    constructor <;> rw [hd]
  | conversationAddParticipant h =>
    obtain ⟨-, he⟩ | ⟨-, -, -, hd⟩ := insertParticipant_ok_iff.mp h
    · rw [he]
      exact ⟨rfl, rfl⟩
    · constructor <;> rw [hd]

/-- The procedures that write neither workspaces nor members. -/
def SparesBoth : Rpc → Prop
  | .createWorkspace _ _ _ | .addMember _ _ _ | .updateMemberAccess _ _ _ => False
  | _ => True

/-- Such procedures leave both tables. -/
theorem serve_spares {rpc : Rpc} (h : SparesBoth rpc) (env : RpcEnv) (s : ChatState) :
    (rpc.serve env s).2.db.workspaces = s.db.workspaces ∧
      (rpc.serve env s).2.db.members = s.db.members := by
  refine Rpc.serve_preserves
    (I := fun t => t.db.workspaces = s.db.workspaces ∧ t.db.members = s.db.members) rpc env
    (fun op c t hop ht => ?_) ⟨rfl, rfl⟩
  have hspares : Spares op := by
    cases rpc <;> first | exact h.elim | (cases hop <;> trivial)
  obtain ⟨hworkspaces, hmembers⟩ := exec_spares hspares c t
  exact ⟨hworkspaces.trans ht.1, hmembers.trans ht.2⟩

/-- Every procedure makes one of the changes. -/
theorem serve_change (rpc : Rpc) (env : RpcEnv) (s : ChatState) :
    Change s.db (rpc.serve env s).2.db rpc := by
  have spared : SparesBoth rpc → Change s.db (rpc.serve env s).2.db rpc := fun h =>
    Change.same (serve_spares h env s).1 (serve_spares h env s).2
  cases rpc with
  | createWorkspace bu company name =>
    obtain ⟨hs, -⟩ | ⟨row, hbu, hcompany, hid, hnew, hd, -⟩ :=
      serve_createWorkspace bu company name env s
    · rw [hs]
      exact Change.same rfl rfl
    · exact Change.created hbu hcompany hid hnew (by rw [hd]) (by rw [hd])
  | addMember w p role =>
    obtain ⟨hs, -⟩ | ⟨row, hkey, hrole, haccess, hnew, hw, hd⟩ | ⟨hold, hd⟩ :=
      serve_addMember w p role env s
    · rw [hs]
      exact Change.same rfl rfl
    · exact Change.joined hkey hrole haccess hnew hw (by rw [hd]) (by rw [hd])
    · exact Change.assigned hold (by rw [hd]) (by rw [hd])
  | updateMemberAccess w p access =>
    obtain ⟨hs, -⟩ | ⟨row, hkey, hrole, haccess, hnew, hw, hd⟩ | ⟨hold, hd⟩ :=
      serve_updateMemberAccess w p access env s
    · rw [hs]
      exact Change.same rfl rfl
    · exact Change.admitted hkey hrole haccess hnew hw (by rw [hd]) (by rw [hd])
    · exact Change.switched hold (by rw [hd]) (by rw [hd])
  | getWorkspaceByBuID bu => exact spared trivial
  | getWorkspaceByID id => exact spared trivial
  | listMembers w => exact spared trivial
  | getOrCreateDM w a b => exact spared trivial
  | getGroupConversation w => exact spared trivial
  | listConversations w p => exact spared trivial
  | getConversationParticipants conv => exact spared trivial
  | sendMessage w conv p name content => exact spared trivial
  | listMessages conv before limit => exact spared trivial

end AuraWellness.Chat.Procedures
