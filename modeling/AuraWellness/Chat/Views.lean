import AuraWellness.Chat.Membership

/-!
# What a person sees of a chat database

A person sees the workspace of a business unit, its members, and of its
conversations the group conversation and those with the person as a
participant. Databases that agree on this view answer the lookups behind it
alike. Everything else can grow: any identifier can become a conversation with
a new message at any time.
-/

namespace AuraWellness.Chat.Views

open AuraWellness.Lib.Calls AuraWellness.Lib.Transition AuraWellness.Lib.Keyed
open AuraWellness.Lib.Ranked
open AuraWellness.Chat.Entities AuraWellness.Chat.Schema AuraWellness.Chat.Repositories
open AuraWellness.Chat.Services AuraWellness.Chat.Growth AuraWellness.Chat.Membership

/-- A conversation of the workspace that the person sees. -/
def Visible (d : ChatDb) (workspaceID personID : Uuid) (c : ChatConversation) : Prop :=
  c ∈ d.conversations ∧ c.workspaceID = workspaceID ∧
    (c.type = .group ∨ Participates d c.id personID)

/-- Two databases agree on the workspace of a business unit, on its members,
and on the conversations that the person sees, with their participants and
messages. -/
structure ViewsAgree (buID personID : Uuid) (d d' : ChatDb) : Prop where
  workspace : ∀ w, w.buID = buID → (w ∈ d.workspaces ↔ w ∈ d'.workspaces)
  members : ∀ w ∈ d.workspaces, w.buID = buID → ∀ m, m.workspaceID = w.id →
    (m ∈ d.members ↔ m ∈ d'.members)
  conversations : ∀ w ∈ d.workspaces, w.buID = buID → ∀ c,
    Visible d w.id personID c ↔ Visible d' w.id personID c
  participants : ∀ w ∈ d.workspaces, w.buID = buID → ∀ c, Visible d w.id personID c →
    ∀ p, p.conversationID = c.id → (p ∈ d.participants ↔ p ∈ d'.participants)
  messages : ∀ w ∈ d.workspaces, w.buID = buID → ∀ c, Visible d w.id personID c →
    ∀ m, m.conversationID = c.id → (m ∈ d.messages ↔ m ∈ d'.messages)

/-- Databases with the same workspace of a business unit look it up alike. -/
theorem getByBuID_congr {d d' : ChatDb} {bu : Uuid}
    (h : ∀ w, w.buID = bu → (w ∈ d.workspaces ↔ w ∈ d'.workspaces)) :
    WorkspaceRepo.getByBuID d bu = WorkspaceRepo.getByBuID d' bu := by
  unfold WorkspaceRepo.getByBuID
  rw [find?_congr d.valid.workspaces_bu d'.valid.workspaces_bu h]

/-- Databases with the same members of a workspace list them alike. -/
theorem listByWorkspace_congr {d d' : ChatDb} {w : Uuid} (choice : Choice)
    (h : ∀ m, m.workspaceID = w → (m ∈ d.members ↔ m ∈ d'.members)) :
    MemberRepo.listByWorkspace d choice w = MemberRepo.listByWorkspace d' choice w := by
  have hperm := filter_perm_of_mem_iff d.valid.members_id.nodup d'.valid.members_id.nodup
    (p := fun m => decide (m.workspaceID = w)) (fun m hm => h m (by simpa using hm))
  exact sortOn_tieRank_eq_of_perm hperm (d.valid.members_id.filter _)

/-- Databases with the same messages of a conversation deliver the same pages. -/
theorem queryPage_congr {d d' : ChatDb} {conv : Uuid} (choice : Choice) (before : Time) (limit : ℕ)
    (h : ∀ m, m.conversationID = conv → (m ∈ d.messages ↔ m ∈ d'.messages)) :
    MessageRepo.queryPage d choice conv before limit =
      MessageRepo.queryPage d' choice conv before limit := by
  have hperm := filter_perm_of_mem_iff d.valid.messages_id.nodup d'.valid.messages_id.nodup
    (p := fun m => decide (m.conversationID = conv ∧ m.createdAt < before))
    (fun m hm => h m (of_decide_eq_true hm).1)
  unfold MessageRepo.queryPage
  rw [sortOn_tieRank_eq_of_perm hperm (d.valid.messages_id.filter _)]

/-- Databases with the same messages of a conversation list them alike. -/
theorem list_congr {d d' : ChatDb} {conv : Uuid} (choice : Choice) (before : Time) (limit : ℤ)
    (h : ∀ m, m.conversationID = conv → (m ∈ d.messages ↔ m ∈ d'.messages)) :
    MessageRepo.list d choice conv before limit = MessageRepo.list d' choice conv before limit := by
  unfold MessageRepo.list
  rw [queryPage_congr choice before limit.toNat h]

/-- A listed message is a message of the conversation. -/
theorem mem_list {d : ChatDb} {choice : Choice} {conv : Uuid} {before : Time} {limit : ℤ}
    {page : List ChatMessage} (h : MessageRepo.list d choice conv before limit = .ok page)
    {m : ChatMessage} (hm : m ∈ page) : m ∈ d.messages ∧ m.conversationID = conv := by
  unfold MessageRepo.list at h
  split at h
  · cases h
  · cases h
    rw [AuraWellness.Lib.Reversal.reverseInPlace_eq, List.mem_reverse] at hm
    have hsorted := List.mem_of_mem_take hm
    have hfilter := List.mem_filter.mp (mem_sortOn.mp hsorted)
    exact ⟨hfilter.1, (of_decide_eq_true hfilter.2).1⟩

/-- A message that was saved last and is the newest below the cursor is on the page. -/
theorem mem_list_of_newest {d : ChatDb} {choice : Choice} {conv : Uuid} {before : Time} {limit : ℤ}
    {page : List ChatMessage} (hlimit : 0 < limit)
    (h : MessageRepo.list d choice conv before limit = .ok page) {m : ChatMessage}
    (hm : m ∈ d.messages) (hconv : m.conversationID = conv) (hbefore : m.createdAt < before)
    (hfirst : ∀ v ∈ d.messages, v.conversationID = conv → v.createdAt < before → v ≠ m →
      v.createdAt < m.createdAt ∨ (v.createdAt = m.createdAt ∧ choice.tie m.id < choice.tie v.id)) :
    m ∈ page := by
  unfold MessageRepo.list at h
  rw [if_neg (by omega)] at h
  cases h
  rw [AuraWellness.Lib.Reversal.reverseInPlace_eq, List.mem_reverse]
  have hmem : m ∈ d.messages.filter fun v => v.conversationID = conv ∧ v.createdAt < before :=
    List.mem_filter.mpr ⟨hm, by simp [hconv, hbefore]⟩
  have hhead : (sortOn
      (tieRank (fun m : ChatMessage => OrderDual.toDual m.createdAt) choice.tie ChatMessage.id)
      (d.messages.filter fun v => v.conversationID = conv ∧ v.createdAt < before)).head? =
        some m := by
    refine head?_sortOn hmem fun v hv hne => tieRank_lt ?_
    have hv' := List.mem_filter.mp hv
    have hconv' := of_decide_eq_true hv'.2
    obtain hlt | ⟨heq, htie⟩ := hfirst v hv'.1 hconv'.1 hconv'.2 hne
    · exact Or.inl hlt
    · exact Or.inr ⟨by rw [heq], htie⟩
  obtain ⟨rest, hrest⟩ := List.head?_eq_some_iff.mp hhead
  unfold MessageRepo.queryPage
  rw [hrest]
  obtain ⟨k, hk⟩ : ∃ k, limit.toNat = k + 1 := ⟨limit.toNat - 1, by omega⟩
  rw [hk, List.take_succ_cons]
  exact List.mem_cons_self

/-- One more request that is served with the same choices throughout leads a
reachable service to the state that its service function leads to. -/
theorem reachable_request {p : Service} (hp : Reachable Service.step Service.initial p) {α : Type}
    {r : Request} {wrap : α → Response} {f : ServiceProgram α} (hbody : body r = wrap <$> f)
    (choice : Choice) : ∃ p', Reachable Service.step Service.initial p' ∧
      p'.state = (f.run chatMachine (fun _ => .serve choice) p.state).2 := by
  obtain ⟨ls, hls⟩ := Pool.run_request chatMachine body r (fun _ => .serve choice)
    (fun _ => ⟨choice, rfl⟩) p
  refine ⟨_, hp.trans hls, ?_⟩
  rw [hbody, Program.run_map]

/-- The database after a write that is served. -/
theorem commitWrite_db {α : Type} {label : String} {s : ChatState} {a : α} {d : ChatDb}
    {r : Except GoError (α × ChatDb)} (h : r = .ok (a, d)) :
    (commitWrite label s r).2.db = d := by
  rw [h]
  rfl

/-- A workspace for a new business unit can be created. -/
theorem reachable_workspace {p : Service} (hp : Reachable Service.step Service.initial p) :
    ∃ p' w, Reachable Service.step Service.initial p' ∧
      (¬∃ v ∈ p.state.db.workspaces, v.id = w.id) ∧
      (¬∃ v ∈ p.state.db.workspaces, v.buID = w.buID) ∧
      p'.state.db.toTables =
        { p.state.db.toTables with workspaces := p.state.db.workspaces ++ [w] } := by
  obtain ⟨id, hid, hnew⟩ := exists_fresh (p.state.db.workspaces.map ChatWorkspace.id)
  obtain ⟨bu, hbu, hnewbu⟩ := exists_fresh (p.state.db.workspaces.map ChatWorkspace.buID)
  have hnone : ¬∃ v ∈ p.state.db.workspaces, v.id = id := fun ⟨v, hv, he⟩ =>
    hnew (List.mem_map.mpr ⟨v, hv, he⟩)
  have hnonebu : ¬∃ v ∈ p.state.db.workspaces, v.buID = bu := fun ⟨v, hv, he⟩ =>
    hnewbu (List.mem_map.mpr ⟨v, hv, he⟩)
  let choice : Choice := ⟨id, hid, 0, fun _ => 0⟩
  let w : ChatWorkspace := ⟨1, bu, 1, "Annex", 0⟩
  have hname : "Annex".length ≤ 255 := by decide
  obtain ⟨row, d, hinsert⟩ : ∃ row d, p.state.db.insertWorkspace choice w = .ok (row, d) :=
    insertWorkspace_accepts hname hnone hnonebu
  obtain ⟨-, -, -, hrow, htables⟩ := insertWorkspace_ok_iff.mp hinsert
  obtain ⟨p', hp', hstate⟩ := reachable_request hp
    (r := Call.request (.createWorkspace bu 1 "Annex"))
    (f := WorkspaceService.createWorkspace (fun _ => ⟨1, 0⟩) bu 1 "Annex") rfl choice
  have hprogram : WorkspaceService.createWorkspace (fun _ => ⟨1, 0⟩) bu 1 "Annex" =
      perform (.workspaceCreate w) := by
    have hw : newWorkspace ⟨1, 0⟩ bu 1 "Annex" = .ok w :=
      newWorkspace_ok.mpr ⟨hbu, by decide, by decide, rfl⟩
    unfold WorkspaceService.createWorkspace
    rw [hw]
    rfl
  have hdb : p'.state.db = d := by
    rw [hstate, hprogram]
    exact commitWrite_db hinsert
  refine ⟨p', row, hp', ?_, ?_, ?_⟩
  · rw [hrow]
    exact hnone
  · rw [hrow]
    exact hnonebu
  · rw [hdb]
    exact htables

/-- A person can be made an Admin of a workspace that the person is no member of. -/
theorem reachable_admin {p : Service} (hp : Reachable Service.step Service.initial p)
    {w : ChatWorkspace} (hw : w ∈ p.state.db.workspaces) {person : Uuid} (hperson : person ≠ Uuid.nil)
    (hnomember : ¬IsMember p.state.db w.id person) :
    ∃ p' m, Reachable Service.step Service.initial p' ∧
      memberKey m = (w.id, person) ∧ m.hasAccess = true ∧
      p'.state.db.toTables = { p.state.db.toTables with members := p.state.db.members ++ [m] } := by
  obtain ⟨id, hid, hnew⟩ := exists_fresh (p.state.db.members.map ChatWorkspaceMember.id)
  have hnone : ¬∃ v ∈ p.state.db.members, v.id = id := fun ⟨v, hv, he⟩ =>
    hnew (List.mem_map.mpr ⟨v, hv, he⟩)
  let choice : Choice := ⟨id, hid, 0, fun _ => 0⟩
  let m : ChatWorkspaceMember := ⟨1, w.id, person, "Admin", true, 0⟩
  have hkey : ¬∃ v ∈ p.state.db.members, memberKey v = memberKey m := hnomember
  obtain ⟨row, d, hinsert⟩ : ∃ row d, p.state.db.insertMember choice m hkey (Or.inl rfl) =
      .ok (row, d) := insertMember_accepts hnone ⟨w, hw, rfl⟩
  obtain ⟨-, -, hrow, htables⟩ := insertMember_ok_iff.mp hinsert
  obtain ⟨p', hp', hstate⟩ := reachable_request hp
    (r := Call.request (.addMember w.id person "Admin"))
    (f := WorkspaceService.addMember (fun _ => ⟨1, 0⟩) w.id person "Admin") rfl choice
  have hprogram : WorkspaceService.addMember (fun _ => ⟨1, 0⟩) w.id person "Admin" =
      perform (.memberUpsert m) := by
    have hm : newMember ⟨1, 0⟩ w.id person "Admin" = .ok m :=
      newMember_ok.mpr ⟨p.state.db.valid.workspaces_generated w hw, hperson, by decide, by rfl⟩
    unfold WorkspaceService.addMember
    rw [hm]
    rfl
  have hupsert : MemberRepo.upsert p.state.db choice m = .ok (row, d) := by
    have hrole : ¬20 < "Admin".length := by decide
    unfold MemberRepo.upsert
    rw [if_neg hrole, dif_pos (Or.inl rfl), dif_neg hkey]
    exact hinsert
  have hdb : p'.state.db = d := by
    rw [hstate, hprogram]
    exact commitWrite_db hupsert
  refine ⟨p', row, hp', ?_, ?_, ?_⟩
  · rw [hrow]
  · rw [hrow]
  · rw [hdb]
    exact htables

/-- A group conversation can be created under any new identifier in a workspace
that has none. -/
theorem reachable_group {p : Service} (hp : Reachable Service.step Service.initial p)
    {w : ChatWorkspace} (hw : w ∈ p.state.db.workspaces) {conv : Uuid} (hconv : conv ≠ Uuid.nil)
    (hnew : ¬∃ c ∈ p.state.db.conversations, c.id = conv)
    (hnogroup : ¬∃ c ∈ p.state.db.conversations, c.workspaceID = w.id) :
    ∃ p' c, Reachable Service.step Service.initial p' ∧ c.id = conv ∧ c.workspaceID = w.id ∧
      p'.state.db.toTables =
        { p.state.db.toTables with conversations := p.state.db.conversations ++ [c] } := by
  let choice : Choice := ⟨conv, hconv, 0, fun _ => 0⟩
  let c : ChatConversation := ⟨1, w.id, .group, 0⟩
  have hgroup : ¬(c.type = .group ∧
      ∃ v ∈ p.state.db.conversations, v.type = .group ∧ v.workspaceID = c.workspaceID) :=
    fun ⟨_, v, hv, _, hvw⟩ => hnogroup ⟨v, hv, hvw⟩
  obtain ⟨row, d, hinsert⟩ : ∃ row d, p.state.db.insertConversation choice c = .ok (row, d) :=
    insertConversation_accepts hnew hgroup ⟨w, hw, rfl⟩
  obtain ⟨-, -, -, hrow, htables⟩ := insertConversation_ok_iff.mp hinsert
  obtain ⟨p', hp', hstate⟩ := reachable_request hp
    (r := Call.request (.getOrCreateGroupConversation w.id))
    (f := ConversationService.getOrCreateGroupConversation (fun _ => ⟨1, 0⟩) w.id) rfl choice
  have hrun : (ConversationService.getOrCreateGroupConversation (fun _ => ⟨1, 0⟩) w.id).run
      chatMachine (fun _ => .serve choice) p.state =
        commitWrite "create conversation" p.state (p.state.db.insertConversation choice c) :=
    run_getOrCreateGroup_new (fun _ => ⟨1, 0⟩) rfl (p.state.db.valid.workspaces_generated w hw)
      fun ⟨v, hv, hvw, _⟩ => hnogroup ⟨v, hv, hvw⟩
  have hdb : p'.state.db = d := by
    rw [hstate, hrun]
    exact commitWrite_db hinsert
  refine ⟨p', row, hp', ?_, ?_, ?_⟩
  · rw [hrow]
  · rw [hrow]
  · rw [hdb]
    exact htables

/-- A person with access to some workspace can send to any conversation at any time. -/
theorem reachable_message {p : Service} (hp : Reachable Service.step Service.initial p)
    {w : ChatWorkspace} (hw : w ∈ p.state.db.workspaces) {person : Uuid} (hperson : person ≠ Uuid.nil)
    (haccess : HasAccess p.state.db w.id person) {conv : Uuid}
    (hconv : ∃ c ∈ p.state.db.conversations, c.id = conv) (time : Time) :
    ∃ p' m, Reachable Service.step Service.initial p' ∧ m.conversationID = conv ∧
      m.createdAt = time ∧ (¬∃ v ∈ p.state.db.messages, v.id = m.id) ∧
      p'.state.db.toTables =
        { p.state.db.toTables with messages := p.state.db.messages ++ [m] } := by
  obtain ⟨id, hid, hnew⟩ := exists_fresh (p.state.db.messages.map ChatMessage.id)
  have hnone : ¬∃ v ∈ p.state.db.messages, v.id = id := fun ⟨v, hv, he⟩ =>
    hnew (List.mem_map.mpr ⟨v, hv, he⟩)
  have hconvnil : conv ≠ Uuid.nil := by
    obtain ⟨c, hc, rfl⟩ := hconv
    exact p.state.db.valid.conversations_generated c hc
  let choice : Choice := ⟨id, hid, time, fun _ => 0⟩
  let m : ChatMessage := ⟨1, w.id, conv, person, "Quinn", "hello", 0⟩
  obtain ⟨row, d, hinsert⟩ : ∃ row d, p.state.db.insertMessage choice m = .ok (row, d) :=
    insertMessage_accepts hnone ⟨w, hw, rfl⟩ hconv
  obtain ⟨-, -, -, hrow, htables⟩ := insertMessage_ok_iff.mp hinsert
  obtain ⟨member, hget, hmember⟩ := haccess.getByWorkspaceAndPerson
  obtain ⟨p', hp', hstate⟩ := reachable_request hp
    (r := Call.request (.sendMessage w.id conv person "Quinn" "hello"))
    (f := MessagingService.sendMessage (fun _ => ⟨1, 0⟩) w.id conv person "Quinn" "hello") rfl choice
  have hdb : p'.state.db = d := by
    have hm : newMessage ⟨1, 0⟩ w.id conv person "Quinn" "hello" = .ok m :=
      newMessage_ok.mpr ⟨p.state.db.valid.workspaces_generated w hw, hconvnil, hperson,
        by decide, rfl⟩
    have hlookup : chatMachine.answer (.memberGetByWorkspaceAndPerson w.id person) (.serve choice)
        p.state = (.ok member, p.state) := by
      rw [← hget]
      rfl
    have hsave : chatMachine.answer (.messageSave m) (.serve choice) p.state =
        (.ok row, { p.state with db := d }) := by
      refine (?_ : commitWrite "save message" p.state (p.state.db.insertMessage choice m) = _)
      rw [hinsert]
      rfl
    rw [hstate]
    unfold MessagingService.sendMessage
    rw [Program.run_perform_bind, hlookup]
    dsimp only
    rw [if_neg (by rw [hmember]; decide), hm]
    refine (?_ : (Program.run chatMachine (perform (.messageSave m) >>= _) _ p.state).2.db = d)
    rw [Program.run_perform_bind, hsave]
    rfl
  refine ⟨p', row, hp', ?_, ?_, ?_, ?_⟩
  · rw [hrow]
  · rw [hrow]
  · rw [hrow]
    exact hnone
  · rw [hdb]
    exact htables

/-- A database that grew by the rows of another workspace, and by a message to
a conversation that the person does not see, looks the same to the person. -/
theorem viewsAgree_of_foreign {d d' : ChatDb} {bu person conv : Uuid} {w foreign : ChatWorkspace}
    {member : ChatWorkspaceMember} {new : List ChatConversation} {m : ChatMessage}
    (hw : w ∈ d.workspaces) (hbu : w.buID = bu) (hid : ¬∃ v ∈ d.workspaces, v.id = foreign.id)
    (hbuid : ¬∃ v ∈ d.workspaces, v.buID = foreign.buID) (hmember : member.workspaceID = foreign.id)
    (hnew : ∀ c ∈ new, c.workspaceID = foreign.id) (hconv : m.conversationID = conv)
    (hhidden : ∀ c, Visible d w.id person c → c.id ≠ conv)
    (ht : d'.toTables = { d.toTables with
      workspaces := d.workspaces ++ [foreign]
      members := d.members ++ [member]
      conversations := d.conversations ++ new
      messages := d.messages ++ [m] }) : ViewsAgree bu person d d' := by
  have hsame : ∀ v ∈ d.workspaces, v.buID = bu → v = w := fun v hv hvbu =>
    d.valid.workspaces_bu.eq hv hw (hvbu.trans hbu.symm)
  have hne : foreign.id ≠ w.id := fun he => hid ⟨w, hw, he.symm⟩
  have hparticipates : ∀ c, Participates d' c person ↔ Participates d c person := by
    intro c
    unfold Participates
    rw [ht]
  have hvisible : ∀ c, Visible d w.id person c ↔ Visible d' w.id person c := by
    intro c
    unfold Visible
    rw [hparticipates, ht]
    constructor
    · rintro ⟨hc, hcw, hsees⟩
      exact ⟨List.mem_append_left _ hc, hcw, hsees⟩
    · rintro ⟨hc, hcw, hsees⟩
      obtain hc | hc := List.mem_append.mp hc
      · exact ⟨hc, hcw, hsees⟩
      · exact absurd ((hnew c hc).symm.trans hcw) hne
  constructor
  · intro v hv
    rw [ht]
    constructor
    · exact fun h => List.mem_append_left _ h
    · intro h
      obtain h | h := List.mem_append.mp h
      · exact h
      · rw [List.mem_singleton.mp h] at hv
        exact absurd ⟨w, hw, hbu.trans hv.symm⟩ hbuid
  · intro v hv hvbu x hx
    rw [hsame v hv hvbu] at hx
    rw [ht]
    constructor
    · exact fun h => List.mem_append_left _ h
    · intro h
      obtain h | h := List.mem_append.mp h
      · exact h
      · rw [List.mem_singleton.mp h, hmember] at hx
        exact absurd hx hne
  · intro v hv hvbu c
    rw [hsame v hv hvbu]
    exact hvisible c
  · intro v hv hvbu c hc q hq
    rw [ht]
  · intro v hv hvbu c hc x hx
    rw [hsame v hv hvbu] at hc
    rw [ht]
    constructor
    · exact fun h => List.mem_append_left _ h
    · intro h
      obtain h | h := List.mem_append.mp h
      · exact h
      · rw [List.mem_singleton.mp h, hconv] at hx
        exact absurd hx.symm (hhidden c hc)

/-- Behind the back of a person any conversation that the person does not see
can receive a message at any time, whether or not it exists yet. -/
theorem reachable_hidden_message {p : Service} (hp : Reachable Service.step Service.initial p)
    {bu person conv : Uuid} {w : ChatWorkspace} (hw : w ∈ p.state.db.workspaces) (hbu : w.buID = bu)
    (hconv : conv ≠ Uuid.nil) (hhidden : ∀ c, Visible p.state.db w.id person c → c.id ≠ conv)
    (time : Time) :
    ∃ p' m, Reachable Service.step Service.initial p' ∧
      ViewsAgree bu person p.state.db p'.state.db ∧ m.conversationID = conv ∧ m.createdAt = time ∧
      (¬∃ v ∈ p.state.db.messages, v.id = m.id) ∧
      p'.state.db.messages = p.state.db.messages ++ [m] := by
  obtain ⟨p₁, foreign, hp₁, hid, hbuid, ht₁⟩ := reachable_workspace hp
  have hforeign : foreign ∈ p₁.state.db.workspaces := by
    rw [ht₁]
    exact List.mem_append_right _ (List.mem_singleton_self foreign)
  have hnomember : ¬IsMember p₁.state.db foreign.id 1 := by
    rintro ⟨x, hx, hkey⟩
    rw [ht₁] at hx
    obtain ⟨v, hv, hvid⟩ := p.state.db.valid.members_workspace x hx
    exact hid ⟨v, hv, hvid.trans (Prod.mk.inj hkey).1⟩
  obtain ⟨p₂, member, hp₂, hkey, haccess, ht₂⟩ := reachable_admin hp₁ hforeign (by decide) hnomember
  rw [ht₁] at ht₂
  have hforeign₂ : foreign ∈ p₂.state.db.workspaces := by
    rw [ht₂]
    exact List.mem_append_right _ (List.mem_singleton_self foreign)
  have haccess₂ : HasAccess p₂.state.db foreign.id 1 := by
    refine ⟨member, ?_, hkey, haccess⟩
    rw [ht₂]
    exact List.mem_append_right _ (List.mem_singleton_self member)
  obtain ⟨p₃, new, hp₃, hnew, hstored, ht₃⟩ : ∃ p₃ new,
      Reachable Service.step Service.initial p₃ ∧ (∀ c ∈ new, c.workspaceID = foreign.id) ∧
      (∃ c ∈ p.state.db.conversations ++ new, c.id = conv) ∧
      p₃.state.db.toTables = { p₂.state.db.toTables with
        conversations := p₂.state.db.conversations ++ new } := by
    by_cases hexists : ∃ c ∈ p.state.db.conversations, c.id = conv
    · obtain ⟨c, hc, hcid⟩ := hexists
      refine ⟨p₂, [], hp₂, fun c hc => (by cases hc), ⟨c, List.mem_append_left _ hc, hcid⟩, ?_⟩
      rw [List.append_nil]
    · have hnone : ¬∃ c ∈ p₂.state.db.conversations, c.id = conv := by
        rw [ht₂]
        exact hexists
      have hnogroup : ¬∃ c ∈ p₂.state.db.conversations, c.workspaceID = foreign.id := by
        rw [ht₂]
        rintro ⟨c, hc, hcw⟩
        obtain ⟨v, hv, hvid⟩ := p.state.db.valid.conversations_workspace c hc
        exact hid ⟨v, hv, hvid.trans hcw⟩
      obtain ⟨p₃, c, hp₃, hcid, hcw, ht₃⟩ := reachable_group hp₂ hforeign₂ hconv hnone hnogroup
      refine ⟨p₃, [c], hp₃, fun v hv => ?_, ⟨c, ?_, hcid⟩, ht₃⟩
      · rw [List.mem_singleton.mp hv]
        exact hcw
      · exact List.mem_append_right _ (List.mem_singleton_self c)
  rw [ht₂] at ht₃
  have hforeign₃ : foreign ∈ p₃.state.db.workspaces := by
    rw [ht₃]
    exact List.mem_append_right _ (List.mem_singleton_self foreign)
  have haccess₃ : HasAccess p₃.state.db foreign.id 1 := by
    refine ⟨member, ?_, hkey, haccess⟩
    rw [ht₃]
    exact List.mem_append_right _ (List.mem_singleton_self member)
  have hstored₃ : ∃ c ∈ p₃.state.db.conversations, c.id = conv := by
    rw [ht₃]
    exact hstored
  obtain ⟨p₄, m, hp₄, hmconv, htime, hmid, ht₄⟩ :=
    reachable_message hp₃ hforeign₃ (by decide) haccess₃ hstored₃ time
  rw [ht₃] at ht₄
  refine ⟨p₄, m, hp₄, ?_, hmconv, htime, ?_, ?_⟩
  · exact viewsAgree_of_foreign hw hbu hid hbuid (Prod.mk.inj hkey).1 hnew hmconv hhidden
      (by rw [ht₄])
  · rw [ht₃] at hmid
    exact hmid
  · rw [ht₄]

end AuraWellness.Chat.Views
