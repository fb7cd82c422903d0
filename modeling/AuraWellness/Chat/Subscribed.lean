import AuraWellness.Chat.LiveAccess

/-!
# What an open connection is subscribed to

`ServeWS` lists the conversations of the person once, before the upgrade, and subscribes
to these. Nothing subscribes an open connection to a conversation that is created later:
its subscriptions are the conversations of that listing, and fall behind with the first
conversation that a later listing would have in addition.
-/

namespace AuraWellness.Chat.Subscribed

open AuraWellness.Lib.Calls AuraWellness.Lib.Transition AuraWellness.Lib.Ranked
open AuraWellness.Chat.Entities AuraWellness.Chat.Schema AuraWellness.Chat.Repositories
open AuraWellness.Chat.Services AuraWellness.Chat.Growth AuraWellness.Chat.Live
open AuraWellness.Chat.LiveAccess

/-- `ListConversations` returns the conversation, in some order of rows that tie. -/
def Listed (d : ChatDb) (workspaceID personID conversationID : Uuid) : Prop :=
  ∃ choice, conversationID ∈ (ConversationRepo.listByWorkspaceAndPerson d choice workspaceID
    personID).map ChatConversation.id

/-- The conversations to which a connection is subscribed. -/
def Stream.subscribed (stream : Stream) : List Uuid :=
  stream.subscriptions.map Subscription.conversationID

/-- The conversations of a connection: those it is subscribed to, and those that its
subscribing loop has still to reach. -/
def Stream.conversations (stream : Stream) : List Uuid :=
  Stream.subscribed stream ++ stream.waiting.map ChatConversation.id

/-- A connection whose subscribing loop is through is subscribed to its conversations. -/
theorem conversations_of_waiting_nil {stream : Stream} (h : stream.waiting = []) :
    Stream.conversations stream = Stream.subscribed stream := by
  unfold Stream.conversations
  rw [h]
  exact List.append_nil _

/-- `StreamMessages` fails for a conversation of the connection. -/
def FailsToSubscribe (i : ℕ) : LiveLabel → Prop
  | .subscribe j false => j = i
  | _ => False

instance (i : ℕ) (l : LiveLabel) : Decidable (FailsToSubscribe i l) := by
  unfold FailsToSubscribe
  split <;> infer_instance

/-- The workspace of a connection and its conversations, from the listing on. -/
def SocketStage.listing? : SocketStage → Option (Uuid × List Uuid)
  | .upgrading w conversations => some (w, conversations.map ChatConversation.id)
  | .streaming stream => some (stream.workspaceID, Stream.conversations stream)
  | _ => none

/-- What a connection has listed: for whom, in which workspace, which conversations. -/
def listing? (sockets : List Socket) (i : ℕ) : Option (UserClaims × Uuid × List Uuid) :=
  sockets[i]?.bind fun socket => (SocketStage.listing? socket.stage).map (socket.claims, ·)

/-- The call creates the group conversation of the workspace, or lets the person take
part in a direct message of the workspace for the first time. -/
def ListsMore (d : ChatDb) (workspaceID personID : Uuid) (op : ServiceCall) : Prop :=
  (∃ c, op = .conversationCreate c ∧ c.type = .group ∧ c.workspaceID = workspaceID) ∨
    ∃ row, op = .conversationAddParticipant row ∧ row.personID = personID ∧
      ¬Participates d row.conversationID personID ∧
      ∃ c ∈ d.conversations, c.id = row.conversationID ∧ c.workspaceID = workspaceID ∧ c.type = .dm

/-- The step makes such a call, and the call takes effect. -/
def AddsListed (workspaceID personID : Uuid) (s : LiveState) (l : LiveLabel) : Prop :=
  ∃ t answer r op next, l = .service (.turn t answer) ∧
    s.service.threads[t]? = some ⟨r, .call op next⟩ ∧
    chatMachine.effective op answer s.service.state = true ∧
    ListsMore s.db workspaceID personID op

/-- The rows of the left join belong to their conversation. -/
theorem mem_joinParticipants {d : ChatDb} {c : ChatConversation}
    {row : ChatConversation × Option ChatConversationParticipant}
    (h : row ∈ ConversationRepo.joinParticipants d c) :
    row.1 = c ∧ ∀ p, row.2 = some p → p ∈ d.participants ∧ p.conversationID = c.id := by
  unfold ConversationRepo.joinParticipants at h
  split at h
  · obtain rfl := List.mem_singleton.mp h
    exact ⟨rfl, fun p hp => by cases hp⟩
  · rename_i q qs hrows
    obtain ⟨p, hp, rfl⟩ := List.mem_map.mp h
    rw [← hrows] at hp
    obtain ⟨hmem, hconv⟩ := List.mem_filter.mp hp
    refine ⟨rfl, fun p' hp' => ?_⟩
    cases hp'
    exact ⟨hmem, of_decide_eq_true hconv⟩

/-- A conversation has a row in its left join, and one for every participant. -/
theorem exists_mem_joinParticipants (d : ChatDb) (c : ChatConversation) :
    (∃ p, (c, p) ∈ ConversationRepo.joinParticipants d c) ∧
      ∀ p ∈ d.participants, p.conversationID = c.id →
        (c, some p) ∈ ConversationRepo.joinParticipants d c := by
  unfold ConversationRepo.joinParticipants
  split
  · rename_i hnone
    refine ⟨⟨none, List.mem_singleton.mpr rfl⟩, fun p hp hconv => ?_⟩
    have hmem : p ∈ d.participants.filter fun p => p.conversationID = c.id :=
      List.mem_filter.mpr ⟨hp, decide_eq_true hconv⟩
    rw [hnone] at hmem
    cases hmem
  · rename_i q qs hrows
    refine ⟨⟨some q, List.mem_map_of_mem List.mem_cons_self⟩, fun p hp hconv => ?_⟩
    have hmem : p ∈ d.participants.filter fun p => p.conversationID = c.id :=
      List.mem_filter.mpr ⟨hp, decide_eq_true hconv⟩
    rw [hrows] at hmem
    exact List.mem_map_of_mem hmem

/-- The conversations that `ListConversations` returns: the group conversation of the
workspace and the direct messages in which the person takes part. -/
theorem mem_listByWorkspaceAndPerson {d : ChatDb} {choice : Choice} {w p : Uuid}
    {c : ChatConversation} :
    c ∈ ConversationRepo.listByWorkspaceAndPerson d choice w p ↔
      c ∈ d.conversations ∧ c.workspaceID = w ∧ (c.type = .group ∨ Participates d c.id p) := by
  unfold ConversationRepo.listByWorkspaceAndPerson
  rw [mem_sortOn]
  constructor
  · intro h
    obtain ⟨row, hrow, rfl⟩ := List.mem_map.mp h
    obtain ⟨hjoined, hkept⟩ := List.mem_filter.mp hrow
    obtain ⟨v, hv, hmem⟩ := List.mem_flatMap.mp hjoined
    obtain ⟨hsame, hparticipant⟩ := mem_joinParticipants hmem
    obtain ⟨hw, hgroup | hperson⟩ := of_decide_eq_true hkept
    · exact ⟨hsame ▸ hv, hw, Or.inl hgroup⟩
    · obtain ⟨q, hq, hqp⟩ := Option.map_eq_some_iff.mp hperson
      obtain ⟨hstored, hconv⟩ := hparticipant q hq
      exact ⟨hsame ▸ hv, hw, Or.inr ⟨q, hstored, hsame ▸ hconv, hqp⟩⟩
  · intro h
    obtain ⟨hc, hw, hgroup | ⟨q, hq, hconv, hqp⟩⟩ := h
    · obtain ⟨row, hrow⟩ := (exists_mem_joinParticipants d c).1
      refine List.mem_map.mpr ⟨(c, row), List.mem_filter.mpr ⟨?_, ?_⟩, rfl⟩
      · exact List.mem_flatMap.mpr ⟨c, hc, hrow⟩
      · exact decide_eq_true ⟨hw, Or.inl hgroup⟩
    · refine List.mem_map.mpr ⟨(c, some q), List.mem_filter.mpr ⟨?_, ?_⟩, rfl⟩
      · exact List.mem_flatMap.mpr ⟨c, hc, (exists_mem_joinParticipants d c).2 q hq hconv⟩
      · exact decide_eq_true ⟨hw, Or.inr (congrArg some hqp)⟩

/-- Every order of the rows lists the same conversations. -/
theorem listed_iff_mem {d : ChatDb} (choice : Choice) {w p id : Uuid} :
    Listed d w p id ↔ id ∈ (ConversationRepo.listByWorkspaceAndPerson d choice w p).map
      ChatConversation.id := by
  constructor
  · intro h
    obtain ⟨other, hother⟩ := h
    obtain ⟨c, hc, rfl⟩ := List.mem_map.mp hother
    exact List.mem_map_of_mem (mem_listByWorkspaceAndPerson.mpr
      (mem_listByWorkspaceAndPerson.mp hc))
  · exact fun h => ⟨choice, h⟩

/-- A listed conversation is stored in the workspace, for all of it or with the person
taking part. -/
theorem listed_iff {d : ChatDb} {w p id : Uuid} :
    Listed d w p id ↔ ∃ c ∈ d.conversations, c.id = id ∧ c.workspaceID = w ∧
      (c.type = .group ∨ Participates d id p) := by
  constructor
  · intro h
    obtain ⟨choice, h⟩ := h
    obtain ⟨c, hc, rfl⟩ := List.mem_map.mp h
    obtain ⟨hstored, hw, hkind⟩ := mem_listByWorkspaceAndPerson.mp hc
    exact ⟨c, hstored, rfl, hw, hkind⟩
  · intro h
    obtain ⟨c, hc, rfl, hw, hkind⟩ := h
    exact (listed_iff_mem (Choice.generating 1 0)).mpr
      (List.mem_map_of_mem (mem_listByWorkspaceAndPerson.mpr ⟨hc, hw, hkind⟩))

/-- What is listed stays listed. -/
theorem Listed.grows {d d' : ChatDb} (h : Grows d d') {w p id : Uuid} (hid : Listed d w p id) :
    Listed d' w p id := by
  obtain ⟨c, hc, he, hw, hkind⟩ := listed_iff.mp hid
  exact listed_iff.mpr ⟨c, h.conversations c hc, he, hw, hkind.imp_right h.participates⟩

/-- A call that takes effect does what it does when it is served. -/
theorem effective_served {op : ServiceCall} {t : Turn Choice GoError} {s : ChatState}
    (h : chatMachine.effective op t s = true) :
    ∃ choice a, (chatMachine.answer op (.serve choice) s).1 = .ok a ∧
      (chatMachine.answer op t s).2 = (chatMachine.answer op (.serve choice) s).2 := by
  unfold Machine.effective at h
  cases hchoice : t.choice? with
  | none =>
    rw [hchoice] at h
    cases h
  | some choice =>
    rw [hchoice] at h
    obtain ⟨a, ha⟩ : ∃ a, (op.exec choice s).1 = .ok a := by
      cases hr : (op.exec choice s).1 with
      | ok a => exact ⟨a, rfl⟩
      | error e =>
        have hok : (op.exec choice s).1.isOk = true := h
        rw [hr] at hok
        cases hok
    exact ⟨choice, a, ha, chatMachine.answer_state_some op s hchoice⟩

/-- A write that takes no effect leaves the database. -/
theorem answer_db_of_not_effective {op : ServiceCall} {t : Turn Choice GoError} {s : ChatState}
    (hop : ∀ choice, (op.exec choice s).1.isOk = false → (op.exec choice s).2 = s)
    (h : ¬chatMachine.effective op t s = true) : (chatMachine.answer op t s).2 = s := by
  cases hchoice : t.choice? with
  | none => exact chatMachine.answer_state_none op s hchoice
  | some choice =>
    rw [chatMachine.answer_state_some op s hchoice]
    refine hop choice (Bool.eq_false_iff.mpr fun hok => h ?_)
    unfold Machine.effective
    rw [hchoice]
    exact hok

/-- A write that fails leaves the state. -/
theorem commitWrite_failed {α : Type} {label : String} {s : ChatState}
    {r : Except GoError (α × ChatDb)} (h : (commitWrite label s r).1.isOk = false) :
    (commitWrite label s r).2 = s := by
  obtain ⟨a, d, -, hc⟩ | ⟨e, -, hc⟩ := commitWrite_cases label s r
  · rw [hc] at h
    cases h
  · rw [hc]

/-- A call that lists more, and takes effect, makes the listing longer. -/
theorem listsMore_listed {s : ChatState} {op : ServiceCall} {t : Turn Choice GoError} {w p : Uuid}
    (heffective : chatMachine.effective op t s = true) (h : ListsMore s.db w p op) :
    ∃ id, Listed (chatMachine.answer op t s).2.db w p id ∧ ¬Listed s.db w p id := by
  obtain ⟨choice, a, hok, hstate⟩ := effective_served heffective
  rw [hstate]
  obtain ⟨c, rfl, htype, hw⟩ | ⟨row, rfl, hperson, hnew, c, hc, hid, hw, htype⟩ := h
  · obtain ⟨hstored, hw', htype', -, hfresh⟩ := answer_create_ok hok
    refine ⟨a.id, listed_iff.mpr ⟨a, hstored, rfl, hw'.trans hw, Or.inl (htype'.trans htype)⟩, ?_⟩
    intro hlisted
    obtain ⟨v, hv, he, -⟩ := listed_iff.mp hlisted
    exact hfresh ⟨v, hv, he⟩
  · have hgrows := answer_grows (.conversationAddParticipant row) (.serve choice) s
    have hparticipates := answer_addParticipant_ok hok
    rw [hperson] at hparticipates
    refine ⟨row.conversationID, listed_iff.mpr ⟨c, hgrows.conversations c hc, hid, hw,
      Or.inr hparticipates⟩, fun hlisted => ?_⟩
    obtain ⟨v, hv, he, -, hgroup | hold⟩ := listed_iff.mp hlisted
    · obtain rfl : v = c := s.db.valid.conversations_id.eq hv hc (he.trans hid.symm)
      cases htype.symm.trans hgroup
    · exact hnew hold

/-- A call that makes the listing longer takes effect and lists more. -/
theorem listsMore_of_listed {s : ChatState} {op : ServiceCall} {t : Turn Choice GoError}
    {w p id : Uuid} (hlisted : Listed (chatMachine.answer op t s).2.db w p id)
    (hnew : ¬Listed s.db w p id) :
    chatMachine.effective op t s = true ∧ ListsMore s.db w p op := by
  obtain ⟨c, hc, rfl, hw, hkind⟩ := listed_iff.mp hlisted
  have effective : (∀ choice, (op.exec choice s).1.isOk = false → (op.exec choice s).2 = s) →
      chatMachine.effective op t s = true := fun hop => by
    by_contra hfails
    rw [answer_db_of_not_effective hop hfails] at hlisted
    exact hnew hlisted
  obtain hold | ⟨c₀, rfl, hw₀, htype₀, hfresh⟩ := answer_conversation hc
  · -- the conversation was there, so the person takes part now
    have hnone : ¬(c.type = .group ∨ Participates s.db c.id p) := fun hbefore =>
      hnew (listed_iff.mpr ⟨c, hold, rfl, hw, hbefore⟩)
    obtain hgroup | hparticipates := hkind
    · exact absurd (Or.inl hgroup) hnone
    obtain hbefore | ⟨row, rfl, hconv, hperson⟩ := answer_participates hparticipates
    · exact absurd (Or.inr hbefore) hnone
    refine ⟨effective fun choice hfails => commitWrite_failed hfails, Or.inr ⟨row, rfl, hperson,
      fun hbefore => hnone (Or.inr (hconv ▸ hbefore)), c, hold, hconv.symm, hw, ?_⟩⟩
    cases htype : c.type with
    | group => exact absurd (Or.inl htype) hnone
    | dm => rfl
  · -- the conversation is new, and nobody takes part in it yet
    refine ⟨effective fun choice hfails => commitWrite_failed hfails, Or.inl ⟨c₀, rfl, ?_,
      hw₀.symm.trans hw⟩⟩
    obtain hgroup | hparticipates := hkind
    · exact htype₀.symm.trans hgroup
    · obtain ⟨row, hrow, hconv, -⟩ :=
        participates_of_not_add (fun row he => by cases he) hparticipates
      obtain ⟨v, hv, he⟩ := s.db.valid.participants_conversation row hrow
      exact absurd ⟨v, hv, he.trans hconv⟩ hfresh

/-- A step lists nothing more for the person exactly if it makes no such call. -/
theorem listed_step_iff {s s' : LiveState} {l : LiveLabel} (h : s.step l = some s') (w p : Uuid) :
    (∀ id, Listed s'.db w p id → Listed s.db w p id) ↔ ¬AddsListed w p s l := by
  have same : s'.db = s.db → (∀ t answer, l ≠ .service (.turn t answer)) →
      ((∀ id, Listed s'.db w p id → Listed s.db w p id) ↔ ¬AddsListed w p s l) := by
    intro hdb hl
    rw [hdb]
    exact iff_of_true (fun _ hid => hid) fun ⟨t, answer, _, _, _, he, _⟩ => hl t answer he
  cases LiveState.stepped h with
  | @service sl service hstep =>
    obtain ⟨hsame, hl⟩ | ⟨t, answer, r, op, next, rfl, ht, hstate⟩ := Pool.step_state hstep
    · exact same (congrArg ChatState.db hsame) fun t answer he => hl t answer (by cases he; rfl)
    unfold LiveState.db
    rw [hstate]
    constructor
    · intro hnone hadds
      obtain ⟨t', answer', r', op', next', he, ht', heffective, hmore⟩ := hadds
      cases he
      cases ht.symm.trans ht'
      obtain ⟨id, hlisted, hnew⟩ := listsMore_listed heffective hmore
      exact hnew (hnone id hlisted)
    · intro hnone id hlisted
      by_contra hnew
      obtain ⟨heffective, hmore⟩ := listsMore_of_listed hlisted hnew
      exact hnone ⟨t, answer, r, op, next, rfl, ht, heffective, hmore⟩
  | received hi hidle hstep =>
    cases hstep
    exact same rfl (by simp)
  | refused hbu => exact same rfl (by simp)
  | _ => exact same rfl (by simp)

/-- Rows stay in every step of the connections. -/
theorem live_step_grows {s s' : LiveState} {l : LiveLabel} (h : s.step l = some s') :
    Grows s.db s'.db := by
  obtain ⟨sl, -, hstep⟩ | ⟨k, succeeds, q, -, -, hservice, -⟩ | hservice := live_step_service h
  · obtain ⟨hsame, -⟩ | ⟨t, answer, r, op, next, -, -, hstate⟩ := Pool.step_state hstep
    · unfold LiveState.db
      rw [hsame]
      exact Grows.refl _
    · unfold LiveState.db
      rw [hstate]
      exact answer_grows op answer s.service.state
  · unfold LiveState.db
    rw [hservice]
    exact Grows.refl _
  · unfold LiveState.db
    rw [hservice]
    exact Grows.refl _

/-- A run lists nothing more for the person exactly if it makes no such call. -/
theorem listed_run_iff {s s' : LiveState} {ls : List LiveLabel} (w p : Uuid)
    (hr : run LiveState.step s ls = some s') :
    (∀ id, Listed s'.db w p id → Listed s.db w p id) ↔
      EachStep LiveState.step (fun q l => ¬AddsListed w p q l) s ls := by
  refine run_iff_eachStep (R := fun q q' : LiveState => ∀ id, Listed q'.db w p id →
    Listed q.db w p id) (fun _ _ hid => hid) (fun s l m as s' hl hrest => ?_)
    (fun s l m hl => listed_step_iff hl w p) hr
  have hfirst : Grows s.db m.db := live_step_grows hl
  have hlast : Grows m.db s'.db := run_invariant (I := fun q => Grows m.db q.db)
    (fun q b q' hq hb => hq.trans (live_step_grows hb)) (Grows.refl _) hrest
  constructor
  · exact fun h => ⟨fun id hid => h id (hid.grows hlast), fun id hid => (h id hid).grows hfirst⟩
  · exact fun h id hid => h.1 id (h.2 id hid)

/-- A connection at the replaced position, or at another one. -/
theorem listing?_set {sockets : List Socket} {i j : ℕ} {socket : Socket}
    {x : UserClaims × Uuid × List Uuid} (h : listing? (sockets.set j socket) i = some x) :
    listing? sockets i = some x ∨
      (i = j ∧ (SocketStage.listing? socket.stage).map (socket.claims, ·) = some x) := by
  obtain ⟨v, hv, hx⟩ := Option.bind_eq_some_iff.mp h
  obtain ⟨rfl, rfl⟩ | ⟨-, hold⟩ := getElem?_set_cases hv
  · exact Or.inr ⟨rfl, hx⟩
  · exact Or.inl (Option.bind_eq_some_iff.mpr ⟨v, hold, hx⟩)

/-- The listing of an upgraded connection. -/
theorem listing?_stream {s : LiveState} {i : ℕ} {claims : UserClaims} {stream : Stream}
    (hi : s.stream? i = some (claims, stream)) :
    listing? s.sockets i = some (claims, stream.workspaceID, Stream.conversations stream) := by
  unfold listing?
  rw [stream?_eq_some.mp hi]
  rfl

/-- Another stream of the same connection with the same conversations. -/
theorem listing?_restream {s : LiveState} {i j : ℕ} {claims : UserClaims} {stream next : Stream}
    {x : UserClaims × Uuid × List Uuid}
    (h : listing? (s.sockets.set j ⟨claims, .streaming next⟩) i = some x)
    (hj : s.stream? j = some (claims, stream)) (hw : next.workspaceID = stream.workspaceID)
    (hsame : i = j → Stream.conversations next = Stream.conversations stream) :
    listing? s.sockets i = some x := by
  obtain hold | ⟨rfl, hx⟩ := listing?_set h
  · exact hold
  · rw [listing?_stream hj, ← hw, ← hsame rfl]
    exact hx

/-- Replacing a subscription by one to the same conversation. -/
theorem conversations_set {stream : Stream} {j : ℕ} {sub : Subscription} (next : Subscription)
    (frames : List OutboundMessage) (hj : stream.subscriptions[j]? = some sub)
    (hsame : next.conversationID = sub.conversationID) :
    Stream.conversations { stream with subscriptions := stream.subscriptions.set j next, frames } =
      Stream.conversations stream := by
  have hmap : (stream.subscriptions.map Subscription.conversationID)[j]? =
      some next.conversationID := by
    rw [List.getElem?_map, hj, hsame]
    rfl
  unfold Stream.conversations Stream.subscribed
  dsimp only
  obtain ⟨hlt, hget⟩ := List.getElem?_eq_some_iff.mp hmap
  rw [List.map_set, ← hget, List.set_getElem_self]

/-- A delivery changes no listing. -/
theorem listing?_deliver (p : Publication) (socket : Socket) :
    (Socket.deliver p socket).claims = socket.claims ∧
      SocketStage.listing? (Socket.deliver p socket).stage = SocketStage.listing? socket.stage := by
  obtain ⟨claims, stage⟩ := socket
  cases stage with
  | streaming stream =>
    have hsame : ∀ sub : Subscription,
        (Subscription.deliver p sub).conversationID = sub.conversationID := by
      intro sub
      unfold Subscription.deliver
      split <;> rfl
    refine ⟨rfl, ?_⟩
    simp only [Socket.deliver, SocketStage.listing?, Stream.conversations, Stream.subscribed,
      List.map_map]
    congr 4
    exact funext hsame
  | _ => exact ⟨rfl, rfl⟩

/-- A connection has its listing from the moment at which `ServeWS` lists. -/
theorem listing?_step {s s' : LiveState} {l : LiveLabel} {i : ℕ}
    {x : UserClaims × Uuid × List Uuid} (h : s.step l = some s') (hg : ¬FailsToSubscribe i l)
    (hi : listing? s'.sockets i = some x) :
    listing? s.sockets i = some x ∨ ∃ t claims w choice, l = .list i t ∧
      s.sockets[i]? = some ⟨claims, .listing w⟩ ∧ x = (claims, w,
        (ConversationRepo.listByWorkspaceAndPerson s.db choice w claims.personID).map
          ChatConversation.id) := by
  cases LiveState.stepped h with
  | service hstep => exact Or.inl hi
  | accepted hbu =>
    obtain ⟨socket, hsocket, hx⟩ := Option.bind_eq_some_iff.mp hi
    obtain ⟨-, rfl⟩ | hold := getElem?_concat_cases hsocket
    · cases hx
    · exact Or.inl (Option.bind_eq_some_iff.mpr ⟨socket, hold, hx⟩)
  | refused hbu => exact Or.inl hi
  | resolved hj =>
    obtain hold | ⟨-, hx⟩ := listing?_set hi
    · exact Or.inl hold
    · dsimp only at hx
      split at hx <;> cases hx
  | @listed j t claims w hj =>
    obtain hold | ⟨rfl, hx⟩ := listing?_set hi
    · exact Or.inl hold
    · dsimp only at hx
      split at hx
      · rename_i conversations hok
        obtain ⟨choice, rfl, -⟩ := Machine.answer_ok hok
        cases hok
        cases hx
        exact Or.inr ⟨_, claims, w, choice, rfl, hj, rfl⟩
      · cases hx
  | @upgraded j succeeds claims w conversations hj =>
    obtain hold | ⟨rfl, hx⟩ := listing?_set hi
    · exact Or.inl hold
    · cases succeeds with
      | true => exact Or.inl (Option.bind_eq_some_iff.mpr ⟨_, hj, hx⟩)
      | false => cases hx
  | @subscribed j succeeds claims stream conv waiting hj hwaiting =>
    refine Or.inl (listing?_restream hi hj rfl fun he => ?_)
    cases succeeds with
    | true => simp [Stream.conversations, Stream.subscribed, hwaiting]
    | false => exact absurd he.symm hg
  | confirmed hj hsub =>
    exact Or.inl (listing?_restream hi hj rfl fun _ => conversations_set _ _ hsub rfl)
  | @published k succeeds p hp =>
    cases succeeds with
    | true =>
      obtain ⟨socket, hsocket, hx⟩ := Option.bind_eq_some_iff.mp hi
      have hmap : (s.sockets.map (Socket.deliver p))[i]? = some socket := hsocket
      rw [List.getElem?_map] at hmap
      obtain ⟨old, hold, rfl⟩ := Option.map_eq_some_iff.mp hmap
      obtain ⟨hclaims, hlisting⟩ := listing?_deliver p old
      rw [hclaims, hlisting] at hx
      exact Or.inl (Option.bind_eq_some_iff.mpr ⟨old, hold, hx⟩)
    | false => exact Or.inl hi
  | written hj hsub =>
    exact Or.inl (listing?_restream hi hj rfl fun _ => conversations_set _ _ hsub rfl)
  | received hj hidle hstep => exact Or.inl (listing?_restream hi hj rfl fun _ => rfl)
  | disconnected hj =>
    obtain hold | ⟨-, hx⟩ := listing?_set hi
    · exact Or.inl hold
    · cases hx

/-- Every connection that is open, and for whose conversations `StreamMessages` has not
failed, is subscribed to the conversations that were listed when it was set up, or is
about to be. These are the conversations that are listed now exactly if no call since
then has listed another one for the person. -/
theorem subscribed_iff_listed {ls : List LiveLabel} {s : LiveState} {i : ℕ} {claims : UserClaims}
    {stream : Stream} (hr : run LiveState.step LiveState.initial ls = some s)
    (hg : EachStep LiveState.step (fun _ l => ¬FailsToSubscribe i l) LiveState.initial ls)
    (hi : s.stream? i = some (claims, stream)) :
    ∃ before t since m, ls = before ++ .list i t :: since ∧
      run LiveState.step LiveState.initial before = some m ∧
      m.sockets[i]? = some ⟨claims, .listing stream.workspaceID⟩ ∧
      (∀ id, id ∈ Stream.conversations stream ↔
        Listed m.db stream.workspaceID claims.personID id) ∧
      (∀ id ∈ Stream.conversations stream, Listed s.db stream.workspaceID claims.personID id) ∧
      ((∀ id, id ∈ Stream.conversations stream ↔
          Listed s.db stream.workspaceID claims.personID id) ↔
        EachStep LiveState.step
          (fun q l => ¬AddsListed stream.workspaceID claims.personID q l) m
          (.list i t :: since)) := by
  have hlisting := listing?_stream hi
  have hnone : ¬listing? LiveState.initial.sockets i =
      some (claims, stream.workspaceID, Stream.conversations stream) := by
    intro h
    cases h
  obtain ⟨before, l, since, m, next, rfl, hbefore, hl, hsince, hnot, hnext⟩ :=
    exists_switch (P := fun q => listing? q.sockets i =
      some (claims, stream.workspaceID, Stream.conversations stream)) hr hnone hlisting
  have hsubscribes : ¬FailsToSubscribe i l := (hg.rest hbefore).1
  obtain hold | ⟨t, claims', w, choice, rfl, hm, hx⟩ := listing?_step hl hsubscribes hnext
  · exact absurd hold hnot
  simp only [Prod.mk.injEq] at hx
  obtain ⟨rfl, rfl, hconversations⟩ := hx
  have hrest : run LiveState.step m (.list i t :: since) = some s := run_cons.mpr ⟨next, hl, hsince⟩
  have hgrows : Grows m.db s.db := run_invariant (I := fun q => Grows m.db q.db)
    (fun q b q' hq hb => hq.trans (live_step_grows hb)) (Grows.refl _) hrest
  have hlisted : ∀ id, id ∈ Stream.conversations stream ↔
      Listed m.db stream.workspaceID claims.personID id := fun id => by
    rw [listed_iff_mem choice, hconversations]
  refine ⟨before, t, since, m, rfl, hbefore, hm, hlisted,
    fun id hid => ((hlisted id).mp hid).grows hgrows, ?_⟩
  rw [← listed_run_iff _ _ hrest]
  constructor
  · exact fun h id hid => (hlisted id).mp ((h id).mpr hid)
  · intro h id
    rw [hlisted id]
    exact ⟨fun hid => hid.grows hgrows, h id⟩

/-- The Admin's connection to the office is subscribed to what is listed, and nothing
was added since. -/
theorem subscribed_iff_listed_office :
    ∃ s stream, run LiveState.step LiveState.initial (office ++ connect 5) = some s ∧
      s.stream? 0 = some (⟨5, 1, "Ann"⟩, stream) ∧ Stream.subscribed stream = [30] ∧
      ∀ id ∈ Stream.subscribed stream, Listed s.db stream.workspaceID 5 id := by
  have hrun : (run LiveState.step LiveState.initial (office ++ connect 5)).isSome = true := by
    decide
  obtain ⟨s, hs⟩ := Option.isSome_iff_exists.mp hrun
  have hstream : (run LiveState.step LiveState.initial (office ++ connect 5)).bind
      (fun s => s.stream? 0) = some (⟨5, 1, "Ann"⟩, ⟨10, [], [⟨30, true, []⟩], [], none⟩) := by
    decide
  rw [hs] at hstream
  obtain ⟨-, -, -, -, -, -, -, -, hlisted, -⟩ := subscribed_iff_listed hs (by decide) hstream
  rw [conversations_of_waiting_nil rfl] at hlisted
  exact ⟨s, _, hs, hstream, rfl, hlisted⟩

/-- A `GetOrCreate` call that has not returned. -/
def Creating (th : Thread serviceSignature GoError Response Request) : Bool :=
  match th.req.call, th.prog with
  | .getOrCreateGroupConversation _, .call _ _ => true
  | .getOrCreateDMConversation _ _ _, .call _ _ => true
  | _, _ => false

/-- The Admin 5 of a workspace connects before its group conversation exists. -/
def connectBeforeGroup : List LiveLabel :=
  serve (.createWorkspace 1 3 "HQ") 0 [generated 10] ++
    serve (.addMember 10 5 "Admin") 1 [generated 20] ++
    [.accept ⟨5, 1, "Ann"⟩ 1, .resolve 0 lookup, .list 0 lookup, .upgrade 0 true] ++
    serve (.getOrCreateGroupConversation 10) 2 [generated 1, generated 30]

/-- The connection of the Admin stays without the group conversation. -/
theorem subscribed_not_invariant :
    ¬∀ ls s i claims stream, run LiveState.step LiveState.initial ls = some s →
      EachStep LiveState.step (fun _ l => ¬FailsToSubscribe i l) LiveState.initial ls →
      (∀ th ∈ s.service.threads, Creating th = false) →
      s.stream? i = some (claims, stream) → stream.waiting = [] →
      ∀ id, id ∈ Stream.subscribed stream ↔
        Listed s.db stream.workspaceID claims.personID id := by
  intro h
  have hrun : (run LiveState.step LiveState.initial connectBeforeGroup).isSome = true := by decide
  obtain ⟨s, hs⟩ := Option.isSome_iff_exists.mp hrun
  have hstream : (run LiveState.step LiveState.initial connectBeforeGroup).bind
      (fun s => s.stream? 0) = some (⟨5, 1, "Ann"⟩, ⟨10, [], [], [], none⟩) := by decide
  have hreturned : ((run LiveState.step LiveState.initial connectBeforeGroup).map fun s =>
      s.service.threads.all fun th => !Creating th) = some true := by decide
  have hlist : ((run LiveState.step LiveState.initial connectBeforeGroup).map fun s =>
      (ConversationRepo.listByWorkspaceAndPerson s.db (Choice.generating 1 0) 10 5).map
        ChatConversation.id) = some [30] := by decide
  rw [hs] at hstream hreturned hlist
  have hnone : ∀ th ∈ s.service.threads, Creating th = false := by
    simpa using hreturned
  have hids : (ConversationRepo.listByWorkspaceAndPerson s.db (Choice.generating 1 0) 10 5).map
      ChatConversation.id = [30] := Option.some.inj hlist
  have hlisted : Listed s.db 10 5 30 := by
    rw [listed_iff_mem (Choice.generating 1 0), hids]
    exact List.mem_singleton_self 30
  have hsubscribed := (h connectBeforeGroup s 0 _ _ hs (by decide) hnone hstream rfl 30).mpr hlisted
  cases hsubscribed

end AuraWellness.Chat.Subscribed
