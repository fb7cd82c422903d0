import AuraWellness.Chat.Publishing
import AuraWellness.Chat.Subscribed

/-!
# Whose messages reach a connection

A message passes from its row through a publish, the queue of a subscription
and the writer of a connection. On this way nothing is forged and nothing gets
to the wrong place: every frame on a connection is a stored message of a
conversation that `ListConversations` gives its person in the workspace of the
business unit in its token.
-/

namespace AuraWellness.Chat.LiveFrames

open AuraWellness.Lib.Calls AuraWellness.Lib.Transition
open AuraWellness.Chat.Entities AuraWellness.Chat.Schema AuraWellness.Chat.Repositories
open AuraWellness.Chat.Services AuraWellness.Chat.Growth AuraWellness.Chat.Publishing
open AuraWellness.Chat.Live AuraWellness.Chat.LiveAccess AuraWellness.Chat.Subscribed

/-- The chat service on a database, without any connection or call yet. -/
def LiveState.started (db : ChatDb) : LiveState := ⟨⟨⟨db, []⟩, []⟩, []⟩

/-- The message is stored in the conversation. -/
def StoredIn (d : ChatDb) (conversationID : Uuid) (m : ChatMessage) : Prop :=
  m ∈ d.messages ∧ m.conversationID = conversationID

instance (d : ChatDb) (c : Uuid) (m : ChatMessage) : Decidable (StoredIn d c m) := by
  unfold StoredIn
  infer_instance

/-- The workspace is the one of the business unit. -/
def WorkspaceOf (d : ChatDb) (buID workspaceID : Uuid) : Prop :=
  ∃ w ∈ d.workspaces, w.id = workspaceID ∧ w.buID = buID

/-- The frame shows a stored message of a conversation that the person is given in
the workspace. -/
def ShowsOwn (d : ChatDb) (workspaceID personID : Uuid) (frame : OutboundMessage) : Prop :=
  ∃ c m, Listed d workspaceID personID c ∧ StoredIn d c m ∧ frame = toFrame c m

/-- What an upgraded connection has to do with its person. -/
structure OwnStream (d : ChatDb) (claims : UserClaims) (stream : Stream) : Prop where
  /-- It is one of the workspace of the business unit in the token. -/
  workspace : WorkspaceOf d claims.buID stream.workspaceID
  /-- Its conversations are listed for the person. -/
  listed : ∀ c ∈ Stream.conversations stream, Listed d stream.workspaceID claims.personID c
  /-- What waits at a subscription is stored in the conversation subscribed to. -/
  events : ∀ sub ∈ stream.subscriptions, ∀ e ∈ sub.events, StoredIn d sub.conversationID e.message
  /-- What is written shows the person's conversations only. -/
  frames : ∀ frame ∈ stream.frames, ShowsOwn d stream.workspaceID claims.personID frame

/-- What a connection has to do with its person at each stage. -/
def OwnStage (d : ChatDb) (claims : UserClaims) : SocketStage → Prop
  | .listing w => WorkspaceOf d claims.buID w
  | .upgrading w conversations => WorkspaceOf d claims.buID w ∧
      ∀ c ∈ conversations, Listed d w claims.personID c.id
  | .streaming stream => OwnStream d claims stream
  | _ => True

/-- What a call has saved is stored. -/
def SavedStored (d : ChatDb) (th : Thread serviceSignature GoError Response Request) : Prop :=
  ∃ members rows ps, Stands th.req th.prog members rows ps ∧ ∀ row ∈ rows, row ∈ d.messages

/-- What the goroutine of a publication sends is stored in its conversation. -/
def PublishesStored (d : ChatDb) (p : Publication) : Prop :=
  StoredIn d p.conversationID p.event.message

/-- What the calls have saved and what is to be published is stored. -/
structure Announces (q : Service) : Prop where
  threads : ∀ th ∈ q.threads, SavedStored q.state.db th
  publishing : ∀ p ∈ q.state.publishing, PublishesStored q.state.db p

theorem StoredIn.grows {d d' : ChatDb} (hg : Grows d d') {c : Uuid} {m : ChatMessage}
    (h : StoredIn d c m) : StoredIn d' c m := ⟨hg.messages m h.1, h.2⟩

theorem SavedStored.grows {d d' : ChatDb} (hg : Grows d d')
    {th : Thread serviceSignature GoError Response Request} (h : SavedStored d th) :
    SavedStored d' th := by
  obtain ⟨members, rows, ps, hstands, hrows⟩ := h
  exact ⟨members, rows, ps, hstands, fun row hrow => hg.messages row (hrows row hrow)⟩

/-- A call that is served or dropped leaves stored what it has saved and what it
starts to publish. -/
theorem SavedStored.plain {r : Request} {op : ServiceCall}
    {next : Except GoError op.Reply → ServiceProgram Response} {s : ChatState}
    (h : SavedStored s.db ⟨r, .call op next⟩) {t : Turn Choice GoError}
    (hadmits : chatMachine.Admits op t = true) (ht : Plain t) :
    SavedStored (chatMachine.answer op t s).2.db ⟨r, next (chatMachine.answer op t s).1⟩ ∧
      ∀ p ∈ (chatMachine.answer op t s).2.publishing, p ∈ s.publishing ∨
        PublishesStored (chatMachine.answer op t s).2.db p := by
  obtain ⟨members, rows, ps, hstands, hrows⟩ := h
  obtain ⟨newRows, newPs, ⟨hmessages, hpublishing⟩, hnext⟩ := hstands.turn hadmits ht s
  have hstored : ∀ row ∈ rows ++ newRows, row ∈ (chatMachine.answer op t s).2.db.messages := by
    intro row hrow
    rw [hmessages]
    obtain hold | hnew := List.mem_append.mp hrow
    · exact List.mem_append_left _ (hrows row hold)
    · exact List.mem_append_right _ hnew
  refine ⟨⟨_, _, _, hnext, hstored⟩, fun p hp => ?_⟩
  rw [hpublishing] at hp
  refine (List.mem_append.mp hp).imp_right fun hnew => ?_
  have hstarted : p ∈ ps ++ newPs := List.mem_append_right _ hnew
  obtain hnone | ⟨row, hone, hsend⟩ := hnext.started
  · rw [hnone] at hstarted
    cases hstarted
  · rw [hsend] at hstarted
    cases List.mem_singleton.mp hstarted
    exact ⟨hstored row (by rw [hone]; exact List.mem_singleton_self row), rfl⟩

/-- So does a call whose reply is lost: it goes on as if it had been dropped, in
the state of a call that was served. -/
theorem SavedStored.turn {r : Request} {op : ServiceCall}
    {next : Except GoError op.Reply → ServiceProgram Response} {s : ChatState}
    (h : SavedStored s.db ⟨r, .call op next⟩) {t : Turn Choice GoError}
    (hadmits : chatMachine.Admits op t = true) :
    SavedStored (chatMachine.answer op t s).2.db ⟨r, next (chatMachine.answer op t s).1⟩ ∧
      ∀ p ∈ (chatMachine.answer op t s).2.publishing, p ∈ s.publishing ∨
        PublishesStored (chatMachine.answer op t s).2.db p := by
  cases t with
  | serve choice => exact h.plain hadmits trivial
  | drop e => exact h.plain hadmits trivial
  | lost choice e =>
    have hdropped := (h.plain (t := .drop e) hadmits trivial).1
    have hserved := (h.plain (t := .serve choice) rfl trivial).2
    exact ⟨hdropped.grows (answer_grows op (.serve choice) s), hserved⟩

/-- A call that dies between two calls leaves what it has saved. -/
theorem SavedStored.crash {d : ChatDb} {r : Request} {q : ServiceProgram Response} (e : GoError)
    (h : SavedStored d ⟨r, q⟩) : SavedStored d ⟨r, .ret (.error e)⟩ := by
  obtain ⟨members, rows, ps, hstands, -⟩ := h
  dsimp only at hstands
  cases hstands with
  | other hr hq => exact ⟨[], [], [], Stands.other hr trivial, fun row hrow => by cases hrow⟩
  | _ => exact ⟨[], [], [], Stands.failed, fun row hrow => by cases hrow⟩

/-- Every step of the service keeps it so. -/
theorem Announces.step {q q' : Service} {l : ServiceLabel} (h : Announces q)
    (hstep : Service.step q l = some q') : Announces q' ∧ Grows q.state.db q'.state.db := by
  cases l with
  | start r =>
    cases hstep
    refine ⟨⟨fun th hth => ?_, h.publishing⟩, Grows.refl _⟩
    obtain hold | hnew := List.mem_append.mp hth
    · exact h.threads th hold
    · rw [List.mem_singleton.mp hnew]
      exact ⟨[], [], [], Stands.start r, fun row hrow => by cases hrow⟩
  | turn i t =>
    obtain ⟨r, op, next, hi, hadmits, rfl⟩ := Pool.step_turn hstep
    have hg : Grows q.state.db (chatMachine.answer op t q.state).2.db := answer_grows op t q.state
    obtain ⟨hthread, hnew⟩ := (h.threads _ (List.mem_of_getElem? hi)).turn hadmits
    refine ⟨⟨fun th hth => ?_, fun p hp => ?_⟩, hg⟩
    · obtain hold | rfl := List.mem_or_eq_of_mem_set hth
      · exact (h.threads th hold).grows hg
      · exact hthread
    · obtain hold | hstored := hnew p hp
      · exact (h.publishing p hold).grows hg
      · exact hstored
  | crash i e =>
    obtain ⟨r, op, next, hi, rfl⟩ := Pool.step_crash hstep
    refine ⟨⟨fun th hth => ?_, h.publishing⟩, Grows.refl _⟩
    obtain hold | rfl := List.mem_or_eq_of_mem_set hth
    · exact h.threads th hold
    · exact (h.threads _ (List.mem_of_getElem? hi)).crash e

theorem WorkspaceOf.grows {d d' : ChatDb} (hg : Grows d d') {bu w : Uuid}
    (h : WorkspaceOf d bu w) : WorkspaceOf d' bu w := by
  obtain ⟨row, hrow, hid, hbu⟩ := h
  exact ⟨row, hg.workspaces row hrow, hid, hbu⟩

theorem ShowsOwn.grows {d d' : ChatDb} (hg : Grows d d') {w p : Uuid} {frame : OutboundMessage}
    (h : ShowsOwn d w p frame) : ShowsOwn d' w p frame := by
  obtain ⟨c, m, hlisted, hm, hframe⟩ := h
  exact ⟨c, m, hlisted.grows hg, hm.grows hg, hframe⟩

theorem OwnStream.grows {d d' : ChatDb} (hg : Grows d d') {claims : UserClaims} {stream : Stream}
    (h : OwnStream d claims stream) : OwnStream d' claims stream where
  workspace := h.workspace.grows hg
  listed c hc := (h.listed c hc).grows hg
  events sub hsub e he := (h.events sub hsub e he).grows hg
  frames frame hframe := (h.frames frame hframe).grows hg

/-- What a connection has to do with its person stays so while the tables grow. -/
theorem OwnStage.grows {d d' : ChatDb} (hg : Grows d d') {claims : UserClaims} {stage : SocketStage}
    (h : OwnStage d claims stage) : OwnStage d' claims stage := by
  cases stage with
  | resolving => trivial
  | listing w => exact WorkspaceOf.grows hg h
  | upgrading w conversations => exact ⟨h.1.grows hg, fun c hc => (h.2 c hc).grows hg⟩
  | streaming stream => exact OwnStream.grows hg h
  | closed => trivial

/-- The service and the connections together. -/
structure OwnFrames (s : LiveState) : Prop where
  service : Announces s.service
  sockets : ∀ socket ∈ s.sockets, OwnStage s.db socket.claims socket.stage

theorem OwnFrames.started (db : ChatDb) : OwnFrames (LiveState.started db) where
  service := ⟨fun th hth => (by cases hth), fun p hp => (by cases hp)⟩
  sockets socket hsocket := by cases hsocket

/-- A connection moves on while the service stays. -/
theorem OwnFrames.setStage {s : LiveState} (h : OwnFrames s) {i : ℕ} {claims : UserClaims}
    {stage : SocketStage} (hstage : OwnStage s.db claims stage) :
    OwnFrames (s.setStage i claims stage) where
  service := h.service
  sockets socket hsocket := by
    obtain hold | rfl := List.mem_or_eq_of_mem_set hsocket
    · exact h.sockets socket hold
    · exact hstage

/-- An upgraded connection that a lookup finds. -/
theorem OwnFrames.stream {s : LiveState} (h : OwnFrames s) {i : ℕ} {claims : UserClaims}
    {stream : Stream} (hi : s.stream? i = some (claims, stream)) : OwnStream s.db claims stream :=
  h.sockets _ (List.mem_of_getElem? (stream?_eq_some.mp hi))

/-- Redis hands a stored message to the subscriptions of its conversation. -/
theorem OwnStage.deliver {d : ChatDb} {socket : Socket} {p : Publication}
    (h : OwnStage d socket.claims socket.stage) (hp : PublishesStored d p) :
    OwnStage d (Socket.deliver p socket).claims (Socket.deliver p socket).stage := by
  obtain ⟨claims, stage⟩ := socket
  cases stage with
  | streaming stream =>
    have hids : Stream.subscribed { stream with
        subscriptions := stream.subscriptions.map (Subscription.deliver p) } =
          Stream.subscribed stream := by
      unfold Stream.subscribed
      rw [List.map_map]
      refine List.map_congr_left fun sub _ => ?_
      simp only [Function.comp, Subscription.deliver]
      split <;> rfl
    refine ⟨h.workspace, fun c hc => ?_, fun sub hsub e he => ?_, h.frames⟩
    · unfold Stream.conversations at hc
      rw [hids] at hc
      exact h.listed c hc
    · obtain ⟨old, hold, rfl⟩ := List.mem_map.mp hsub
      unfold Subscription.deliver at he ⊢
      split at he
      · rename_i hmatch
        rw [if_pos hmatch]
        obtain he | he := List.mem_append.mp he
        · exact h.events old hold e he
        · rw [List.mem_singleton.mp he]
          exact ⟨hp.1, hp.2.trans hmatch.2.symm⟩
      · rename_i hother
        rw [if_neg hother]
        exact h.events old hold e he
  | resolving => trivial
  | listing w => exact h
  | upgrading w conversations => exact h
  | closed => trivial

/-- `GetByBuID` finds the workspace of the business unit. -/
theorem resolved_workspaceOf {t : Turn Choice GoError} {s : ChatState} {bu : Uuid}
    {w : ChatWorkspace} (h : (chatMachine.answer (.workspaceGetByBuID bu) t s).1 = .ok w) :
    WorkspaceOf s.db bu w.id := by
  obtain ⟨choice, -, hanswer⟩ := Machine.answer_ok h
  rw [hanswer] at h
  obtain ⟨hw, hbu⟩ := getByBuID_ok h
  exact ⟨w, hw, rfl, hbu⟩

/-- `ListByWorkspaceAndPerson` lists what is listed. -/
theorem listed_of_list {t : Turn Choice GoError} {s : ChatState} {w p : Uuid}
    {conversations : List ChatConversation}
    (h : (chatMachine.answer (.conversationListByWorkspaceAndPerson w p) t s).1 =
      .ok conversations) : ∀ c ∈ conversations, Listed s.db w p c.id := by
  intro c hc
  obtain ⟨choice, -, hanswer⟩ := Machine.answer_ok h
  rw [hanswer] at h
  have hlist : (Except.ok (ConversationRepo.listByWorkspaceAndPerson s.db choice w p) :
      Except GoError (List ChatConversation)) = .ok conversations := h
  cases hlist
  exact ⟨choice, List.mem_map_of_mem hc⟩

/-- The subscribing loop takes the next of the listed conversations. -/
theorem OwnStream.subscribe {d : ChatDb} {claims : UserClaims} {stream : Stream}
    (h : OwnStream d claims stream) {conv : ChatConversation} {waiting : List ChatConversation}
    (hwaiting : stream.waiting = conv :: waiting) (succeeds : Bool) :
    OwnStream d claims { stream with
      waiting
      subscriptions := if succeeds then stream.subscriptions ++ [⟨conv.id, false, []⟩]
        else stream.subscriptions } where
  workspace := h.workspace
  listed c hc := by
    refine h.listed c ?_
    unfold Stream.conversations Stream.subscribed at hc ⊢
    rw [hwaiting]
    cases succeeds with
    | true => simpa using hc
    | false =>
      obtain hc | hc := List.mem_append.mp hc
      · exact List.mem_append_left _ hc
      · exact List.mem_append_right _ (List.mem_cons_of_mem _ hc)
  events sub hsub e he := by
    dsimp only at hsub
    split at hsub
    · obtain hsub | hsub := List.mem_append.mp hsub
      · exact h.events sub hsub e he
      · rw [List.mem_singleton.mp hsub] at he
        cases he
    · exact h.events sub hsub e he
  frames := h.frames

/-- A subscription is replaced by one of the same conversation with no more events,
and the written frames show the person's conversations. -/
theorem OwnStream.set {d : ChatDb} {claims : UserClaims} {stream : Stream}
    (h : OwnStream d claims stream) {j : ℕ} {old : Subscription} (new : Subscription)
    (hj : stream.subscriptions[j]? = some old) (hconv : new.conversationID = old.conversationID)
    (hevents : ∀ e ∈ new.events, e ∈ old.events) {frames : List OutboundMessage}
    (hframes : ∀ frame ∈ frames, ShowsOwn d stream.workspaceID claims.personID frame) :
    OwnStream d claims { stream with subscriptions := stream.subscriptions.set j new, frames } where
  workspace := h.workspace
  listed c hc := by
    rw [conversations_set new frames hj hconv] at hc
    exact h.listed c hc
  events sub hsub e he := by
    obtain hsub | rfl := List.mem_or_eq_of_mem_set hsub
    · exact h.events sub hsub e he
    · have hold := h.events old (List.mem_of_getElem? hj) e (hevents e he)
      exact ⟨hold.1, hold.2.trans hconv.symm⟩
  frames := hframes

/-- Every step keeps what the connections have to do with their persons. -/
theorem OwnFrames.step {s s' : LiveState} {l : LiveLabel} (h : OwnFrames s)
    (hstep : LiveState.step s l = some s') : OwnFrames s' := by
  have grown : ∀ {service : Service} {sl : ServiceLabel},
      Service.step s.service sl = some service → ∀ sockets : List Socket,
        (∀ socket ∈ sockets, OwnStage s.db socket.claims socket.stage) →
          OwnFrames ⟨service, sockets⟩ := by
    intro service sl hservice sockets hsockets
    obtain ⟨hannounces, hg⟩ := h.service.step hservice
    exact ⟨hannounces, fun socket hsocket => (hsockets socket hsocket).grows hg⟩
  cases LiveState.stepped hstep with
  | service hservice => exact grown hservice s.sockets h.sockets
  | accepted hbu =>
    refine ⟨h.service, fun socket hsocket => ?_⟩
    obtain hold | hnew := List.mem_append.mp hsocket
    · exact h.sockets socket hold
    · rw [List.mem_singleton.mp hnew]
      trivial
  | refused hbu => exact h
  | @resolved i t claims hi =>
    refine h.setStage ?_
    split
    · rename_i w hw
      exact resolved_workspaceOf hw
    · trivial
  | @listed i t claims w hi =>
    refine h.setStage ?_
    split
    · rename_i conversations hlisted
      exact ⟨h.sockets _ (List.mem_of_getElem? hi), listed_of_list hlisted⟩
    · trivial
  | @upgraded i succeeds claims w conversations hi =>
    have hold : OwnStage s.db claims (.upgrading w conversations) :=
      h.sockets _ (List.mem_of_getElem? hi)
    refine h.setStage ?_
    split
    · refine ⟨hold.1, fun c hc => ?_, fun sub hsub => (by cases hsub), fun f hf => (by cases hf)⟩
      obtain ⟨conv, hconv, rfl⟩ := List.mem_map.mp hc
      exact hold.2 conv hconv
    · trivial
  | subscribed hi hwaiting => exact h.setStage ((h.stream hi).subscribe hwaiting _)
  | @confirmed i j claims stream sub hi hj =>
    exact h.setStage ((h.stream hi).set { sub with confirmed := true } hj rfl
      (fun e he => he) (h.stream hi).frames)
  | @published k succeeds p hp =>
    have hstored : PublishesStored s.db p := h.service.publishing p (List.mem_of_getElem? hp)
    refine ⟨⟨h.service.threads, fun q hq => ?_⟩, fun socket hsocket => ?_⟩
    · exact h.service.publishing q (List.mem_of_mem_eraseIdx hq)
    · cases succeeds with
      | true =>
        obtain ⟨old, hold, rfl⟩ := List.mem_map.mp hsocket
        exact (h.sockets old hold).deliver hstored
      | false => exact h.sockets socket hsocket
  | @written i j claims stream conv confirmed event events hi hj =>
    have hold := h.stream hi
    refine h.setStage (hold.set ⟨conv, confirmed, events⟩ hj rfl
      (fun e he => List.mem_cons_of_mem _ he) fun frame hf => ?_)
    obtain hf | hf := List.mem_append.mp hf
    · exact hold.frames frame hf
    · rw [List.mem_singleton.mp hf]
      have hmem := List.mem_of_getElem? hj
      refine ⟨conv, event.message, hold.listed conv ?_, ?_, rfl⟩
      · exact List.mem_append_left _ (List.mem_map.mpr ⟨_, hmem, rfl⟩)
      · exact hold.events _ hmem event List.mem_cons_self
  | @received i conv content stamps claims stream service hi hidle hservice =>
    refine grown hservice _ fun socket hsocket => ?_
    obtain hold | rfl := List.mem_or_eq_of_mem_set hsocket
    · exact h.sockets socket hold
    · have hold := h.stream hi
      exact ⟨hold.workspace, hold.listed, hold.events, hold.frames⟩
  | disconnected hi => exact h.setStage trivial

/-- In every interleaving of connections, calls, goroutines and Redis, on every
database, each frame on a connection is a stored message of a conversation that is
listed for its person in the workspace of the business unit in its token. -/
theorem frames_are_own {db : ChatDb} {ls : List LiveLabel} {s : LiveState}
    (h : run LiveState.step (LiveState.started db) ls = some s) :
    ∀ socket ∈ s.sockets, Streams (OwnStream s.db) socket := by
  have hown : OwnFrames s :=
    run_invariant (fun _ _ _ hs hstep => hs.step hstep) (OwnFrames.started db) h
  intro socket hsocket
  have hstage := hown.sockets socket hsocket
  unfold Streams
  split
  · rename_i stream hstreaming
    rw [hstreaming] at hstage
    exact hstage
  · trivial

/-- The frames on all connections. -/
def framesOf (s : LiveState) : List OutboundMessage :=
  s.sockets.flatMap fun socket => match socket.stage with
    | .streaming stream => stream.frames
    | _ => []

/-- The Admin of an office gets the message of its group conversation. -/
theorem frames_are_own_office : ∃ s,
    run LiveState.step (LiveState.started ChatDb.empty) (office ++ connect 5 ++ sendAndDeliver) =
      some s ∧
    framesOf s = [⟨50, 30, 5, "Ann", "hello", 0⟩] ∧
    ∀ socket ∈ s.sockets, Streams (OwnStream s.db) socket := by
  have hrun : (run LiveState.step (LiveState.started ChatDb.empty)
      (office ++ connect 5 ++ sendAndDeliver)).any (fun s =>
        decide (framesOf s = [⟨50, 30, 5, "Ann", "hello", 0⟩])) = true := by decide
  obtain ⟨s, hs, hframes⟩ := (Option.any_eq_true _ _).mp hrun
  exact ⟨s, hs, of_decide_eq_true hframes, frames_are_own hs⟩

end AuraWellness.Chat.LiveFrames
