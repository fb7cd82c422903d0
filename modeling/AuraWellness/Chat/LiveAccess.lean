import AuraWellness.Chat.Live

/-!
# Access and live delivery

`ServeWS` never looks at `has_access`. What it writes is written with access
as long as every publish reaches only connections of persons with access, and
no access is taken away while events wait on a connection of the person.
-/

namespace AuraWellness.Chat.LiveAccess

open AuraWellness.Lib.Calls AuraWellness.Lib.Transition
open AuraWellness.Chat.Entities AuraWellness.Chat.Schema AuraWellness.Chat.Repositories
open AuraWellness.Chat.Services AuraWellness.Chat.Membership AuraWellness.Chat.Live

/-- The connection satisfies the predicate, if it is upgraded. -/
def Streams (P : UserClaims → Stream → Prop) (socket : Socket) : Prop :=
  match socket.stage with
  | .streaming stream => P socket.claims stream
  | _ => True

instance (P : UserClaims → Stream → Prop) [∀ claims stream, Decidable (P claims stream)]
    (socket : Socket) : Decidable (Streams P socket) := by
  unfold Streams
  split <;> infer_instance

/-- The connection that a lookup of a stream finds. -/
theorem stream?_eq_some {s : LiveState} {i : ℕ} {claims : UserClaims} {stream : Stream} :
    s.stream? i = some (claims, stream) ↔ s.sockets[i]? = some ⟨claims, .streaming stream⟩ := by
  unfold LiveState.stream?
  split
  · rename_i claims' stream' hi
    rw [hi]
    simp
  · rename_i hnone
    constructor
    · intro h
      cases h
    · intro h
      exact absurd h (hnone claims stream)

/-- An upgraded connection satisfies what all of them satisfy. -/
theorem streams_of_stream? {s : LiveState} {P : UserClaims → Stream → Prop}
    (h : ∀ socket ∈ s.sockets, Streams P socket) {i : ℕ} {claims : UserClaims} {stream : Stream}
    (hi : s.stream? i = some (claims, stream)) : P claims stream :=
  h _ (List.mem_of_getElem? (stream?_eq_some.mp hi))

/-- All connections satisfy a predicate after one of them has moved on. -/
theorem streams_set {sockets : List Socket} {P : UserClaims → Stream → Prop}
    (h : ∀ socket ∈ sockets, Streams P socket) {i : ℕ} {socket : Socket} (hnew : Streams P socket) :
    ∀ v ∈ sockets.set i socket, Streams P v := by
  intro v hv
  obtain hold | rfl := List.mem_or_eq_of_mem_set hv
  · exact h v hold
  · exact hnew

/-- The person of a connection has access to its workspace. -/
def Admitted (d : ChatDb) (claims : UserClaims) (stream : Stream) : Prop :=
  HasAccess d stream.workspaceID claims.personID

/-- Whoever has events waiting has access. -/
def QueuedWithAccess (d : ChatDb) (claims : UserClaims) (stream : Stream) : Prop :=
  ∀ sub ∈ stream.subscriptions, sub.events ≠ [] → Admitted d claims stream

/-- A frame is written for a person who has access at that moment. -/
def WrittenWithAccess (s : LiveState) : LiveLabel → Prop
  | .write i _ =>
    match s.stream? i with
    | some (claims, stream) => HasAccess s.db stream.workspaceID claims.personID
    | none => True
  | _ => True

instance (s : LiveState) (l : LiveLabel) : Decidable (WrittenWithAccess s l) := by
  unfold WrittenWithAccess
  split
  · split <;> infer_instance
  · infer_instance

/-- The connection is one of this person to this workspace with events waiting. -/
def WaitsFor (w p : Uuid) (claims : UserClaims) (stream : Stream) : Prop :=
  stream.workspaceID = w ∧ claims.personID = p ∧ ∃ sub ∈ stream.subscriptions, sub.events ≠ []

instance (w p : Uuid) (claims : UserClaims) (stream : Stream) :
    Decidable (WaitsFor w p claims stream) := by
  unfold WaitsFor
  infer_instance

/-- Redis delivers a publish of the conversation to the connection. -/
def Reached (conversationID : Uuid) (stream : Stream) : Prop :=
  ∃ sub ∈ stream.subscriptions, sub.confirmed = true ∧ sub.conversationID = conversationID

instance (conversationID : Uuid) (stream : Stream) : Decidable (Reached conversationID stream) := by
  unfold Reached
  infer_instance

/-- Publishes reach only persons with access, and access is not taken away from
persons with events waiting. -/
def DeliveredWithAccess (s : LiveState) : LiveLabel → Prop
  | .publish k true =>
    match s.service.state.publishing[k]? with
    | some p => ∀ socket ∈ s.sockets, Streams (fun claims stream =>
        Reached p.conversationID stream → HasAccess s.db stream.workspaceID claims.personID) socket
    | none => True
  | .service (.turn t answer) =>
    match s.service.threads[t]? with
    | some ⟨_, .call (.memberUpdateAccess w p false) _⟩ =>
      answer.choice? = none ∨
        ∀ socket ∈ s.sockets, Streams (fun claims stream => ¬WaitsFor w p claims stream) socket
    | _ => True
  | _ => True

/-- A step of the service keeps an access that it does not take away. -/
theorem service_keeps_access {q q' : Service} {l : ServiceLabel} (h : Service.step q l = some q')
    {w p : Uuid} (hno : ∀ t answer r next, l = .turn t answer →
      q.threads[t]? = some ⟨r, .call (.memberUpdateAccess w p false) next⟩ → answer.choice? = none)
    (haccess : HasAccess q.state.db w p) : HasAccess q'.state.db w p := by
  obtain ⟨hsame, -⟩ | ⟨t, answer, r, op, next, rfl, ht, hstate⟩ := Pool.step_state h
  · rw [hsame]
    exact haccess
  rw [hstate]
  by_cases hop : op = .memberUpdateAccess w p false
  · subst hop
    rw [chatMachine.answer_state_none _ q.state (hno t answer r next rfl ht)]
    exact haccess
  · obtain hsame | ⟨choice, hexec⟩ := chatMachine.answer_state op answer q.state
    · rw [hsame]
      exact haccess
    · rw [hexec]
      exact exec_keeps_access hop haccess

/-- Whoever has events waiting after a step of the service has access. -/
theorem service_step_queued {s : LiveState} {l : ServiceLabel} {service : Service}
    (hs : ∀ socket ∈ s.sockets, Streams (QueuedWithAccess s.db) socket)
    (hg : DeliveredWithAccess s (.service l)) (h : Service.step s.service l = some service) :
    ∀ socket ∈ s.sockets, Streams (QueuedWithAccess service.state.db) socket := by
  intro socket hsocket
  have hold := hs socket hsocket
  unfold Streams at hold ⊢
  split
  · rename_i stream hstage
    rw [hstage] at hold
    intro sub hsub hevents
    refine service_keeps_access h ?_ (hold sub hsub hevents)
    rintro t answer r next rfl ht
    simp only [DeliveredWithAccess, ht] at hg
    obtain hnone | hfree := hg
    · exact hnone
    · have hwaits := hfree socket hsocket
      unfold Streams at hwaits
      rw [hstage] at hwaits
      exact absurd ⟨rfl, rfl, sub, hsub, hevents⟩ hwaits
  · trivial

/-- Whoever has events waiting after a delivery has access. -/
theorem deliver_queued {d : ChatDb} {sockets : List Socket} {p : Publication}
    (hs : ∀ socket ∈ sockets, Streams (QueuedWithAccess d) socket)
    (hreach : ∀ socket ∈ sockets, Streams (fun claims stream =>
      Reached p.conversationID stream → Admitted d claims stream) socket) :
    ∀ socket ∈ sockets.map (Socket.deliver p), Streams (QueuedWithAccess d) socket := by
  intro socket hsocket
  obtain ⟨old, hold, rfl⟩ := List.mem_map.mp hsocket
  have hqueued := hs old hold
  have hadmitted := hreach old hold
  obtain ⟨claims, stage⟩ := old
  cases stage with
  | streaming stream =>
    intro sub hsub hevents
    obtain ⟨before, hbefore, rfl⟩ := List.mem_map.mp hsub
    by_cases hmatch : before.confirmed = true ∧ before.conversationID = p.conversationID
    · exact hadmitted ⟨before, hbefore, hmatch.1, hmatch.2⟩
    · unfold Subscription.deliver at hevents
      rw [if_neg hmatch] at hevents
      exact hqueued before hbefore hevents
  | resolving => trivial
  | listing w => trivial
  | upgrading w conversations => trivial
  | closed => trivial

/-- A step that delivers with access keeps waiting events with access. -/
theorem step_queued {s s' : LiveState} {l : LiveLabel}
    (hs : ∀ socket ∈ s.sockets, Streams (QueuedWithAccess s.db) socket)
    (hg : DeliveredWithAccess s l) (h : LiveState.step s l = some s') :
    ∀ socket ∈ s'.sockets, Streams (QueuedWithAccess s'.db) socket := by
  cases LiveState.stepped h with
  | service hstep =>
    have hqueued := service_step_queued hs hg hstep
    exact hqueued
  | accepted hbu =>
    intro socket hsocket
    obtain hold | hnew := List.mem_append.mp hsocket
    · exact hs socket hold
    · rw [List.mem_singleton.mp hnew]
      trivial
  | refused hbu => exact hs
  | resolved hi =>
    refine streams_set hs ?_
    split <;> trivial
  | listed hi =>
    refine streams_set hs ?_
    split <;> trivial
  | upgraded hi =>
    refine streams_set hs ?_
    split
    · intro sub hsub
      cases hsub
    · trivial
  | subscribed hi hwaiting =>
    have hold := streams_of_stream? hs hi
    refine streams_set hs fun sub hsub hevents => ?_
    dsimp only at hsub
    split at hsub
    · obtain hsub | hsub := List.mem_append.mp hsub
      · exact hold sub hsub hevents
      · rw [List.mem_singleton.mp hsub] at hevents
        exact absurd rfl hevents
    · exact hold sub hsub hevents
  | confirmed hi hj =>
    have hold := streams_of_stream? hs hi
    refine streams_set hs fun v hv hevents => ?_
    obtain hv | rfl := List.mem_or_eq_of_mem_set hv
    · exact hold v hv hevents
    · exact hold _ (List.mem_of_getElem? hj) hevents
  | @published k succeeds p hp =>
    cases succeeds with
    | true =>
      simp only [DeliveredWithAccess, hp] at hg
      exact deliver_queued hs hg
    | false => exact hs
  | written hi hj =>
    have hold := streams_of_stream? hs hi
    refine streams_set hs fun v hv hevents => ?_
    obtain hv | rfl := List.mem_or_eq_of_mem_set hv
    · exact hold v hv hevents
    · exact hold _ (List.mem_of_getElem? hj) (List.cons_ne_nil _ _)
  | received hi hidle hstep =>
    have hold := streams_of_stream? hs hi
    cases hstep
    exact streams_set hs hold
  | disconnected hi => exact streams_set hs trivial

/-- Where waiting events have access, so has what is written next. -/
theorem write_with_access {s s' : LiveState} {l : LiveLabel}
    (hs : ∀ socket ∈ s.sockets, Streams (QueuedWithAccess s.db) socket)
    (h : LiveState.step s l = some s') : WrittenWithAccess s l := by
  cases LiveState.stepped h with
  | written hi hj =>
    simp only [WrittenWithAccess, hi]
    exact streams_of_stream? hs hi _ (List.mem_of_getElem? hj) (List.cons_ne_nil _ _)
  | _ => trivial

instance (s : LiveState) (l : LiveLabel) : Decidable (DeliveredWithAccess s l) := by
  unfold DeliveredWithAccess
  split
  · split <;> infer_instance
  · split <;> infer_instance
  · infer_instance

/-- Every frame of a run is written with access when every publish is delivered
with access and no access is taken away while events wait. -/
theorem writtenWithAccess_of_delivered {ls : List LiveLabel} {s : LiveState}
    (h : run LiveState.step LiveState.initial ls = some s)
    (hg : EachStep LiveState.step DeliveredWithAccess LiveState.initial ls) :
    EachStep LiveState.step WrittenWithAccess LiveState.initial ls := by
  have hinitial : ∀ socket ∈ LiveState.initial.sockets,
      Streams (QueuedWithAccess LiveState.initial.db) socket := by
    intro socket hsocket
    cases hsocket
  exact eachStep_guarded (fun _ _ _ hs hg h => step_queued hs hg h)
    (fun _ _ _ hs _ h => write_with_access hs h) hinitial hg h

/-- One call that is served alone. -/
def serve (call : Call) (thread : ℕ) (uuids : List {n : Uuid // n ≠ Uuid.nil}) : List LiveLabel :=
  .service (.start call.request) ::
    uuids.map fun u => .service (.turn thread (.serve ⟨u.1, u.2, 0, fun _ => 0⟩))

/-- A generated identifier, 1 instead of the nil one. -/
def generated (uuid : Uuid) : {n : Uuid // n ≠ Uuid.nil} := ⟨max uuid 1, max_one_ne_nil uuid⟩

/-- The environment's choices of a lookup. -/
def lookup : Turn Choice GoError := .serve (Choice.generating 1 0)

/-- Workspace 10 of business unit 1 with the Admin 5, its group conversation 30
and the Member 6, who starts without access. -/
def office : List LiveLabel :=
  serve (.createWorkspace 1 3 "HQ") 0 [generated 10] ++
    serve (.addMember 10 5 "Admin") 1 [generated 20] ++
    serve (.addMember 10 6 "Member") 2 [generated 21] ++
    serve (.getOrCreateGroupConversation 10) 3 [generated 1, generated 30]

/-- The person connects and is subscribed to the group conversation. -/
def connect (personID : Uuid) : List LiveLabel :=
  [.accept ⟨personID, 1, "Ann"⟩ 1, .resolve 0 lookup, .list 0 lookup, .upgrade 0 true,
    .subscribe 0 true, .confirm 0 0]

/-- The Admin sends to the group, Redis delivers, and the connection writes. -/
def sendAndDeliver : List LiveLabel :=
  serve (.sendMessage 10 30 5 "Ann" "hello") 4 [generated 1, generated 50, generated 1] ++
    [.publish 0 true, .write 0 0]

/-- The frames to the Admin are written with access. -/
theorem writtenWithAccess_of_delivered_admin :
    EachStep LiveState.step WrittenWithAccess LiveState.initial
      (office ++ connect 5 ++ sendAndDeliver) := by
  have hrun : (run LiveState.step LiveState.initial
      (office ++ connect 5 ++ sendAndDeliver)).isSome = true := by decide
  obtain ⟨s, hs⟩ := Option.isSome_iff_exists.mp hrun
  exact writtenWithAccess_of_delivered hs (by decide)

/-- A frame to the Member without access is written all the same. -/
theorem writtenWithAccess_fails :
    ¬∀ ls s, run LiveState.step LiveState.initial ls = some s →
      EachStep LiveState.step WrittenWithAccess LiveState.initial ls := by
  intro h
  have hrun : (run LiveState.step LiveState.initial
      (office ++ connect 6 ++ sendAndDeliver)).isSome = true := by decide
  obtain ⟨s, hs⟩ := Option.isSome_iff_exists.mp hrun
  have hbad : ¬EachStep LiveState.step WrittenWithAccess LiveState.initial
      (office ++ connect 6 ++ sendAndDeliver) := by decide
  exact hbad (h _ s hs)

end AuraWellness.Chat.LiveAccess
