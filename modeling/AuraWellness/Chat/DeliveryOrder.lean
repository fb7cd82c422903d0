import AuraWellness.Lib.Precedence
import AuraWellness.Chat.Publishing

/-!
# The order in which subscribers receive messages

Redis keeps the order in which it takes events for every subscriber. The goroutines
that publish are not ordered among themselves, and each takes a connection of its own
from the pool of the client, so two sends that follow each other arrive in their order
exactly when Redis has taken them in it.
-/

namespace AuraWellness.Chat.DeliveryOrder

open AuraWellness.Lib.Calls AuraWellness.Lib.Transition AuraWellness.Lib.Attribution
open AuraWellness.Lib.Precedence
open AuraWellness.Chat.Entities AuraWellness.Chat.Schema AuraWellness.Chat.Repositories
open AuraWellness.Chat.Services AuraWellness.Chat.Publishing

/-- The messages in the order in which Redis has taken their events, with those whose
`Publish` has failed where it did. -/
def publishOrder (s : Exchange) : List ChatMessage := s.published.map fun e => e.1.event.message

/-- The messages that a subscriber has received, in order. -/
def receivedMessages (sub : Subscriber) : List ChatMessage := sub.received.map MessageEvent.message

/-- The message that a send has returned. -/
def returnedMessage (s : Exchange) (i : ℕ) : Option ChatMessage :=
  match s.service.threads[i]? with
  | some ⟨⟨.sendMessage _ _ _ _ _, _⟩, .ret (.ok (.message m))⟩ => some m
  | _ => none

/-- A send has returned the first message before the send of the second one has
arrived. -/
def SentInTurn (s s' : Exchange) (m m' : ChatMessage) : Prop :=
  ∃ i j, returnedMessage s i = some m ∧ s.service.threads.length ≤ j ∧
    returnedMessage s' j = some m' ∧ m.conversationID = m'.conversationID

/-- Every subscriber has received, and waits for, events in the order in which Redis has
taken them. -/
def InPublishOrder (s : Exchange) : Prop :=
  ∀ sub ∈ s.subscribers,
    ((sub.received ++ sub.queue).map MessageEvent.message).Sublist (publishOrder s)

/-- A publish appended to the log and to the queues of its channel. -/
theorem InPublishOrder.publish {s : Exchange} (h : InPublishOrder s) (service : Service)
    (p : Posting) (succeeds : Bool) : InPublishOrder { s with
      service
      published := s.published ++ [(p, succeeds)]
      subscribers := if succeeds then s.subscribers.map (Subscriber.enqueue p) else s.subscribers } := by
  have hlog : publishOrder { s with service, published := s.published ++ [(p, succeeds)] } =
      publishOrder s ++ [p.event.message] := by
    unfold publishOrder
    rw [List.map_append, List.map_singleton]
  intro sub hsub
  refine (?_ : List.Sublist _ (publishOrder { s with service, published := s.published ++ [(p, succeeds)] }))
  rw [hlog]
  have same : ∀ old ∈ s.subscribers, ((old.received ++ old.queue).map MessageEvent.message).Sublist
      (publishOrder s ++ [p.event.message]) :=
    fun old hold => (h old hold).trans (List.sublist_append_left _ _)
  cases succeeds with
  | false => exact same sub hsub
  | true =>
    obtain ⟨old, hold, rfl⟩ := List.mem_map.mp hsub
    unfold Subscriber.enqueue
    split
    · have hqueue : (old.received ++ (old.queue ++ [p.event])).map MessageEvent.message =
          (old.received ++ old.queue).map MessageEvent.message ++ [p.event.message] := by
        rw [← List.append_assoc, List.map_append, List.map_singleton]
      rw [hqueue]
      exact (h old hold).append (List.Sublist.refl _)
    · exact same old hold

/-- A subscriber that changes keeps its events in order. -/
theorem InPublishOrder.set {s : Exchange} (h : InPublishOrder s) {j : ℕ} {old new : Subscriber}
    (hj : s.subscribers[j]? = some old)
    (hnew : (new.received ++ new.queue).Sublist (old.received ++ old.queue)) :
    InPublishOrder { s with subscribers := s.subscribers.set j new } := by
  intro sub hsub
  obtain hmem | rfl := List.mem_or_eq_of_mem_set hsub
  · exact h sub hmem
  · exact (hnew.map _).trans (h old (List.mem_of_getElem? hj))

/-- A turn of a call reaches neither Redis nor its subscribers. -/
theorem turn_log {s s' : Exchange} {i : ℕ} {t : Turn Choice GoError} (h : s.turn i t = some s') :
    s'.published = s.published ∧ s'.subscribers = s.subscribers ∧ s.added <+: s'.added := by
  obtain ⟨service, -, rfl⟩ := Option.map_eq_some_iff.mp h
  exact ⟨rfl, rfl, List.prefix_append _ _⟩

/-- Every step keeps the order in which Redis has taken events for every subscriber. -/
theorem InPublishOrder.step {s s' : Exchange} {l : ExchangeLabel} (h : InPublishOrder s)
    (hstep : Exchange.step s l = some s') : InPublishOrder s' := by
  have turn : ∀ {i t}, s.turn i t = some s' → InPublishOrder s' := by
    intro i t ht
    obtain ⟨hpublished, hsubscribers, -⟩ := turn_log ht
    unfold InPublishOrder publishOrder
    rw [hpublished, hsubscribers]
    exact h
  cases Exchange.stepped hstep with
  | started => exact h
  | served ht => exact turn ht
  | failed ht => exact turn ht
  | published hk => exact h.publish _ _ _
  | subscribed =>
    intro sub hsub
    obtain hold | hnew := List.mem_append.mp hsub
    · exact h sub hold
    · rw [List.mem_singleton.mp hnew]
      exact List.nil_sublist _
  | delivered hj =>
    refine h.set hj ?_
    dsimp only
    rw [List.append_assoc]
    exact List.Sublist.refl _
  | discarded hj => exact h.set hj ((List.Sublist.refl _).append (List.sublist_cons_self _ _))

/-- Later states remember what earlier ones did. -/
structure Extends (s s' : Exchange) : Prop where
  added : s.added <+: s'.added
  published : s.published <+: s'.published

theorem Extends.refl (s : Exchange) : Extends s s := ⟨List.prefix_refl _, List.prefix_refl _⟩

theorem Extends.trans {s s' s'' : Exchange} (h : Extends s s') (h' : Extends s' s'') : Extends s s'' :=
  ⟨h.added.trans h'.added, h.published.trans h'.published⟩

theorem extends_step {s s' : Exchange} {l : ExchangeLabel} (hstep : Exchange.step s l = some s') :
    Extends s s' := by
  have turn : ∀ {i t}, s.turn i t = some s' → Extends s s' := by
    intro i t ht
    obtain ⟨hpublished, -, hadded⟩ := turn_log ht
    refine ⟨hadded, ?_⟩
    rw [hpublished]
  cases Exchange.stepped hstep with
  | served ht => exact turn ht
  | failed ht => exact turn ht
  | published hk => exact ⟨List.prefix_refl _, List.prefix_append _ _⟩
  | _ => exact ⟨List.prefix_refl _, List.prefix_refl _⟩

/-- Every run only adds to what is remembered. -/
theorem extends_run {s s' : Exchange} {ls : List ExchangeLabel}
    (h : run Exchange.step s ls = some s') : Extends s s' :=
  run_invariant (I := fun t => Extends s t) (fun _ _ _ ht hstep => ht.trans (extends_step hstep))
    (Extends.refl s) h

/-- A returned message is the row that its send has added. -/
theorem returned_added {db : ChatDb} {s : Exchange} (h : Accounted db s) {i : ℕ} {m : ChatMessage}
    (hi : returnedMessage s i = some m) : (i, m) ∈ s.added := by
  unfold returnedMessage at hi
  split at hi
  · rename_i hthread
    cases hi
    obtain ⟨row, hresponse, hadded, -⟩ :=
      h.publishedIffSaved.succeeded _ _ _ _ _ _ _ _ hthread
    cases hresponse
    refine mem_entriesOf.mp ?_
    rw [hadded]
    exact List.mem_singleton_self _
  · cases hi

/-- A message whose send has not arrived yet is not published. -/
theorem not_published_early {db : ChatDb} {s s' : Exchange} (h : Accounted db s)
    (h' : Accounted db s') (hext : Extends s s') {j : ℕ} {m : ChatMessage}
    (hj : s.service.threads.length ≤ j) (hreturned : returnedMessage s' j = some m) :
    m ∉ publishOrder s := by
  intro hm
  obtain ⟨⟨p, succeeds⟩, hp, rfl⟩ := List.mem_map.mp hm
  have hposting : p ∈ s.postings :=
    List.mem_append_right _ (List.mem_map.mpr ⟨(p, succeeds), hp, rfl⟩)
  obtain ⟨i, row, hrow, rfl⟩ := h.posting_row hposting
  have hlater : (i, row) ∈ s'.added := hext.added.subset hrow
  have hsame : i = j := h'.added_inj hlater (returned_added h' hreturned)
  subst hsame
  obtain ⟨-, hnone, -⟩ := h.known i hj
  have hmem : row ∈ entriesOf i s.added := mem_entriesOf.mpr hrow
  rw [hnone] at hmem
  cases hmem

/-- A subscriber that has received the messages of two sends, the second of which
arrived after the first had returned, has received them in this order exactly
when Redis has taken them in this order, and it has when it had taken the first
message before the second send arrived. -/
theorem received_in_order_iff {db : ChatDb} {ls ls' : List ExchangeLabel} {s s' : Exchange}
    {m m' : ChatMessage} {sub : Subscriber}
    (hs : run Exchange.step (Exchange.initial db) ls = some s)
    (hs' : run Exchange.step s ls' = some s') (hsent : SentInTurn s s' m m')
    (hsub : sub ∈ s'.subscribers) (hm : m ∈ receivedMessages sub) (hm' : m' ∈ receivedMessages sub) :
    (Before m m' (receivedMessages sub) ↔ Before m m' (publishOrder s')) ∧
      (m ∈ publishOrder s → Before m m' (receivedMessages sub)) := by
  have haccount : Accounted db s :=
    run_invariant (fun _ _ _ h hstep => h.step hstep) (Accounted.initial db) hs
  have haccount' : Accounted db s' := run_invariant (fun _ _ _ h hstep => h.step hstep) haccount hs'
  have hinitial : InPublishOrder (Exchange.initial db) := by
    intro x hx
    cases hx
  have horder : InPublishOrder s' :=
    run_invariant (fun _ _ _ h hstep => h.step hstep) hinitial (run_trans hs hs')
  have hreceived : (receivedMessages sub).Sublist (publishOrder s') := by
    have hqueue := horder sub hsub
    rw [List.map_append] at hqueue
    exact (List.sublist_append_left _ _).trans hqueue
  have hnodup : (publishOrder s').Nodup := by
    have hall := haccount'.postings_nodup
    unfold Exchange.postings at hall
    rw [List.map_append, List.map_map] at hall
    exact hall.of_append_right
  have hiff := before_sublist_iff hnodup hreceived hm hm'
  refine ⟨hiff, fun hpublished => hiff.mpr ?_⟩
  obtain ⟨i, j, hi, hj, hj', -⟩ := hsent
  have hext := extends_run hs'
  obtain ⟨later, hlater⟩ := hext.published
  have hlog : publishOrder s' = publishOrder s ++ later.map fun e => e.1.event.message := by
    unfold publishOrder
    rw [← hlater, List.map_append]
  have hmem : m' ∈ publishOrder s' := hreceived.subset hm'
  rw [hlog] at hmem ⊢
  obtain hearly | hlate := List.mem_append.mp hmem
  · exact absurd hearly (not_published_early haccount haccount' hext hj hj')
  · exact before_append hpublished hlate

/-- The database generates this identifier at time 0. -/
def chosen (uuid : ℕ) : Choice := Choice.generating uuid 0

/-- Person 5 sends this content to conversation 30 of workspace 10. -/
def annSends (content : String) : ExchangeLabel :=
  .start (Call.request (.sendMessage 10 30 5 "Ann" content))

/-- The row of a message that person 5 has sent. -/
def annSent (id : Uuid) (content : String) : ChatMessage := ⟨id, 10, 30, 5, "Ann", content, 0⟩

/-- A workspace with an Admin and its group conversation, a subscriber of the
conversation, and a first message that is sent and not yet published. -/
def firstSend : List ExchangeLabel :=
  [.start (Call.request (.createWorkspace 1 1 "Spa")), .serve 0 (chosen 10),
    .start (Call.request (.addMember 10 5 "Admin")), .serve 1 (chosen 11),
    .start (Call.request (.getOrCreateGroupConversation 10)), .serve 2 (chosen 30),
    .serve 2 (chosen 30), .subscribe "chat:00000000-0000-0000-0000-00000000001e",
    annSends "one", .serve 3 (chosen 1), .serve 3 (chosen 40), .serve 3 (chosen 1)]

/-- A second message is sent, and Redis takes the events of the goroutines in this order. -/
def secondSend (first second : ℕ) : List ExchangeLabel :=
  [annSends "two", .serve 4 (chosen 1), .serve 4 (chosen 41), .serve 4 (chosen 1),
    .publish first true, .publish second true, .deliver 0, .deliver 0]

/-- What the two sends leave when the subscriber has received these messages. -/
theorem sends_received {first second : ℕ} {messages : List ChatMessage}
    (h : (run Exchange.step (Exchange.initial ChatDb.empty) firstSend).any (fun s =>
      (run Exchange.step s (secondSend first second)).any fun s' =>
        decide (returnedMessage s 3 = some (annSent 40 "one") ∧ s.service.threads.length = 4 ∧
          returnedMessage s' 4 = some (annSent 41 "two") ∧
          s'.subscribers.map receivedMessages = [messages])) = true) :
    ∃ s s' sub, run Exchange.step (Exchange.initial ChatDb.empty) firstSend = some s ∧
      run Exchange.step s (secondSend first second) = some s' ∧
      SentInTurn s s' (annSent 40 "one") (annSent 41 "two") ∧ sub ∈ s'.subscribers ∧
      receivedMessages sub = messages := by
  obtain ⟨s, hs, hrest⟩ := (Option.any_eq_true _ _).mp h
  obtain ⟨s', hs', hfacts⟩ := (Option.any_eq_true _ _).mp hrest
  obtain ⟨hfirst, hthreads, hsecond, hreceived⟩ := of_decide_eq_true hfacts
  have hmem : messages ∈ s'.subscribers.map receivedMessages := by
    rw [hreceived]
    exact List.mem_singleton_self messages
  obtain ⟨sub, hsub, hmessages⟩ := List.mem_map.mp hmem
  exact ⟨s, s', sub, hs, hs', ⟨3, 4, hfirst, by omega, hsecond, rfl⟩, hsub, hmessages⟩

/-- The order of two sends whose events Redis takes in order. -/
theorem received_in_order_iff_kept : ∃ s s' sub,
    receivedMessages sub = [annSent 40 "one", annSent 41 "two"] ∧
      (Before (annSent 40 "one") (annSent 41 "two") (receivedMessages sub) ↔
        Before (annSent 40 "one") (annSent 41 "two") (publishOrder s')) ∧
      (annSent 40 "one" ∈ publishOrder s →
        Before (annSent 40 "one") (annSent 41 "two") (receivedMessages sub)) := by
  obtain ⟨s, s', sub, hs, hs', hsent, hsub, hmessages⟩ :=
    @sends_received 0 0 [annSent 40 "one", annSent 41 "two"] (by decide)
  refine ⟨s, s', sub, hmessages, received_in_order_iff hs hs' hsent hsub ?_ ?_⟩
  · rw [hmessages]
    exact List.mem_cons_self
  · rw [hmessages]
    exact List.mem_cons_of_mem _ List.mem_cons_self

/-- Two sends that follow each other can arrive in the other order. -/
theorem received_in_order_fails :
    ¬∀ db ls ls' s s' m m' sub, run Exchange.step (Exchange.initial db) ls = some s →
      run Exchange.step s ls' = some s' → SentInTurn s s' m m' → sub ∈ s'.subscribers →
        m ∈ receivedMessages sub → m' ∈ receivedMessages sub →
          Before m m' (receivedMessages sub) := by
  intro h
  obtain ⟨s, s', sub, hs, hs', hsent, hsub, hmessages⟩ :=
    @sends_received 1 0 [annSent 41 "two", annSent 40 "one"] (by decide)
  have horder := h ChatDb.empty firstSend (secondSend 1 0) s s' _ _ sub hs hs' hsent hsub
    (by rw [hmessages]; exact List.mem_cons_of_mem _ List.mem_cons_self)
    (by rw [hmessages]; exact List.mem_cons_self)
  rw [hmessages] at horder
  have hno : ¬Before (annSent 40 "one") (annSent 41 "two")
      [annSent 41 "two", annSent 40 "one"] := by decide
  exact hno horder

end AuraWellness.Chat.DeliveryOrder
