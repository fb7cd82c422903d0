import AuraWellness.Lib.Rest
import AuraWellness.Chat.DeliveryOrder

/-!
# The chat service comes to rest

Every call makes at most four repository calls, every goroutine publishes once,
and Redis queues an event once for each subscriber. So without new calls and
subscribers the service, its goroutines and Redis come to rest after boundedly
many steps, whatever fails on the way, and they never get stuck before.
-/

namespace AuraWellness.Chat.Settling

open AuraWellness.Lib.Calls AuraWellness.Lib.Transition AuraWellness.Lib.Attribution
open AuraWellness.Lib.Rest
open AuraWellness.Chat.Entities AuraWellness.Chat.Schema AuraWellness.Chat.Repositories
open AuraWellness.Chat.Services AuraWellness.Chat.Publishing AuraWellness.Chat.DeliveryOrder

/-- No call makes more than four repository calls. -/
theorem body_callsAtMost (r : Request) : (body r).CallsAtMost 4 := by
  obtain ⟨call, stamps⟩ := r
  refine (?_ : (call.program stamps).CallsAtMost 4)
  have one : ∀ {α β : Type} (f : α → β) {p : ServiceProgram α}, p.CallsAtMost 1 →
      (f <$> p).CallsAtMost 4 := by
    intro α β f p hp
    exact callsAtMost_mono (callsAtMost_map f hp) (by omega)
  have single : ∀ op, (perform op).CallsAtMost 1 := fun op r => Program.callsAtMost_ret 0 r
  cases call with
  | createWorkspace bu company name => exact one _ (callsAtMost_ofExcept_bind fun w => single _)
  | getByBuID bu => exact one _ (single _)
  | getByID id => exact one _ (single _)
  | addMember w p role => exact one _ (callsAtMost_ofExcept_bind fun m => single _)
  | updateMemberAccess w p access => exact one _ (single _)
  | listMembers w => exact one _ (single _)
  | getOrCreateGroupConversation w =>
    refine callsAtMost_mono (callsAtMost_map _ (callsAtMost_attempt_bind (n := 1) fun r => ?_))
      (by omega)
    cases r with
    | ok conv => exact Program.callsAtMost_ret 1 _
    | error err =>
      dsimp only
      split
      · exact Program.callsAtMost_ret 1 _
      · exact callsAtMost_ofExcept_bind fun c => single _
  | getOrCreateDMConversation w a b =>
    refine callsAtMost_map _ (callsAtMost_attempt_bind (n := 3) fun r => ?_)
    cases r with
    | ok conv => exact Program.callsAtMost_ret 3 _
    | error err =>
      refine callsAtMost_ofExcept_bind fun c => callsAtMost_perform_bind fun created => ?_
      refine callsAtMost_ofExcept_bind fun pA => callsAtMost_perform_bind fun _ => ?_
      refine callsAtMost_ofExcept_bind fun pB => callsAtMost_perform_bind fun _ => ?_
      exact Program.callsAtMost_ret 0 _
  | listConversations w p => exact one _ (single _)
  | getConversationParticipants c => exact one _ (single _)
  | getConversationByID id => exact one _ (single _)
  | sendMessage w c p name content =>
    refine callsAtMost_mono (callsAtMost_map _ (callsAtMost_perform_bind (n := 2) fun m => ?_))
      (by omega)
    split
    · exact Program.callsAtMost_ret 2 _
    · refine callsAtMost_ofExcept_bind fun msg => callsAtMost_perform_bind fun saved => ?_
      exact callsAtMost_perform_bind fun _ => Program.callsAtMost_ret 0 _
  | listMessages c before limit => exact one _ (single _)

/-- A new call or a new subscriber arrives. -/
def Arrives : ExchangeLabel → Prop
  | .start _ => True
  | .subscribe _ => True
  | _ => False

instance (l : ExchangeLabel) : Decidable (Arrives l) := by
  unfold Arrives
  split <;> infer_instance

/-- The call has not returned yet. -/
def Open (th : Thread serviceSignature GoError Response Request) : Bool :=
  match th.prog with
  | .call _ _ => true
  | .ret _ => false

/-- Events that wait for a subscriber. -/
def queued (s : Exchange) : ℕ := (s.subscribers.map fun sub => sub.queue.length).sum

/-- An upper bound of the steps that are still to come: a repository call may start
a publish, and a publish may be queued for each subscriber. -/
def work (s : Exchange) : ℕ :=
  4 * (s.service.threads.filter Open).length * (s.subscribers.length + 2) +
    s.service.state.publishing.length * (s.subscribers.length + 1) + queued s

/-- Every call has returned, every goroutine has published, and every queue is empty. -/
structure AtRest (s : Exchange) : Prop where
  calls : ∀ th ∈ s.service.threads, Open th = false
  published : s.service.state.publishing = []
  queues : ∀ sub ∈ s.subscribers, sub.queue = []

/-- How many calls the threads may still make. -/
inductive Budget : List (Thread serviceSignature GoError Response Request) → ℕ → Prop
  | nil : Budget [] 0
  | cons {th : Thread serviceSignature GoError Response Request}
      {ths : List (Thread serviceSignature GoError Response Request)} {k n : ℕ}
      (hth : th.prog.CallsAtMost k) (hths : Budget ths n) : Budget (th :: ths) (k + n)

/-- A thread that goes on uses up one of its calls. -/
theorem Budget.turn {ths : List (Thread serviceSignature GoError Response Request)} {n i : ℕ}
    (h : Budget ths n) {r : Request} {op : ServiceCall}
    {next : Except GoError op.Reply → ServiceProgram Response}
    (hi : ths[i]? = some ⟨r, .call op next⟩) (reply : Except GoError op.Reply) :
    ∃ n', n = n' + 1 ∧ Budget (ths.set i ⟨r, next reply⟩) n' := by
  induction h generalizing i with
  | nil => cases hi
  | @cons th ths k n hth hths ih =>
    cases i with
    | zero =>
      cases hi
      cases k with
      | zero => exact hth.elim
      | succ k => exact ⟨k + n, by omega, .cons (hth reply) hths⟩
    | succ i =>
      obtain ⟨n', rfl, hn'⟩ := ih hi
      exact ⟨k + n', by omega, .cons hth hn'⟩

/-- Threads that are within four calls have a budget of four calls each, the
returned ones none. -/
theorem Budget.of_open {ths : List (Thread serviceSignature GoError Response Request)}
    (h : ∀ th ∈ ths, th.prog.CallsAtMost 4) : Budget ths (4 * (ths.filter Open).length) := by
  induction ths with
  | nil => exact .nil
  | cons th ths ih =>
    have hrest := ih fun v hv => h v (List.mem_cons_of_mem th hv)
    obtain ⟨r, q⟩ := th
    cases q with
    | ret result =>
      have hnone : Open ⟨r, .ret result⟩ = false := rfl
      rw [List.filter_cons_of_neg (by rw [hnone]; decide), ← Nat.zero_add (4 * _)]
      exact .cons (Program.callsAtMost_ret 0 result) hrest
    | call op next =>
      rw [List.filter_cons_of_pos rfl, List.length_cons, Nat.mul_succ, Nat.add_comm]
      exact .cons (h _ List.mem_cons_self) hrest

/-- The steps of the state that are still to come are no more than this. -/
def Bounded (s : Exchange) (n : ℕ) : Prop :=
  ∃ k, Budget s.service.threads k ∧ k * (s.subscribers.length + 2) +
    s.service.state.publishing.length * (s.subscribers.length + 1) + queued s ≤ n

/-- One call starts one publish at most. -/
theorem answer_publishing_le (op : ServiceCall) (t : Turn Choice GoError) (s : ChatState) :
    (chatMachine.answer op t s).2.publishing.length ≤ s.publishing.length + 1 := by
  have hexec : ∀ choice, (op.exec choice s).2.publishing.length ≤ s.publishing.length + 1 := by
    intro choice
    by_cases hsilent : Silent op
    · rw [(exec_silent hsilent choice s).publishing, List.append_nil]
      omega
    · cases op with
      | messageSave m =>
        obtain ⟨row, -, -, happends⟩ | ⟨e, -, happends⟩ := exec_messageSave m choice s
        · rw [happends.publishing, List.append_nil]
          omega
        · rw [happends.publishing, List.append_nil]
          omega
      | goPublish c event =>
        have he : (ServiceCall.exec (.goPublish c event) choice s).2.publishing =
            s.publishing ++ [⟨c, event⟩] := rfl
        rw [he, List.length_append]
        exact le_refl _
      | _ => exact absurd ⟨fun m hm => (by cases hm), fun c event he => (by cases he)⟩ hsilent
  obtain he | ⟨choice, he⟩ := chatMachine.answer_state op t s
  · rw [he]
    omega
  · rw [he]
    exact hexec choice

/-- A queue in a list of subscribers after one of them has changed. -/
theorem queued_set {subs : List Subscriber} {j : ℕ} {old : Subscriber} (new : Subscriber)
    (hj : subs[j]? = some old) (hlen : old.queue.length = new.queue.length + 1) :
    (subs.map fun sub => sub.queue.length).sum =
      ((subs.set j new).map fun sub => sub.queue.length).sum + 1 := by
  induction subs generalizing j with
  | nil => cases hj
  | cons sub subs ih =>
    cases j with
    | zero =>
      cases hj
      rw [List.set_cons_zero, List.map_cons, List.map_cons, List.sum_cons, List.sum_cons, hlen]
      omega
    | succ j =>
      rw [List.set_cons_succ, List.map_cons, List.map_cons, List.sum_cons, List.sum_cons, ih hj]
      omega

/-- Redis queues an event once for each subscriber at most. -/
theorem queued_enqueue_le (p : Posting) (subs : List Subscriber) :
    ((subs.map (Subscriber.enqueue p)).map fun sub => sub.queue.length).sum ≤
      (subs.map fun sub => sub.queue.length).sum + subs.length := by
  induction subs with
  | nil => exact le_refl _
  | cons sub subs ih =>
    have hone : (Subscriber.enqueue p sub).queue.length ≤ sub.queue.length + 1 := by
      unfold Subscriber.enqueue
      split
      · rw [List.length_append]
        exact le_refl _
      · omega
    simp only [List.map_cons, List.sum_cons, List.length_cons]
    omega

/-- A turn of a call leaves less work. -/
theorem Bounded.turn {s s' : Exchange} {i n : ℕ} {t : Turn Choice GoError} (h : Bounded s n)
    (hstep : s.turn i t = some s') : ∃ n' < n, Bounded s' n' := by
  obtain ⟨service, hservice, rfl⟩ := Option.map_eq_some_iff.mp hstep
  obtain ⟨r, op, next, hi, -, rfl⟩ := Pool.step_turn hservice
  obtain ⟨k, hk, hle⟩ := h
  obtain ⟨k', rfl, hk'⟩ := hk.turn hi (chatMachine.answer op t s.service.state).1
  have hpub := answer_publishing_le op t s.service.state
  have hmul := Nat.mul_le_mul_right (s.subscribers.length + 1) hpub
  refine ⟨_, ?_, k', hk', le_refl _⟩
  dsimp only
  rw [Nat.succ_mul] at hle
  rw [Nat.succ_mul] at hmul
  unfold queued at hle ⊢
  dsimp only
  omega

/-- Every step but an arrival leaves less work. -/
theorem usesUp : UsesUp Exchange.step (fun l => ¬Arrives l) Bounded := by
  intro s l s' n h hl hstep
  cases Exchange.stepped hstep with
  | started => exact absurd trivial hl
  | subscribed => exact absurd trivial hl
  | served ht => exact h.turn ht
  | failed ht => exact h.turn ht
  | @published m succeeds p hm =>
    obtain ⟨k, hk, hle⟩ := h
    have hlen : s.service.state.publishing.length =
        (s.service.state.publishing.eraseIdx m).length + 1 := by
      obtain ⟨hlt, -⟩ := List.getElem?_eq_some_iff.mp hm
      rw [List.length_eraseIdx_of_lt hlt]
      omega
    have hqueue := queued_enqueue_le (postingOf p) s.subscribers
    rw [hlen, Nat.succ_mul] at hle
    unfold queued at hle
    refine ⟨_, ?_, k, hk, le_refl _⟩
    dsimp only [queued]
    cases succeeds with
    | true =>
      rw [if_pos rfl, List.length_map]
      omega
    | false =>
      rw [if_neg Bool.false_ne_true]
      omega
  | @delivered j channel event queue received hj =>
    obtain ⟨k, hk, hle⟩ := h
    have hqueue := queued_set ⟨channel, queue, received ++ [event]⟩ hj rfl
    unfold queued at hle
    refine ⟨_, ?_, k, hk, le_refl _⟩
    dsimp only [queued]
    rw [List.length_set]
    omega
  | @discarded j channel event queue received hj =>
    obtain ⟨k, hk, hle⟩ := h
    have hqueue := queued_set ⟨channel, queue, received⟩ hj rfl
    unfold queued at hle
    refine ⟨_, ?_, k, hk, le_refl _⟩
    dsimp only [queued]
    rw [List.length_set]
    omega

/-- A step in which nothing fails and nothing is lost: a repository call is served,
Redis takes a publish, or a queued event arrives. -/
def Proceeds : ExchangeLabel → Prop
  | .serve _ _ => True
  | .publish _ succeeds => succeeds = true
  | .deliver _ => True
  | _ => False

theorem Proceeds.not_arrives {l : ExchangeLabel} (h : Proceeds l) : ¬Arrives l := by
  cases l with
  | start r => exact h.elim
  | subscribe channel => exact h.elim
  | _ => exact fun harrives => harrives.elim

/-- A state that is not at rest proceeds. -/
theorem exists_proceeds {s : Exchange} (h : ¬AtRest s) :
    ∃ l s', Proceeds l ∧ Exchange.step s l = some s' := by
  by_cases hcalls : ∀ th ∈ s.service.threads, Open th = false
  · by_cases hpublished : s.service.state.publishing = []
    · have hqueues : ¬∀ sub ∈ s.subscribers, sub.queue = [] :=
        fun hqueues => h ⟨hcalls, hpublished, hqueues⟩
      obtain ⟨⟨channel, queue, received⟩, hsub⟩ := not_forall.mp hqueues
      obtain ⟨hsub, hqueue⟩ := Classical.not_imp.mp hsub
      obtain ⟨j, hj⟩ := List.mem_iff_getElem?.mp hsub
      cases queue with
      | nil => exact absurd rfl hqueue
      | cons event queue =>
        have hstep : Exchange.step s (.deliver j) = some { s with
            subscribers := s.subscribers.set j ⟨channel, queue, received ++ [event]⟩ } := by
          simp only [Exchange.step, hj]
        exact ⟨.deliver j, _, trivial, hstep⟩
    · obtain ⟨p, rest, hp⟩ := List.exists_cons_of_ne_nil hpublished
      have hk : s.service.state.publishing[0]? = some p := by rw [hp]; rfl
      have hstep : (Exchange.step s (.publish 0 true)).isSome = true := by
        simp only [Exchange.step, hk]
        rfl
      obtain ⟨s', hs'⟩ := Option.isSome_iff_exists.mp hstep
      exact ⟨.publish 0 true, s', rfl, hs'⟩
  · obtain ⟨⟨r, q⟩, hth⟩ := not_forall.mp hcalls
    obtain ⟨hth, hopen⟩ := Classical.not_imp.mp hth
    obtain ⟨i, hi⟩ := List.mem_iff_getElem?.mp hth
    cases q with
    | ret result => exact absurd rfl hopen
    | call op next =>
      have hserve : (Exchange.step s (.serve i (Choice.generating 1 0))).isSome = true := by
        refine (?_ : (s.turn i (.serve (Choice.generating 1 0))).isSome = true)
        unfold Exchange.turn
        rw [Option.isSome_map]
        exact congrArg Option.isSome (Pool.step_serve hi (Choice.generating 1 0))
      obtain ⟨s', hs'⟩ := Option.isSome_iff_exists.mp hserve
      exact ⟨.serve i (Choice.generating 1 0), s', trivial, hs'⟩

/-- A state at rest waits for arrivals. -/
theorem AtRest.step_none {s : Exchange} (h : AtRest s) {l : ExchangeLabel} (hl : ¬Arrives l) :
    Exchange.step s l = none := by
  have turn : ∀ {i t s'}, s.turn i t = some s' → False := by
    intro i t s' ht
    obtain ⟨service, hservice, -⟩ := Option.map_eq_some_iff.mp ht
    obtain ⟨r, op, next, hi, -, -⟩ := Pool.step_turn hservice
    have hreturned := h.calls _ (List.mem_of_getElem? hi)
    cases hreturned
  cases hstep : Exchange.step s l with
  | none => rfl
  | some s' =>
    exfalso
    cases Exchange.stepped hstep with
    | started => exact hl trivial
    | subscribed => exact hl trivial
    | served ht => exact turn ht
    | failed ht => exact turn ht
    | published hk =>
      rw [h.published] at hk
      cases hk
    | delivered hj =>
      have hempty := h.queues _ (List.mem_of_getElem? hj)
      cases hempty
    | discarded hj =>
      have hempty := h.queues _ (List.mem_of_getElem? hj)
      cases hempty

/-- No call that is under way makes more than four calls. -/
def WithinFour (s : Exchange) : Prop := ∀ th ∈ s.service.threads, th.prog.CallsAtMost 4

theorem WithinFour.step {s s' : Exchange} {l : ExchangeLabel} (h : WithinFour s)
    (hstep : Exchange.step s l = some s') : WithinFour s' := by
  have turn : ∀ {i t}, s.turn i t = some s' → WithinFour s' := by
    intro i t ht th hth
    obtain ⟨service, hservice, rfl⟩ := Option.map_eq_some_iff.mp ht
    obtain ⟨r, op, next, hi, -, rfl⟩ := Pool.step_turn hservice
    obtain hold | rfl := List.mem_or_eq_of_mem_set hth
    · exact h th hold
    · have hcall : (Program.call op next : ServiceProgram Response).CallsAtMost 4 :=
        h _ (List.mem_of_getElem? hi)
      exact callsAtMost_mono (hcall _) (Nat.le_succ 3)
  cases Exchange.stepped hstep with
  | @started r =>
    intro th hth
    obtain hold | hnew := List.mem_append.mp hth
    · exact h th hold
    · rw [List.mem_singleton.mp hnew]
      exact body_callsAtMost r
  | served ht => exact turn ht
  | failed ht => exact turn ht
  | _ => exact h

/-- What is left to do in a state ends, and does not get stuck before it has. -/
structure Settles (s : Exchange) : Prop where
  /-- Without arrivals, every run is no longer than the work, whatever fails. -/
  bounded : ∀ ls s', (∀ l ∈ ls, ¬Arrives l) → run Exchange.step s ls = some s' →
    ls.length ≤ work s
  /-- Some run in which nothing fails leads to rest. -/
  reaches : ∃ ls s', (∀ l ∈ ls, Proceeds l) ∧ run Exchange.step s ls = some s' ∧ AtRest s'
  /-- A state from which nothing but an arrival leads on is at rest. -/
  stuck : AtRest s ↔ ∀ l, ¬Arrives l → Exchange.step s l = none

theorem WithinFour.settles {s : Exchange} (h : WithinFour s) : Settles s where
  bounded ls s' hls hr :=
    usesUp.length_le ⟨_, Budget.of_open h, le_refl _⟩ hls hr
  reaches :=
    usesUp.exists_rest (fun _ hl => Proceeds.not_arrives hl) (fun _ _ _ => exists_proceeds)
      ⟨_, Budget.of_open h, le_refl (work s)⟩
  stuck := by
    constructor
    · exact fun hrest l hl => hrest.step_none hl
    · intro hnone
      by_contra hrest
      obtain ⟨l, s', hl, hstep⟩ := exists_proceeds hrest
      rw [hnone l hl.not_arrives] at hstep
      cases hstep

/-- In every state of every run of calls, goroutines and Redis, from every database,
what is left to do ends within the work and does not get stuck before. -/
theorem settles_throughout (db : ChatDb) (ls : List ExchangeLabel) :
    Throughout Exchange.step Settles (Exchange.initial db) ls := by
  have hinitial : WithinFour (Exchange.initial db) := fun th hth => by cases hth
  have hwithin : Throughout Exchange.step WithinFour (Exchange.initial db) ls :=
    throughout_invariant (fun _ _ _ h hstep => h.step hstep) ls hinitial
  exact hwithin.mono fun _ h => h.settles

/-- The events that Redis has taken on the channel since a state, in the order of
the publishes. -/
def takenSince (s₀ s : Exchange) (channel : String) : List MessageEvent :=
  ((s.published.drop s₀.published.length).filter fun e => e.2 && e.1.channel = channel).map
    fun e => e.1.event

/-- The subscriber at this position has been handed, or is still to be handed, every
event that Redis has taken on its channel since a state. -/
def HandsOut (s₀ : Exchange) (j : ℕ) (channel : String) (s : Exchange) : Prop :=
  s₀.published <+: s.published ∧ ∃ sub, s.subscribers[j]? = some sub ∧ sub.channel = channel ∧
    sub.received ++ sub.queue = takenSince s₀ s channel

/-- One more publish is taken on its channel, if Redis takes it. -/
theorem takenSince_publish {s₀ s s' : Exchange} {channel : String} {p : Posting} {succeeds : Bool}
    (hgrows : s₀.published <+: s.published) (hs' : s'.published = s.published ++ [(p, succeeds)]) :
    takenSince s₀ s' channel = takenSince s₀ s channel ++
      if succeeds = true ∧ p.channel = channel then [p.event] else [] := by
  unfold takenSince
  rw [hs', List.drop_append_of_le_length hgrows.length_le, List.filter_append, List.map_append]
  congr 1
  by_cases h : succeeds = true ∧ p.channel = channel
  · rw [if_pos h]
    simp [h.1, h.2]
  · rw [if_neg h]
    have hnone : (succeeds && decide (p.channel = channel)) = false := by
      simpa using h
    simp [hnone]

/-- Every step hands on what the subscriber is still to be handed, unless it loses it. -/
theorem HandsOut.step {s₀ s s' : Exchange} {j : ℕ} {channel : String} {l : ExchangeLabel}
    (h : HandsOut s₀ j channel s) (hl : l ≠ .discard j) (hstep : Exchange.step s l = some s') :
    HandsOut s₀ j channel s' := by
  obtain ⟨hgrows, sub, hj, hchannel, hevents⟩ := h
  have turn : ∀ {i t}, s.turn i t = some s' → HandsOut s₀ j channel s' := by
    intro i t ht
    obtain ⟨hpublished, hsubscribers, -⟩ := turn_log ht
    unfold HandsOut takenSince
    rw [hpublished, hsubscribers]
    exact ⟨hgrows, sub, hj, hchannel, hevents⟩
  cases Exchange.stepped hstep with
  | started => exact ⟨hgrows, sub, hj, hchannel, hevents⟩
  | served ht => exact turn ht
  | failed ht => exact turn ht
  | @published k succeeds p hk =>
    refine ⟨hgrows.trans (List.prefix_append _ _), ?_⟩
    rw [takenSince_publish hgrows rfl, ← hevents]
    dsimp only
    cases succeeds with
    | false =>
      rw [if_neg Bool.false_ne_true, if_neg fun hfalse => Bool.false_ne_true hfalse.1,
        List.append_nil]
      exact ⟨sub, hj, hchannel, rfl⟩
    | true =>
      rw [if_pos rfl]
      refine ⟨Subscriber.enqueue (postingOf p) sub, by rw [List.getElem?_map, hj]; rfl, ?_⟩
      unfold Subscriber.enqueue
      by_cases hsame : (postingOf p).channel = channel
      · rw [if_pos (hchannel.trans hsame.symm), if_pos ⟨rfl, hsame⟩, List.append_assoc]
        exact ⟨hchannel, rfl⟩
      · rw [if_neg fun he => hsame (he.symm.trans hchannel), if_neg fun he => hsame he.2,
          List.append_nil]
        exact ⟨hchannel, rfl⟩
  | subscribed =>
    obtain ⟨hlt, -⟩ := List.getElem?_eq_some_iff.mp hj
    exact ⟨hgrows, sub, (List.getElem?_append_left hlt).trans hj, hchannel, hevents⟩
  | @delivered j' channel' event queue received hj' =>
    refine ⟨hgrows, ?_⟩
    by_cases hsame : j' = j
    · subst hsame
      cases hj.symm.trans hj'
      refine ⟨_, List.getElem?_set_self (List.getElem?_eq_some_iff.mp hj').1, hchannel, ?_⟩
      dsimp only
      rw [List.append_assoc]
      exact hevents
    · exact ⟨sub, (List.getElem?_set_ne hsame).trans hj, hchannel, hevents⟩
  | @discarded j' channel' event queue received hj' =>
    have hne : j' ≠ j := fun he => hl (by rw [he])
    exact ⟨hgrows, sub, (List.getElem?_set_ne hne).trans hj, hchannel, hevents⟩

/-- What a subscriber has received when the service is at rest. -/
structure ReceivedAll (s₀ s : Exchange) (channel : String) (sub : Subscriber) : Prop where
  /-- Everything that Redis has taken on the channel since, in this order. -/
  taken : sub.received = takenSince s₀ s channel
  /-- Nothing twice. -/
  once : sub.received.Nodup
  /-- Only saved messages of the channel's conversation that were not published before. -/
  sound : ∀ e ∈ sub.received, (∃ i, (i, e.message) ∈ s.added) ∧
    channelKey (uuidText e.message.conversationID) = channel ∧ e.message ∉ publishOrder s₀
  /-- Every saved message of the channel's conversation, but for those published before
  and those whose publish Redis did not take. -/
  complete : ∀ i row, (i, row) ∈ s.added → channelKey (uuidText row.conversationID) = channel →
    row ∈ publishOrder s₀ ∨ ⟨row⟩ ∈ sub.received ∨
      ∃ p, (p, false) ∈ s.published ∧ p.event.message = row

/-- At rest every row that was added has been published. -/
theorem added_published {db : ChatDb} {s : Exchange} (h : Accounted db s) (hrest : AtRest s)
    {i : ℕ} {row : ChatMessage} (hrow : (i, row) ∈ s.added) :
    ∃ succeeds, (postingOf ⟨row.conversationID, ⟨row⟩⟩, succeeds) ∈ s.published := by
  have hmine : row ∈ entriesOf i s.added := mem_entriesOf.mpr hrow
  obtain ⟨⟨r, q⟩, hth⟩ := h.thread (Or.inl (List.ne_nil_of_mem hmine))
  have hreturned := hrest.calls _ (List.mem_of_getElem? hth)
  have hstarted : ⟨row.conversationID, ⟨row⟩⟩ ∈ entriesOf i s.started := by
    have hstands := h.stands i _ hth
    generalize entriesOf i s.lookups = members, entriesOf i s.added = rows,
      entriesOf i s.started = ps at hstands hmine ⊢
    dsimp only at hstands
    cases hstands with
    | returned haccess hmsg hstored =>
      cases List.mem_singleton.mp hmine
      obtain ⟨-, -, -, -, -, hconversation, -⟩ := newMessage_row hmsg hstored
      rw [← hconversation]
      exact List.mem_singleton_self _
    | announcing haccess hmsg hstored => cases hreturned
    | saving haccess hmsg => cases hmine
    | looking => cases hmine
    | other hr hq => cases hmine
    | failed => cases hmine
  have hposted : postingOf ⟨row.conversationID, ⟨row⟩⟩ ∈
      s.service.state.publishing.map postingOf ++ s.published.map Prod.fst :=
    h.causes.mem_iff.mp (List.mem_map.mpr ⟨_, mem_entriesOf.mp hstarted, rfl⟩)
  rw [hrest.published] at hposted
  obtain ⟨⟨p, succeeds⟩, hp, he⟩ := List.mem_map.mp hposted
  dsimp only at he
  subst he
  exact ⟨succeeds, hp⟩

/-- Rows are published once, so what is published later was not published before. -/
theorem later_not_before {db : ChatDb} {s₀ s : Exchange} (h : Accounted db s)
    {later : List (Posting × Bool)} (hsplit : s₀.published ++ later = s.published)
    {e : Posting × Bool} (he : e ∈ later) : e.1.event.message ∉ publishOrder s₀ := by
  intro hbefore
  have hnodup : (s.published.map fun e => e.1.event.message).Nodup := by
    have hall := h.postings_nodup
    unfold Exchange.postings at hall
    rw [List.map_append, List.map_map] at hall
    exact (List.nodup_append.mp hall).2.1
  rw [← hsplit, List.map_append] at hnodup
  exact (List.nodup_append.mp hnodup).2.2 _ hbefore _ (List.mem_map.mpr ⟨e, he, rfl⟩) rfl

/-- When the service is at rest, a subscriber that has lost nothing has received every
saved message of its channel that was published since it joined. -/
theorem HandsOut.receivedAll {db : ChatDb} {s₀ s : Exchange} {j : ℕ} {channel : String}
    (h : Accounted db s) (hrest : AtRest s) (hands : HandsOut s₀ j channel s) :
    ∃ sub, s.subscribers[j]? = some sub ∧ ReceivedAll s₀ s channel sub := by
  obtain ⟨⟨later, hsplit⟩, sub, hj, -, hevents⟩ := hands
  rw [hrest.queues sub (List.mem_of_getElem? hj), List.append_nil] at hevents
  have htaken : takenSince s₀ s channel =
      (later.filter fun e => e.2 && e.1.channel = channel).map fun e => e.1.event := by
    unfold takenSince
    rw [← hsplit, List.drop_left]
  rw [htaken] at hevents
  refine ⟨sub, hj, hevents.trans htaken.symm, ?_, fun e he => ?_, fun i row hrow hchannel => ?_⟩
  · have hall := h.postings_nodup
    unfold Exchange.postings at hall
    rw [List.map_append, List.map_map, ← hsplit] at hall
    have hpublished := (List.nodup_append.mp hall).2.1
    rw [List.map_append] at hpublished
    have hlater : (later.map fun e => e.1.event.message).Nodup :=
      (List.nodup_append.mp hpublished).2.1
    have hmessages : (sub.received.map MessageEvent.message).Nodup := by
      rw [hevents, List.map_map]
      exact hlater.sublist (List.filter_sublist.map _)
    exact hmessages.of_map
  · rw [hevents] at he
    obtain ⟨⟨p, succeeds⟩, hp, rfl⟩ := List.mem_map.mp he
    obtain ⟨hlater, hkept⟩ := List.mem_filter.mp hp
    have hposting : p ∈ s.postings := by
      refine List.mem_append_right _ (List.mem_map.mpr ⟨(p, succeeds), ?_, rfl⟩)
      rw [← hsplit]
      exact List.mem_append_right _ hlater
    have hbefore := later_not_before h hsplit hlater
    obtain ⟨i, row, hrow, rfl⟩ := h.posting_row hposting
    exact ⟨⟨i, hrow⟩, of_decide_eq_true ((Bool.and_eq_true _ _).mp hkept).2, hbefore⟩
  · obtain ⟨succeeds, hp⟩ := added_published h hrest hrow
    rw [← hsplit] at hp
    obtain hold | hnew := List.mem_append.mp hp
    · exact Or.inl (List.mem_map.mpr ⟨_, hold, rfl⟩)
    · cases succeeds with
      | false =>
        refine Or.inr (Or.inr ⟨postingOf ⟨row.conversationID, ⟨row⟩⟩, ?_, rfl⟩)
        rw [← hsplit]
        exact List.mem_append_right _ hnew
      | true =>
        refine Or.inr (Or.inl ?_)
        rw [hevents]
        refine List.mem_map.mpr ⟨_, List.mem_filter.mpr ⟨hnew, ?_⟩, rfl⟩
        exact decide_eq_true hchannel

instance (s : Exchange) : Decidable (AtRest s) :=
  decidable_of_iff ((∀ th ∈ s.service.threads, Open th = false) ∧
      s.service.state.publishing = [] ∧ ∀ sub ∈ s.subscribers, sub.queue = [])
    ⟨fun h => ⟨h.1, h.2.1, h.2.2⟩, fun h => ⟨h.calls, h.published, h.queues⟩⟩

end AuraWellness.Chat.Settling
