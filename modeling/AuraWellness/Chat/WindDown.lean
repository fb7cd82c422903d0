import AuraWellness.Chat.Sessions

/-!
# How a session winds down

When the read loop ends, the context is cancelled, the goroutines of every subscription
return one after the other, and `ServeWS` runs its deferred calls. Two things can keep
a session from winding down: a write that the peer does not read, which nothing ends
since the connection is closed last, and the ping loop, which waits for ticks of a
ticker that has been stopped.
-/

namespace AuraWellness.Chat.WindDown

open AuraWellness.Lib.Transition
open AuraWellness.Chat.Entities AuraWellness.Chat.Repositories AuraWellness.Chat.Live
open AuraWellness.Chat.Sessions

/-- The order of what `ServeWS` does. -/
def ServeWS.rank : ServeWS → ℕ
  | .subscribing _ => 0
  | .reading => 1
  | .awaiting => 2
  | .stopping => 3
  | .cleaning _ => 4
  | .cancelling => 5
  | .closing => 6
  | .returned => 7

/-- The read loop has ended. -/
def ReadEnded (s : Session) : Prop := 1 < ServeWS.rank s.serveWS

/-- The step is not one of the session's goroutines, nor of its ticker: Redis delivers,
the request is done, the peer starts or stops reading, or the connection is lost. -/
def Outside : SessionLabel → Prop
  | .pipeline _ (.payload _) | .requestDone | .peer _ | .connectionLost => True
  | _ => False

/-- No step of the session is enabled. -/
def Quiescent (unmarshal : String → Option MessageEvent) (s : Session) : Prop :=
  ∀ l, ¬Outside l → s.step unmarshal l = none

/-- The goroutines of a subscription have returned. -/
structure PipelineEnded (p : Pipeline) : Prop where
  receiver : p.receiver = .ended
  forwarder : p.forwarder = .ended
  writer : p.writer = .ended

/-- `ServeWS` and all goroutines that it has started have returned. -/
structure Finished (s : Session) : Prop where
  serveWS : s.serveWS = .returned
  pipelines : ∀ p ∈ s.pipelines, PipelineEnded p
  waiter : s.waiter = .ended
  ping : s.ping = .ended

/-- A session whose read loop has ended has a step to make, or it is finished. -/
def WindsDown (unmarshal : String → Option MessageEvent) (s : Session) : Prop :=
  ReadEnded s → Quiescent unmarshal s → Finished s

/-- The holder of the mutex is in its write. -/
def Writing (s : Session) : Holder → Prop
  | .writer i => ∃ p frame, s.pipelines[i]? = some p ∧ p.writer = .writing frame
  | .ping => s.ping = .writing

/-- A write is under way that neither ends nor fails as long as the peer does not read. -/
def WriteStalled (s : Session) : Prop :=
  s.connected = true ∧ s.peerReads = false ∧ ∃ h, Writing s h

/-- The ping loop waits for a ticker that is stopped. -/
def PingAbandoned (s : Session) : Prop := s.ping = .receiving ∧ s.ticker = .stopped

/-- The step stops the ticker while the ping loop waits for a tick, or lets the ping
loop go back to a stopped ticker. -/
def LosesPing (s : Session) : SessionLabel → Prop
  | .stopTicker => s.ping = .receiving
  | .pinged => s.ticker = .stopped
  | _ => False

/-- After the step the read loop has ended, and a write is under way on a connection
that is neither lost nor closed while the peer does not read: the read loop ends during
such a write, the write begins, or the peer stops reading. -/
def StallsWrite (s : Session) : SessionLabel → Prop
  | .readFails => s.connected = true ∧ s.peerReads = false ∧ ∃ h, Writing s h
  | .lock _ | .lockPing => ReadEnded s ∧ s.connected = true ∧ s.peerReads = false
  | .peer reads => reads = false ∧ ReadEnded s ∧ s.connected = true ∧ ∃ h, Writing s h
  | _ => False

/-- What the states of the goroutines say about each other. -/
structure Ordered (s : Session) : Prop where
  /-- The end of the read loop has cancelled the context. -/
  cancelled : 1 < ServeWS.rank s.serveWS → s.done = true
  /-- The waiter and the ping loop are started after the last subscription. -/
  unstarted : ServeWS.rank s.serveWS = 0 → s.waiter = .unstarted ∧ s.ping = .unstarted
  /-- They are started before the read loop. -/
  started : 0 < ServeWS.rank s.serveWS → s.waiter ≠ .unstarted ∧ s.ping ≠ .unstarted
  /-- The waiter has waited for all writers. -/
  waited : s.waiter = .ended → ∀ p ∈ s.pipelines, p.writer = .ended
  /-- `ServeWS` has waited for the waiter. -/
  passed : 2 < ServeWS.rank s.serveWS → s.waiter = .ended
  /-- The first deferred call has stopped the ticker. -/
  stopped : 3 < ServeWS.rank s.serveWS → s.ticker = .stopped
  /-- The last one has closed the connection. -/
  closed : ServeWS.rank s.serveWS = 7 → s.connected = false

/-- The mutex is held during a write only. -/
def Held (s : Session) : Prop := ∀ h, s.writeMu = some h → Writing s h

/-- The goroutines of a subscription neither begin nor end a write among themselves,
and a writer that has returned stays so. -/
theorem pipeline_writer {unmarshal : String → Option MessageEvent} {done : Bool} {p p' : Pipeline}
    {l : PipelineLabel} (h : p.step unmarshal done l = some p') :
    (p.writer = .ended → p'.writer = .ended) ∧
      ∀ frame, p'.writer = .writing frame ↔ p.writer = .writing frame := by
  have same : p'.writer = p.writer → (p.writer = .ended → p'.writer = .ended) ∧
      ∀ frame, p'.writer = .writing frame ↔ p.writer = .writing frame := by
    intro he
    rw [he]
    exact ⟨id, fun _ => Iff.rfl⟩
  cases Pipeline.stepped h with
  | hand msg hforwarder hwriter =>
    rw [hwriter]
    exact ⟨by simp, fun frame => iff_of_false (by simp) (by simp)⟩
  | finished hwriter hforwarder =>
    rw [hwriter]
    exact ⟨fun _ => rfl, fun frame => iff_of_false (by simp) (by simp)⟩
  | payload text hreceiver => exact same rfl
  | unsubscribed hreceiver hsubscribed => exact same rfl
  | receiverDone hreceiver hdone => exact same rfl
  | queue event hreceiver hroom => exact same rfl
  | take event outCh hforwarder houtCh => exact same rfl
  | drained hforwarder houtCh hreceiver => exact same rfl
  | forwarderDone hforwarder hdone => exact same rfl

/-- What keeps the place of `ServeWS` and takes nothing back keeps the order. -/
theorem Ordered.keep {s s' : Session} (hs : Ordered s) (hserve : s'.serveWS = s.serveWS)
    (hdone : s.done = true → s'.done = true) (hwaiter : s'.waiter = s.waiter)
    (hping : s'.ping = .unstarted ↔ s.ping = .unstarted)
    (hticker : s.ticker = .stopped → s'.ticker = .stopped)
    (hconnected : s.connected = false → s'.connected = false)
    (hwriters : (∀ p ∈ s.pipelines, p.writer = .ended) → ∀ p ∈ s'.pipelines, p.writer = .ended) :
    Ordered s' where
  cancelled := fun h => hdone (hs.cancelled (hserve ▸ h))
  unstarted := fun h => by
    obtain ⟨hunstarted, hsilent⟩ := hs.unstarted (hserve ▸ h)
    exact ⟨hwaiter.trans hunstarted, hping.mpr hsilent⟩
  started := fun h => by
    obtain ⟨hstarted, hpinging⟩ := hs.started (hserve ▸ h)
    exact ⟨hwaiter ▸ hstarted, fun h => hpinging (hping.mp h)⟩
  waited := fun h => hwriters (hs.waited (hwaiter ▸ h))
  passed := fun h => hwaiter.trans (hs.passed (hserve ▸ h))
  stopped := fun h => hticker (hs.stopped (hserve ▸ h))
  closed := fun h => hconnected (hs.closed (hserve ▸ h))

/-- A step at one subscription keeps the order when a writer that has returned stays so. -/
theorem Ordered.setPipeline {s s' : Session} (hs : Ordered s) {i : ℕ} {p p' : Pipeline}
    (hp : s.pipelines[i]? = some p) (hwriter : p.writer = .ended → p'.writer = .ended)
    (hserve : s'.serveWS = s.serveWS) (hdone : s'.done = s.done) (hwaiter : s'.waiter = s.waiter)
    (hping : s'.ping = s.ping) (hticker : s'.ticker = s.ticker)
    (hconnected : s'.connected = s.connected)
    (hpipelines : s'.pipelines = s.pipelines.set i p') : Ordered s' := by
  refine hs.keep hserve (fun h => hdone.trans h) hwaiter (by rw [hping])
    (fun h => hticker.trans h) (fun h => hconnected.trans h) fun hall q hq => ?_
  rw [hpipelines] at hq
  obtain hq | rfl := List.mem_or_eq_of_mem_set hq
  · exact hall q hq
  · exact hwriter (hall p (List.mem_of_getElem? hp))

/-- A deferred call keeps the order. -/
theorem Ordered.defer {s s' : Session} (hs : Ordered s) (hbefore : 2 < ServeWS.rank s.serveWS)
    (hafter : 0 < ServeWS.rank s'.serveWS) (hdone : s'.done = true) (hwaiter : s'.waiter = s.waiter)
    (hping : s'.ping = s.ping) (hticker : s'.ticker = .stopped)
    (hclosed : ServeWS.rank s'.serveWS = 7 → s'.connected = false)
    (hwriters : (∀ p ∈ s.pipelines, p.writer = .ended) → ∀ p ∈ s'.pipelines, p.writer = .ended) :
    Ordered s' where
  cancelled := fun _ => hdone
  unstarted := fun h => by omega
  started := fun _ => by
    rw [hwaiter, hping]
    exact hs.started (by omega)
  waited := fun h => hwriters (hs.waited (hwaiter ▸ h))
  passed := fun _ => hwaiter.trans (hs.passed hbefore)
  stopped := fun _ => hticker
  closed := hclosed

/-- Every step keeps the order. -/
theorem ordered_step {unmarshal : String → Option MessageEvent} {s s' : Session} {l : SessionLabel}
    (hs : Ordered s) (h : s.step unmarshal l = some s') : Ordered s' := by
  cases Session.stepped h with
  | subscribe succeeds conversationID conversations hserve =>
    have hunstarted := hs.unstarted (by rw [hserve]; rfl)
    constructor <;> simp [ServeWS.rank, hunstarted]
  | start hserve => constructor <;> simp [ServeWS.rank]
  | pipeline i l p p' hp hstep =>
    exact hs.setPipeline hp (pipeline_writer hstep).1 rfl rfl rfl rfl rfl rfl rfl
  | lock i p frame hp hwriter hfree =>
    refine hs.setPipeline hp (fun hended => ?_) rfl rfl rfl rfl rfl rfl rfl
    cases hwriter.symm.trans hended
  | written i p frame hp hwriter hconnected hreads =>
    refine hs.setPipeline hp (fun hended => ?_) rfl rfl rfl rfl rfl rfl rfl
    cases hwriter.symm.trans hended
  | writeFails i p frame hp hwriter hconnected =>
    exact hs.setPipeline hp (fun _ => rfl) rfl rfl rfl rfl rfl rfl rfl
  | writersDone hwaiter hall =>
    exact { hs with
      unstarted := fun hrank => by
        cases hwaiter.symm.trans (hs.unstarted hrank).1
      started := fun hrank => ⟨by simp, (hs.started hrank).2⟩
      waited := fun _ => hall
      passed := fun _ => rfl }
  | tick hticker =>
    refine hs.keep rfl id rfl Iff.rfl (fun hstopped => ?_) id id
    cases hticker.symm.trans hstopped
  | takeTick hping htick =>
    refine hs.keep rfl id rfl (by simp [hping]) (fun hstopped => ?_) id id
    cases htick.symm.trans hstopped
  | lockPing hping hfree => exact hs.keep rfl id rfl (by simp [hping]) id id id
  | pinged hping hconnected hreads => exact hs.keep rfl id rfl (by simp [hping]) id id id
  | pingFails hping hconnected => exact hs.keep rfl id rfl (by simp [hping]) id id id
  | readFails hserve =>
    have hstarted := hs.started (by rw [hserve]; decide)
    constructor <;> simp [ServeWS.rank, hstarted]
    exact hs.waited
  | writeDone hserve hwaiter =>
    have hstarted := hs.started (by rw [hserve]; decide)
    have hdone := hs.cancelled (by rw [hserve]; decide)
    constructor <;> simp [ServeWS.rank, hstarted, hwaiter, hdone]
    exact hs.waited hwaiter
  | stopTicker hserve =>
    have hrank : 2 < ServeWS.rank s.serveWS := by rw [hserve]; decide
    exact hs.defer hrank (by simp [ServeWS.rank]) (hs.cancelled (by omega)) rfl rfl rfl
      (by simp [ServeWS.rank]) id
  | cleanup closed p hserve hp =>
    have hrank : 3 < ServeWS.rank s.serveWS := by simp [hserve, ServeWS.rank]
    refine hs.defer (by omega) (by simp [Session.setPipeline, ServeWS.rank])
      (hs.cancelled (by omega)) rfl rfl (hs.stopped hrank)
      (by simp [Session.setPipeline, ServeWS.rank]) fun hall q hq => ?_
    obtain hq | rfl := List.mem_or_eq_of_mem_set hq
    · exact hall q hq
    · exact hall p (List.mem_of_getElem? hp)
  | cleaned closed hserve =>
    have hrank : 3 < ServeWS.rank s.serveWS := by simp [hserve, ServeWS.rank]
    exact hs.defer (by omega) (by simp [ServeWS.rank]) (hs.cancelled (by omega)) rfl rfl
      (hs.stopped hrank) (by simp [ServeWS.rank]) id
  | cancelStream hserve =>
    have hrank : 3 < ServeWS.rank s.serveWS := by rw [hserve]; decide
    exact hs.defer (by omega) (by simp [ServeWS.rank]) rfl rfl rfl (hs.stopped hrank)
      (by simp [ServeWS.rank]) id
  | close hserve =>
    have hrank : 3 < ServeWS.rank s.serveWS := by rw [hserve]; decide
    exact hs.defer (by omega) (by simp [ServeWS.rank]) (hs.cancelled (by omega)) rfl rfl
      (hs.stopped hrank) (fun _ => rfl) id
  | requestDone => exact hs.keep rfl (fun _ => rfl) rfl Iff.rfl id id id
  | peer reads => exact hs.keep rfl id rfl Iff.rfl id id id
  | connectionLost => exact hs.keep rfl id rfl Iff.rfl id (fun _ => rfl) id

/-- A session starts in order. -/
theorem ordered_initial (conversations : List Uuid) : Ordered (Session.initial conversations) := by
  constructor <;> simp [Session.initial, ServeWS.rank]

/-- A write goes on at a subscription when its frame does. -/
theorem Writing.setPipeline {s s' : Session} {h : Holder} (hw : Writing s h) {i : ℕ}
    {p p' : Pipeline} (hp : s.pipelines[i]? = some p)
    (hwriter : ∀ frame, p.writer = .writing frame → p'.writer = .writing frame)
    (hping : s'.ping = s.ping) (hpipelines : s'.pipelines = s.pipelines.set i p') :
    Writing s' h := by
  cases h with
  | ping => exact hping.trans hw
  | writer j =>
    obtain ⟨q, frame, hq, hwriting⟩ := hw
    unfold Writing
    rw [hpipelines]
    by_cases he : i = j
    · subst he
      cases hp.symm.trans hq
      have hlt : i < s.pipelines.length := (List.getElem?_eq_some_iff.mp hp).1
      exact ⟨p', frame, List.getElem?_set_self hlt, hwriter frame hwriting⟩
    · exact ⟨q, frame, by rw [List.getElem?_set_ne he]; exact hq, hwriting⟩

/-- Every step keeps the mutex with a write. -/
theorem held_step {unmarshal : String → Option MessageEvent} {s s' : Session} {l : SessionLabel}
    (hordered : Ordered s) (hs : Held s) (h : s.step unmarshal l = some s') : Held s' := by
  cases Session.stepped h with
  | subscribe succeeds conversationID conversations hserve =>
    intro holder hheld
    have hw := hs holder hheld
    cases holder with
    | ping => exact hw
    | writer i =>
      obtain ⟨p, frame, hp, hwriting⟩ := hw
      refine ⟨p, frame, ?_, hwriting⟩
      cases succeeds with
      | false => exact hp
      | true =>
        have hlt : i < s.pipelines.length := (List.getElem?_eq_some_iff.mp hp).1
        exact (List.getElem?_append_left hlt).trans hp
  | start hserve =>
    intro holder hheld
    have hw := hs holder hheld
    cases holder with
    | ping =>
      have hunstarted := (hordered.unstarted (by rw [hserve]; rfl)).2
      cases hunstarted.symm.trans hw
    | writer i => exact hw
  | pipeline i l p p' hp hstep =>
    exact fun holder hheld => (hs holder hheld).setPipeline hp
      (fun frame => ((pipeline_writer hstep).2 frame).mpr) rfl rfl
  | lock i p frame hp hwriter hfree =>
    intro holder hheld
    cases hheld
    have hlt : i < s.pipelines.length := (List.getElem?_eq_some_iff.mp hp).1
    exact ⟨_, frame, List.getElem?_set_self hlt, rfl⟩
  | written i p frame hp hwriter hconnected hreads => exact fun holder hheld => by cases hheld
  | writeFails i p frame hp hwriter hconnected => exact fun holder hheld => by cases hheld
  | takeTick hping htick =>
    intro holder hheld
    have hw := hs holder hheld
    cases holder with
    | ping => cases hping.symm.trans hw
    | writer i => exact hw
  | lockPing hping hfree =>
    intro holder hheld
    cases hheld
    rfl
  | pinged hping hconnected hreads => exact fun holder hheld => by cases hheld
  | pingFails hping hconnected => exact fun holder hheld => by cases hheld
  | cleanup closed p hserve hp =>
    intro holder hheld
    refine (hs holder hheld).setPipeline hp (fun frame hwriting => ?_) rfl rfl
    exact hwriting
  | writersDone hwaiter hall => exact hs
  | tick hticker => exact hs
  | readFails hserve => exact hs
  | writeDone hserve hwaiter => exact hs
  | stopTicker hserve => exact hs
  | cleaned closed hserve => exact hs
  | cancelStream hserve => exact hs
  | close hserve => exact hs
  | requestDone => exact hs
  | peer reads => exact hs
  | connectionLost => exact hs

/-- The goroutines of a subscription are quiet in a quiescent session. -/
theorem Quiescent.pipeline {unmarshal : String → Option MessageEvent} {s : Session}
    (h : Quiescent unmarshal s) {i : ℕ} {p : Pipeline} (hp : s.pipelines[i]? = some p)
    {l : PipelineLabel} (hl : ∀ text, l ≠ .payload text) : p.step unmarshal s.done l = none := by
  have hquiet : s.step unmarshal (.pipeline i l) = none := by
    refine h _ fun houtside => ?_
    cases l with
    | payload text => exact hl text rfl
    | _ => exact houtside
  unfold Session.step at hquiet
  simp only [hp, Option.map_eq_none_iff] at hquiet
  exact hquiet

/-- With the context done, the first two goroutines of a quiet subscription have returned,
and its writer waits for the mutex, is in a write, or has returned. -/
theorem Quiescent.ended {unmarshal : String → Option MessageEvent} {s : Session}
    (h : Quiescent unmarshal s) (hdone : s.done = true) {i : ℕ} {p : Pipeline}
    (hp : s.pipelines[i]? = some p) :
    p.receiver = .ended ∧ p.forwarder = .ended ∧ p.writer ≠ .receiving := by
  have hreceiver : p.receiver = .ended := by
    have hquiet := h.pipeline hp (l := .receiverDone) (by simp)
    by_contra hne
    simp [Pipeline.step, hdone, hne] at hquiet
  have hforwarder : p.forwarder = .ended := by
    have hquiet := h.pipeline hp (l := .forwarderDone) (by simp)
    by_contra hne
    simp [Pipeline.step, hdone, hne] at hquiet
  refine ⟨hreceiver, hforwarder, fun hwriter => ?_⟩
  have hquiet := h.pipeline hp (l := .finished) (by simp)
  simp [Pipeline.step, hwriter, hforwarder] at hquiet

/-- A write that is under way in a quiescent session is stalled. -/
theorem Quiescent.stalled {unmarshal : String → Option MessageEvent} {s : Session}
    (h : Quiescent unmarshal s) {holder : Holder} (hw : Writing s holder) : WriteStalled s := by
  suffices hblocked : ¬(s.connected = true ∧ s.peerReads = true) ∧ s.connected ≠ false by
    obtain ⟨hreads, hconnected⟩ := hblocked
    have hopen : s.connected = true := Bool.eq_true_of_not_eq_false hconnected
    exact ⟨hopen, Bool.eq_false_of_not_eq_true fun hreading => hreads ⟨hopen, hreading⟩, holder, hw⟩
  cases holder with
  | writer i =>
    obtain ⟨p, frame, hp, hwriting⟩ := hw
    have hends := h (.written i) id
    have hfails := h (.writeFails i) id
    unfold Session.step at hends hfails
    simp only [hp, hwriting] at hends hfails
    exact ⟨fun hcan => by simp [hcan] at hends, fun hcan => by simp [hcan] at hfails⟩
  | ping =>
    have hends := h .pinged id
    have hfails := h .pingFails id
    have hwriting : s.ping = .writing := hw
    exact ⟨fun hcan => by simp [Session.step, hwriting, hcan] at hends,
      fun hcan => by simp [Session.step, hwriting, hcan] at hfails⟩

/-- A goroutine that waits for the mutex in a quiescent session waits for a stalled write. -/
theorem Quiescent.stalled_of_locked {unmarshal : String → Option MessageEvent} {s : Session}
    (h : Quiescent unmarshal s) (hheld : Held s) (hlocked : s.writeMu ≠ none) : WriteStalled s := by
  obtain ⟨holder, hholder⟩ := Option.ne_none_iff_exists'.mp hlocked
  exact h.stalled (hheld holder hholder)

/-- Without a stalled write all goroutines of the subscriptions have returned. -/
theorem Quiescent.pipelinesEnded {unmarshal : String → Option MessageEvent} {s : Session}
    (h : Quiescent unmarshal s) (hdone : s.done = true) (hheld : Held s)
    (hstalled : ¬WriteStalled s) : ∀ p ∈ s.pipelines, PipelineEnded p := by
  intro p hp
  obtain ⟨i, hi⟩ := List.mem_iff_getElem?.mp hp
  obtain ⟨hreceiver, hforwarder, hwriter⟩ := h.ended hdone hi
  refine ⟨hreceiver, hforwarder, ?_⟩
  cases hw : p.writer with
  | receiving => exact absurd hw hwriter
  | locking frame =>
    have hquiet := h (.lock i) id
    unfold Session.step at hquiet
    simp only [hi, hw] at hquiet
    refine absurd (h.stalled_of_locked hheld fun hfree => ?_) hstalled
    simp [hfree] at hquiet
  | writing frame =>
    have hwriting : Writing s (.writer i) := ⟨p, frame, hi, hw⟩
    exact absurd (h.stalled hwriting) hstalled
  | ended => rfl

/-- Once all writers have returned, `ServeWS` returns. -/
theorem Quiescent.returned {unmarshal : String → Option MessageEvent} {s : Session}
    (h : Quiescent unmarshal s) (hordered : Ordered s) (hended : ReadEnded s)
    (hwriters : ∀ p ∈ s.pipelines, p.writer = .ended) :
    s.waiter = .ended ∧ s.serveWS = .returned := by
  have hwaiter : s.waiter = .ended := by
    have hstarted := (hordered.started (Nat.lt_of_succ_lt hended)).1
    cases hw : s.waiter with
    | unstarted => exact absurd hw hstarted
    | waiting =>
      have hquiet := h .writersDone id
      unfold Session.step at hquiet
      dsimp only at hquiet
      rw [if_pos ⟨hw, hwriters⟩] at hquiet
      cases hquiet
    | ended => rfl
  refine ⟨hwaiter, ?_⟩
  unfold ReadEnded at hended
  cases hserve : s.serveWS with
  | subscribing conversations => simp [hserve, ServeWS.rank] at hended
  | reading => simp [hserve, ServeWS.rank] at hended
  | awaiting =>
    have hquiet := h .writeDone id
    simp [Session.step, hserve, hwaiter] at hquiet
  | stopping =>
    have hquiet := h .stopTicker id
    simp [Session.step, hserve] at hquiet
  | cleaning closed =>
    have hquiet := h .cleanup id
    unfold Session.step at hquiet
    simp only [hserve] at hquiet
    split at hquiet <;> cases hquiet
  | cancelling =>
    have hquiet := h .cancelStream id
    simp [Session.step, hserve] at hquiet
  | closing =>
    have hquiet := h .close id
    simp [Session.step, hserve] at hquiet
  | returned => rfl

/-- A session whose read loop has ended can only be stuck in a stalled write or with its
ping loop left behind. -/
theorem Quiescent.cases {unmarshal : String → Option MessageEvent} {s : Session}
    (h : Quiescent unmarshal s) (hordered : Ordered s) (hheld : Held s) (hended : ReadEnded s) :
    Finished s ∨ WriteStalled s ∨ PingAbandoned s := by
  by_cases hstalled : WriteStalled s
  · exact Or.inr (Or.inl hstalled)
  have hpipelines := h.pipelinesEnded (hordered.cancelled hended) hheld hstalled
  obtain ⟨hwaiter, hserve⟩ :=
    h.returned hordered hended fun p hp => (hpipelines p hp).writer
  have hrank : 3 < ServeWS.rank s.serveWS := by simp [hserve, ServeWS.rank]
  cases hping : s.ping with
  | unstarted => exact absurd hping (hordered.started (by omega)).2
  | receiving => exact Or.inr (Or.inr ⟨hping, hordered.stopped hrank⟩)
  | locking =>
    have hquiet := h .lockPing id
    refine absurd (h.stalled_of_locked hheld fun hfree => ?_) hstalled
    simp [Session.step, hping, hfree] at hquiet
  | writing =>
    have hwriting : Writing s .ping := hping
    exact absurd (h.stalled hwriting) hstalled
  | ended => exact Or.inl ⟨hserve, hpipelines, hwaiter, hping⟩

/-- What is written after a step at a subscription was written before, if its writer was. -/
theorem Writing.of_setPipeline {s s' : Session} {h : Holder} (hw : Writing s' h) {i : ℕ}
    {p p' : Pipeline} (hp : s.pipelines[i]? = some p)
    (hwriter : ∀ frame, p'.writer = .writing frame → p.writer = .writing frame)
    (hping : s'.ping = s.ping) (hpipelines : s'.pipelines = s.pipelines.set i p') :
    Writing s h := by
  cases h with
  | ping => exact hping.symm.trans hw
  | writer j =>
    obtain ⟨q, frame, hq, hwriting⟩ := hw
    rw [hpipelines] at hq
    by_cases he : i = j
    · subst he
      have hlt : i < s.pipelines.length := (List.getElem?_eq_some_iff.mp hp).1
      cases (List.getElem?_set_self hlt).symm.trans hq
      exact ⟨p, frame, hp, hwriter frame hwriting⟩
    · rw [List.getElem?_set_ne he] at hq
      exact ⟨q, frame, hq, hwriting⟩

/-- A stall that a step has not begun was there before. -/
theorem WriteStalled.before {s s' : Session} (h : WriteStalled s')
    (hconnected : s'.connected = true → s.connected = true) (hreads : s'.peerReads = s.peerReads)
    (hwriting : ∀ holder, Writing s' holder → Writing s holder) : WriteStalled s := by
  obtain ⟨hopen, hdeaf, holder, hw⟩ := h
  exact ⟨hconnected hopen, hreads.symm.trans hdeaf, holder, hwriting holder hw⟩

/-- A step that stalls no write leaves none stalled after the read loop. -/
theorem stalled_step {unmarshal : String → Option MessageEvent} {s s' : Session} {l : SessionLabel}
    (hs : ReadEnded s → ¬WriteStalled s) (hG : ¬StallsWrite s l)
    (h : s.step unmarshal l = some s') : ReadEnded s' → ¬WriteStalled s' := by
  intro hended hstalled
  have hended' : s'.serveWS = s.serveWS → ReadEnded s := fun he => by
    unfold ReadEnded at hended ⊢
    rw [← he]
    exact hended
  have later : 1 < ServeWS.rank s.serveWS → ¬WriteStalled s := fun hrank => hs hrank
  cases Session.stepped h with
  | subscribe succeeds conversationID conversations hserve =>
    simp [ReadEnded, ServeWS.rank] at hended
  | start hserve => simp [ReadEnded, ServeWS.rank] at hended
  | pipeline i l p p' hp hstep =>
    refine hs (hended' rfl) (hstalled.before id rfl fun holder hw => ?_)
    exact hw.of_setPipeline hp (fun frame => ((pipeline_writer hstep).2 frame).mp) rfl rfl
  | lock i p frame hp hwriter hfree =>
    exact hG ⟨hended' rfl, hstalled.1, hstalled.2.1⟩
  | written i p frame hp hwriter hconnected hreads =>
    cases hreads.symm.trans hstalled.2.1
  | writeFails i p frame hp hwriter hconnected => cases hconnected.symm.trans hstalled.1
  | writersDone hwaiter hall => exact hs (hended' rfl) hstalled
  | tick hticker => exact hs (hended' rfl) hstalled
  | takeTick hping htick =>
    refine hs (hended' rfl) (hstalled.before id rfl fun holder hw => ?_)
    cases holder with
    | ping => cases hw
    | writer i => exact hw
  | lockPing hping hfree => exact hG ⟨hended' rfl, hstalled.1, hstalled.2.1⟩
  | pinged hping hconnected hreads => cases hreads.symm.trans hstalled.2.1
  | pingFails hping hconnected => cases hconnected.symm.trans hstalled.1
  | readFails hserve => exact hG (hstalled.before id rfl fun holder hw => hw)
  | writeDone hserve hwaiter => exact later (by rw [hserve]; decide) hstalled
  | stopTicker hserve => exact later (by rw [hserve]; decide) hstalled
  | cleanup closed p hserve hp =>
    refine later (by simp [hserve, ServeWS.rank]) (hstalled.before id rfl fun holder hw => ?_)
    refine hw.of_setPipeline hp (fun frame hwriting => ?_) rfl rfl
    exact hwriting
  | cleaned closed hserve => exact later (by simp [hserve, ServeWS.rank]) hstalled
  | cancelStream hserve => exact later (by rw [hserve]; decide) hstalled
  | close hserve => cases hstalled.1
  | requestDone => exact hs (hended' rfl) hstalled
  | peer reads =>
    obtain ⟨hopen, hdeaf, hw⟩ := hstalled
    exact hG ⟨hdeaf, hended' rfl, hopen, hw⟩
  | connectionLost => cases hstalled.1

/-- A step leaves the ping loop behind exactly if it loses it. -/
theorem pingAbandoned_step {unmarshal : String → Option MessageEvent} {s s' : Session}
    {l : SessionLabel} (hs : ¬PingAbandoned s) (h : s.step unmarshal l = some s') :
    ¬PingAbandoned s' ↔ ¬LosesPing s l := by
  have other : ¬PingAbandoned s' → ¬LosesPing s l → (¬PingAbandoned s' ↔ ¬LosesPing s l) :=
    fun hleft hlost => iff_of_true hleft hlost
  cases Session.stepped h with
  | start hserve => exact other (by simp [PingAbandoned]) id
  | tick hticker => exact other (by simp [PingAbandoned]) id
  | takeTick hping htick => exact other (by simp [PingAbandoned]) id
  | lockPing hping hfree => exact other (by simp [PingAbandoned]) id
  | pingFails hping hconnected => exact other (by simp [PingAbandoned]) id
  | pinged hping hconnected hreads =>
    exact not_congr ⟨fun hleft => hleft.2, fun hlost => ⟨rfl, hlost⟩⟩
  | stopTicker hserve => exact not_congr ⟨fun hleft => hleft.1, fun hlost => ⟨hlost, rfl⟩⟩
  | subscribe succeeds conversationID conversations hserve => exact other hs id
  | pipeline i l p p' hp hstep => exact other hs id
  | lock i p frame hp hwriter hfree => exact other hs id
  | written i p frame hp hwriter hconnected hreads => exact other hs id
  | writeFails i p frame hp hwriter hconnected => exact other hs id
  | writersDone hwaiter hall => exact other hs id
  | readFails hserve => exact other hs id
  | writeDone hserve hwaiter => exact other hs id
  | cleanup closed p hserve hp => exact other hs id
  | cleaned closed hserve => exact other hs id
  | cancelStream hserve => exact other hs id
  | close hserve => exact other hs id
  | requestDone => exact other hs id
  | peer reads => exact other hs id
  | connectionLost => exact other hs id

/-- A ping loop that is left behind stays behind. -/
theorem pingAbandoned_stays {unmarshal : String → Option MessageEvent} {s s' : Session}
    {l : SessionLabel} (hordered : Ordered s) (hs : PingAbandoned s)
    (h : s.step unmarshal l = some s') : PingAbandoned s' := by
  obtain ⟨hping, hticker⟩ := hs
  cases Session.stepped h with
  | start hserve =>
    have hunstarted := (hordered.unstarted (by rw [hserve]; rfl)).2
    cases hping.symm.trans hunstarted
  | tick hrunning => cases hticker.symm.trans hrunning
  | takeTick hreceiving htick => cases hticker.symm.trans htick
  | lockPing hlocking hfree => cases hping.symm.trans hlocking
  | pingFails hwriting hconnected => cases hping.symm.trans hwriting
  | pinged hwriting hconnected hreads => cases hping.symm.trans hwriting
  | stopTicker hserve => exact ⟨hping, rfl⟩
  | _ => exact ⟨hping, hticker⟩

/-- A finished session has no stalled write and no ping loop that is left behind. -/
theorem Finished.sound {s : Session} (h : Finished s) : ¬WriteStalled s ∧ ¬PingAbandoned s := by
  refine ⟨fun hstalled => ?_, fun hleft => by cases h.ping.symm.trans hleft.1⟩
  obtain ⟨-, -, holder, hw⟩ := hstalled
  cases holder with
  | writer i =>
    obtain ⟨p, frame, hp, hwriting⟩ := hw
    cases (h.pipelines p (List.mem_of_getElem? hp)).writer.symm.trans hwriting
  | ping => cases h.ping.symm.trans hw

/-- The invariants of every session. -/
def Sound (s : Session) : Prop := Ordered s ∧ Held s

/-- Every step keeps the invariants. -/
theorem sound_step {unmarshal : String → Option MessageEvent} {s s' : Session} {l : SessionLabel}
    (hs : Sound s) (h : s.step unmarshal l = some s') : Sound s' :=
  ⟨ordered_step hs.1 h, held_step hs.1 hs.2 h⟩

/-- A session starts with the invariants. -/
theorem sound_initial (conversations : List Uuid) : Sound (Session.initial conversations) :=
  ⟨ordered_initial conversations, fun _ hheld => by cases hheld⟩

/-- In every run of a session whose steps stall no write and do not lose the ping loop, a
state after the read loop either has a step to make or has `ServeWS` and all goroutines
returned. And a run that ends after the read loop, with no step left to make, ends with
all of them returned exactly if it never loses the ping loop and ends with no write stalled. -/
theorem windsDown_of_run {unmarshal : String → Option MessageEvent} {conversations : List Uuid}
    {ls : List SessionLabel} {s : Session}
    (hrun : run (Session.step unmarshal) (Session.initial conversations) ls = some s) :
    (EachStep (Session.step unmarshal) (fun s l => ¬LosesPing s l ∧ ¬StallsWrite s l)
        (Session.initial conversations) ls →
      Throughout (Session.step unmarshal) (WindsDown unmarshal) (Session.initial conversations)
        ls) ∧
    (ReadEnded s → Quiescent unmarshal s →
      (Finished s ↔ EachStep (Session.step unmarshal) (fun s l => ¬LosesPing s l)
        (Session.initial conversations) ls ∧ ¬WriteStalled s)) := by
  have hinitial : ¬PingAbandoned (Session.initial conversations) := fun h => by cases h.1
  have hpings : ∀ s l s', Sound s → ¬PingAbandoned s → s.step unmarshal l = some s' →
      (¬PingAbandoned s' ↔ ¬LosesPing s l) := fun s l s' _ hs h => pingAbandoned_step hs h
  have hsound : Sound s :=
    run_invariant (fun s l s' hs h => sound_step hs h) (sound_initial conversations) hrun
  constructor
  · intro hguarded
    refine (throughout_guarded (I := fun s => Sound s ∧ (ReadEnded s → ¬WriteStalled s) ∧
      ¬PingAbandoned s) (fun s l s' hs hG h => ?_) ?_ hguarded).mono fun s hs hended hquiet => ?_
    · obtain ⟨hsound, hstalled, hping⟩ := hs
      exact ⟨sound_step hsound h, stalled_step hstalled hG.2 h, (pingAbandoned_step hping h).mpr hG.1⟩
    · refine ⟨sound_initial conversations, fun hended => ?_, hinitial⟩
      simp [ReadEnded, Session.initial, ServeWS.rank] at hended
    · obtain ⟨hsound, hstalled, hping⟩ := hs
      obtain hfinished | hblocked | hleft := hquiet.cases hsound.1 hsound.2 hended
      · exact hfinished
      · exact absurd hblocked (hstalled hended)
      · exact absurd hleft hping
  · intro hended hquiet
    have hlost := throughout_iff_eachStep (fun s l s' hs _ h => sound_step hs h) hpings
      (sound_initial conversations) hinitial hrun
    constructor
    · intro hfinished
      obtain ⟨hstalled, hping⟩ := hfinished.sound
      refine ⟨hlost.mp (throughout_not (fun s l s' hs h => sound_step hs h) ?_
        (sound_initial conversations) hrun hping), hstalled⟩
      exact fun s l s' hs hleft h => pingAbandoned_stays hs.1 hleft h
    · intro hkept
      obtain ⟨heach, hstalled⟩ := hkept
      have hping : ¬PingAbandoned s := run_guarded
        (fun s l s' hs hG h => (pingAbandoned_step hs h).mpr hG) hinitial heach hrun
      obtain hfinished | hblocked | hleft := hquiet.cases hsound.1 hsound.2 hended
      · exact hfinished
      · exact absurd hblocked hstalled
      · exact absurd hleft hping

/-- The connection is lost before a ping, and the read loop ends after it. -/
def losesConnection : List SessionLabel :=
  [.subscribe true, .start, .tick, .takeTick, .lockPing, .connectionLost, .pingFails, .readFails,
    .pipeline 0 .receiverDone, .pipeline 0 .forwarderDone, .pipeline 0 .finished, .writersDone,
    .writeDone, .stopTicker, .cleanup, .cleanup, .cancelStream, .close]

/-- The session to one conversation whose connection is lost. -/
theorem windsDown_losesConnection :
    ∃ s, run (Session.step fun _ => none) (Session.initial [5]) losesConnection = some s ∧
      (EachStep (Session.step fun _ => none) (fun s l => ¬LosesPing s l ∧ ¬StallsWrite s l)
          (Session.initial [5]) losesConnection →
        Throughout (Session.step fun _ => none) (WindsDown fun _ => none) (Session.initial [5])
          losesConnection) ∧
      (ReadEnded s → Quiescent (fun _ => none) s →
        (Finished s ↔ EachStep (Session.step fun _ => none) (fun s l => ¬LosesPing s l)
          (Session.initial [5]) losesConnection ∧ ¬WriteStalled s)) := by
  have hrun : (run (Session.step fun _ => none) (Session.initial [5]) losesConnection).isSome = true := by
    decide
  obtain ⟨s, hs⟩ := Option.isSome_iff_exists.mp hrun
  exact ⟨s, hs, windsDown_of_run hs⟩

/-- The peer closes a session to one conversation before any message or ping. -/
def peerCloses : List SessionLabel :=
  [.subscribe true, .start, .readFails, .pipeline 0 .receiverDone, .pipeline 0 .forwarderDone,
    .pipeline 0 .finished, .writersDone, .writeDone, .stopTicker, .cleanup, .cleanup,
    .cancelStream, .close]

/-- What is left of that session. -/
def leftBehind : Session :=
  ⟨.returned, [⟨5, false, [], .ended, [], .ended, .ended, []⟩], true, none, .ended, .stopped,
    .receiving, false, true⟩

/-- No goroutine of that session has a step left. -/
theorem quiescent_leftBehind (unmarshal : String → Option MessageEvent) :
    Quiescent unmarshal leftBehind := by
  intro l hl
  cases l with
  | pipeline i l =>
    cases i with
    | zero =>
      cases l with
      | payload text => exact absurd trivial hl
      | _ => rfl
    | succ i => rfl
  | lock i => cases i <;> rfl
  | written i => cases i <;> rfl
  | writeFails i => cases i <;> rfl
  | requestDone => exact absurd trivial hl
  | peer reads => exact absurd trivial hl
  | connectionLost => exact absurd trivial hl
  | _ => rfl

/-- A session that the peer closes leaves its ping loop behind: `ServeWS` has returned, no
step is left, and the loop still waits for the stopped ticker. -/
theorem windsDown_not_invariant : ¬∀ (unmarshal : String → Option MessageEvent)
    (conversations : List Uuid) (ls : List SessionLabel) (s : Session),
    run (Session.step unmarshal) (Session.initial conversations) ls = some s →
      WindsDown unmarshal s := by
  intro h
  have hwinds := h (fun _ => none) [5] peerCloses leftBehind (by decide)
  have hended : ReadEnded leftBehind := by
    unfold ReadEnded
    decide
  have hping : PingLoop.receiving = .ended :=
    (hwinds hended (quiescent_leftBehind fun _ => none)).ping
  cases hping

end AuraWellness.Chat.WindDown
