import AuraWellness.Lib.Calls
import AuraWellness.Frontend.Server

/-!
# The connection of the chat page

`useChatWebSocket` opens a socket when the component is mounted with a business
unit and opens another one three seconds after it has been closed unexpectedly.
Which closures are expected is decided by their code: 1000 is not followed by a
new connection, whoever has sent it. The proxy sends 1000 for every closure of
its socket to the chat service, also when that connection is lost.
-/

namespace AuraWellness.Frontend.Reconnecting

open AuraWellness.Lib.Calls AuraWellness.Lib.Transition AuraWellness.Frontend.Server

/-- The `WebSocket` of one `connect`. -/
structure Connection where
  /-- `ws.readyState`. -/
  readyState : ReadyState
  /-- `ws.onclose` is set. -/
  onclose : Bool
  /-- The run of the effect that has opened it. -/
  effect : ℕ
  /-- The proxied connection, once the server has upgraded the request. -/
  proxy : Option Proxy
  deriving DecidableEq, Repr

/-- A browser tab with the component that calls `useChatWebSocket`. -/
structure Client where
  /-- The `buId` of the mounted component. -/
  buId : Option String
  /-- How often the effect has connected. -/
  effects : ℕ
  /-- Its last run is not cleaned up: `intentionalClose` is false. -/
  running : Bool
  /-- `wsRef.current`. -/
  wsRef : Option ℕ
  /-- The timer of the last run is pending. -/
  reconnectTimer : Bool
  /-- All sockets that have been opened. -/
  connections : List Connection
  deriving DecidableEq, Repr

/-- A tab without the component. -/
def Client.initial : Client := ⟨none, 0, false, none, false, []⟩

/-- `connect`. -/
def Client.connect (s : Client) : Client :=
  { s with
    wsRef := some s.connections.length
    connections := s.connections ++ [⟨.connecting, true, s.effects, none⟩] }

/-- The effect, run for this `buId`. -/
def Client.effect (s : Client) (buId : String) : Client :=
  if buId = "" then { s with buId := some buId }
  else ({ s with buId := some buId, effects := s.effects + 1, running := true } : Client).connect

/-- What the cleanup does to the current socket: no more `onclose`, and `close(1000)`. -/
def Connection.unmounted (c : Connection) : Connection :=
  { c with onclose := false, readyState := c.readyState.afterClose }

/-- The cleanup of the effect. A run for an empty `buId` has none. -/
def Client.cleanup (s : Client) : Client :=
  if s.running then
    match s.wsRef with
    | some k => { s with
        running := false
        reconnectTimer := false
        wsRef := none
        connections := s.connections.modify k Connection.unmounted }
    | none => { s with running := false, reconnectTimer := false }
  else s

/-- `ws.onclose` with this code, of a socket from this run of the effect. -/
def Client.onclose (s : Client) (effect code : ℕ) : Client :=
  if (s.running = true ∧ effect = s.effects) ∧ code ≠ 1000 then
    { s with wsRef := none, reconnectTimer := true }
  else { s with wsRef := none }

/-- The proxy has closed the connection with the code 1000. -/
def Connection.ClosedNormally (c : Connection) : Prop :=
  (c.proxy.bind Proxy.browserCloseFrame).map CloseFrame.code = some 1000

instance (c : Connection) : Decidable c.ClosedNormally := by
  unfold Connection.ClosedNormally
  infer_instance

/-- What happens next in the tab, in the network or at the server. -/
inductive ClientLabel
  /-- The component is mounted. -/
  | mount (buId : String)
  /-- The component gets another `buId`. -/
  | rebind (buId : String)
  /-- The component is unmounted. -/
  | unmount
  /-- The timer fires. -/
  | timer
  /-- The server upgrades the request of a socket. -/
  | upgrade (k : ℕ)
  /-- `ws.onopen`. -/
  | onopen (k : ℕ)
  /-- An event of the proxied connection. -/
  | proxy (k : ℕ) (l : ProxyLabel)
  /-- The closing handshake arrives from the other side. -/
  | closing (k : ℕ)
  /-- The socket is closed, and `ws.onclose` is called with this code if it is set. -/
  | close (k code : ℕ)
  deriving DecidableEq, Repr

/-- One step. A connection can be refused, lost or failed at any time, with any code
but 1000, which only `close` sends. -/
def Client.step (s : Client) : ClientLabel → Option Client
  | .mount buId =>
    match s.buId with
    | none => some (s.effect buId)
    | some _ => none
  | .rebind buId =>
    match s.buId with
    | some old => if old = buId then none else some (s.cleanup.effect buId)
    | none => none
  | .unmount =>
    match s.buId with
    | some _ => some { s.cleanup with buId := none }
    | none => none
  | .timer =>
    if s.reconnectTimer then some ({ s with reconnectTimer := false } : Client).connect else none
  | .upgrade k =>
    match s.connections[k]? with
    | some c =>
      if c.readyState = .connecting ∧ c.proxy = none then
        some { s with connections := s.connections.set k { c with proxy := some Proxy.initial } }
      else none
    | none => none
  | .onopen k =>
    match s.connections[k]? with
    | some c =>
      if c.readyState = .connecting ∧ c.proxy ≠ none then
        some { s with
          reconnectTimer := s.reconnectTimer && decide (c.effect ≠ s.effects)
          connections := s.connections.set k { c with readyState := .opened } }
      else none
    | none => none
  | .proxy k l =>
    match s.connections[k]? with
    | some c =>
      (c.proxy.bind fun p => p.step l).map fun p =>
        { s with connections := s.connections.set k { c with proxy := some p } }
    | none => none
  | .closing k =>
    match s.connections[k]? with
    | some c =>
      if c.readyState = .opened then
        some { s with connections := s.connections.set k { c with readyState := .closing } }
      else none
    | none => none
  | .close k code =>
    match s.connections[k]? with
    | some c =>
      if c.readyState ≠ .closed ∧ (code = 1000 → c.ClosedNormally ∨ c.onclose = false) then
        let closed := { s with connections := s.connections.set k { c with readyState := .closed } }
        some (if c.onclose then closed.onclose c.effect code else closed)
      else none
    | none => none

/-- What a step has done, with what enabled it. -/
inductive Client.Stepped (s : Client) : ClientLabel → Client → Prop
  | mount (buId : String) (h : s.buId = none) : Stepped s (.mount buId) (s.effect buId)
  | rebind (buId : String) : Stepped s (.rebind buId) (s.cleanup.effect buId)
  | unmount : Stepped s .unmount { s.cleanup with buId := none }
  | timer (h : s.reconnectTimer = true) :
    Stepped s .timer ({ s with reconnectTimer := false } : Client).connect
  | upgrade (k : ℕ) (c : Connection) (hc : s.connections[k]? = some c) :
    Stepped s (.upgrade k)
      { s with connections := s.connections.set k { c with proxy := some Proxy.initial } }
  | onopen (k : ℕ) (c : Connection) (hc : s.connections[k]? = some c)
      (h : c.readyState = .connecting) :
    Stepped s (.onopen k)
      { s with
        reconnectTimer := s.reconnectTimer && decide (c.effect ≠ s.effects)
        connections := s.connections.set k { c with readyState := .opened } }
  | proxy (k : ℕ) (c : Connection) (p p' : Proxy) (l : ProxyLabel)
      (hc : s.connections[k]? = some c) (hp : c.proxy = some p) (h : p.step l = some p') :
    Stepped s (.proxy k l) { s with connections := s.connections.set k { c with proxy := some p' } }
  | closing (k : ℕ) (c : Connection) (hc : s.connections[k]? = some c) (h : c.readyState = .opened) :
    Stepped s (.closing k)
      { s with connections := s.connections.set k { c with readyState := .closing } }
  /-- The hook has given the socket up before. -/
  | closeUnheard (k code : ℕ) (c : Connection) (hc : s.connections[k]? = some c)
      (h : c.readyState ≠ .closed) (hdeaf : c.onclose = false) :
    Stepped s (.close k code)
      { s with connections := s.connections.set k { c with readyState := .closed } }
  /-- The hook learns the code. -/
  | close (k code : ℕ) (c : Connection) (hc : s.connections[k]? = some c)
      (h : c.readyState ≠ .closed) (hheard : c.onclose = true)
      (hcode : code = 1000 → c.ClosedNormally) :
    Stepped s (.close k code)
      (({ s with connections := s.connections.set k { c with readyState := .closed } } :
        Client).onclose c.effect code)

/-- All that a step at a socket can do. -/
theorem Client.stepped_connection {s s' : Client} {l : ClientLabel} {k : ℕ}
    (hl : l = .upgrade k ∨ l = .onopen k ∨ (∃ event, l = .proxy k event) ∨ l = .closing k ∨
      ∃ code, l = .close k code) (h : s.step l = some s') : s.Stepped l s' := by
  unfold Client.step at h
  obtain rfl | rfl | ⟨event, rfl⟩ | rfl | ⟨code, rfl⟩ := hl <;> dsimp only at h <;> split at h
  all_goals first | contradiction | rename_i c hc
  · obtain ⟨-, ⟨⟩⟩ := Option.ite_none_right_eq_some.mp h
    exact .upgrade k c hc
  · obtain ⟨hopens, ⟨⟩⟩ := Option.ite_none_right_eq_some.mp h
    exact .onopen k c hc hopens.1
  · obtain ⟨p', hp', rfl⟩ := Option.map_eq_some_iff.mp h
    obtain ⟨p, hp, hevent⟩ := Option.bind_eq_some_iff.mp hp'
    exact .proxy k c p p' event hc hp hevent
  · obtain ⟨hopen, ⟨⟩⟩ := Option.ite_none_right_eq_some.mp h
    exact .closing k c hc hopen
  · obtain ⟨⟨hclosed, hcode⟩, hs'⟩ := Option.ite_none_right_eq_some.mp h
    by_cases hheard : c.onclose = true
    · rw [if_pos hheard] at hs'
      cases hs'
      refine .close k code c hc hclosed hheard fun hnormal => (hcode hnormal).resolve_right ?_
      simp [hheard]
    · rw [if_neg hheard] at hs'
      cases hs'
      exact .closeUnheard k code c hc hclosed (Bool.eq_false_iff.mpr hheard)

/-- All that a step can do. -/
theorem Client.stepped {s s' : Client} {l : ClientLabel} (h : s.step l = some s') :
    s.Stepped l s' := by
  cases l with
  | mount buId =>
    unfold Client.step at h
    dsimp only at h
    split at h
    · rename_i hnone
      cases h
      exact .mount buId hnone
    · cases h
  | rebind buId =>
    unfold Client.step at h
    dsimp only at h
    split at h
    · obtain ⟨-, ⟨⟩⟩ := Option.ite_none_left_eq_some.mp h
      exact .rebind buId
    · cases h
  | unmount =>
    unfold Client.step at h
    dsimp only at h
    split at h
    · cases h
      exact .unmount
    · cases h
  | timer =>
    obtain ⟨htimer, ⟨⟩⟩ := Option.ite_none_right_eq_some.mp h
    exact .timer htimer
  | upgrade k => exact Client.stepped_connection (k := k) (by simp) h
  | onopen k => exact Client.stepped_connection (k := k) (by simp) h
  | proxy k event => exact Client.stepped_connection (k := k) (by simp) h
  | closing k => exact Client.stepped_connection (k := k) (by simp) h
  | close k code => exact Client.stepped_connection (k := k) (by simp) h

/-- The socket is connecting or open. -/
def Connection.Usable (c : Connection) : Prop :=
  c.readyState = .connecting ∨ c.readyState = .opened

/-- The component is mounted with a business unit. -/
def Client.Mounted (s : Client) : Prop := ∃ buId, s.buId = some buId ∧ buId ≠ ""

/-- The current socket is closing, and its `close` event is pending. -/
def Client.Pending (s : Client) : Prop :=
  ∃ k c, s.wsRef = some k ∧ s.connections[k]? = some c ∧ c.readyState = .closing

/-- The hook has a socket that is connecting or open, or its timer is pending. -/
def Client.Connected (s : Client) : Prop :=
  (∃ k c, s.wsRef = some k ∧ s.connections[k]? = some c ∧ c.Usable) ∨ s.reconnectTimer = true

/-- While it is mounted and no event is pending, the hook is connected or about to connect. -/
def StaysConnected (s : Client) : Prop := s.Mounted → ¬s.Pending → s.Connected

/-- The current socket is closed with the code 1000. -/
def EndsNormally (s : Client) (l : ClientLabel) : Prop :=
  ∃ k, s.wsRef = some k ∧ l = .close k 1000

/-- The socket to the chat service closes, with whatever code and whoever has closed or
lost it, after it had opened and while the browser's socket is open: the proxy passes that
on with 1000. -/
def PassesCloseOn (s : Client) (l : ClientLabel) : Prop :=
  ∃ k c p code, l = .proxy k (.backendClose code) ∧ s.connections[k]? = some c ∧
    c.proxy = some p ∧ p.listening = true ∧ p.browserWs = .opened

/-- How the hook keeps its sockets. -/
structure Tidy (s : Client) : Prop where
  /-- The effect runs while the component has a business unit. -/
  mounted : s.Mounted ↔ s.running = true
  /-- The current socket is not closed and calls the hook back. -/
  current : ∀ k, s.wsRef = some k → ∃ c, s.connections[k]? = some c ∧ c.onclose = true ∧
    c.readyState ≠ .closed
  /-- No other socket does. -/
  others : ∀ (k : ℕ) (c : Connection), s.connections[k]? = some c → c.onclose = true →
    c.readyState ≠ .closed → s.wsRef = some k ∧ c.effect = s.effects
  /-- A socket that is given up never opens. -/
  deaf : ∀ (k : ℕ) (c : Connection), s.connections[k]? = some c → c.onclose = false →
    c.readyState ≠ .connecting
  /-- A socket and the timer belong to a run of the effect. -/
  owned : (∃ k, s.wsRef = some k) ∨ s.reconnectTimer = true → s.running = true
  /-- There is either of them. -/
  either : s.reconnectTimer = true → s.wsRef = none

/-- No effect is running, and no socket calls the hook back. -/
structure Idle (s : Client) : Prop where
  running : s.running = false
  wsRef : s.wsRef = none
  reconnectTimer : s.reconnectTimer = false
  closed : ∀ (k : ℕ) (c : Connection), s.connections[k]? = some c → c.onclose = true →
    c.readyState = .closed
  deaf : ∀ (k : ℕ) (c : Connection), s.connections[k]? = some c → c.onclose = false →
    c.readyState ≠ .connecting

/-- The running effect has a socket or its timer. -/
def Alive (s : Client) : Prop :=
  s.running = true → (∃ k, s.wsRef = some k) ∨ s.reconnectTimer = true

/-- A tidy hook stays connected exactly as long as its effect has a socket or the timer. -/
theorem staysConnected_iff {s : Client} (hs : Tidy s) : StaysConnected s ↔ Alive s := by
  constructor
  · intro h hrunning
    by_cases hpending : s.Pending
    · obtain ⟨k, c, hk, -⟩ := hpending
      exact Or.inl ⟨k, hk⟩
    · obtain ⟨k, c, hk, -⟩ | htimer := h (hs.mounted.mpr hrunning) hpending
      · exact Or.inl ⟨k, hk⟩
      · exact Or.inr htimer
  · intro h hmounted hpending
    obtain ⟨k, hk⟩ | htimer := h (hs.mounted.mp hmounted)
    · obtain ⟨c, hc, -, hclosed⟩ := hs.current k hk
      refine Or.inl ⟨k, c, hk, hc, ?_⟩
      cases hstate : c.readyState with
      | connecting => exact Or.inl hstate
      | opened => exact Or.inr hstate
      | closing => exact absurd ⟨k, c, hk, hc, hstate⟩ hpending
      | closed => exact absurd hstate hclosed
    · exact Or.inr htimer

/-- Without a running effect a tidy hook is idle. -/
theorem Tidy.idle {s : Client} (hs : Tidy s) (h : s.running = false) : Idle s := by
  have hunowned : ¬((∃ k, s.wsRef = some k) ∨ s.reconnectTimer = true) := fun howned =>
    Bool.false_ne_true (h.symm.trans (hs.owned howned))
  have hnone : s.wsRef = none := by
    cases hk : s.wsRef with
    | none => rfl
    | some k => exact absurd (Or.inl ⟨k, hk⟩) hunowned
  refine ⟨h, hnone, Bool.eq_false_iff.mpr fun htimer => hunowned (Or.inr htimer), ?_, hs.deaf⟩
  intro k c hc hheard
  by_contra hclosed
  obtain ⟨hk, -⟩ := hs.others k c hc hheard hclosed
  cases hnone.symm.trans hk

/-- An idle hook of a component without a business unit is tidy. -/
theorem Idle.tidy {s : Client} (hs : Idle s) (h : ¬s.Mounted) : Tidy s where
  mounted := iff_of_false h (by simp [hs.running])
  current k hk := by simp [hs.wsRef] at hk
  others k c hc hheard hclosed := absurd (hs.closed k c hc hheard) hclosed
  deaf := hs.deaf
  owned h := by simp [hs.wsRef, hs.reconnectTimer] at h
  either h := by simp [hs.reconnectTimer] at h

/-- A socket that is given up calls nobody back and does not open. -/
theorem unmounted_not_connecting (c : Connection) : c.unmounted.readyState ≠ .connecting := by
  cases h : c.readyState <;> simp [Connection.unmounted, ReadyState.afterClose, h]

/-- The cleanup leaves an idle hook. -/
theorem Tidy.cleanup {s : Client} (hs : Tidy s) : Idle s.cleanup := by
  unfold Client.cleanup
  split
  · split
    · rename_i hrunning k hk
      refine ⟨rfl, rfl, rfl, fun j c hc hheard => ?_, fun j c hc hdeaf => ?_⟩
      · rw [List.getElem?_modify] at hc
        obtain ⟨c₀, hc₀, rfl⟩ := Option.map_eq_some_iff.mp hc
        by_cases hkj : k = j
        · simp [hkj, Connection.unmounted] at hheard
        · rw [if_neg hkj] at hheard ⊢
          by_contra hclosed
          obtain ⟨hj, -⟩ := hs.others j c₀ hc₀ hheard hclosed
          exact hkj (Option.some.inj (hk.symm.trans hj))
      · rw [List.getElem?_modify] at hc
        obtain ⟨c₀, hc₀, rfl⟩ := Option.map_eq_some_iff.mp hc
        by_cases hkj : k = j
        · rw [if_pos hkj]
          exact unmounted_not_connecting c₀
        · rw [if_neg hkj] at hdeaf ⊢
          exact hs.deaf j c₀ hc₀ hdeaf
    · rename_i hrunning hnone
      refine ⟨rfl, hnone, rfl, fun k c hc hheard => ?_, hs.deaf⟩
      by_contra hclosed
      obtain ⟨hk, -⟩ := hs.others k c hc hheard hclosed
      cases hnone.symm.trans hk
  · rename_i hrunning
    exact hs.idle (Bool.eq_false_iff.mpr hrunning)

/-- A new socket is the only one that calls the hook back. -/
theorem tidy_connect {s : Client} (hmounted : s.Mounted) (hrunning : s.running = true)
    (htimer : s.reconnectTimer = false)
    (hclosed : ∀ (k : ℕ) (c : Connection), s.connections[k]? = some c → c.onclose = true →
      c.readyState = .closed)
    (hdeaf : ∀ (k : ℕ) (c : Connection), s.connections[k]? = some c → c.onclose = false →
      c.readyState ≠ .connecting) : Tidy s.connect := by
  have hcases : ∀ (k : ℕ) (c : Connection), s.connect.connections[k]? = some c →
      s.connections[k]? = some c ∨
        (k = s.connections.length ∧ c = ⟨.connecting, true, s.effects, none⟩) := by
    intro k c hc
    unfold Client.connect at hc
    dsimp only at hc
    rw [List.getElem?_append] at hc
    split at hc
    · exact Or.inl hc
    · rename_i hle
      have hk : k - s.connections.length = 0 := by
        by_contra hpos
        obtain ⟨n, hn⟩ := Nat.exists_eq_succ_of_ne_zero hpos
        rw [hn] at hc
        cases hc
      rw [hk] at hc
      exact Or.inr ⟨by omega, (Option.some.inj hc).symm⟩
  refine ⟨iff_of_true hmounted hrunning, fun k hk => ?_, fun k c hc hheard hopen => ?_,
    fun k c hc hunheard => ?_, fun _ => hrunning, fun h => ?_⟩
  · cases hk
    exact ⟨_, List.getElem?_concat_length, rfl, by simp⟩
  · obtain hold | ⟨rfl, rfl⟩ := hcases k c hc
    · exact absurd (hclosed k c hold hheard) hopen
    · exact ⟨rfl, rfl⟩
  · obtain hold | ⟨rfl, rfl⟩ := hcases k c hc
    · exact hdeaf k c hold hunheard
    · cases hunheard
  · exact absurd (htimer.symm.trans h) Bool.false_ne_true

/-- The effect leaves a tidy hook with a socket if it has a business unit. -/
theorem Idle.effect {s : Client} (hs : Idle s) (buId : String) :
    Tidy (s.effect buId) ∧ Alive (s.effect buId) := by
  unfold Client.effect
  split
  · rename_i hempty
    have hidle : Idle { s with buId := some buId } :=
      ⟨hs.running, hs.wsRef, hs.reconnectTimer, hs.closed, hs.deaf⟩
    refine ⟨hidle.tidy ?_, fun hrunning => absurd (hs.running.symm.trans hrunning) Bool.false_ne_true⟩
    intro hmounted
    obtain ⟨b, hb, hnonempty⟩ := hmounted
    cases hb
    exact hnonempty hempty
  · rename_i hnonempty
    refine ⟨tidy_connect ⟨buId, rfl, hnonempty⟩ rfl hs.reconnectTimer hs.closed hs.deaf, ?_⟩
    exact fun _ => Or.inl ⟨_, rfl⟩

/-- A tidy hook stays tidy while a socket changes but is not closed under it. -/
theorem tidy_set {s : Client} (hs : Tidy s) {k : ℕ} {c : Connection}
    (hc : s.connections[k]? = some c) (c' : Connection) (hheard : c'.onclose = c.onclose)
    (heffect : c'.effect = c.effect)
    (hclosed : c.onclose = true → (c'.readyState = .closed ↔ c.readyState = .closed))
    (hconnecting : c'.readyState = .connecting → c.readyState = .connecting) {timer : Bool}
    (htimer : timer = true → s.reconnectTimer = true) :
    Tidy { s with reconnectTimer := timer, connections := s.connections.set k c' } := by
  have hself : (s.connections.set k c')[k]? = some c' := by
    rw [List.getElem?_set_self', hc]
    rfl
  refine ⟨hs.mounted, fun j hj => ?_, fun j d hd hd' hopen => ?_, fun j d hd hdeaf => ?_,
    fun howned => hs.owned (howned.imp_right htimer), fun h => hs.either (htimer h)⟩
  · obtain ⟨d, hd, hd', hopen⟩ := hs.current j hj
    by_cases hjk : j = k
    · subst hjk
      cases hc.symm.trans hd
      exact ⟨c', hself, hheard.trans hd', fun h => hopen ((hclosed hd').mp h)⟩
    · exact ⟨d, (List.getElem?_set_ne (Ne.symm hjk)).trans hd, hd', hopen⟩
  · obtain ⟨rfl, rfl⟩ | ⟨-, hold⟩ := getElem?_set_cases hd
    · rw [hheard] at hd'
      rw [heffect]
      exact hs.others j c hc hd' fun h => hopen ((hclosed hd').mpr h)
    · exact hs.others j d hold hd' hopen
  · obtain ⟨rfl, rfl⟩ | ⟨-, hold⟩ := getElem?_set_cases hd
    · rw [hheard] at hdeaf
      exact fun h => hs.deaf j c hc hdeaf (hconnecting h)
    · exact hs.deaf j d hold hdeaf

/-- The hook opens another socket after a closure exactly if its code is not 1000. -/
theorem tidy_onclose {s : Client} (hs : Tidy s) (code : ℕ) {k : ℕ} {c : Connection}
    (hc : s.connections[k]? = some c) (hopen : c.readyState ≠ .closed) (hheard : c.onclose = true) :
    let s' := ({ s with connections := s.connections.set k { c with readyState := .closed } } :
      Client).onclose c.effect code
    Tidy s' ∧ (Alive s' ↔ code ≠ 1000) := by
  obtain ⟨hk, heffect⟩ := hs.others k c hc hheard hopen
  have hrunning : s.running = true := hs.owned (Or.inl ⟨k, hk⟩)
  have htimer : s.reconnectTimer = false :=
    Bool.eq_false_iff.mpr fun h => by cases hk.symm.trans (hs.either h)
  -- no socket is left that would call back
  have hothers : ∀ (j : ℕ) (d : Connection),
      (s.connections.set k { c with readyState := .closed })[j]? = some d → d.onclose = true →
        d.readyState ≠ .closed → False := by
    intro j d hd hd' hlive
    obtain ⟨rfl, rfl⟩ | ⟨hne, hold⟩ := getElem?_set_cases hd
    · exact hlive rfl
    · obtain ⟨hj, -⟩ := hs.others j d hold hd' hlive
      exact hne (Option.some.inj (hj.symm.trans hk))
  have hdeaf : ∀ (j : ℕ) (d : Connection),
      (s.connections.set k { c with readyState := .closed })[j]? = some d → d.onclose = false →
        d.readyState ≠ .connecting := by
    intro j d hd hd'
    obtain ⟨rfl, rfl⟩ | ⟨-, hold⟩ := getElem?_set_cases hd
    · simp
    · exact hs.deaf j d hold hd'
  intro s'
  by_cases hcode : code ≠ 1000
  · have hs' : s' = { s with
        connections := s.connections.set k { c with readyState := .closed }
        wsRef := none
        reconnectTimer := true } := if_pos ⟨⟨hrunning, heffect⟩, hcode⟩
    rw [hs']
    refine ⟨⟨hs.mounted, by simp, fun j d hd hd' hlive => (hothers j d hd hd' hlive).elim, hdeaf,
      fun _ => hrunning, fun _ => rfl⟩, iff_of_true (fun _ => Or.inr rfl) hcode⟩
  · have hs' : s' = { s with
        connections := s.connections.set k { c with readyState := .closed }
        wsRef := none } := if_neg fun h => hcode h.2
    rw [hs']
    refine ⟨⟨hs.mounted, by simp, fun j d hd hd' hlive => (hothers j d hd hd' hlive).elim, hdeaf,
      fun _ => hrunning, fun _ => rfl⟩, iff_of_false (fun halive => ?_) hcode⟩
    obtain ⟨j, hj⟩ | h := halive hrunning
    · cases hj
    · exact absurd (htimer.symm.trans h) Bool.false_ne_true

/-- A step keeps the hook tidy, and it keeps it alive exactly if the current socket is
not closed with the code 1000. -/
theorem alive_step {s s' : Client} {l : ClientLabel} (hs : Tidy s) (halive : Alive s)
    (h : s.step l = some s') : Tidy s' ∧ (Alive s' ↔ ¬EndsNormally s l) := by
  have other : (∀ k code, l ≠ .close k code) → Tidy s' → Alive s' →
      Tidy s' ∧ (Alive s' ↔ ¬EndsNormally s l) := by
    intro hl htidy hstill
    refine ⟨htidy, iff_of_true hstill fun hends => ?_⟩
    obtain ⟨k, -, hclose⟩ := hends
    exact hl k 1000 hclose
  cases Client.stepped h with
  | mount buId hnone =>
    have hidle : Idle s := hs.idle (Bool.eq_false_iff.mpr fun hrunning => by
      obtain ⟨b, hb, -⟩ := hs.mounted.mpr hrunning
      cases hnone.symm.trans hb)
    exact other (by simp) (hidle.effect buId).1 (hidle.effect buId).2
  | rebind buId => exact other (by simp) (hs.cleanup.effect buId).1 (hs.cleanup.effect buId).2
  | unmount =>
    have hidle : Idle { s.cleanup with buId := none } :=
      ⟨hs.cleanup.running, hs.cleanup.wsRef, hs.cleanup.reconnectTimer, hs.cleanup.closed,
        hs.cleanup.deaf⟩
    refine other (by simp) (hidle.tidy ?_) fun hrunning => ?_
    · intro hmounted
      obtain ⟨b, hb, -⟩ := hmounted
      cases hb
    · exact absurd (hidle.running.symm.trans hrunning) Bool.false_ne_true
  | timer htimer =>
    have hrunning : s.running = true := hs.owned (Or.inr htimer)
    refine other (by simp) (tidy_connect (hs.mounted.mpr hrunning) hrunning rfl ?_ hs.deaf)
      fun _ => Or.inl ⟨_, rfl⟩
    intro k c hc hheard
    by_contra hclosed
    obtain ⟨hk, -⟩ := hs.others k c hc hheard hclosed
    cases (hs.either htimer).symm.trans hk
  | upgrade k c hc =>
    exact other (by simp) (tidy_set hs hc { c with proxy := some Proxy.initial } rfl rfl
      (fun _ => Iff.rfl) id id) halive
  | onopen k c hc hconnecting =>
    refine other (by simp) (tidy_set hs hc { c with readyState := .opened } rfl rfl (fun _ => ?_)
      (fun h => ?_) fun h => ?_) ?_
    · simp [hconnecting]
    · cases h
    · exact (Bool.and_eq_true_iff.mp h).1
    · -- an opening socket is the current one
      intro hrunning
      have hheard : c.onclose = true := by
        by_contra hdeaf
        exact hs.deaf k c hc (Bool.eq_false_iff.mpr hdeaf) hconnecting
      exact Or.inl ⟨k, (hs.others k c hc hheard (by simp [hconnecting])).1⟩
  | proxy k c p p' l hc hp hevent =>
    exact other (by simp) (tidy_set hs hc { c with proxy := some p' } rfl rfl (fun _ => Iff.rfl) id
      id) halive
  | closing k c hc hopen =>
    refine other (by simp) (tidy_set hs hc { c with readyState := .closing } rfl rfl (fun _ => ?_)
      (fun h => ?_) id) halive
    · simp [hopen]
    · cases h
  | closeUnheard k code c hc hopen hdeaf =>
    refine ⟨tidy_set hs hc { c with readyState := .closed } rfl rfl (fun hheard => ?_)
      (fun hconnecting => ?_) id, iff_of_true halive fun hends => ?_⟩
    · exact absurd (hdeaf.symm.trans hheard) Bool.false_ne_true
    · cases hconnecting
    · obtain ⟨j, hj, hclose⟩ := hends
      cases hclose
      obtain ⟨d, hd, hheard, -⟩ := hs.current k hj
      cases hc.symm.trans hd
      exact absurd (hdeaf.symm.trans hheard) Bool.false_ne_true
  | close k code c hc hopen hheard hcode =>
    obtain ⟨htidy, hiff⟩ := tidy_onclose hs code hc hopen hheard
    refine ⟨htidy, hiff.trans (not_congr ?_)⟩
    constructor
    · rintro rfl
      exact ⟨k, (hs.others k c hc hheard hopen).1, rfl⟩
    · intro hends
      obtain ⟨j, -, hclose⟩ := hends
      cases hclose
      rfl

/-- The proxy closes a browser's socket with the code 1000 only when it passes on that
the chat service has closed. -/
theorem closedNormally_step {p p' : Proxy} {l : ProxyLabel} (h : p.step l = some p')
    (hnormal : p'.browserCloseFrame.map CloseFrame.code = some 1000) :
    p.browserCloseFrame.map CloseFrame.code = some 1000 ∨
      ∃ code, l = .backendClose code ∧ p.listening = true ∧ p.browserWs = .opened := by
  cases Proxy.stepped h with
  | backendClose code hlive hlistening hopen => exact Or.inr ⟨code, rfl, hlistening, hopen⟩
  | backendError hclosed hopen => cases hnormal
  | _ => exact Or.inl hnormal

/-- No proxied connection was closed with the code 1000. -/
def NoneNormal (s : Client) : Prop := ∀ c ∈ s.connections, ¬c.ClosedNormally

/-- One socket is replaced by another that was not closed with 1000. -/
theorem noneNormal_set {s : Client} (hs : NoneNormal s) (k : ℕ) {c : Connection}
    (hc : ¬c.ClosedNormally) : ∀ d ∈ s.connections.set k c, ¬d.ClosedNormally := by
  intro d hd
  obtain hold | rfl := List.mem_or_eq_of_mem_set hd
  · exact hs d hold
  · exact hc

/-- A new socket has no proxied connection yet. -/
theorem noneNormal_connect {s : Client} (hs : NoneNormal s) : NoneNormal s.connect := by
  intro c hc
  obtain hold | hnew := List.mem_append.mp hc
  · exact hs c hold
  · rw [List.mem_singleton.mp hnew]
    simp [Connection.ClosedNormally]

/-- The effect only adds a socket. -/
theorem noneNormal_effect {s : Client} (hs : NoneNormal s) (buId : String) :
    NoneNormal (s.effect buId) := by
  unfold Client.effect
  split
  · exact hs
  · exact noneNormal_connect hs

/-- The cleanup leaves the proxied connections alone. -/
theorem noneNormal_cleanup {s : Client} (hs : NoneNormal s) : NoneNormal s.cleanup := by
  unfold Client.cleanup
  split
  · split
    · rename_i hrunning k hk
      intro c hc
      obtain ⟨j, hj⟩ := List.mem_iff_getElem?.mp hc
      rw [List.getElem?_modify] at hj
      obtain ⟨c₀, hc₀, rfl⟩ := Option.map_eq_some_iff.mp hj
      have hold := hs c₀ (List.mem_of_getElem? hc₀)
      split
      · exact hold
      · exact hold
    · exact hs
  · exact hs

/-- Unless the proxy passes a closure on, no connection is closed with the code 1000. -/
theorem noneNormal_step {s s' : Client} {l : ClientLabel} (hs : NoneNormal s)
    (hguard : ¬PassesCloseOn s l) (h : s.step l = some s') : NoneNormal s' := by
  -- a change of the socket alone leaves its proxied connection as it was
  have held : ∀ {k : ℕ} {c : Connection}, s.connections[k]? = some c →
      ∀ readyState, ¬({ c with readyState } : Connection).ClosedNormally := by
    intro k c hc readyState hnormal
    exact hs c (List.mem_of_getElem? hc) hnormal
  cases Client.stepped h with
  | mount buId hnone => exact noneNormal_effect hs buId
  | rebind buId => exact noneNormal_effect (noneNormal_cleanup hs) buId
  | unmount => exact noneNormal_cleanup hs
  | timer htimer => exact noneNormal_connect hs
  | upgrade k c hc => exact noneNormal_set hs k (by simp [Connection.ClosedNormally, Proxy.initial])
  | onopen k c hc hconnecting => exact noneNormal_set hs k (held hc _)
  | closing k c hc hopen => exact noneNormal_set hs k (held hc _)
  | closeUnheard k code c hc hopen hdeaf => exact noneNormal_set hs k (held hc _)
  | proxy k c p p' event hc hp hevent =>
    refine noneNormal_set hs k fun hnormal => ?_
    obtain hbefore | ⟨code, rfl, hlistening, hopen⟩ := closedNormally_step hevent hnormal
    · refine hs c (List.mem_of_getElem? hc) ?_
      unfold Connection.ClosedNormally
      rw [hp]
      exact hbefore
    · exact hguard ⟨k, c, p, code, rfl, hc, hp, hlistening, hopen⟩
  | close k code c hc hopen hheard hcode =>
    have hset := noneNormal_set hs k (held hc .closed)
    unfold Client.onclose
    split
    · exact hset
    · exact hset

/-- Without a connection that was closed with 1000, the current socket does not end so. -/
theorem not_endsNormally {s s' : Client} {l : ClientLabel} (hs : Tidy s) (hnone : NoneNormal s)
    (h : s.step l = some s') : ¬EndsNormally s l := by
  intro hends
  obtain ⟨k, hk, rfl⟩ := hends
  obtain ⟨c, hc, hheard, -⟩ := hs.current k hk
  cases Client.stepped h with
  | closeUnheard _ _ d hd hopen hdeaf =>
    cases hc.symm.trans hd
    exact absurd (hdeaf.symm.trans hheard) Bool.false_ne_true
  | close _ _ d hd hopen hheard' hcode => exact hnone d (List.mem_of_getElem? hd) (hcode rfl)

theorem tidy_initial : Tidy Client.initial :=
  Idle.tidy ⟨rfl, rfl, rfl, fun _ _ h => by simp [Client.initial] at h,
    fun _ _ h => by simp [Client.initial] at h⟩ fun h => by
      obtain ⟨b, hb, -⟩ := h
      cases hb

/-- In every run of the tab, its proxied connections and the chat service, the mounted
hook is connected or about to connect in every state without a pending event, exactly if
its current socket is never closed with the code 1000; and that happens only after the
proxy has passed on that an opened socket to the chat service has closed. -/
theorem staysConnected_throughout_iff {ls : List ClientLabel} {s : Client}
    (hrun : run Client.step Client.initial ls = some s) :
    (Throughout Client.step StaysConnected Client.initial ls ↔
      EachStep Client.step (fun s l => ¬EndsNormally s l) Client.initial ls) ∧
    (EachStep Client.step (fun s l => ¬PassesCloseOn s l) Client.initial ls →
      EachStep Client.step (fun s l => ¬EndsNormally s l) Client.initial ls) := by
  have hinitial : StaysConnected Client.initial := fun h => by
    obtain ⟨b, hb, -⟩ := h
    cases hb
  constructor
  · refine throughout_iff_eachStep (fun s l s' hs hp h => ?_) (fun s l s' hs hp h => ?_)
      tidy_initial hinitial hrun
    · exact (alive_step hs ((staysConnected_iff hs).mp hp) h).1
    · obtain ⟨htidy, hiff⟩ := alive_step hs ((staysConnected_iff hs).mp hp) h
      exact (staysConnected_iff htidy).trans hiff
  · intro hguard
    refine eachStep_guarded (I := fun s => Tidy s ∧ Alive s ∧ NoneNormal s)
      (fun s l s' hs hG h => ?_) (fun s l s' hs _ h => not_endsNormally hs.1 hs.2.2 h)
      ⟨tidy_initial, (staysConnected_iff tidy_initial).mp hinitial, fun c hc => ?_⟩ hguard hrun
    · obtain ⟨htidy, halive, hnone⟩ := hs
      obtain ⟨htidy', hiff⟩ := alive_step htidy halive h
      exact ⟨htidy', hiff.mpr (not_endsNormally htidy hnone h), noneNormal_step hnone hG h⟩
    · cases hc

/-- The page connects while the chat service cannot be reached: the socket to it fails and
closes without having opened, and the browser's socket is closed with 1011. -/
def serviceFails : List ClientLabel :=
  [.mount "20000000-0000-0000-0000-000000000001", .upgrade 0, .onopen 0, .proxy 0 .backendError,
    .proxy 0 (.backendClose 1006), .closing 0, .close 0 1011, .timer]

/-- A connection that is refused so does not end with 1000, and the hook connects again. -/
theorem staysConnected_serviceFails :
    (Throughout Client.step StaysConnected Client.initial serviceFails ↔
      EachStep Client.step (fun s l => ¬EndsNormally s l) Client.initial serviceFails) ∧
    (EachStep Client.step (fun s l => ¬PassesCloseOn s l) Client.initial serviceFails →
      EachStep Client.step (fun s l => ¬EndsNormally s l) Client.initial serviceFails) := by
  have hrun : (run Client.step Client.initial serviceFails).isSome = true := by decide
  obtain ⟨s, hs⟩ := Option.isSome_iff_exists.mp hrun
  exact staysConnected_throughout_iff hs

/-- The chat service restarts and closes its connections with 1001: the mounted hook is
left without a socket and without a timer. -/
theorem staysConnected_not_invariant : ¬∀ (ls : List ClientLabel) (s : Client),
    run Client.step Client.initial ls = some s → StaysConnected s := by
  intro h
  have hstays := h [.mount "20000000-0000-0000-0000-000000000001", .upgrade 0,
      .proxy 0 .backendOpen, .onopen 0, .proxy 0 .backendClosing, .proxy 0 (.backendClose 1001),
      .closing 0, .close 0 1000]
    ⟨some "20000000-0000-0000-0000-000000000001", 1, true, none, false,
      [⟨.closed, true, 1, some ⟨.closing, .closed, true, [], [], [], [], some ⟨1000, ""⟩, none⟩⟩]⟩
    (by decide)
  have hpending : ¬Client.Pending ⟨some "20000000-0000-0000-0000-000000000001", 1, true, none,
      false, [⟨.closed, true, 1, some ⟨.closing, .closed, true, [], [], [], [],
        some ⟨1000, ""⟩, none⟩⟩]⟩ := by
    intro hpending
    obtain ⟨k, c, hk, -⟩ := hpending
    cases hk
  obtain ⟨k, c, hk, -⟩ | htimer := hstays ⟨_, rfl, by decide⟩ hpending
  · cases hk
  · cases htimer

end AuraWellness.Frontend.Reconnecting
