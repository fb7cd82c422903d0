import AuraWellness.Frontend.Server

/-!
# The sockets and timers of the chat page

Every run of the effect of `useChatWebSocket` has variables of its own, which its
sockets' handlers, its timers and its cleanup share, and all runs share one ref. A run
keeps at most one socket that is connecting or open, or one pending timer; its cleanup
gives both up before the next run begins.
-/

namespace AuraWellness.Frontend.Sockets

open AuraWellness.Lib.Transition AuraWellness.Frontend.Server

/-- A `WebSocket` that a `connect` has created. -/
structure Socket where
  /-- The `buId` of its path. -/
  buId : String
  /-- The run of the effect whose variables its handlers use. -/
  effect : ℕ
  /-- `readyState`. -/
  readyState : ReadyState
  /-- `onclose` is set. -/
  onclose : Bool
  /-- Its `close` event has been fired. -/
  closeFired : Bool
  deriving DecidableEq, Repr

/-- The variables of one run of the effect. -/
structure Effect where
  /-- The `buId` it runs for. -/
  buId : String
  /-- `reconnectTimer`: the id of a timer, pending or not. -/
  reconnectTimer : Option ℕ
  /-- `intentionalClose`. -/
  intentionalClose : Bool
  deriving DecidableEq, Repr

/-- A pending timer: it calls the `connect` of this run. -/
structure Timer where
  id : ℕ
  effect : ℕ
  deriving DecidableEq, Repr

/-- The component with its hook, and the tab's sockets and timers. -/
structure Hook where
  /-- The `buId` of the mounted component. -/
  buId : Option String
  /-- The runs of the effect so far that have connected. -/
  effects : List Effect
  /-- The run whose cleanup is to be called. -/
  cleanup : Option ℕ
  /-- `wsRef.current`. -/
  wsRef : Option ℕ
  /-- All sockets that have been created. -/
  sockets : List Socket
  /-- The pending timers. -/
  timers : List Timer
  /-- The id of the next timer. -/
  nextTimer : ℕ
  deriving DecidableEq, Repr

/-- A tab in which the component has not been mounted. -/
def Hook.initial : Hook := ⟨none, [], none, none, [], [], 1⟩

/-- `connect` of a run for this `buId`. -/
def Hook.connect (s : Hook) (effect : ℕ) (buId : String) : Hook :=
  { s with
    wsRef := some s.sockets.length
    sockets := s.sockets ++ [⟨buId, effect, .connecting, true, false⟩] }

/-- `if (reconnectTimer) clearTimeout(reconnectTimer)`. -/
def Hook.clearTimeout (s : Hook) (reconnectTimer : Option ℕ) : Hook :=
  { s with timers := s.timers.filter fun timer => some timer.id ≠ reconnectTimer }

/-- `ws.onopen` of a socket of a run. -/
def Hook.onopen (s : Hook) (effect : ℕ) : Hook :=
  { s.clearTimeout (s.effects[effect]?.bind Effect.reconnectTimer) with
    effects := s.effects.modify effect fun e => { e with reconnectTimer := none } }

/-- `ws.onclose` of a socket of a run, with the code of the event. -/
def Hook.onclose (s : Hook) (effect code : ℕ) : Hook :=
  if (s.effects[effect]?.map Effect.intentionalClose) = some false ∧ code ≠ 1000 then
    { s with
      wsRef := none
      effects := s.effects.modify effect fun e => { e with reconnectTimer := some s.nextTimer }
      timers := s.timers ++ [⟨s.nextTimer, effect⟩]
      nextTimer := s.nextTimer + 1 }
  else { s with wsRef := none }

/-- The effect, run for this `buId`. -/
def Hook.effect (s : Hook) (buId : String) : Hook :=
  if buId = "" then { s with buId := some buId, cleanup := none }
  else ({ s with
    buId := some buId
    effects := s.effects ++ [⟨buId, none, false⟩]
    cleanup := some s.effects.length } : Hook).connect s.effects.length buId

/-- `ws.onclose = null` and `ws.close(1000, 'Component unmounted')`. -/
def Socket.unmounted (ws : Socket) : Socket :=
  { ws with onclose := false, readyState := ws.readyState.afterClose }

/-- What the cleanup of a run does to the current socket. -/
def Hook.closeCurrent (s : Hook) : Hook :=
  match s.wsRef with
  | some k => { s with wsRef := none, sockets := s.sockets.modify k Socket.unmounted }
  | none => s

/-- The cleanup of a run. -/
def Hook.cleanupOf (s : Hook) (effect : ℕ) : Hook :=
  (({ s with effects := s.effects.modify effect fun e => { e with intentionalClose := true } } :
    Hook).clearTimeout (s.effects[effect]?.bind Effect.reconnectTimer)).closeCurrent

/-- React calls the cleanup that the last run has returned. -/
def Hook.runCleanup (s : Hook) : Hook :=
  match s.cleanup with
  | some effect => s.cleanupOf effect
  | none => s

/-- What happens next in the tab or in the network. -/
inductive HookLabel
  /-- The component is mounted. -/
  | mount (buId : String)
  /-- The component gets another `buId`. -/
  | rebind (buId : String)
  /-- The component is unmounted. -/
  | unmount
  /-- The first pending timer with this id fires. -/
  | fire (id : ℕ)
  /-- The `open` event of a socket. -/
  | opened (k : ℕ)
  /-- A `message` event of a socket. -/
  | message (k : ℕ)
  /-- The other side begins to close a socket. -/
  | closing (k : ℕ)
  /-- The connection of a socket is gone; its events are still to come. -/
  | lost (k : ℕ)
  /-- The `error` event of a socket. -/
  | error (k : ℕ)
  /-- The `close` event of a socket, with this code. -/
  | close (k code : ℕ)
  deriving DecidableEq, Repr

/-- The state with another socket at a place. -/
def Hook.setSocket (s : Hook) (k : ℕ) (ws : Socket) : Hook :=
  { s with sockets := s.sockets.set k ws }

/-- One step. -/
def Hook.step (s : Hook) : HookLabel → Option Hook
  | .mount buId => if s.buId = none then some (s.effect buId) else none
  | .rebind buId =>
    if s.buId ≠ none ∧ s.buId ≠ some buId then some (s.runCleanup.effect buId) else none
  | .unmount =>
    if s.buId ≠ none then some { s.runCleanup with buId := none, cleanup := none } else none
  | .fire id =>
    match s.timers.find? fun timer => timer.id = id with
    | some timer =>
      match s.effects[timer.effect]? with
      | some e =>
        some (({ s with timers := s.timers.erase timer } : Hook).connect timer.effect e.buId)
      | none => none
    | none => none
  | .opened k =>
    match s.sockets[k]? with
    | some ws =>
      if ws.readyState = .connecting then
        some ((s.setSocket k { ws with readyState := .opened }).onopen ws.effect)
      else none
    | none => none
  | .message k =>
    match s.sockets[k]? with
    | some ws => if ws.readyState = .opened ∨ ws.readyState = .closing then some s else none
    | none => none
  | .closing k =>
    match s.sockets[k]? with
    | some ws =>
      if ws.readyState = .connecting ∨ ws.readyState = .opened then
        some (s.setSocket k { ws with readyState := .closing })
      else none
    | none => none
  | .lost k =>
    match s.sockets[k]? with
    | some ws => some (s.setSocket k { ws with readyState := .closed })
    | none => none
  | .error k =>
    match s.sockets[k]? with
    | some ws =>
      if ws.closeFired = false then
        some (s.setSocket k { ws with readyState := ws.readyState.afterClose })
      else none
    | none => none
  | .close k code =>
    match s.sockets[k]? with
    | some ws =>
      if ws.closeFired = false then
        let closed := s.setSocket k { ws with readyState := .closed, closeFired := true }
        some (if ws.onclose = true then closed.onclose ws.effect code else closed)
      else none
    | none => none

/-- What a step has done, with what enabled it. -/
inductive Hook.Stepped (s : Hook) : HookLabel → Hook → Prop
  | mount (buId : String) (h : s.buId = none) : Stepped s (.mount buId) (s.effect buId)
  | rebind (buId : String) (h : s.buId ≠ some buId) :
    Stepped s (.rebind buId) (s.runCleanup.effect buId)
  | unmount : Stepped s .unmount { s.runCleanup with buId := none, cleanup := none }
  | fire (id : ℕ) (timer : Timer) (e : Effect) (h : timer ∈ s.timers)
      (he : s.effects[timer.effect]? = some e) :
    Stepped s (.fire id)
      (({ s with timers := s.timers.erase timer } : Hook).connect timer.effect e.buId)
  | opened (k : ℕ) (ws : Socket) (hws : s.sockets[k]? = some ws) (h : ws.readyState = .connecting) :
    Stepped s (.opened k) ((s.setSocket k { ws with readyState := .opened }).onopen ws.effect)
  | message (k : ℕ) : Stepped s (.message k) s
  /-- A socket goes on towards its end. -/
  | sinks (l : HookLabel) (k : ℕ) (ws : Socket) (readyState : ReadyState)
      (hws : s.sockets[k]? = some ws) (h : readyState = .closing ∨ readyState = .closed)
      (hl : ∀ buId, l ≠ .mount buId ∧ l ≠ .rebind buId) :
    Stepped s l (s.setSocket k { ws with readyState })
  /-- The cleanup has removed the handler before. -/
  | closeUnheard (k code : ℕ) (ws : Socket) (hws : s.sockets[k]? = some ws)
      (h : ws.onclose = false) :
    Stepped s (.close k code) (s.setSocket k { ws with readyState := .closed, closeFired := true })
  | close (k code : ℕ) (ws : Socket) (hws : s.sockets[k]? = some ws) (h : ws.onclose = true)
      (hfired : ws.closeFired = false) :
    Stepped s (.close k code)
      ((s.setSocket k { ws with readyState := .closed, closeFired := true }).onclose ws.effect code)

/-- A socket that is asked to close is not connecting or open any more. -/
theorem afterClose_sinks (readyState : ReadyState) :
    readyState.afterClose = .closing ∨ readyState.afterClose = .closed := by
  cases readyState <;> simp [ReadyState.afterClose]

/-- All that an event of a socket can do. -/
theorem Hook.stepped_socket {s s' : Hook} {l : HookLabel} {k : ℕ}
    (hl : l = .opened k ∨ l = .message k ∨ l = .closing k ∨ l = .lost k ∨ l = .error k ∨
      ∃ code, l = .close k code) (h : s.step l = some s') : s.Stepped l s' := by
  unfold Hook.step at h
  obtain rfl | rfl | rfl | rfl | rfl | ⟨code, rfl⟩ := hl <;> dsimp only at h <;> split at h
  all_goals first | contradiction | rename_i ws hws
  · obtain ⟨hconnecting, ⟨⟩⟩ := Option.ite_none_right_eq_some.mp h
    exact .opened k ws hws hconnecting
  · obtain ⟨-, ⟨⟩⟩ := Option.ite_none_right_eq_some.mp h
    exact .message k
  · obtain ⟨-, ⟨⟩⟩ := Option.ite_none_right_eq_some.mp h
    exact .sinks _ k ws .closing hws (.inl rfl) (by simp)
  · cases h
    exact .sinks _ k ws .closed hws (.inr rfl) (by simp)
  · obtain ⟨-, ⟨⟩⟩ := Option.ite_none_right_eq_some.mp h
    exact .sinks _ k ws _ hws (afterClose_sinks ws.readyState) (by simp)
  · obtain ⟨hfired, hs'⟩ := Option.ite_none_right_eq_some.mp h
    by_cases honclose : ws.onclose = true
    · rw [if_pos honclose] at hs'
      cases hs'
      exact .close k code ws hws honclose hfired
    · rw [if_neg honclose] at hs'
      cases hs'
      exact .closeUnheard k code ws hws (Bool.eq_false_iff.mpr honclose)

/-- All that a step can do. -/
theorem Hook.stepped {s s' : Hook} {l : HookLabel} (h : s.step l = some s') : s.Stepped l s' := by
  cases l with
  | mount buId =>
    obtain ⟨hnone, ⟨⟩⟩ := Option.ite_none_right_eq_some.mp h
    exact .mount buId hnone
  | rebind buId =>
    obtain ⟨hother, ⟨⟩⟩ := Option.ite_none_right_eq_some.mp h
    exact .rebind buId hother.2
  | unmount =>
    obtain ⟨-, ⟨⟩⟩ := Option.ite_none_right_eq_some.mp h
    exact .unmount
  | fire id =>
    unfold Hook.step at h
    dsimp only at h
    split at h
    · rename_i timer htimer
      split at h
      · rename_i e he
        cases h
        exact .fire id timer e (List.mem_of_find?_eq_some htimer) he
      · cases h
    · cases h
  | opened k => exact Hook.stepped_socket (k := k) (by simp) h
  | message k => exact Hook.stepped_socket (k := k) (by simp) h
  | closing k => exact Hook.stepped_socket (k := k) (by simp) h
  | lost k => exact Hook.stepped_socket (k := k) (by simp) h
  | error k => exact Hook.stepped_socket (k := k) (by simp) h
  | close k code => exact Hook.stepped_socket (k := k) (by simp) h

/-- The socket is connecting or open. -/
def Socket.Live (ws : Socket) : Prop := ws.readyState = .connecting ∨ ws.readyState = .opened

/-- The socket neither opens nor calls `onclose` any more. -/
def Socket.Spent (ws : Socket) : Prop := ¬ws.Live ∧ (ws.onclose = false ∨ ws.closeFired = true)

/-- Nothing of the earlier runs of the effect is left. -/
structure Quiet (s : Hook) : Prop where
  effects : ∀ (j : ℕ) (e : Effect), s.effects[j]? = some e → e.intentionalClose = true
  wsRef : s.wsRef = none
  sockets : ∀ (k : ℕ) (ws : Socket), s.sockets[k]? = some ws → ws.Spent
  timers : s.timers = []

/-- A run of the effect has the current socket, if there is one, or else its timer, if
there is one, and nothing of the earlier runs is left. -/
structure Active (s : Hook) (r : ℕ) (e : Effect) : Prop where
  cleanup : s.cleanup = some r
  effect : s.effects[r]? = some e
  unended : e.intentionalClose = false
  buId : s.buId = some e.buId
  others : ∀ (j : ℕ) (e' : Effect), s.effects[j]? = some e' → j ≠ r → e'.intentionalClose = true
  sockets : ∀ (k : ℕ) (ws : Socket), s.sockets[k]? = some ws → s.wsRef = some k ∨ ws.Spent
  /-- The current socket belongs to the run, and there is no timer beside it. -/
  current : ∀ k, s.wsRef = some k →
    (∀ ws, s.sockets[k]? = some ws → ws.effect = r) ∧ s.timers = []
  /-- A timer is the one that the run knows. -/
  timers : s.timers = [] ∨ ∃ id, s.timers = [⟨id, r⟩] ∧ e.reconnectTimer = some id

/-- What the hook owns between two steps. -/
inductive Owned (s : Hook) : Prop
  | idle (hcleanup : s.cleanup = none) (h : Quiet s)
  | active (r : ℕ) (e : Effect) (h : Active s r e)

/-- A new socket becomes the current one. -/
theorem active_connect {s : Hook} {r : ℕ} {e : Effect} (hcleanup : s.cleanup = some r)
    (heffect : s.effects[r]? = some e) (hunended : e.intentionalClose = false)
    (hbuId : s.buId = some e.buId)
    (hothers : ∀ (j : ℕ) (e' : Effect), s.effects[j]? = some e' → j ≠ r →
      e'.intentionalClose = true)
    (hsockets : ∀ (k : ℕ) (ws : Socket), s.sockets[k]? = some ws → ws.Spent)
    (htimers : s.timers = []) : Active (s.connect r e.buId) r e where
  cleanup := hcleanup
  effect := heffect
  unended := hunended
  buId := hbuId
  others := hothers
  sockets k ws hws := by
    unfold Hook.connect at hws ⊢
    dsimp only at hws ⊢
    rw [List.getElem?_append] at hws
    split at hws
    · exact .inr (hsockets k ws hws)
    · rename_i hge
      have hlt := (List.getElem?_eq_some_iff.mp hws).1
      simp only [List.length_singleton] at hlt
      exact .inl (congrArg some (by omega))
  current k hk := by
    unfold Hook.connect at hk ⊢
    cases hk
    refine ⟨fun ws hws => ?_, htimers⟩
    rw [List.getElem?_concat_length] at hws
    cases hws
    rfl
  timers := .inl htimers

/-- The effect begins with nothing left of the runs before. -/
theorem Quiet.effect {s : Hook} (hs : Quiet s) (buId : String) : Owned (s.effect buId) := by
  unfold Hook.effect
  split
  · exact .idle rfl { hs with }
  · refine .active _ ⟨buId, none, false⟩
      (active_connect (e := ⟨buId, none, false⟩) rfl ?_ rfl rfl ?_ ?_ ?_)
    · exact List.getElem?_concat_length
    · intro j e' he' hne
      rw [List.getElem?_append] at he'
      split at he'
      · exact hs.effects j e' he'
      · have hlt := (List.getElem?_eq_some_iff.mp he').1
        simp only [List.length_singleton] at hlt
        omega
    · exact hs.sockets
    · exact hs.timers

/-- A socket that the cleanup has closed is spent. -/
theorem unmounted_spent (ws : Socket) : ws.unmounted.Spent := by
  refine ⟨fun hlive => ?_, .inl rfl⟩
  unfold Socket.Live Socket.unmounted at hlive
  cases h : ws.readyState <;> simp [ReadyState.afterClose, h] at hlive

/-- The cleanup of the running effect leaves nothing of it. -/
theorem Active.cleanupOf {s : Hook} {r : ℕ} {e : Effect} (hs : Active s r e) :
    Quiet (s.cleanupOf r) where
  effects j e' he' := by
    have hmodify : (s.effects.modify r fun e => { e with intentionalClose := true })[j]? =
        some e' := by
      unfold Hook.cleanupOf Hook.closeCurrent at he'
      split at he' <;> exact he'
    rw [List.getElem?_modify] at hmodify
    obtain ⟨e₀, he₀, rfl⟩ := Option.map_eq_some_iff.mp hmodify
    by_cases hj : r = j
    · rw [if_pos hj]
    · rw [if_neg hj]
      exact hs.others j e₀ he₀ (Ne.symm hj)
  wsRef := by
    unfold Hook.cleanupOf Hook.closeCurrent
    split
    · rfl
    · rename_i hnone
      exact hnone
  sockets k ws hws := by
    unfold Hook.cleanupOf Hook.closeCurrent at hws
    split at hws
    · rename_i current hcurrent
      change (s.sockets.modify current Socket.unmounted)[k]? = some ws at hws
      rw [List.getElem?_modify] at hws
      obtain ⟨ws₀, hws₀, rfl⟩ := Option.map_eq_some_iff.mp hws
      by_cases hk : current = k
      · rw [if_pos hk]
        exact unmounted_spent ws₀
      · rw [if_neg hk]
        refine (hs.sockets k ws₀ hws₀).resolve_left fun href => hk ?_
        exact Option.some.inj (Eq.trans (Eq.symm hcurrent) href)
    · rename_i hnone
      refine (hs.sockets k ws hws).resolve_left fun href => ?_
      cases Eq.trans (Eq.symm hnone) href
  timers := by
    have hclear : (s.cleanupOf r).timers =
        s.timers.filter fun timer => some timer.id ≠ e.reconnectTimer := by
      unfold Hook.cleanupOf Hook.closeCurrent
      split <;> simp [Hook.clearTimeout, hs.effect]
    rw [hclear]
    obtain hnone | ⟨id, hone, hknown⟩ := hs.timers
    · rw [hnone]
      rfl
    · rw [hone, hknown]
      simp

/-- The cleanup leaves nothing of any run. -/
theorem Owned.runCleanup {s : Hook} (hs : Owned s) : Quiet s.runCleanup := by
  unfold Hook.runCleanup
  cases hs with
  | idle hcleanup h =>
    rw [hcleanup]
    exact h
  | active r e h =>
    rw [h.cleanup]
    exact h.cleanupOf

/-- A socket that stays spent, if it was, changes nothing of what is left of the runs. -/
theorem Quiet.setSocket {s : Hook} (hs : Quiet s) {k : ℕ} {ws ws' : Socket}
    (hws : s.sockets[k]? = some ws) (hspent : ws.Spent → ws'.Spent) :
    Quiet (s.setSocket k ws') where
  effects := hs.effects
  wsRef := hs.wsRef
  sockets j wsj hwsj := by
    unfold Hook.setSocket at hwsj
    dsimp only at hwsj
    rw [List.getElem?_set] at hwsj
    split at hwsj
    · obtain ⟨-, ⟨⟩⟩ := Option.ite_none_right_eq_some.mp hwsj
      exact hspent (hs.sockets k ws hws)
    · exact hs.sockets j wsj hwsj
  timers := hs.timers

/-- A socket that stays spent, if it was, and in its run keeps the running effect's things. -/
theorem Active.setSocket {s : Hook} {r : ℕ} {e : Effect} (hs : Active s r e) {k : ℕ}
    {ws ws' : Socket} (hws : s.sockets[k]? = some ws) (hspent : ws.Spent → ws'.Spent)
    (heffect : ws'.effect = ws.effect) : Active (s.setSocket k ws') r e where
  cleanup := hs.cleanup
  effect := hs.effect
  unended := hs.unended
  buId := hs.buId
  others := hs.others
  sockets j wsj hwsj := by
    unfold Hook.setSocket at hwsj ⊢
    dsimp only at hwsj ⊢
    rw [List.getElem?_set] at hwsj
    split at hwsj
    · rename_i hkj
      obtain ⟨-, ⟨⟩⟩ := Option.ite_none_right_eq_some.mp hwsj
      rw [← hkj]
      exact (hs.sockets k ws hws).imp_right hspent
    · exact hs.sockets j wsj hwsj
  current j hj := by
    obtain ⟨hcurrent, htimers⟩ := hs.current j hj
    refine ⟨fun wsj hwsj => ?_, htimers⟩
    unfold Hook.setSocket at hwsj
    dsimp only at hwsj
    rw [List.getElem?_set] at hwsj
    split at hwsj
    · rename_i hkj
      obtain ⟨-, ⟨⟩⟩ := Option.ite_none_right_eq_some.mp hwsj
      rw [heffect]
      exact hcurrent ws (hkj ▸ hws)
    · exact hcurrent wsj hwsj
  timers := hs.timers

/-- A socket goes on towards its end. -/
theorem Owned.setSocket {s : Hook} (hs : Owned s) {k : ℕ} {ws ws' : Socket}
    (hws : s.sockets[k]? = some ws) (hspent : ws.Spent → ws'.Spent)
    (heffect : ws'.effect = ws.effect) : Owned (s.setSocket k ws') := by
  cases hs with
  | idle hcleanup h => exact .idle hcleanup (h.setSocket hws hspent)
  | active r e h => exact .active r e (h.setSocket hws hspent heffect)

/-- A socket that is connecting or open, or calls `onclose`, is the current one. -/
theorem Owned.current {s : Hook} (hs : Owned s) {k : ℕ} {ws : Socket}
    (hws : s.sockets[k]? = some ws) (hnot : ¬ws.Spent) :
    ∃ r e, Active s r e ∧ s.wsRef = some k ∧ ws.effect = r ∧ s.timers = [] := by
  cases hs with
  | idle hcleanup h => exact absurd (h.sockets k ws hws) hnot
  | active r e h =>
    have href := (h.sockets k ws hws).resolve_right hnot
    obtain ⟨heffect, htimers⟩ := h.current k href
    exact ⟨r, e, h, href, heffect ws hws, htimers⟩

/-- A change of the variables of one run leaves those of the others. -/
theorem getElem?_modify_other {effects : List Effect} {r j : ℕ} {f : Effect → Effect}
    {e' : Effect} (he' : (effects.modify r f)[j]? = some e') (hne : j ≠ r) :
    effects[j]? = some e' := by
  simpa [List.getElem?_modify, Ne.symm hne] using he'

/-- The `open` event of the current socket. -/
theorem Active.onopen {s : Hook} {r : ℕ} {e : Effect} (hs : Active s r e)
    (htimers : s.timers = []) : Active (s.onopen r) r { e with reconnectTimer := none } where
  cleanup := hs.cleanup
  effect := by simp [Hook.onopen, hs.effect]
  unended := hs.unended
  buId := hs.buId
  others j e' he' hne := hs.others j e' (getElem?_modify_other he' hne) hne
  sockets := hs.sockets
  current k hk := ⟨(hs.current k hk).1, by simp [Hook.onopen, Hook.clearTimeout, htimers]⟩
  timers := .inl (by simp [Hook.onopen, Hook.clearTimeout, htimers])

/-- The `close` event of the current socket: the run may start its timer. -/
theorem Active.onclose {s : Hook} {r k : ℕ} {e : Effect} (hs : Active s r e)
    (href : s.wsRef = some k) (htimers : s.timers = [])
    (hspent : ∀ ws, s.sockets[k]? = some ws → ws.Spent) (code : ℕ) :
    ∃ e', Active (s.onclose r code) r e' := by
  have hall : ∀ (j : ℕ) (ws : Socket), s.sockets[j]? = some ws → ws.Spent := by
    intro j ws hws
    obtain hj | h := hs.sockets j ws hws
    · cases Eq.trans (Eq.symm href) hj
      exact hspent ws hws
    · exact h
  unfold Hook.onclose
  split
  · refine ⟨{ e with reconnectTimer := some s.nextTimer }, ?_⟩
    exact {
      cleanup := hs.cleanup
      effect := by simp [hs.effect]
      unended := hs.unended
      buId := hs.buId
      others := fun j e' he' hne => hs.others j e' (getElem?_modify_other he' hne) hne
      sockets := fun j ws hws => .inr (hall j ws hws)
      current := fun j hj => by cases hj
      timers := .inr ⟨s.nextTimer, by simp [htimers], rfl⟩ }
  · exact ⟨e, { hs with
      sockets := fun j ws hws => .inr (hall j ws hws)
      current := fun j hj => by cases hj }⟩

/-- The timer that fires is the one of the running effect, which connects again. -/
theorem Active.fire {s : Hook} {r : ℕ} {e : Effect} (hs : Active s r e) {timer : Timer}
    (htimer : timer ∈ s.timers) : timer.effect = r ∧
      Active (({ s with timers := s.timers.erase timer } : Hook).connect r e.buId) r e := by
  obtain hnone | ⟨id, hone, hknown⟩ := hs.timers
  · rw [hnone] at htimer
    cases htimer
  · rw [hone, List.mem_singleton] at htimer
    subst htimer
    have href : s.wsRef = none := by
      cases href : s.wsRef with
      | none => rfl
      | some k =>
        have hnone := (hs.current k href).2
        rw [hone] at hnone
        cases hnone
    refine ⟨rfl, active_connect hs.cleanup hs.effect hs.unended hs.buId hs.others ?_ ?_⟩
    · intro k ws hws
      refine (hs.sockets k ws hws).resolve_left fun hk => ?_
      cases href.symm.trans hk
    · simp [hone]

/-- Every step keeps what the hook owns. -/
theorem owned_step {s s' : Hook} {l : HookLabel} (hs : Owned s) (h : s.step l = some s') :
    Owned s' := by
  cases Hook.stepped h with
  | mount buId hnone =>
    cases hs with
    | idle hcleanup hquiet => exact hquiet.effect buId
    | active r e hactive => cases Eq.trans (Eq.symm hnone) hactive.buId
  | rebind buId hother => exact hs.runCleanup.effect buId
  | unmount => exact .idle rfl { hs.runCleanup with }
  | fire id timer e htimer he =>
    cases hs with
    | idle hcleanup hquiet =>
      rw [hquiet.timers] at htimer
      cases htimer
    | active r e' hactive =>
      obtain ⟨rfl, hfired⟩ := hactive.fire htimer
      cases Eq.trans (Eq.symm he) hactive.effect
      exact .active _ e hfired
  | opened k ws hws hconnecting =>
    obtain ⟨r, e, hactive, href, rfl, htimers⟩ :=
      hs.current hws fun hspent => hspent.1 (.inl hconnecting)
    have hset : Active (s.setSocket k { ws with readyState := .opened }) ws.effect e :=
      hactive.setSocket hws (fun hspent => absurd (.inl hconnecting) hspent.1) rfl
    exact .active _ _ (hset.onopen htimers)
  | message k => exact hs
  | sinks l k ws readyState hws hsinks hl =>
    refine hs.setSocket hws (fun hspent => ⟨?_, hspent.2⟩) rfl
    unfold Socket.Live
    obtain rfl | rfl := hsinks <;> simp
  | closeUnheard k code ws hws hunheard =>
    exact hs.setSocket hws (fun _ => ⟨by simp [Socket.Live], .inr rfl⟩) rfl
  | close k code ws hws honclose hfired =>
    obtain ⟨r, e, hactive, href, rfl, htimers⟩ := hs.current hws fun hspent => by
      have hdeaf := hspent.2
      simp [honclose, hfired] at hdeaf
    have hspent : Socket.Spent { ws with readyState := .closed, closeFired := true } :=
      ⟨by simp [Socket.Live], .inr rfl⟩
    have hset : Active (s.setSocket k { ws with readyState := .closed, closeFired := true })
        ws.effect e :=
      hactive.setSocket hws (fun _ => hspent) rfl
    have hlt := (List.getElem?_eq_some_iff.mp hws).1
    obtain ⟨e', he'⟩ := hset.onclose href htimers (fun wsk hwsk => by
      rw [Hook.setSocket, List.getElem?_set_self hlt] at hwsk
      cases hwsk
      exact hspent) code
    exact .active _ e' he'

/-- A tab begins without sockets and timers. -/
theorem owned_initial : Owned Hook.initial :=
  .idle rfl ⟨by simp [Hook.initial], rfl, by simp [Hook.initial], rfl⟩

/-- The socket at this place is connecting or open. -/
def Hook.LiveAt (s : Hook) (k : ℕ) : Prop := ∃ ws, s.sockets[k]? = some ws ∧ ws.Live

/-- The hook has at most one socket that is connecting or open, or at most one timer. -/
structure OneSocket (s : Hook) : Prop where
  sockets : ∀ j k, s.LiveAt j → s.LiveAt k → j = k
  timers : s.timers.length ≤ 1
  either : ∀ k, s.LiveAt k → s.timers = []

/-- What the hook owns is one socket or one timer. -/
theorem Owned.oneSocket {s : Hook} (hs : Owned s) : OneSocket s where
  sockets j k hj hk := by
    obtain ⟨wsj, hwsj, hlivej⟩ := hj
    obtain ⟨wsk, hwsk, hlivek⟩ := hk
    obtain ⟨-, -, -, hrefj, -⟩ := hs.current hwsj fun hspent => hspent.1 hlivej
    obtain ⟨-, -, -, hrefk, -⟩ := hs.current hwsk fun hspent => hspent.1 hlivek
    exact Option.some.inj (hrefj.symm.trans hrefk)
  timers := by
    cases hs with
    | idle hcleanup hquiet => simp [hquiet.timers]
    | active r e hactive =>
      obtain hnone | ⟨id, hone, -⟩ := hactive.timers
      · simp [hnone]
      · simp [hone]
  either k hk := by
    obtain ⟨ws, hws, hlive⟩ := hk
    obtain ⟨-, -, -, -, -, htimers⟩ := hs.current hws fun hspent => hspent.1 hlive
    exact htimers

/-- The socket has been there before, or the running effect has just created it for the
`buId` of the component. -/
def Kept (s s' : Hook) (k : ℕ) (ws' : Socket) : Prop :=
  (∃ ws, s.sockets[k]? = some ws ∧ ws'.buId = ws.buId ∧ ws'.effect = ws.effect) ∨
    (s'.buId = some ws'.buId ∧ s'.cleanup = some ws'.effect)

/-- `connect` creates one socket. -/
theorem kept_connect {s t : Hook} {effect : ℕ} {buId : String}
    (hsockets : t.sockets = s.sockets) (hbuId : t.buId = some buId)
    (hcleanup : t.cleanup = some effect) {k : ℕ} {ws' : Socket}
    (hws' : (t.connect effect buId).sockets[k]? = some ws') :
    Kept s (t.connect effect buId) k ws' := by
  unfold Hook.connect at hws'
  dsimp only at hws'
  rw [hsockets, List.getElem?_append] at hws'
  split at hws'
  · exact .inl ⟨ws', hws', rfl, rfl⟩
  · have hnew := List.mem_singleton.mp (List.mem_of_getElem? hws')
    rw [hnew]
    exact .inr ⟨hbuId, hcleanup⟩

/-- A change at a socket that keeps its path and its run. -/
theorem kept_set {s t : Hook} {k j : ℕ} {ws ws' wsj : Socket} (hws : s.sockets[k]? = some ws)
    (hwsj : (s.sockets.set k ws')[j]? = some wsj) (hbuId : ws'.buId = ws.buId)
    (heffect : ws'.effect = ws.effect) : Kept s t j wsj := by
  rw [List.getElem?_set] at hwsj
  split at hwsj
  · rename_i hkj
    obtain ⟨-, ⟨⟩⟩ := Option.ite_none_right_eq_some.mp hwsj
    exact .inl ⟨ws, hkj ▸ hws, hbuId, heffect⟩
  · exact .inl ⟨wsj, hwsj, rfl, rfl⟩

/-- The cleanup creates no socket. -/
theorem runCleanup_sockets {s : Hook} {k : ℕ} {ws' : Socket}
    (hws' : s.runCleanup.sockets[k]? = some ws') :
    ∃ ws, s.sockets[k]? = some ws ∧ ws'.buId = ws.buId ∧ ws'.effect = ws.effect := by
  unfold Hook.runCleanup at hws'
  split at hws'
  · unfold Hook.cleanupOf Hook.closeCurrent at hws'
    split at hws'
    · rename_i current hcurrent
      change (s.sockets.modify current Socket.unmounted)[k]? = some ws' at hws'
      rw [List.getElem?_modify] at hws'
      obtain ⟨ws, hws, rfl⟩ := Option.map_eq_some_iff.mp hws'
      refine ⟨ws, hws, ?_⟩
      split <;> exact ⟨rfl, rfl⟩
    · exact ⟨ws', hws', rfl, rfl⟩
  · exact ⟨ws', hws', rfl, rfl⟩

/-- The effect creates at most one socket. -/
theorem kept_effect {s : Hook} {buId : String} {k : ℕ} {ws' : Socket}
    (hws' : (s.effect buId).sockets[k]? = some ws') : Kept s (s.effect buId) k ws' := by
  unfold Hook.effect at hws' ⊢
  by_cases hempty : buId = ""
  · rw [if_pos hempty] at hws' ⊢
    exact .inl ⟨ws', hws', rfl, rfl⟩
  · rw [if_neg hempty] at hws' ⊢
    exact kept_connect rfl rfl rfl hws'

/-- The handlers create no socket. -/
theorem onclose_sockets (s : Hook) (effect code : ℕ) :
    (s.onclose effect code).sockets = s.sockets := by
  unfold Hook.onclose
  split <;> rfl

/-- A step creates sockets only for the `buId` of the component and by its running effect. -/
theorem kept_step {s s' : Hook} {l : HookLabel} (hs : Owned s) (h : s.step l = some s') {k : ℕ}
    {ws' : Socket} (hws' : s'.sockets[k]? = some ws') : Kept s s' k ws' := by
  cases Hook.stepped h with
  | mount buId hnone => exact kept_effect hws'
  | rebind buId hother =>
    obtain ⟨ws, hws, hbuId, heffect⟩ | hnew := kept_effect hws'
    · obtain ⟨ws₀, hws₀, hbuId₀, heffect₀⟩ := runCleanup_sockets hws
      exact .inl ⟨ws₀, hws₀, hbuId.trans hbuId₀, heffect.trans heffect₀⟩
    · exact .inr hnew
  | unmount => exact .inl (runCleanup_sockets hws')
  | fire id timer e htimer he =>
    cases hs with
    | idle hcleanup hquiet =>
      rw [hquiet.timers] at htimer
      cases htimer
    | active r e' hactive =>
      obtain ⟨rfl, -⟩ := hactive.fire htimer
      cases Eq.trans (Eq.symm he) hactive.effect
      exact kept_connect rfl hactive.buId hactive.cleanup hws'
  | opened k ws hws hconnecting => exact kept_set hws hws' rfl rfl
  | message k => exact .inl ⟨ws', hws', rfl, rfl⟩
  | sinks l k ws readyState hws hsinks hl => exact kept_set hws hws' rfl rfl
  | closeUnheard k code ws hws hunheard => exact kept_set hws hws' rfl rfl
  | close k code ws hws honclose hfired =>
    rw [onclose_sockets] at hws'
    exact kept_set hws hws' rfl rfl

/-- The cleanup begins no run. -/
theorem runCleanup_effects (s : Hook) :
    s.runCleanup.effects.length = s.effects.length ∧ s.runCleanup.cleanup = s.cleanup := by
  unfold Hook.runCleanup
  split
  · unfold Hook.cleanupOf Hook.closeCurrent
    split <;> exact ⟨List.length_modify .., by simp_all [Hook.clearTimeout]⟩
  · exact ⟨rfl, rfl⟩

/-- The run of the effect goes on from before, or it is a new one. -/
def Continues (s s' : Hook) : Prop :=
  s.effects.length ≤ s'.effects.length ∧
    ∀ r, s'.cleanup = some r → s.cleanup = some r ∨ s.effects.length ≤ r

/-- The effect begins at most one run. -/
theorem continues_effect (s : Hook) (buId : String) : Continues s (s.effect buId) ∧
    ∀ r, (s.effect buId).cleanup = some r → s.effects.length ≤ r := by
  unfold Hook.effect
  split
  · exact ⟨⟨Nat.le_refl _, fun r hr => by cases hr⟩, fun r hr => by cases hr⟩
  · have hlast : ∀ r, some s.effects.length = some r → s.effects.length ≤ r := by
      rintro r ⟨⟩
      exact Nat.le_refl _
    exact ⟨⟨by simp [Hook.connect], fun r hr => .inr (hlast r hr)⟩, hlast⟩

/-- Only a mount or another `buId` begins a run of the effect. -/
theorem continues_step {s s' : Hook} {l : HookLabel} (h : s.step l = some s') :
    Continues s s' := by
  cases Hook.stepped h with
  | mount buId hnone => exact (continues_effect s buId).1
  | rebind buId hother =>
    have hcontinues := (continues_effect s.runCleanup buId).1
    unfold Continues at hcontinues ⊢
    rw [(runCleanup_effects s).1, (runCleanup_effects s).2] at hcontinues
    exact hcontinues
  | unmount => exact ⟨Nat.le_of_eq (runCleanup_effects s).1.symm, fun r hr => by cases hr⟩
  | fire id timer e htimer he => exact ⟨Nat.le_refl _, fun r hr => .inl hr⟩
  | opened k ws hws hconnecting =>
    exact ⟨Nat.le_of_eq (List.length_modify ..).symm, fun r hr => .inl hr⟩
  | message k => exact ⟨Nat.le_refl _, fun r hr => .inl hr⟩
  | sinks l k ws readyState hws hsinks hl => exact ⟨Nat.le_refl _, fun r hr => .inl hr⟩
  | closeUnheard k code ws hws hunheard => exact ⟨Nat.le_refl _, fun r hr => .inl hr⟩
  | close k code ws hws honclose hfired =>
    unfold Hook.onclose
    split
    · exact ⟨Nat.le_of_eq (List.length_modify ..).symm, fun r hr => .inl hr⟩
    · exact ⟨Nat.le_refl _, fun r hr => .inl hr⟩

/-- The effect runs for the `buId` of the component. -/
theorem effect_buId (s : Hook) (buId : String) : (s.effect buId).buId = some buId := by
  unfold Hook.effect
  split <;> rfl

/-- The component gets a `buId` only from a mount or a change. -/
theorem buId_step {s s' : Hook} {l : HookLabel} (h : s.step l = some s') {buId : String}
    (hbuId : s'.buId = some buId) : s.buId = some buId ∨ l = .mount buId ∨ l = .rebind buId := by
  cases Hook.stepped h with
  | mount b hnone =>
    cases (effect_buId s b).symm.trans hbuId
    exact .inr (.inl rfl)
  | rebind b hother =>
    cases (effect_buId _ b).symm.trans hbuId
    exact .inr (.inr rfl)
  | unmount => cases hbuId
  | fire id timer e htimer he => exact .inl hbuId
  | opened k ws hws hconnecting => exact .inl hbuId
  | message k => exact .inl hbuId
  | sinks l k ws readyState hws hsinks hl => exact .inl hbuId
  | closeUnheard k code ws hws hunheard => exact .inl hbuId
  | close k code ws hws honclose hfired =>
    unfold Hook.onclose at hbuId
    split at hbuId <;> exact .inl hbuId

/-- These first runs of the effect are over, and none of them has created a socket from
this place on. -/
structure Over (runs sockets : ℕ) (s : Hook) : Prop where
  owned : Owned s
  running : ∀ r, s.cleanup = some r → runs ≤ r
  begun : runs ≤ s.effects.length
  sockets : ∀ (k : ℕ) (ws : Socket), sockets ≤ k → s.sockets[k]? = some ws → runs ≤ ws.effect

/-- A run that is over stays so. -/
theorem over_step {runs sockets : ℕ} {s s' : Hook} {l : HookLabel} (hs : Over runs sockets s)
    (h : s.step l = some s') : Over runs sockets s' := by
  obtain ⟨hlength, hcontinues⟩ := continues_step h
  have hrunning : ∀ r, s'.cleanup = some r → runs ≤ r := fun r hr =>
    (hcontinues r hr).elim (hs.running r) (Nat.le_trans hs.begun)
  refine ⟨owned_step hs.owned h, hrunning, Nat.le_trans hs.begun hlength, fun k ws hk hws => ?_⟩
  obtain ⟨ws₀, hws₀, -, heffect⟩ | ⟨-, hnew⟩ := kept_step hs.owned h hws
  · rw [heffect]
    exact hs.sockets k ws₀ hk hws₀
  · exact hrunning _ hnew

/-- The component is not mounted for this `buId`, and no socket from this place on is for it. -/
structure Elsewhere (buId : String) (sockets : ℕ) (s : Hook) : Prop where
  owned : Owned s
  elsewhere : s.buId ≠ some buId
  sockets : ∀ (k : ℕ) (ws : Socket), sockets ≤ k → s.sockets[k]? = some ws → ws.buId ≠ buId

/-- Unless the component gets this `buId`, no socket is created for it. -/
theorem elsewhere_step {buId : String} {sockets : ℕ} {s s' : Hook} {l : HookLabel}
    (hs : Elsewhere buId sockets s) (hl : ¬(l = .mount buId ∨ l = .rebind buId))
    (h : s.step l = some s') : Elsewhere buId sockets s' := by
  have helsewhere : s'.buId ≠ some buId := fun hbuId =>
    (buId_step h hbuId).elim hs.elsewhere hl
  refine ⟨owned_step hs.owned h, helsewhere, fun k ws hk hws => ?_⟩
  obtain ⟨ws₀, hws₀, hbuId, -⟩ | ⟨hnew, -⟩ := kept_step hs.owned h hws
  · rw [hbuId]
    exact hs.sockets k ws₀ hk hws₀
  · intro he
    exact helsewhere (he ▸ hnew)

/-- After an unmount or a change of the `buId` all runs so far are over. -/
theorem over_leaving {s s' : Hook} {l : HookLabel} (hs : Owned s)
    (hl : l = .unmount ∨ ∃ buId, l = .rebind buId) (h : s.step l = some s') :
    Over s.effects.length s.sockets.length s' := by
  have hrunning : ∀ r, s'.cleanup = some r → s.effects.length ≤ r := by
    obtain rfl | ⟨buId, rfl⟩ := hl
    · obtain ⟨-, ⟨⟩⟩ := Option.ite_none_right_eq_some.mp h
      intro r hr
      cases hr
    · obtain ⟨-, ⟨⟩⟩ := Option.ite_none_right_eq_some.mp h
      intro r hr
      rw [← (runCleanup_effects s).1]
      exact (continues_effect s.runCleanup buId).2 r hr
  refine ⟨owned_step hs h, hrunning, (continues_step h).1, fun k ws hk hws => ?_⟩
  obtain ⟨ws₀, hws₀, -⟩ | ⟨-, hnew⟩ := kept_step hs h hws
  · exact absurd (List.getElem?_eq_some_iff.mp hws₀).1 (by omega)
  · exact hrunning _ hnew

/-- After an unmount or a change of the `buId` the component is elsewhere. -/
theorem elsewhere_leaving {s s' : Hook} {l : HookLabel} (hs : Owned s) {buId : String}
    (hl : l = .unmount ∨ ∃ buId, l = .rebind buId) (hold : s.buId = some buId)
    (h : s.step l = some s') : Elsewhere buId s.sockets.length s' := by
  have helsewhere : s'.buId ≠ some buId := by
    obtain rfl | ⟨other, rfl⟩ := hl
    · obtain ⟨-, ⟨⟩⟩ := Option.ite_none_right_eq_some.mp h
      simp
    · obtain ⟨⟨-, hother⟩, ⟨⟩⟩ := Option.ite_none_right_eq_some.mp h
      rw [effect_buId, ← hold]
      exact hother.symm
  refine ⟨owned_step hs h, helsewhere, fun k ws hk hws => ?_⟩
  obtain ⟨ws₀, hws₀, -⟩ | ⟨hnew, -⟩ := kept_step hs h hws
  · exact absurd (List.getElem?_eq_some_iff.mp hws₀).1 (by omega)
  · intro he
    exact helsewhere (he ▸ hnew)

/-- In every reachable state the hook has at most one socket that is connecting or open,
at most one pending timer, and never both. When the component is unmounted or gets another
`buId`, no socket is created from then on by a run of the effect from before, nor one for
the old `buId` unless the component gets this `buId` again. -/
theorem hook_owns_one_socket {ls : List HookLabel} {s : Hook}
    (hr : run Hook.step Hook.initial ls = some s) :
    OneSocket s ∧
      ∀ l ls' s', (l = .unmount ∨ ∃ buId, l = .rebind buId) → run Hook.step s (l :: ls') = some s' →
        ∀ k ws, s.sockets.length ≤ k → s'.sockets[k]? = some ws →
          s.effects.length ≤ ws.effect ∧
            (s.buId = some ws.buId → .mount ws.buId ∈ ls' ∨ .rebind ws.buId ∈ ls') := by
  have howned : Owned s := run_invariant (fun _ _ _ => owned_step) owned_initial hr
  refine ⟨howned.oneSocket, fun l ls' s' hl hr' k ws hk hws => ?_⟩
  obtain ⟨m, hm, hrest⟩ := run_cons.mp hr'
  constructor
  · exact (run_invariant (fun _ _ _ => over_step) (over_leaving howned hl hm) hrest).sockets k ws hk
      hws
  · intro hold
    by_contra hnever
    have hlabels : ∀ l ∈ ls', ¬(l = .mount ws.buId ∨ l = .rebind ws.buId) := by
      rintro l hl (rfl | rfl)
      · exact hnever (.inl hl)
      · exact hnever (.inr hl)
    have helsewhere := run_guarded (fun _ _ _ hs hl h => elsewhere_step hs hl h)
      (elsewhere_leaving howned hl hold hm) (eachStep_of_labels hlabels m) hrest
    exact helsewhere.sockets k ws hk hws rfl

/-- A socket is closed by the other side, and the timer connects again. -/
def reconnects : List HookLabel :=
  [.mount "a", .opened 0, .closing 0, .error 0, .close 0 1006, .fire 1]

/-- The hook with the second socket. -/
def reconnected : Hook :=
  ⟨some "a", [⟨"a", some 1, false⟩], some 0, some 1,
    [⟨"a", 0, .closed, true, true⟩, ⟨"a", 0, .connecting, true, false⟩], [], 2⟩

/-- The hook after a change to another business unit while that socket is connecting. -/
def rebound : Hook :=
  ⟨some "b", [⟨"a", some 1, true⟩, ⟨"b", none, false⟩], some 1, some 2,
    [⟨"a", 0, .closed, true, true⟩, ⟨"a", 0, .closed, false, true⟩, ⟨"b", 1, .opened, true, false⟩],
    [], 2⟩

theorem hook_owns_one_socket_rebind : OneSocket reconnected ∧
    ∃ ws, rebound.sockets[2]? = some ws ∧ reconnected.effects.length ≤ ws.effect := by
  have hrun : run Hook.step Hook.initial reconnects = some reconnected := by decide
  obtain ⟨hone, hlater⟩ := hook_owns_one_socket hrun
  refine ⟨hone, ⟨"b", 1, .opened, true, false⟩, by decide, ?_⟩
  exact (hlater (.rebind "b") [.close 1 1000, .opened 2] rebound (.inr ⟨"b", rfl⟩) (by decide) 2 _
    (by decide) (by decide)).1

end AuraWellness.Frontend.Sockets
