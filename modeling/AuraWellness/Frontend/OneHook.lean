import Mathlib.Data.List.Forall2
import AuraWellness.Frontend.NoGap
import AuraWellness.Frontend.Reconnecting
import AuraWellness.Frontend.Sockets

/-!
# One hook behind three views

The sockets and timers of `useChatWebSocket` are modelled in full by `Hook`. `Client`
follows each socket to the proxy and keeps one flag for the timers of all runs of the
effect, and `Page` keeps only whether there is a current socket and a timer, beside what
the page shows. Each of their runs goes through the states of a run of the hook.
-/

namespace AuraWellness.Frontend.OneHook

open AuraWellness.Lib.Transition
open AuraWellness.Frontend.Server AuraWellness.Frontend.Sockets
open AuraWellness.Frontend.Reconnecting (Connection Client ClientLabel)
open AuraWellness.Frontend.Browser (Page PageLabel)
open AuraWellness.Frontend.NoGap (fetchActive_fields)

/-- A timer of the hook is pending. -/
def Hook.waiting (s : Hook) : Bool := !s.timers.isEmpty

/-- A timer that is pending can fire, and is the one of the running effect. -/
theorem owned_fires {s : Hook} (h : Owned s) (hwaiting : Hook.waiting s = true) :
    ∃ r e id, s.cleanup = some r ∧
      s.step (.fire id) = some (({ s with timers := [] } : Hook).connect r (Effect.buId e)) := by
  unfold Hook.waiting at hwaiting
  cases h with
  | idle hcleanup hquiet =>
    rw [hquiet.timers] at hwaiting
    cases hwaiting
  | active r e hactive =>
    obtain hnone | ⟨id, hone, -⟩ := hactive.timers
    · rw [hnone] at hwaiting
      cases hwaiting
    · exact ⟨r, e, id, hactive.cleanup, by simp [Hook.step, hone, hactive.effect]⟩

/-- The connection is this socket. -/
structure SameSocket (c : Connection) (ws : Socket) : Prop where
  readyState : ws.readyState = c.readyState
  onclose : ws.onclose = c.onclose
  effect : ws.effect + 1 = c.effect
  closeFired : ws.closeFired = decide (c.readyState = .closed)

/-- The connections are the sockets, one by one. -/
abbrev SameSockets : List Connection → List Socket → Prop := List.Forall₂ SameSocket

theorem SameSockets.get {cs : List Connection} {wss : List Socket} (h : SameSockets cs wss) {k : ℕ}
    {c : Connection} (hc : cs[k]? = some c) : ∃ ws, wss[k]? = some ws ∧ SameSocket c ws := by
  induction h generalizing k with
  | nil => cases hc
  | cons hfirst hrest ih =>
    cases k with
    | zero =>
      cases hc
      exact ⟨_, rfl, hfirst⟩
    | succ k => exact ih hc

theorem SameSockets.set {cs : List Connection} {wss : List Socket} (h : SameSockets cs wss) (k : ℕ)
    {c : Connection} {ws : Socket} (hnew : SameSocket c ws) :
    SameSockets (cs.set k c) (wss.set k ws) := by
  induction h generalizing k with
  | nil => exact .nil
  | cons hfirst hrest ih =>
    cases k with
    | zero => exact .cons hnew hrest
    | succ k => exact .cons hfirst (ih k)

/-- A connection that shows the same of its socket as before. -/
theorem SameSockets.setLeft {cs : List Connection} {wss : List Socket} (h : SameSockets cs wss)
    {k : ℕ} {c c' : Connection} (hc : cs[k]? = some c) (hsame : ∀ ws, SameSocket c ws →
      SameSocket c' ws) : SameSockets (cs.set k c') wss := by
  obtain ⟨ws, hws, hold⟩ := h.get hc
  have hset := h.set k (hsame ws hold)
  obtain ⟨hlt, hget⟩ := List.getElem?_eq_some_iff.mp hws
  rwa [← hget, List.set_getElem_self] at hset

theorem SameSockets.modify {cs : List Connection} {wss : List Socket} (h : SameSockets cs wss)
    (k : ℕ) {f : Connection → Connection} {g : Socket → Socket}
    (hfg : ∀ c ws, SameSocket c ws → SameSocket (f c) (g ws)) :
    SameSockets (cs.modify k f) (wss.modify k g) := by
  induction h generalizing k with
  | nil => cases k <;> exact .nil
  | cons hfirst hrest ih =>
    cases k with
    | zero => exact .cons (hfg _ _ hfirst) hrest
    | succ k => exact .cons hfirst (ih k)

/-- The cleanup does the same to both. -/
theorem SameSocket.unmounted {c : Connection} {ws : Socket} (h : SameSocket c ws) :
    SameSocket c.unmounted ws.unmounted where
  readyState := congrArg ReadyState.afterClose h.readyState
  onclose := rfl
  effect := h.effect
  closeFired := by
    have hfired := h.closeFired
    unfold Connection.unmounted Socket.unmounted
    cases hstate : c.readyState <;> rw [hstate] at hfired <;> exact hfired

/-- What a tab shows of the hook. -/
structure Same (c : Client) (s : Hook) : Prop where
  buId : s.buId = c.buId
  effects : s.effects.length = c.effects
  wsRef : s.wsRef = c.wsRef
  reconnectTimer : c.reconnectTimer = Hook.waiting s
  sockets : SameSockets c.connections s.sockets

/-- The tab runs the effect that the hook runs. -/
structure SameRun (c : Client) (s : Hook) : Prop where
  running : ∀ r, s.cleanup = some r → c.running = true ∧ r + 1 = c.effects
  idle : s.cleanup = none → c.running = false

/-- The tab is one in which the hook is. -/
structure InTab (c : Client) (s : Hook) : Prop where
  owned : Owned s
  same : Same c s
  run : SameRun c s

/-- Both connect. -/
theorem Same.connect {c : Client} {s : Hook} (h : Same c s) {r : ℕ} (hr : r + 1 = c.effects)
    (buId : String) : Same c.connect (s.connect r buId) where
  buId := h.buId
  effects := h.effects
  wsRef := congrArg some h.sockets.length_eq.symm
  reconnectTimer := h.reconnectTimer
  sockets := List.rel_append h.sockets (.cons ⟨rfl, rfl, hr, rfl⟩ .nil)

/-- Both run the effect. -/
theorem Same.effect {c : Client} {s : Hook} (h : Same c s) (hidle : c.running = false)
    (buId : String) : Same (c.effect buId) (s.effect buId) ∧
      SameRun (c.effect buId) (s.effect buId) := by
  unfold Client.effect Hook.effect
  by_cases hempty : buId = ""
  · rw [if_pos hempty, if_pos hempty]
    exact ⟨{ h with buId := rfl }, fun r hr => (by cases hr), fun _ => hidle⟩
  · rw [if_neg hempty, if_neg hempty]
    have hlast : s.effects.length + 1 = c.effects + 1 := congrArg (· + 1) h.effects
    have hbegun : Same ({ c with buId := some buId, effects := c.effects + 1, running := true } :
        Client) { s with
          buId := some buId
          effects := s.effects ++ [⟨buId, none, false⟩]
          cleanup := some s.effects.length } :=
      ⟨rfl, List.length_append.trans hlast, h.wsRef, h.reconnectTimer, h.sockets⟩
    refine ⟨hbegun.connect hlast buId, fun r hr => ?_, fun hr => (by cases hr)⟩
    cases hr
    exact ⟨rfl, hlast⟩

/-- What the cleanup of a run leaves. -/
theorem cleanupOf_fields (s : Hook) (r : ℕ) :
    (s.cleanupOf r).buId = s.buId ∧ (s.cleanupOf r).effects.length = s.effects.length ∧
      (s.cleanupOf r).sockets = match s.wsRef with
        | some k => s.sockets.modify k Socket.unmounted
        | none => s.sockets := by
  unfold Hook.cleanupOf Hook.closeCurrent
  cases href : s.wsRef <;> simp [Hook.clearTimeout]

/-- Both clean up. -/
theorem InTab.cleanup {c : Client} {s : Hook} (h : InTab c s) :
    Same c.cleanup s.runCleanup ∧ c.cleanup.running = false := by
  have hquiet := h.owned.runCleanup
  cases hcleanup : s.cleanup with
  | none =>
    have hidle := h.run.idle hcleanup
    have hclient : c.cleanup = c := if_neg (by rw [hidle]; exact Bool.false_ne_true)
    have hhook : s.runCleanup = s := by
      unfold Hook.runCleanup
      rw [hcleanup]
    rw [hclient, hhook]
    exact ⟨h.same, hidle⟩
  | some r =>
    have hhook : s.runCleanup = s.cleanupOf r := by
      unfold Hook.runCleanup
      rw [hcleanup]
    obtain ⟨hbuId, heffects, hsockets⟩ := cleanupOf_fields s r
    rw [hhook] at hquiet ⊢
    have htimer : false = Hook.waiting (s.cleanupOf r) := by
      unfold Hook.waiting
      rw [hquiet.timers]
      rfl
    unfold Client.cleanup
    rw [if_pos (h.run.running r hcleanup).1]
    rw [h.same.wsRef] at hsockets
    cases href : c.wsRef with
    | none =>
      rw [href] at hsockets
      exact ⟨⟨hbuId.trans h.same.buId, heffects.trans h.same.effects, hquiet.wsRef,
        htimer, hsockets ▸ h.same.sockets⟩, rfl⟩
    | some k =>
      rw [href] at hsockets
      refine ⟨⟨hbuId.trans h.same.buId, heffects.trans h.same.effects, hquiet.wsRef, htimer, ?_⟩, rfl⟩
      rw [hsockets]
      exact h.same.sockets.modify k fun _ _ hsame => hsame.unmounted

/-- A socket gets on, and with it its connection. -/
theorem Same.setSocket {c : Client} {s : Hook} (h : Same c s) (k : ℕ) (conn : Connection)
    (ws : Socket) (hsame : SameSocket conn ws) :
    Same { c with connections := c.connections.set k conn } (s.setSocket k ws) :=
  { h with sockets := h.sockets.set k hsame }

/-- The running effect learns that its socket is closed: it waits for its timer exactly if
the code is not 1000. -/
theorem onclose_fields {s : Hook} {r : ℕ} {e : Effect} (he : s.effects[r]? = some e)
    (hunended : e.intentionalClose = false) (htimers : s.timers = []) (code : ℕ) :
    (s.onclose r code).buId = s.buId ∧ (s.onclose r code).wsRef = none ∧
      Hook.waiting (s.onclose r code) = decide (code ≠ 1000) := by
  have hopen : s.effects[r]?.map Effect.intentionalClose = some false := by
    rw [he]
    exact congrArg some hunended
  unfold Hook.onclose
  by_cases hcode : code ≠ 1000
  · rw [if_pos ⟨hopen, hcode⟩]
    exact ⟨rfl, rfl, by simp [Hook.waiting, hcode]⟩
  · rw [if_neg fun hc => hcode hc.2]
    exact ⟨rfl, rfl, by simp [Hook.waiting, htimers, not_not.mp hcode]⟩

/-- Both learn that the socket of the running effect is closed. -/
theorem Same.onclose {c : Client} {s : Hook} (h : Same c s) (hrunning : c.running = true) {r : ℕ}
    {e : Effect} (he : s.effects[r]? = some e) (hunended : e.intentionalClose = false)
    (hr : r + 1 = c.effects) (htimers : s.timers = []) (code : ℕ) :
    Same (c.onclose (r + 1) code) (s.onclose r code) := by
  have hnone : c.reconnectTimer = false := by
    rw [h.reconnectTimer]
    unfold Hook.waiting
    rw [htimers]
    rfl
  have hopen : s.effects[r]?.map Effect.intentionalClose = some false := by
    rw [he]
    exact congrArg some hunended
  unfold Client.onclose Hook.onclose
  by_cases hcode : code ≠ 1000
  · rw [if_pos ⟨⟨hrunning, hr⟩, hcode⟩, if_pos ⟨hopen, hcode⟩]
    refine ⟨h.buId, (List.length_modify ..).trans h.effects, rfl, ?_, h.sockets⟩
    simp [Hook.waiting]
  · rw [if_neg fun hc => hcode hc.2, if_neg fun hc => hcode hc.2]
    exact { h with wsRef := rfl }

/-- The runs go on when a socket is closed. -/
theorem SameRun.onclose {c : Client} {s : Hook} (h : SameRun c s) (effect effect' code : ℕ) :
    SameRun (c.onclose effect code) (s.onclose effect' code) := by
  unfold Client.onclose Hook.onclose
  split <;> split <;> exact ⟨h.running, h.idle⟩

/-- A tab without the component. -/
theorem InTab.initial : InTab Client.initial Hook.initial where
  owned := owned_initial
  same := ⟨rfl, rfl, rfl, rfl, .nil⟩
  run := ⟨fun r hr => (by cases hr), fun _ => rfl⟩

/-- With a step of the tab the hook takes a step, or none for what happens in the network. -/
theorem InTab.follows {c c' : Client} {l : ClientLabel} {s : Hook} (h : InTab c s)
    (hstep : c.step l = some c') :
    InTab c' s ∨ ∃ l' s', s.step l' = some s' ∧ Same c' s' ∧ SameRun c' s' := by
  have moved : ∀ {k : ℕ} {conn : Connection}, c.connections[k]? = some conn →
      ∃ ws, s.sockets[k]? = some ws ∧ SameSocket conn ws := fun hconn => h.same.sockets.get hconn
  cases Client.stepped hstep with
  | mount buId hnone =>
    have hbuId : s.buId = none := h.same.buId.trans hnone
    refine Or.inr ⟨.mount buId, _, if_pos hbuId, ?_⟩
    refine h.same.effect ?_ buId
    cases h.owned with
    | idle hcleanup hquiet => exact h.run.idle hcleanup
    | active r e hactive => cases hbuId.symm.trans hactive.buId
  | rebind buId =>
    have hother : c.buId ≠ none ∧ c.buId ≠ some buId := by
      unfold Client.step at hstep
      dsimp only at hstep
      split at hstep
      · rename_i old hold
        obtain ⟨hne, -⟩ := Option.ite_none_left_eq_some.mp hstep
        rw [hold]
        exact ⟨by simp, fun he => hne (Option.some.inj he)⟩
      · cases hstep
    rw [← h.same.buId] at hother
    exact Or.inr ⟨.rebind buId, _, if_pos hother, h.cleanup.1.effect h.cleanup.2 buId⟩
  | unmount =>
    have hmounted : c.buId ≠ none := by
      unfold Client.step at hstep
      dsimp only at hstep
      split at hstep
      · rename_i old hold
        rw [hold]
        simp
      · cases hstep
    rw [← h.same.buId] at hmounted
    exact Or.inr ⟨.unmount, _, if_pos hmounted, { h.cleanup.1 with buId := rfl },
      fun r hr => (by cases hr), fun _ => h.cleanup.2⟩
  | timer htimer =>
    rw [h.same.reconnectTimer] at htimer
    obtain ⟨r, e, id, hcleanup, hfire⟩ := owned_fires h.owned htimer
    have hfired : Same ({ c with reconnectTimer := false } : Client) { s with timers := [] } :=
      { h.same with reconnectTimer := rfl }
    exact Or.inr ⟨.fire id, _, hfire, hfired.connect (h.run.running r hcleanup).2 e.buId,
      h.run.running, h.run.idle⟩
  | upgrade k conn hconn =>
    refine Or.inl ⟨h.owned, { h.same with sockets := ?_ }, h.run.running, h.run.idle⟩
    exact h.same.sockets.setLeft hconn fun ws hsame => { hsame with }
  | proxy k conn p p' l hconn hp hevent =>
    refine Or.inl ⟨h.owned, { h.same with sockets := ?_ }, h.run.running, h.run.idle⟩
    exact h.same.sockets.setLeft hconn fun ws hsame => { hsame with }
  | onopen k conn hconn hconnecting =>
    obtain ⟨ws, hws, hsame⟩ := moved hconn
    have hstate : ws.readyState = .connecting := hsame.readyState.trans hconnecting
    obtain ⟨r, e, hactive, -, rfl, htimers⟩ :=
      h.owned.current hws fun hspent => hspent.1 (.inl hstate)
    have hnone : c.reconnectTimer = false := by
      rw [h.same.reconnectTimer]
      unfold Hook.waiting
      rw [htimers]
      rfl
    have hset := h.same.setSocket k { conn with readyState := .opened }
      { ws with readyState := .opened }
      ⟨rfl, hsame.onclose, hsame.effect, by rw [hsame.closeFired, hconnecting]; rfl⟩
    refine Or.inr ⟨.opened k, (s.setSocket k { ws with readyState := .opened }).onopen ws.effect,
      ?_, { hset with effects := ?_, reconnectTimer := ?_ }, h.run.running, h.run.idle⟩
    · simp [Hook.step, hws, hstate]
    · exact (List.length_modify ..).trans h.same.effects
    · simp [hnone, Hook.waiting, Hook.onopen, Hook.clearTimeout, Hook.setSocket, htimers]
  | closing k conn hconn hopen =>
    obtain ⟨ws, hws, hsame⟩ := moved hconn
    have hstate : ws.readyState = .opened := hsame.readyState.trans hopen
    refine Or.inr ⟨.closing k, s.setSocket k { ws with readyState := .closing }, ?_,
      h.same.setSocket k _ _ ⟨rfl, hsame.onclose, hsame.effect, ?_⟩, h.run.running, h.run.idle⟩
    · simp [Hook.step, hws, hstate]
    · rw [hsame.closeFired, hopen]
      rfl
  | closeUnheard k code conn hconn hclosed hdeaf =>
    obtain ⟨ws, hws, hsame⟩ := moved hconn
    have hfired : ws.closeFired = false := by rw [hsame.closeFired]; exact decide_eq_false hclosed
    have hunheard : ws.onclose = false := hsame.onclose.trans hdeaf
    refine Or.inr ⟨.close k code,
      s.setSocket k { ws with readyState := .closed, closeFired := true }, ?_,
      h.same.setSocket k _ _ ⟨rfl, hsame.onclose, hsame.effect, rfl⟩, h.run.running, h.run.idle⟩
    simp [Hook.step, hws, hfired, hunheard]
  | close k code conn hconn hclosed hheard hcode =>
    obtain ⟨ws, hws, hsame⟩ := moved hconn
    have hfired : ws.closeFired = false := by rw [hsame.closeFired]; exact decide_eq_false hclosed
    have honclose : ws.onclose = true := hsame.onclose.trans hheard
    obtain ⟨r, e, hactive, -, rfl, htimers⟩ := h.owned.current hws fun hspent => by
      have hdeaf := hspent.2
      simp [honclose, hfired] at hdeaf
    obtain ⟨hrunning, hlast⟩ := h.run.running _ hactive.cleanup
    have hset := h.same.setSocket k { conn with readyState := .closed }
      { ws with readyState := .closed, closeFired := true }
      ⟨rfl, hsame.onclose, hsame.effect, rfl⟩
    refine Or.inr ⟨.close k code, (s.setSocket k { ws with
      readyState := .closed, closeFired := true }).onclose ws.effect code, ?_, ?_⟩
    · simp [Hook.step, hws, hfired, honclose]
    · have hclose := hset.onclose hrunning hactive.effect hactive.unended hlast htimers code
      rw [hsame.effect] at hclose
      have hrun : SameRun ({ c with
          connections := c.connections.set k { conn with readyState := .closed } } : Client)
          (s.setSocket k { ws with readyState := .closed, closeFired := true }) :=
        ⟨h.run.running, h.run.idle⟩
      exact ⟨hclose, hrun.onclose _ _ code⟩

/-- Every run of the tab is a run of the hook. -/
theorem client_runs_hook (ls : List ClientLabel) :
    Simulated Client.step Hook.step InTab Client.initial Hook.initial ls :=
  simulated_of_step (fun c s l c' h hstep => by
    obtain hsame | ⟨l', s', hl', hsame, hrun⟩ := h.follows hstep
    · exact ⟨[], s, rfl, hsame⟩
    · exact ⟨[l'], s', run_cons.mpr ⟨s', hl', rfl⟩, owned_step h.owned hl', hsame, hrun⟩)
    InTab.initial ls

/-- What the page shows of the hook, for this business unit. -/
structure OnPage (buId : String) (p : Page) (s : Hook) : Prop where
  owned : Owned s
  mounted : s.buId = if p.mounted then some buId else none
  socket : p.socket.isSome = s.wsRef.isSome
  reconnectTimer : p.reconnectTimer = Hook.waiting s
  /-- The current socket has not called `onclose` yet. -/
  current : ∀ k, s.wsRef = some k →
    ∃ ws, s.sockets[k]? = some ws ∧ ws.onclose = true ∧ ws.closeFired = false

/-- A socket that is new is the current one. -/
theorem current_connect (s : Hook) (r : ℕ) (buId : String) : ∀ k,
    (s.connect r buId).wsRef = some k → ∃ ws, (s.connect r buId).sockets[k]? = some ws ∧
      ws.onclose = true ∧ ws.closeFired = false := by
  rintro k ⟨⟩
  exact ⟨_, List.getElem?_concat_length, rfl, rfl⟩

theorem OnPage.initial (buId : String) (main : Backend.Schema.MainDb) :
    OnPage buId (Page.initial main) Hook.initial where
  owned := owned_initial
  mounted := rfl
  socket := rfl
  reconnectTimer := rfl
  current k hk := by cases hk

/-- The page goes on without the hook. -/
theorem OnPage.of_same {buId : String} {p p' : Page} {s : Hook} (h : OnPage buId p s)
    (hmounted : p'.mounted = p.mounted) (hsocket : p'.socket = p.socket)
    (htimer : p'.reconnectTimer = p.reconnectTimer) : OnPage buId p' s where
  owned := h.owned
  mounted := by rw [hmounted]; exact h.mounted
  socket := by rw [hsocket]; exact h.socket
  reconnectTimer := htimer.trans h.reconnectTimer
  current := h.current

/-- With a step of the page the hook takes a step, or none. -/
theorem OnPage.follows {buId : String} (hbuId : buId ≠ "") {user : Browser.User} {p p' : Page}
    {l : PageLabel} {s : Hook} (h : OnPage buId p s) (hstep : Page.step user p l = some p') :
    OnPage buId p' s ∨ ∃ l' s', s.step l' = some s' ∧ OnPage buId p' s' := by
  cases l with
  | live l =>
    obtain ⟨live, -, rfl⟩ := Option.map_eq_some_iff.mp hstep
    exact Or.inl (h.of_same rfl rfl rfl)
  | mount =>
    simp only [Page.step] at hstep
    split at hstep
    · cases hstep
    · rename_i hnot
      cases hstep
      have hnone : s.buId = none := by rw [h.mounted, if_neg hnot]
      have hmount : s.step (.mount buId) = some (s.effect buId) := if_pos hnone
      have heffect : s.effect buId = ({ s with
          buId := some buId
          effects := s.effects ++ [⟨buId, none, false⟩]
          cleanup := some s.effects.length } : Hook).connect s.effects.length buId := if_neg hbuId
      obtain ⟨-, hsocket, -, -, hmounted, htimer⟩ :=
        fetchActive_fields user (Page.connect user { p with mounted := true })
      refine Or.inr ⟨.mount buId, _, hmount, owned_step h.owned hmount, ?_, ?_, ?_, ?_⟩
      · rw [hmounted, effect_buId]
        rfl
      · rw [hsocket, heffect]
        rfl
      · rw [htimer, heffect]
        exact h.reconnectTimer
      · rw [heffect]
        exact current_connect _ _ _
  | unmount =>
    simp only [Page.step] at hstep
    split at hstep
    · rename_i hmounted
      cases hstep
      have hsome : s.buId ≠ none := by
        rw [h.mounted, if_pos hmounted]
        exact Option.some_ne_none buId
      have hunmount : s.step .unmount = some { s.runCleanup with buId := none, cleanup := none } :=
        if_pos hsome
      have hquiet := h.owned.runCleanup
      refine Or.inr ⟨.unmount, _, hunmount, owned_step h.owned hunmount, rfl, ?_, ?_, fun k hk => ?_⟩
      · exact (congrArg Option.isSome hquiet.wsRef).symm
      · exact (congrArg (fun timers => !List.isEmpty timers) hquiet.timers).symm
      · cases hquiet.wsRef.symm.trans hk
    · cases hstep
  | activate c =>
    simp only [Page.step] at hstep
    obtain ⟨-, hsocket, -, -, hmounted, htimer⟩ :=
      fetchActive_fields user { p with activeConversationId := some c }
    split at hstep
    · cases hstep
      exact Or.inl h
    split at hstep
    · cases hstep
      exact Or.inl (h.of_same hmounted hsocket htimer)
    · cases hstep
      exact Or.inl (h.of_same rfl rfl rfl)
  | reconnect =>
    simp only [Page.step] at hstep
    split at hstep
    · rename_i htimer
      cases hstep
      rw [h.reconnectTimer] at htimer
      obtain ⟨r, e, id, -, hfire⟩ := owned_fires h.owned htimer
      exact Or.inr ⟨.fire id, _, hfire, owned_step h.owned hfire, h.mounted, rfl, rfl,
        current_connect _ _ _⟩
    · cases hstep
  | onclose code =>
    simp only [Page.step] at hstep
    split at hstep
    · rename_i i hi
      cases hstep
      have hsocket := h.socket
      rw [hi] at hsocket
      obtain ⟨k, hk⟩ := Option.isSome_iff_exists.mp hsocket.symm
      obtain ⟨ws, hws, honclose, hfired⟩ := h.current k hk
      obtain ⟨r, e, hactive, -, rfl, htimers⟩ := h.owned.current hws fun hspent => by
        have hdeaf := hspent.2
        simp [honclose, hfired] at hdeaf
      have hclose : s.step (.close k code) = some ((s.setSocket k { ws with
          readyState := .closed, closeFired := true }).onclose ws.effect code) := by
        simp [Hook.step, hws, hfired, honclose]
      obtain ⟨hbuId', hwsRef', hwaiting⟩ := onclose_fields
        (s := s.setSocket k { ws with readyState := .closed, closeFired := true })
        hactive.effect hactive.unended htimers code
      refine Or.inr ⟨.close k code, _, hclose, owned_step h.owned hclose, hbuId'.trans h.mounted,
        (congrArg Option.isSome hwsRef').symm, hwaiting.symm, fun j hj => ?_⟩
      cases hwsRef'.symm.trans hj
    · cases hstep
  | onmessage =>
    simp only [Page.step] at hstep
    split at hstep
    · split at hstep
      · split at hstep
        · cases hstep
          exact Or.inl (h.of_same rfl rfl rfl)
        · cases hstep
      · cases hstep
    · cases hstep
  | fetchTurn k t =>
    simp only [Page.step] at hstep
    split at hstep
    · cases hstep
      exact Or.inl (h.of_same rfl rfl rfl)
    · cases hstep
  | fetchDone k =>
    simp only [Page.step] at hstep
    split at hstep <;> cases hstep <;> exact Or.inl (h.of_same rfl rfl rfl)

/-- Every run of the page is a run of the hook. -/
theorem page_runs_hook {buId : String} (hbuId : buId ≠ "") (user : Browser.User)
    (main : Backend.Schema.MainDb) (ls : List PageLabel) :
    Simulated (Page.step user) Hook.step (OnPage buId) (Page.initial main) Hook.initial ls :=
  simulated_of_step (fun p s l p' h hstep => by
    obtain hsame | ⟨l', s', hl', hsame⟩ := h.follows hbuId hstep
    · exact ⟨[], s, rfl, hsame⟩
    · exact ⟨[l'], s', run_cons.mpr ⟨s', hl', rfl⟩, hsame⟩) (OnPage.initial buId main) ls

/-- Every run of the tab, and of the page of a business unit, goes through the states of a
run of the hook, and in these the hook has at most one socket that is connecting or open,
or one timer. -/
theorem views_run_hook {buId : String} (hbuId : buId ≠ "") (user : Browser.User)
    (main : Backend.Schema.MainDb) (ls : List ClientLabel) (ms : List PageLabel) :
    Simulated Client.step Hook.step (fun c s => InTab c s ∧ OneSocket s)
        Client.initial Hook.initial ls ∧
      Simulated (Page.step user) Hook.step (fun p s => OnPage buId p s ∧ OneSocket s)
        (Page.initial main) Hook.initial ms :=
  ⟨(client_runs_hook ls).mono fun _ _ h => ⟨h, h.owned.oneSocket⟩,
    (page_runs_hook hbuId user main ms).mono fun _ _ h => ⟨h, h.owned.oneSocket⟩⟩

/-- A page that is mounted, for one. -/
theorem views_run_hook_mounted : ∃ p, Page.step ⟨⟨5, 20, "Ann"⟩, 1⟩
    (Page.initial Backend.Schema.MainDb.empty) .mount = some p ∧ p.mounted = true ∧
      ∃ es s, run Hook.step Hook.initial es = some s ∧ OnPage "office" p s ∧ OneSocket s :=
  ⟨_, rfl, rfl, (views_run_hook (by decide) _ _ [] [.mount]).2.2 _ rfl⟩

end AuraWellness.Frontend.OneHook
