import AuraWellness.Backend.Runs
import AuraWellness.Frontend.ChatWrites

/-!
# A tab and the backend behind it

The requests of the chat store travel to the backend, which handles them in any order, and
their responses come back in any order. A response carries what the backend has read when
it has handled the request.
-/

namespace AuraWellness.Frontend.Serving

open AuraWellness.Lib.Calls AuraWellness.Lib.Transition
open AuraWellness.Chat.Entities AuraWellness.Backend.Repositories AuraWellness.Backend.Services
open AuraWellness.Backend.Runs AuraWellness.Frontend.Stores AuraWellness.Frontend.ChatWrites

/-- The identity in the token of the tab. -/
structure Caller where
  personId : Uuid
  companyId : Uuid
  deriving DecidableEq, Repr

/-- The request that the backend gets from a request of the chat store. -/
def backendRequest (caller : Caller) : Request → Option BackendRequest
  | .getWorkspace buId => some (.getWorkspace buId caller.companyId)
  | .updateAccess buId personId hasAccess =>
    some (.updateAccess buId personId hasAccess caller.companyId)
  | .getConversations buId => some (.getConversations buId caller.personId caller.companyId)
  | .createDM buId targetPersonId =>
    some (.getOrCreateDM buId caller.personId targetPersonId caller.companyId)
  | .getConversationMessages buId conversationId =>
    some (.getConversationMessages buId conversationId caller.personId caller.companyId 50 none)
  | .getMessages buId => some (.getMessages buId caller.personId caller.companyId 50 none)
  | _ => none

/-- What comes back to the store; a missing result is a 404, which rejects. -/
def replyOf : Except Exn BackendResponse → Reply
  | .ok .done => .done
  | .ok (.workspace (some ws)) => .workspace ws
  | .ok (.conversations (some convs)) => .conversations convs
  | .ok (.conversation (some conv)) => .conversation conv
  | .ok (.messages (some msgs)) => .messages msgs
  | _ => .failed

/-- A request on its way. -/
structure Flight where
  /-- The request. -/
  request : Request
  /-- The databases when the backend handled it, and what its calls met. -/
  handled : Option (World × (ℕ → Turn BackendChoice Exn))

/-- A tab and the backend behind it. -/
structure ServedTab where
  /-- The stores of the tab. -/
  tab : Tab
  /-- Its requests on their way, in the order of `tab.requests`. -/
  flights : List Flight
  /-- The two databases. -/
  world : World

/-- What happens next. -/
inductive ServedLabel
  /-- An action is called. -/
  | call (action : Action)
  /-- The backend handles a request of the tab. -/
  | handle (k : ℕ) (env : ℕ → Turn BackendChoice Exn)
  /-- The response to a handled request arrives. -/
  | answer (k : ℕ)
  /-- A request fails on its way, or its response is lost. -/
  | fail (k : ℕ)
  /-- The backend serves a request of somebody else. -/
  | other (request : BackendRequest) (env : ℕ → Turn BackendChoice Exn)

section

variable (settings : Settings) (caller : Caller)

/-- What the response to a handled request contains. -/
def Flight.reply (f : Flight) : Option Reply :=
  f.handled.bind fun h => (backendRequest caller f.request).map fun r =>
    replyOf ((r.program settings).run backendMachine h.2 h.1).1

/-- The tab at its next state: its new requests are on their way. -/
def ServedTab.goOn (s : ServedTab) (flights : List Flight) (tab : Tab) : ServedTab :=
  { s with
    tab
    flights := flights ++ (tab.requests.drop flights.length).map fun request => ⟨request, none⟩ }

/-- One step. -/
def ServedTab.step (s : ServedTab) : ServedLabel → Option ServedTab
  | .call action => some (s.goOn s.flights (s.tab.call action))
  | .handle k env => (s.flights[k]?).bind fun f =>
    if f.handled.isSome then none
    else (backendRequest caller f.request).map fun r =>
      { s with
        flights := s.flights.set k { f with handled := some (s.world, env) }
        world := ((r.program settings).run backendMachine env s.world).2 }
  | .answer k => (s.flights[k]?).bind fun f => (f.reply settings caller).bind fun reply =>
    (s.tab.step (.answer k reply)).map (s.goOn (s.flights.eraseIdx k))
  | .fail k => (s.tab.step (.answer k .failed)).map (s.goOn (s.flights.eraseIdx k))
  | .other request env =>
    some { s with world := ((request.program settings).run backendMachine env s.world).2 }

end

/-- A tab that was just opened, in front of these databases. -/
def ServedTab.initial (world : World) : ServedTab := ⟨Tab.initial, [], world⟩

/-- The requests on their way are those of the tab. -/
def Aligned (s : ServedTab) : Prop := s.tab.requests = s.flights.map Flight.request

/-- An action adds requests. -/
theorem call_requests (s : Tab) (action : Action) :
    ∃ new, (s.call action).requests = s.requests ++ new := by
  cases action with
  | updateRole personId role =>
    unfold Tab.call
    dsimp only
    split
    · exact ⟨_, rfl⟩
    · exact ⟨[], (List.append_nil _).symm⟩
  | setUser | setActiveConversation | appendMessage | hydrateStaff | clearStaffError
  | hydrateBusinessUnits | clearBusinessUnitError => exact ⟨[], (List.append_nil _).symm⟩
  | _ => exact ⟨_, rfl⟩

/-- The requests that an answer leads to: lists of the other stores, and none after a
failure. -/
def FollowUps (reply : Reply) (new : List Request) : Prop :=
  ∀ x ∈ new, reply ≠ .failed ∧ (x = .getStaff ∨ x = .getBusinessUnits)

/-- An answer adds such requests only. -/
theorem answered_requests {s s' : Tab} {r : Request} {reply : Reply}
    (h : s.answered r reply = some s') : ∃ new, s'.requests = s.requests ++ new ∧
      FollowUps reply new := by
  have nothing : ∃ new, s.requests = s.requests ++ new ∧ FollowUps reply new :=
    ⟨[], (List.append_nil _).symm, fun x hx => by cases hx⟩
  unfold FollowUps at nothing ⊢
  cases r <;> cases reply <;> cases h <;> first
    | exact nothing
    | exact ⟨[.getStaff], rfl, by simp⟩
    | exact ⟨[.getBusinessUnits], rfl, by simp⟩

/-- What is on its way for these requests, with what is sent for the new ones. -/
theorem sent_append {β : Type} {request : β → Request} {send : Request → β} {sent : List β}
    {requests new : List Request} (h : requests = sent.map request ++ new) :
    sent ++ (requests.drop sent.length).map send = sent ++ new.map send := by
  rw [h, List.drop_append_of_le_length (by simp), List.drop_of_length_le (by simp),
    List.nil_append]

/-- An answered request leaves the others on their way. -/
theorem answered_sent {β : Type} {request : β → Request} {sent : List β} {s s' : Tab} {k : ℕ}
    {reply : Reply} (hs : s.requests = sent.map request)
    (h : s.step (.answer k reply) = some s') :
    ∃ x new, sent[k]? = some x ∧ s.requests[k]? = some (request x) ∧
      s'.requests = (sent.eraseIdx k).map request ++ new ∧ FollowUps reply new := by
  obtain ⟨r, hk, hanswer⟩ := Option.bind_eq_some_iff.mp h
  obtain ⟨new, hrequests, hnew⟩ := answered_requests hanswer
  have hmap := hk
  rw [hs, List.getElem?_map] at hmap
  obtain ⟨x, hx, rfl⟩ := Option.map_eq_some_iff.mp hmap
  refine ⟨x, new, hx, hk, ?_, hnew⟩
  rw [hrequests]
  dsimp only
  rw [hs, List.eraseIdx_map]

/-- With the new requests on their way the tab and its flights go on together. -/
theorem goOn_flights {s : ServedTab} {flights : List Flight} {tab : Tab} {new : List Request}
    (h : tab.requests = flights.map Flight.request ++ new) :
    (s.goOn flights tab).flights = flights ++ new.map fun request => ⟨request, none⟩ :=
  sent_append h

/-- So they stay aligned. -/
theorem aligned_goOn {s : ServedTab} {flights : List Flight} {tab : Tab} {new : List Request}
    (h : tab.requests = flights.map Flight.request ++ new) : Aligned (s.goOn flights tab) := by
  unfold Aligned
  rw [goOn_flights h, List.map_append, List.map_map]
  refine h.trans (congrArg _ ?_)
  exact (List.map_id new).symm

variable {settings : Settings} {caller : Caller}

/-- What a step leaves of the requests on their way. -/
inductive ServedTab.Stepped (settings : Settings) (caller : Caller) (s : ServedTab) :
    ServedLabel → ServedTab → Prop
  /-- An action puts its requests on their way. -/
  | call {action : Action} {s' : ServedTab} {new : List Request} (htab : s'.tab = s.tab.call action)
    (hworld : s'.world = s.world)
    (hflights : s'.flights = s.flights ++ new.map fun request => ⟨request, none⟩) :
    Stepped settings caller s (.call action) s'
  /-- The backend handles a request. -/
  | handle {k : ℕ} {env : ℕ → Turn BackendChoice Exn} {f : Flight} {r : BackendRequest}
    (hk : s.flights[k]? = some f) (hr : backendRequest caller f.request = some r) :
    Stepped settings caller s (.handle k env)
      { s with
        flights := s.flights.set k { f with handled := some (s.world, env) }
        world := ((r.program settings).run backendMachine env s.world).2 }
  /-- A request is answered, or fails. -/
  | answered {l : ServedLabel} {k : ℕ} {f : Flight} {reply : Reply} {s' : ServedTab}
    {new : List Request} (hl : l = .answer k ∧ f.reply settings caller = some reply ∨
      l = .fail k ∧ reply = .failed)
    (hk : s.flights[k]? = some f) (hrequest : s.tab.requests[k]? = some f.request)
    (htab : s.tab.step (.answer k reply) = some s'.tab) (hworld : s'.world = s.world)
    (hflights : s'.flights = s.flights.eraseIdx k ++ new.map fun request => ⟨request, none⟩)
    (hnew : FollowUps reply new) : Stepped settings caller s l s'
  /-- The backend serves somebody else. -/
  | other {request : BackendRequest} {env : ℕ → Turn BackendChoice Exn} :
    Stepped settings caller s (.other request env)
      { s with world := ((request.program settings).run backendMachine env s.world).2 }

/-- Every step is one of these. -/
theorem ServedTab.stepped {s s' : ServedTab} {l : ServedLabel} (hs : Aligned s)
    (h : s.step settings caller l = some s') : s.Stepped settings caller l s' ∧ Aligned s' := by
  cases l with
  | call action =>
    cases h
    obtain ⟨new, hnew⟩ := call_requests s.tab action
    rw [show s.tab.requests = s.flights.map Flight.request from hs] at hnew
    exact ⟨.call rfl rfl (goOn_flights hnew), aligned_goOn hnew⟩
  | handle k env =>
    obtain ⟨f, hk, h⟩ := Option.bind_eq_some_iff.mp h
    obtain ⟨-, h⟩ := Option.ite_none_left_eq_some.mp h
    obtain ⟨r, hr, rfl⟩ := Option.map_eq_some_iff.mp h
    obtain ⟨hlt, rfl⟩ := List.getElem?_eq_some_iff.mp hk
    refine ⟨.handle hk hr, hs.trans ?_⟩
    dsimp only
    rw [List.map_set]
    refine (List.set_getElem_self (by simpa using hlt)).symm.trans ?_
    rw [List.getElem_map]
  | answer k =>
    obtain ⟨f, hk, h⟩ := Option.bind_eq_some_iff.mp h
    obtain ⟨reply, hreply, h⟩ := Option.bind_eq_some_iff.mp h
    obtain ⟨tab, htab, rfl⟩ := Option.map_eq_some_iff.mp h
    obtain ⟨f', new, hk', hrequest, hrequests, hnew⟩ := answered_sent hs htab
    cases hk.symm.trans hk'
    exact ⟨.answered (.inl ⟨rfl, hreply⟩) hk hrequest htab rfl (goOn_flights hrequests) hnew,
      aligned_goOn hrequests⟩
  | fail k =>
    obtain ⟨tab, htab, rfl⟩ := Option.map_eq_some_iff.mp h
    obtain ⟨f, new, hk, hrequest, hrequests, hnew⟩ := answered_sent hs htab
    exact ⟨.answered (.inr ⟨rfl, rfl⟩) hk hrequest htab rfl (goOn_flights hrequests) hnew,
      aligned_goOn hrequests⟩
  | other request env =>
    cases h
    exact ⟨.other, hs⟩

/-- A request can fail. -/
theorem exists_answered_failed (s : Tab) (r : Request) : ∃ s', s.answered r .failed = some s' := by
  cases r <;> exact ⟨_, rfl⟩

/-- All requests on their way can fail, which leaves the maps of the store and the databases. -/
theorem exists_drain (settings : Settings) (caller : Caller) {s : ServedTab} (hs : Aligned s) :
    ∃ n s', run (ServedTab.step settings caller) s (List.replicate n (.fail 0)) = some s' ∧
      s'.flights = [] ∧ s'.world = s.world ∧ SameMaps s.tab.chat s'.tab.chat := by
  obtain ⟨flights, hflights⟩ : ∃ flights, flights = s.flights := ⟨_, rfl⟩
  induction flights generalizing s with
  | nil => exact ⟨0, s, rfl, hflights.symm, rfl, SameMaps.refl _⟩
  | cons f flights ih =>
    have hrequest : s.tab.requests[0]? = some f.request := by
      rw [show s.tab.requests = s.flights.map Flight.request from hs, ← hflights]
      rfl
    obtain ⟨tab, htab⟩ := exists_answered_failed
      { s.tab with requests := s.tab.requests.eraseIdx 0 } f.request
    have htabStep : s.tab.step (.answer 0 .failed) = some tab :=
      Option.bind_eq_some_iff.mpr ⟨f.request, hrequest, htab⟩
    have hstep : s.step settings caller (.fail 0) = some (s.goOn (s.flights.eraseIdx 0) tab) := by
      simp only [ServedTab.step, htabStep, Option.map_some]
    obtain ⟨hstepped, haligned⟩ := ServedTab.stepped hs hstep
    obtain ⟨s₁, hs₁⟩ : ∃ s₁, s₁ = s.goOn (s.flights.eraseIdx 0) tab := ⟨_, rfl⟩
    rw [← hs₁] at hstep hstepped haligned
    cases hstepped with
    | @answered l k g reply _ new hl hk hreq htab' hworld hnext hnew =>
      obtain ⟨⟨⟩, -⟩ | ⟨⟨⟩, rfl⟩ := hl
      have hnone : new = [] := List.eq_nil_iff_forall_not_mem.mpr fun x hx => (hnew x hx).1 rfl
      have hrest : flights = s₁.flights := by
        rw [hnext, hnone, ← hflights]
        simp
      obtain ⟨n, s', hrun, hempty, hw, hmaps⟩ := ih haligned hrest
      have hsame : SameMaps s.tab.chat s₁.tab.chat := by
        have hwrite : stepWrite s.tab (.answer 0 .failed) = none := by
          unfold stepWrite
          simp only [hreq, Option.bind_some]
          cases g.request <;> rfl
        have hstepMaps := step_maps htab'
        rw [hwrite] at hstepMaps
        exact hstepMaps
      refine ⟨n + 1, s', run_cons.mpr ⟨s₁, hstep, hrun⟩, hempty, hw.trans hworld, ?_⟩
      exact ⟨hmaps.workspaces.trans hsame.workspaces,
        hmaps.conversations.trans hsame.conversations, hmaps.messages.trans hsame.messages⟩

end AuraWellness.Frontend.Serving
