import AuraWellness.Frontend.Serving
import AuraWellness.Lib.Journal

/-!
# A tab and a backend at work

The backend works on the requests of the tab one call at a time, and everybody else's calls
come in between. What it has read for a request is in the journal of the request. The
response brings it to the tab, however much has happened since.
-/

namespace AuraWellness.Frontend.Errands

open AuraWellness.Lib.Calls AuraWellness.Lib.Transition AuraWellness.Lib.Journal
open AuraWellness.Chat.Entities AuraWellness.Backend.Repositories AuraWellness.Backend.Services
open AuraWellness.Backend.Runs AuraWellness.Frontend.Stores AuraWellness.Frontend.Serving

/-- The backend at work on a request. -/
abbrev BackendJob := Job backendSignature World BackendChoice Exn BackendResponse

/-- A call that the backend has made. -/
abbrev BackendEntry := Entry backendSignature World BackendChoice Exn

/-- A request on its way. -/
structure Errand where
  /-- The request. -/
  request : Request
  /-- The work of the backend on it. -/
  job : Option BackendJob

/-- The calls that the backend has made for a request. -/
def Errand.journal (e : Errand) : List BackendEntry := (e.job.map Job.journal).getD []

/-- What the response contains; none while the backend is at work. -/
def Errand.reply? (e : Errand) : Option Reply := (e.job.bind Job.result?).map replyOf

/-- A tab and the backend behind it. -/
structure ErrandTab where
  /-- The stores of the tab. -/
  tab : Tab
  /-- Its requests on their way, in the order of `tab.requests`. -/
  errands : List Errand
  /-- The two databases. -/
  world : World
  /-- What `createDM` has put into the conversations of the business units. -/
  put : List (Uuid × Uuid)

/-- What happens next. -/
inductive ErrandLabel
  /-- An action is called. -/
  | call (action : Action)
  /-- The backend makes the next call for a request. -/
  | turn (k : ℕ) (t : Turn BackendChoice Exn)
  /-- The response to a request arrives. -/
  | answer (k : ℕ)
  /-- A request fails on its way, or its response is lost. -/
  | fail (k : ℕ)
  /-- The backend makes a call for somebody else. -/
  | other (op : BackendCall) (t : Turn BackendChoice Exn)

/-- The conversation that an answer puts into the list of a business unit. -/
def putBy : Request → Reply → List (Uuid × Uuid)
  | .createDM buId _, .conversation conv => [(buId, conv.conversationId)]
  | _, _ => []

section

variable (settings : Settings) (caller : Caller)

/-- A request that is sent. -/
def Errand.send (request : Request) : Errand :=
  ⟨request, (backendRequest caller request).map fun r => Job.start (r.program settings)⟩

/-- The tab at its next state: its new requests are on their way. -/
def ErrandTab.goOn (s : ErrandTab) (errands : List Errand) (tab : Tab) : ErrandTab :=
  { s with
    tab
    errands := errands ++ (tab.requests.drop errands.length).map (Errand.send settings caller) }

/-- The answer to a request arrives. -/
def ErrandTab.answered (s : ErrandTab) (k : ℕ) (e : Errand) (reply : Reply) : Option ErrandTab :=
  (s.tab.step (.answer k reply)).map fun tab =>
    { s.goOn settings caller (s.errands.eraseIdx k) tab with
      put := s.put ++ putBy e.request reply }

/-- One step. -/
def ErrandTab.step (s : ErrandTab) : ErrandLabel → Option ErrandTab
  | .call action => some (s.goOn settings caller s.errands (s.tab.call action))
  | .turn k t => (s.errands[k]?).bind fun e => e.job.bind fun job =>
    (job.turn backendMachine t s.world).map fun next =>
      { s with
        errands := s.errands.set k { e with job := some next.1 }
        world := next.2 }
  | .answer k => (s.errands[k]?).bind fun e => e.reply?.bind (s.answered settings caller k e)
  | .fail k => (s.errands[k]?).bind fun e => s.answered settings caller k e .failed
  | .other op t =>
    if backendMachine.Admits op t then
      some { s with world := (backendMachine.answer op t s.world).2 }
    else none

end

/-- A tab that was just opened, in front of these databases. -/
def ErrandTab.initial (world : World) : ErrandTab := ⟨Tab.initial, [], world, []⟩

variable {settings : Settings} {caller : Caller}

/-- The requests on their way are those of the tab, and each meets the condition. -/
structure AllErrands (P : Errand → Prop) (s : ErrandTab) : Prop where
  aligned : s.tab.requests = s.errands.map Errand.request
  each : ∀ e ∈ s.errands, P e

/-- Nothing is on its way at first. -/
theorem allErrands_initial (P : Errand → Prop) (world : World) :
    AllErrands P (ErrandTab.initial world) := ⟨rfl, fun _ he => by cases he⟩

/-- The tab goes on with requests that meet the condition. -/
theorem allErrands_goOn {P : Errand → Prop} {s : ErrandTab} {errands : List Errand} {tab : Tab}
    {new : List Request} (hsend : ∀ r, P (Errand.send settings caller r))
    (herrands : ∀ e ∈ errands, P e) (h : tab.requests = errands.map Errand.request ++ new) :
    AllErrands P (s.goOn settings caller errands tab) := by
  have hsent : (s.goOn settings caller errands tab).errands =
      errands ++ new.map (Errand.send settings caller) := sent_append h
  refine ⟨?_, fun e he => ?_⟩
  · rw [hsent, List.map_append, List.map_map]
    exact h.trans (congrArg _ (List.map_id new).symm)
  · rw [hsent] at he
    obtain he | he := List.mem_append.mp he
    · exact herrands e he
    · obtain ⟨r, -, rfl⟩ := List.mem_map.mp he
      exact hsend r

/-- An answer leaves the other requests. -/
theorem allErrands_answered {P : Errand → Prop} (hsend : ∀ r, P (Errand.send settings caller r))
    {s s' : ErrandTab} {k : ℕ} {e : Errand} {reply : Reply} (hs : AllErrands P s)
    (h : s.answered settings caller k e reply = some s') : AllErrands P s' := by
  obtain ⟨tab, htab, rfl⟩ := Option.map_eq_some_iff.mp h
  obtain ⟨f, new, -, -, hrequests, -⟩ := answered_sent hs.aligned htab
  have hrest : ∀ f ∈ s.errands.eraseIdx k, P f := fun f hf =>
    hs.each f (List.mem_of_mem_eraseIdx hf)
  have hnext : AllErrands P (s.goOn settings caller (s.errands.eraseIdx k) tab) :=
    allErrands_goOn hsend hrest hrequests
  exact ⟨hnext.aligned, hnext.each⟩

/-- A condition that every request meets when it is sent, and keeps through the calls of the
backend, is met by all requests on their way. -/
theorem allErrands_step {P : Errand → Prop} (hsend : ∀ r, P (Errand.send settings caller r))
    (hturn : ∀ e job next t s s', P e → e.job = some job →
      job.turn backendMachine t s = some (next, s') → P { e with job := some next })
    {s s' : ErrandTab} {l : ErrandLabel} (hs : AllErrands P s)
    (h : s.step settings caller l = some s') : AllErrands P s' := by
  cases l with
  | call action =>
    cases h
    obtain ⟨new, hnew⟩ := call_requests s.tab action
    rw [hs.aligned] at hnew
    exact allErrands_goOn hsend hs.each hnew
  | turn k t =>
    obtain ⟨e, hk, h⟩ := Option.bind_eq_some_iff.mp h
    obtain ⟨job, hjob, h⟩ := Option.bind_eq_some_iff.mp h
    obtain ⟨⟨next, world⟩, hnext, rfl⟩ := Option.map_eq_some_iff.mp h
    obtain ⟨hlt, rfl⟩ := List.getElem?_eq_some_iff.mp hk
    refine ⟨?_, fun f hf => ?_⟩
    · refine hs.aligned.trans ?_
      dsimp only
      rw [List.map_set]
      refine (List.set_getElem_self (by simpa using hlt)).symm.trans ?_
      rw [List.getElem_map]
    · obtain hf | rfl := List.mem_or_eq_of_mem_set hf
      · exact hs.each f hf
      · exact hturn _ job next t _ _ (hs.each _ (List.getElem_mem hlt)) hjob hnext
  | answer k =>
    obtain ⟨e, -, h⟩ := Option.bind_eq_some_iff.mp h
    obtain ⟨reply, -, h⟩ := Option.bind_eq_some_iff.mp h
    exact allErrands_answered hsend hs h
  | fail k =>
    obtain ⟨e, -, h⟩ := Option.bind_eq_some_iff.mp h
    exact allErrands_answered hsend hs h
  | other op t =>
    obtain ⟨-, ⟨⟩⟩ := Option.ite_none_right_eq_some.mp h
    exact ⟨hs.aligned, hs.each⟩

/-- The calls of a job are steps of the tab and the backend. -/
theorem run_turns {k : ℕ} {ts : List (Turn BackendChoice Exn)} {s : ErrandTab} {e : Errand}
    {job next : BackendJob} {world : World} (hk : s.errands[k]? = some e)
    (hjob : e.job = some job)
    (hrun : run (Job.step backendMachine) (job, s.world) ts = some (next, world)) :
    run (ErrandTab.step settings caller) s (ts.map (.turn k)) =
      some { s with errands := s.errands.set k { e with job := some next }, world } := by
  induction ts generalizing s e job with
  | nil =>
    cases hrun
    obtain ⟨hlt, rfl⟩ := List.getElem?_eq_some_iff.mp hk
    have hsame : { s.errands[k] with job := some next } = s.errands[k] := by rw [← hjob]
    rw [hsame, List.set_getElem_self]
    rfl
  | cons t ts ih =>
    obtain ⟨⟨job', world'⟩, hstep, hrest⟩ := run_cons.mp hrun
    have hturn : job.turn backendMachine t s.world = some (job', world') := hstep
    have hstep' : s.step settings caller (.turn k t) = some
        { s with errands := s.errands.set k { e with job := some job' }, world := world' } := by
      simp only [ErrandTab.step, hk, hjob, hturn, Option.bind_some, Option.map_some]
    refine run_cons.mpr ⟨_, hstep', ?_⟩
    obtain ⟨hlt, -⟩ := List.getElem?_eq_some_iff.mp hk
    have hset : (s.errands.set k { e with job := some job' })[k]? =
        some { e with job := some job' } := List.getElem?_set_self hlt
    rw [ih hset rfl hrest]
    dsimp only
    rw [List.set_set]

/-- The backend can work on a request undisturbed, as when it handles it at once. -/
theorem exists_turns {s : ErrandTab} {k : ℕ} {r : Request} {b : BackendRequest}
    (hk : s.errands[k]? = some (Errand.send settings caller r))
    (hb : backendRequest caller r = some b) {env : ℕ → Turn BackendChoice Exn}
    (henv : ∀ n, ∃ c, env n = .serve c) :
    ∃ (ts : List (Turn BackendChoice Exn)) (e : Errand) (s' : ErrandTab),
      run (ErrandTab.step settings caller) s (ts.map (.turn k)) = some s' ∧
        s'.tab = s.tab ∧ s'.errands = s.errands.set k e ∧ e.request = r ∧
        e.reply? = (Flight.mk r (some (s.world, env))).reply settings caller ∧
        s'.world = ((b.program settings).run backendMachine env s.world).2 := by
  obtain ⟨ts, made, hrun⟩ := Job.exists_run backendMachine (b.program settings) henv [] s.world
  have hjob : (Errand.send settings caller r).job = some (Job.start (b.program settings)) := by
    unfold Errand.send
    rw [hb]
    rfl
  have hreply : (Errand.mk r (some ⟨.ret ((b.program settings).run backendMachine env s.world).1,
      made⟩)).reply? = (Flight.mk r (some (s.world, env))).reply settings caller := by
    unfold Errand.reply? Flight.reply
    simp only [Option.bind_some, hb, Option.map_some]
    rfl
  exact ⟨ts, _, _, run_turns hk hjob hrun, rfl, rfl, rfl, hreply, rfl⟩

end AuraWellness.Frontend.Errands
