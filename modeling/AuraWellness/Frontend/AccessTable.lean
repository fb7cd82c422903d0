import AuraWellness.Backend.ChatAdmins
import AuraWellness.Backend.Resetting
import AuraWellness.Frontend.Serving

/-!
# When the access table settles on the stored values

The table of a workspace is loaded as a whole, and every change of an access is entered in
it when its response arrives. The table stays true as long as every response that arrives
brings the stored value, or a later response about the same member is still to come.
-/

namespace AuraWellness.Frontend.AccessTable

open AuraWellness.Lib.Calls AuraWellness.Lib.Transition AuraWellness.Lib.Keyed
open AuraWellness.Chat.Entities AuraWellness.Chat.Schema AuraWellness.Chat.Repositories
open AuraWellness.Chat.Handlers AuraWellness.Chat.Procedures
open AuraWellness.Backend.Schema AuraWellness.Backend.Repositories AuraWellness.Backend.Services
open AuraWellness.Backend.Runs AuraWellness.Backend.Resetting
open AuraWellness.Frontend.Stores AuraWellness.Frontend.ChatWrites AuraWellness.Frontend.Serving

/-- The stored `has_access` of a person in the workspace of a business unit. -/
def StoredAccess (d : ChatDb) (bu person : Uuid) (access : Bool) : Prop :=
  ∃ w ∈ d.workspaces, w.buID = bu ∧
    ∃ m ∈ d.members, memberKey m = (w.id, person) ∧ m.hasAccess = access

instance (d : ChatDb) (bu person : Uuid) (access : Bool) :
    Decidable (StoredAccess d bu person access) := by
  unfold StoredAccess
  infer_instance

/-- The listed members of a business unit's workspace. -/
def listedMembers (s : ChatStore) (bu : Uuid) : List ChatMemberResponse :=
  ((s.workspaces bu).map ChatWorkspaceResponse.members).getD []

/-- The request is about the access of this person. -/
def Covers (bu person : Uuid) : Request → Prop
  | .getWorkspace buId => buId = bu
  | .updateAccess buId personId _ => buId = bu ∧ personId = person
  | _ => False

instance (bu person : Uuid) (r : Request) : Decidable (Covers bu person r) := by
  cases r <;> unfold Covers <;> infer_instance

/-- The listed flags are the stored ones when no request about them is on its way. -/
def Settled (bu : Uuid) (s : ServedTab) : Prop :=
  (∀ f ∈ s.flights, ∀ person, ¬Covers bu person f.request) →
    ∀ m ∈ listedMembers s.tab.chat bu, StoredAccess s.world.chat.db bu m.personId m.hasAccess

/-- The flags that the answer to a request leaves for the listed members that it is about. -/
def leaves (listed : List ChatMemberResponse) (bu : Uuid) :
    Request → Reply → List ChatMemberResponse
  | .getWorkspace buId, .workspace ws => if buId = bu then ws.members else []
  | .getWorkspace buId, _ => if buId = bu then listed else []
  | .updateAccess buId personId hasAccess, .done =>
    if buId = bu then
      (listed.filter fun m => m.personId = personId).map fun m => { m with hasAccess }
    else []
  | .updateAccess buId personId _, _ =>
    if buId = bu then listed.filter fun m => m.personId = personId else []
  | _, _ => []

/-- The flags that this answer leaves are the stored ones, but for those that another request
on its way is about. -/
def LeavesTrue (bu : Uuid) (s : ServedTab) (k : ℕ) (reply : Reply) : Prop :=
  ∀ f ∈ s.flights[k]?, ∀ m ∈ leaves (listedMembers s.tab.chat bu) bu f.request reply,
    StoredAccess s.world.chat.db bu m.personId m.hasAccess ∨
      ∃ g ∈ s.flights.eraseIdx k, Covers bu m.personId g.request

instance (bu : Uuid) (s : ServedTab) (k : ℕ) (reply : Reply) :
    Decidable (LeavesTrue bu s k reply) := by
  unfold LeavesTrue
  infer_instance

/-- Every answer leaves true flags. -/
def AnswersTrue (settings : Settings) (caller : Caller) (bu : Uuid) (s : ServedTab) :
    ServedLabel → Prop
  | .answer k => ∀ f ∈ s.flights[k]?, ∀ reply ∈ f.reply settings caller, LeavesTrue bu s k reply
  | .fail k => LeavesTrue bu s k .failed
  | _ => True

instance (settings : Settings) (caller : Caller) (bu : Uuid) (s : ServedTab) (l : ServedLabel) :
    Decidable (AnswersTrue settings caller bu s l) := by
  cases l <;> unfold AnswersTrue <;> infer_instance

/-- Nobody else changes an access. -/
def OneOwner : ServedLabel → Prop
  | .other (.updateAccess _ _ _ _) _ => False
  | _ => True

/-- Every listed flag is the stored one, or a request about it is on its way. -/
structure Tracks (bu : Uuid) (s : ServedTab) : Prop where
  /-- The requests on their way are those of the tab. -/
  aligned : Aligned s
  /-- The flags. -/
  flags : ∀ m ∈ listedMembers s.tab.chat bu,
    StoredAccess s.world.chat.db bu m.personId m.hasAccess ∨
      ∃ f ∈ s.flights, Covers bu m.personId f.request

/-- A stored access stays through a change that is no change of an access. -/
theorem StoredAccess.change {d d' : ChatDb} {rpc : Rpc} {bu person : Uuid} {access : Bool}
    (h : StoredAccess d bu person access) (hrpc : ∀ w p a, rpc ≠ .updateMemberAccess w p a)
    (hchange : Change d d' rpc) : StoredAccess d' bu person access := by
  obtain ⟨w, hw, hbu, m, hm, hkey, haccess⟩ := h
  cases hchange with
  | same hworkspaces hmembers =>
    exact ⟨w, hworkspaces ▸ hw, hbu, m, hmembers ▸ hm, hkey, haccess⟩
  | created hbu' hcompany hid hnew hworkspaces hmembers =>
    refine ⟨w, ?_, hbu, m, hmembers ▸ hm, hkey, haccess⟩
    rw [hworkspaces]
    exact List.mem_append_left _ hw
  | joined hkey' hrole haccess' hnew hw' hworkspaces hmembers =>
    refine ⟨w, hworkspaces ▸ hw, hbu, m, ?_, hkey, haccess⟩
    rw [hmembers]
    exact List.mem_append_left _ hm
  | @assigned v p role hold hworkspaces hmembers =>
    have hfields := assignRole_fields v p role m
    refine ⟨w, hworkspaces ▸ hw, hbu, assignRole v p role m, ?_, hfields.1.trans hkey,
      hfields.2.trans haccess⟩
    rw [hmembers]
    exact List.mem_map_of_mem hm
  | admitted hkey' hrole haccess' hnew hw' hworkspaces hmembers => exact absurd rfl (hrpc _ _ _)
  | switched hold hworkspaces hmembers => exact absurd rfl (hrpc _ _ _)

/-- A call of the backend that changes no access leaves the stored ones. -/
theorem StoredAccess.exec {op : BackendCall} (hop : ∀ w p a, op ≠ .chat (.updateMemberAccess w p a))
    (c : BackendChoice) {s : World} {bu person : Uuid} {access : Bool}
    (h : StoredAccess s.chat.db bu person access) :
    StoredAccess (backendMachine.exec op c s).2.chat.db bu person access := by
  by_cases hchat : ∃ rpc, op = .chat rpc
  · obtain ⟨rpc, rfl⟩ := hchat
    exact h.change (fun w p a he => hop w p a (congrArg _ he)) (serve_change rpc c.rpc s.chat)
  · have hkept := answer_main_chat (fun rpc he => hchat ⟨rpc, he⟩) (.serve c) s
    refine (?_ : StoredAccess (backendMachine.answer op (.serve c) s).2.chat.db bu person access)
    rw [hkept]
    exact h

/-- So does a request that is not about an access. -/
theorem StoredAccess.run {settings : Settings} {r : BackendRequest}
    (hr : ∀ bu p a company, r ≠ .updateAccess bu p a company) (env : ℕ → Turn BackendChoice Exn)
    {s : World} {bu person : Uuid} {access : Bool} (h : StoredAccess s.chat.db bu person access) :
    StoredAccess ((r.program settings).run backendMachine env s).2.chat.db bu person access := by
  refine Program.run_preserves (I := fun t : World => StoredAccess t.chat.db bu person access)
    (fun op c t hop ht => ht.exec (fun w p a he => ?_) c) (program_issues settings r) env h
  subst he
  cases hop with
  | query h => exact h.elim
  | access => exact hr _ _ _ _ rfl

/-- A change of an access is one call at most, for the workspace of the business unit. -/
theorem run_updateAccess (settings : Settings) (bu p : Uuid) (a : Bool) (company : Uuid)
    (env : ℕ → Turn BackendChoice Exn) (s : World) :
    let s' := (((BackendRequest.updateAccess bu p a company).program settings).run backendMachine
      env s).2
    s' = s ∨ ∃ w ∈ s.chat.db.workspaces, ∃ t, w.buID = bu ∧
      s' = (backendMachine.answer (.chat (.updateMemberAccess w.id p a)) t s).2 := by
  have hunit : BackendCall.Queries (.businessUnitGetById bu company) := trivial
  have hperson : BackendCall.Queries (.personGetById p company) := trivial
  dsimp only [BackendRequest.program]
  rw [Program.run_map]
  unfold ChatAccessService.updateAccess
  rw [Program.run_perform_bind, query_state hunit]
  cases (backendMachine.answer (.businessUnitGetById bu company) (env 0) s).1 with
  | error e => exact .inl rfl
  | ok found =>
    cases found with
    | none => exact .inl rfl
    | some unit =>
      dsimp only
      rw [Program.run_perform_bind, query_state hperson]
      cases (backendMachine.answer (.personGetById p company) (env (0 + 1)) s).1 with
      | error e => exact .inl rfl
      | ok found =>
        cases found with
        | none => exact .inl rfl
        | some person =>
          dsimp only
          rw [run_lookup]
          cases hl : (backendMachine.answer (.chat (.getWorkspaceByBuID bu))
            (env (0 + 1 + 1)) s).1 with
          | ok w =>
            obtain ⟨hw, hbu⟩ := lookup_ok hl
            refine .inr ⟨w, hw, env (0 + 1 + 1 + 1), hbu, ?_⟩
            change ((ChatServiceClient.updateMemberAccess w.id p a).run backendMachine
              (fun n => env (n + 1 + 1 + 1)) s).2 = _
            unfold ChatServiceClient.updateMemberAccess
            rw [Program.run_perform_bind]
            cases (backendMachine.answer (.chat (.updateMemberAccess w.id p a))
              (env (0 + 1 + 1 + 1)) s).1 <;> rfl
          | error e =>
            obtain hnone | ⟨e', hthrow⟩ := lookupResult_error e
            · rw [hnone]
              exact .inl rfl
            · rw [hthrow]
              exact .inl rfl

/-- A change of an access leaves the access of everybody else. -/
theorem StoredAccess.updateAccess {settings : Settings} {bu p : Uuid} {a : Bool} {company : Uuid}
    (env : ℕ → Turn BackendChoice Exn) {s : World} {bu' person : Uuid} {access : Bool}
    (hne : ¬(bu = bu' ∧ p = person)) (h : StoredAccess s.chat.db bu' person access) :
    StoredAccess (((BackendRequest.updateAccess bu p a company).program settings).run backendMachine
      env s).2.chat.db bu' person access := by
  obtain hs | ⟨w, hw, t, hbu, hs⟩ := run_updateAccess settings bu p a company env s
  · rw [hs]
    exact h
  · rw [hs]
    obtain hs | ⟨c, hs⟩ := answer_chat_state (.updateMemberAccess w.id p a) t s
    · rw [hs]
      exact h
    · rw [hs]
      dsimp only
      obtain ⟨v, hv, hvbu, m, hm, hkey, haccess⟩ := h
      have hother : memberKey m ≠ (w.id, p) := fun heq => by
        obtain ⟨hid, hp⟩ := Prod.mk.inj (hkey.symm.trans heq)
        have hsame : v = w := s.chat.db.valid.workspaces_id.eq hv hw hid
        exact hne ⟨by rw [← hbu, ← hsame, hvbu], hp.symm⟩
      obtain ⟨hsame, -⟩ | ⟨row, -, -, -, -, -, hd⟩ | ⟨-, hd⟩ :=
        serve_updateMemberAccess w.id p a c s.chat
      · rw [hsame]
        exact ⟨v, hv, hvbu, m, hm, hkey, haccess⟩
      · refine ⟨v, ?_, hvbu, m, ?_, hkey, haccess⟩
        · rw [hd]
          exact hv
        · rw [hd]
          exact List.mem_append_left _ hm
      · refine ⟨v, ?_, hvbu, m, ?_, hkey, haccess⟩
        · rw [hd]
          exact hv
        · rw [hd]
          exact List.mem_map.mpr ⟨m, hm, if_neg hother⟩

/-- The listed members after a write. -/
def tableAfter (bu : Uuid) (listed : List ChatMemberResponse) :
    ChatWrite → List ChatMemberResponse
  | .workspace buId ws => if buId = bu then ws.members else listed
  | .access buId personId hasAccess =>
    if buId = bu then listed.map fun m => if m.personId = personId then { m with hasAccess } else m
    else listed
  | _ => listed

/-- A write changes the listed members like this. -/
theorem listedMembers_into (s : ChatStore) (w : ChatWrite) (bu : Uuid) :
    listedMembers (w.into s) bu = tableAfter bu (listedMembers s bu) w := by
  unfold listedMembers
  cases w with
  | workspace buId ws =>
    by_cases hbu : buId = bu
    · subst hbu
      simp [ChatWrite.into, tableAfter]
    · simp [ChatWrite.into, tableAfter, hbu, Function.update_of_ne (Ne.symm hbu)]
  | access buId personId hasAccess =>
    unfold ChatWrite.into ChatStore.accessUpdated
    dsimp only [tableAfter]
    cases hws : s.workspaces buId with
    | none =>
      dsimp only
      split
      · rename_i hbu
        rw [← hbu, hws]
        rfl
      · rfl
    | some ws =>
      dsimp only
      by_cases hbu : buId = bu
      · subst hbu
        simp [hws]
      · simp [hbu, Function.update_of_ne (Ne.symm hbu)]
  | conversation buId conv =>
    unfold ChatWrite.into ChatStore.dmCreated
    dsimp only
    split <;> rfl
  | message c msg =>
    unfold ChatWrite.into ChatStore.appendMessage
    dsimp only
    split <;> rfl
  | _ => rfl

/-- A step changes the listed members by what it writes. -/
theorem listedMembers_step {s s' : Tab} {l : TabLabel} (h : s.step l = some s') (bu : Uuid) :
    listedMembers s'.chat bu = (stepWrite s l).elim (listedMembers s.chat bu)
      (tableAfter bu (listedMembers s.chat bu)) := by
  have hmaps : listedMembers s'.chat bu =
      listedMembers ((stepWrite s l).elim s.chat (ChatWrite.into s.chat)) bu :=
    congrArg (fun m => ((m bu).map ChatWorkspaceResponse.members).getD []) (step_maps h).workspaces
  rw [hmaps]
  cases stepWrite s l with
  | none => rfl
  | some w => exact listedMembers_into s.chat w bu

/-- No action changes the listed members by itself. -/
theorem listedMembers_call (s : Tab) (action : Action) (bu : Uuid) :
    listedMembers (s.call action).chat bu = listedMembers s.chat bu := by
  rw [listedMembers_step (s := s) (l := .call action) rfl]
  cases action <;> rfl

/-- A new flag is entered for the person and leaves the others. -/
theorem mem_map_toggle {listed : List ChatMemberResponse} {p : Uuid} {a : Bool}
    {m : ChatMemberResponse}
    (h : m ∈ listed.map fun v => if v.personId = p then { v with hasAccess := a } else v) :
    p = m.personId ∧ (m ∈ (listed.filter fun v => v.personId = p).map fun v =>
        { v with hasAccess := a }) ∨
      p ≠ m.personId ∧ m ∈ listed := by
  obtain ⟨v, hv, rfl⟩ := List.mem_map.mp h
  by_cases hp : v.personId = p
  · rw [if_pos hp]
    exact .inl ⟨hp.symm, List.mem_map.mpr ⟨v, List.mem_filter.mpr ⟨hv, decide_eq_true hp⟩, rfl⟩⟩
  · rw [if_neg hp]
    exact .inr ⟨Ne.symm hp, hv⟩

/-- An answer leaves these flags of the members that the request is about, and the others as
they are. -/
theorem listedMembers_answer {s s' : Tab} {k : ℕ} {r : Request} {reply : Reply}
    (hk : s.requests[k]? = some r) (h : s.step (.answer k reply) = some s') (bu : Uuid) :
    (∀ m, m ∈ leaves (listedMembers s.chat bu) bu r reply ↔
      m ∈ listedMembers s'.chat bu ∧ Covers bu m.personId r) ∧
    ∀ m ∈ listedMembers s'.chat bu, ¬Covers bu m.personId r → m ∈ listedMembers s.chat bu := by
  have hwrite : stepWrite s (.answer k reply) = answerWrite r reply := by
    simp [stepWrite, hk]
  have hanswered : ∃ s'', ({ s with requests := s.requests.eraseIdx k } : Tab).answered r reply =
      some s'' := by
    obtain ⟨r', hk', hanswer⟩ := Option.bind_eq_some_iff.mp h
    cases hk.symm.trans hk'
    exact ⟨s', hanswer⟩
  rw [listedMembers_step h, hwrite]
  obtain ⟨listed, hlisted⟩ : ∃ listed, listed = listedMembers s.chat bu := ⟨_, rfl⟩
  rw [← hlisted]
  obtain ⟨s'', hs''⟩ := hanswered
  cases r with
  | getWorkspace buId =>
    cases reply <;> cases hs'' <;> by_cases hbu : buId = bu <;>
      simp [leaves, answerWrite, tableAfter, Covers, hbu]
  | updateAccess buId personId hasAccess =>
    cases reply <;> cases hs''
    · by_cases hbu : buId = bu <;>
        simp +contextual [leaves, answerWrite, Covers, hbu, eq_comm]
    · by_cases hbu : buId = bu
      · simp only [leaves, answerWrite, tableAfter, Covers, hbu, if_true, Option.elim_some,
          true_and]
        refine ⟨fun m => ⟨fun hm => ?_, fun hm => ?_⟩, fun m hm hother => ?_⟩
        · obtain ⟨v, hv, rfl⟩ := List.mem_map.mp hm
          obtain ⟨hv, hp⟩ := List.mem_filter.mp hv
          have hp := of_decide_eq_true hp
          exact ⟨List.mem_map.mpr ⟨v, hv, if_pos hp⟩, hp.symm⟩
        · obtain ⟨-, hleft⟩ | ⟨hne, -⟩ := mem_map_toggle hm.1
          · exact hleft
          · exact absurd hm.2 hne
        · obtain ⟨heq, -⟩ | ⟨-, hold⟩ := mem_map_toggle hm
          · exact absurd heq hother
          · exact hold
      · simp [leaves, answerWrite, tableAfter, Covers, hbu]
  | _ => cases reply <;> cases hs'' <;> simp [leaves, answerWrite, tableAfter, Covers]

/-- Requests of other lists are about nobody's access. -/
theorem not_covers_followUps {reply : Reply} {new : List Request} (h : FollowUps reply new)
    {f : Flight} (hf : f ∈ new.map fun request => (⟨request, none⟩ : Flight)) (bu person : Uuid) :
    ¬Covers bu person f.request := by
  obtain ⟨x, hx, rfl⟩ := List.mem_map.mp hf
  obtain ⟨-, rfl | rfl⟩ := h x hx <;> exact id

/-- A request that is handled stays on its way. -/
theorem covered_set {bu person : Uuid} {flights : List Flight} {k : ℕ} {f : Flight}
    {handled : Option (World × (ℕ → Turn BackendChoice Exn))} (hk : flights[k]? = some f)
    (h : ∃ g ∈ flights, Covers bu person g.request) :
    ∃ g ∈ flights.set k { f with handled }, Covers bu person g.request := by
  obtain ⟨g, hg, hcovers⟩ := h
  obtain ⟨j, hj⟩ := List.mem_iff_getElem?.mp hg
  by_cases hjk : j = k
  · subst hjk
    cases hk.symm.trans hj
    exact ⟨_, List.mem_set (List.getElem?_eq_some_iff.mp hk).1 _, hcovers⟩
  · refine ⟨g, List.mem_iff_getElem?.mpr ⟨j, ?_⟩, hcovers⟩
    rw [List.getElem?_set_ne (Ne.symm hjk), hj]

/-- A request about somebody stays when one about somebody else is answered. -/
theorem covered_eraseIdx {bu person : Uuid} {flights : List Flight} {k : ℕ} {f : Flight}
    (hk : flights[k]? = some f) (hother : ¬Covers bu person f.request)
    (h : ∃ g ∈ flights, Covers bu person g.request) :
    ∃ g ∈ flights.eraseIdx k, Covers bu person g.request := by
  obtain ⟨g, hg, hcovers⟩ := h
  obtain ⟨j, hj⟩ := List.mem_iff_getElem?.mp hg
  refine ⟨g, List.mem_eraseIdx_iff_getElem?.mpr ⟨j, ?_, hj⟩, hcovers⟩
  rintro rfl
  cases hk.symm.trans hj
  exact hother hcovers

/-- The backend leaves the access of everybody whom the request is not about. -/
theorem StoredAccess.handled {settings : Settings} {caller : Caller} {r : Request}
    {b : BackendRequest} (hr : backendRequest caller r = some b)
    (env : ℕ → Turn BackendChoice Exn) {s : World} {bu person : Uuid} {access : Bool}
    (hother : ¬Covers bu person r) (h : StoredAccess s.chat.db bu person access) :
    StoredAccess ((b.program settings).run backendMachine env s).2.chat.db bu person access := by
  cases r with
  | updateAccess buId personId hasAccess =>
    cases hr
    exact h.updateAccess env hother
  | _ =>
    first
      | (cases hr
         exact h.run (fun _ _ _ _ he => by cases he) env)
      | cases hr

/-- An answer keeps track of the stored flags exactly if it leaves true ones. -/
theorem tracks_answered {bu : Uuid} {s s' : ServedTab} {k : ℕ} {f : Flight} {reply : Reply}
    {new : List Request} (hs : Tracks bu s) (haligned : Aligned s')
    (hk : s.flights[k]? = some f) (hrequest : s.tab.requests[k]? = some f.request)
    (htab : s.tab.step (.answer k reply) = some s'.tab) (hworld : s'.world = s.world)
    (hflights : s'.flights = s.flights.eraseIdx k ++ new.map fun request => ⟨request, none⟩)
    (hnew : FollowUps reply new) : Tracks bu s' ↔ LeavesTrue bu s k reply := by
  have hleaves := listedMembers_answer hrequest htab bu
  constructor
  · intro hs' f' hf' m hm
    cases hk.symm.trans hf'
    have hflag := hs'.flags m ((hleaves.1 m).mp hm).1
    rw [hworld, hflights] at hflag
    refine hflag.imp_right fun ⟨g, hg, hcovers⟩ => ?_
    obtain hold | hnewer := List.mem_append.mp hg
    · exact ⟨g, hold, hcovers⟩
    · exact absurd hcovers (not_covers_followUps hnew hnewer bu m.personId)
  · intro hleft
    refine ⟨haligned, fun m hm => ?_⟩
    rw [hworld, hflights]
    have hflag : StoredAccess s.world.chat.db bu m.personId m.hasAccess ∨
        ∃ g ∈ s.flights.eraseIdx k, Covers bu m.personId g.request := by
      by_cases hmine : Covers bu m.personId f.request
      · exact hleft f hk m ((hleaves.1 m).mpr ⟨hm, hmine⟩)
      · exact (hs.flags m (hleaves.2 m hm hmine)).imp_right (covered_eraseIdx hk hmine)
    exact hflag.imp_right fun ⟨g, hg, hcovers⟩ => ⟨g, List.mem_append_left _ hg, hcovers⟩

/-- A step keeps track of the stored flags exactly if it brings no answer that leaves a false
one. -/
theorem tracks_step {settings : Settings} {caller : Caller} {bu : Uuid} {s s' : ServedTab}
    {l : ServedLabel} (hs : Tracks bu s) (howner : OneOwner l)
    (h : s.step settings caller l = some s') :
    Tracks bu s' ↔ AnswersTrue settings caller bu s l := by
  obtain ⟨hstepped, haligned⟩ := ServedTab.stepped hs.aligned h
  cases hstepped with
  | @call action _ new htab hworld hflights =>
    refine iff_of_true ⟨haligned, fun m hm => ?_⟩ trivial
    rw [htab, listedMembers_call] at hm
    rw [hworld, hflights]
    refine (hs.flags m hm).imp_right fun ⟨f, hf, hcovers⟩ => ⟨f, ?_, hcovers⟩
    exact List.mem_append_left _ hf
  | @handle k env f r hk hr =>
    refine iff_of_true ⟨haligned, fun m hm => ?_⟩ trivial
    by_cases hmine : Covers bu m.personId f.request
    · exact .inr (covered_set hk ⟨f, List.mem_of_getElem? hk, hmine⟩)
    · exact (hs.flags m hm).imp (fun hstored => hstored.handled hr env hmine) (covered_set hk)
  | @answered _ k f reply _ new hl hk hrequest htab hworld hflights hnew =>
    refine (tracks_answered hs haligned hk hrequest htab hworld hflights hnew).trans ?_
    obtain ⟨rfl, hreply⟩ | ⟨rfl, rfl⟩ := hl
    · refine ⟨fun hleft f' hf' reply' hreply' => ?_, fun hanswers => hanswers f hk reply hreply⟩
      cases hk.symm.trans hf'
      cases hreply.symm.trans hreply'
      exact hleft
    · exact Iff.rfl
  | @other request env =>
    refine iff_of_true ⟨haligned, fun m hm => (hs.flags m hm).imp_left fun hstored => ?_⟩ trivial
    refine hstored.run (fun _ _ _ _ he => ?_) env
    subst he
    exact howner

/-- A tracked table is settled when no request about it is on its way. -/
theorem Tracks.settled {bu : Uuid} {s : ServedTab} (hs : Tracks bu s) : Settled bu s :=
  fun hnone m hm => (hs.flags m hm).resolve_right fun ⟨f, hf, hcovers⟩ =>
    hnone f hf m.personId hcovers

/-- From a table that is not tracked the failure of all requests on their way leads to a table
that is settled on a false flag. -/
theorem exists_unsettled (settings : Settings) (caller : Caller) {bu : Uuid} {s : ServedTab}
    (haligned : Aligned s) (hs : ¬Tracks bu s) :
    ∃ n s', run (ServedTab.step settings caller) s (List.replicate n (.fail 0)) = some s' ∧
      s'.flights = [] ∧ ¬Settled bu s' := by
  obtain ⟨n, s', hrun, hempty, hworld, hmaps⟩ := exists_drain settings caller haligned
  refine ⟨n, s', hrun, hempty, fun hsettled => hs ⟨haligned, fun m hm => .inl ?_⟩⟩
  have hlisted : listedMembers s'.tab.chat bu = listedMembers s.tab.chat bu :=
    congrArg (fun w => ((w bu).map ChatWorkspaceResponse.members).getD []) hmaps.workspaces
  have hnone : ∀ f ∈ s'.flights, ∀ person, ¬Covers bu person f.request := fun f hf => by
    rw [hempty] at hf
    cases hf
  have hstored := hsettled hnone m (hlisted ▸ hm)
  rwa [hworld] at hstored

/-- For every interleaving of the requests of one owner, of their handling and of their
responses: when every response leaves true flags, or leaves the correction to a request that
is still on its way, the table is settled in every state without such requests. Where one
does not, the failure of the others leads to a table that is not. -/
theorem access_settles {settings : Settings} {caller : Caller} {bu : Uuid} {world : World}
    {ls : List ServedLabel} {s : ServedTab} (howner : ∀ l ∈ ls, OneOwner l)
    (h : run (ServedTab.step settings caller) (ServedTab.initial world) ls = some s) :
    (EachStep (ServedTab.step settings caller) (AnswersTrue settings caller bu)
        (ServedTab.initial world) ls →
      Throughout (ServedTab.step settings caller) (Settled bu) (ServedTab.initial world) ls) ∧
    (¬EachStep (ServedTab.step settings caller) (AnswersTrue settings caller bu)
        (ServedTab.initial world) ls →
      ∃ first n s', first <+: ls ∧ run (ServedTab.step settings caller) (ServedTab.initial world)
        (first ++ List.replicate n (.fail 0)) = some s' ∧ s'.flights = [] ∧ ¬Settled bu s') := by
  have hinitial : Tracks bu (ServedTab.initial world) := ⟨rfl, fun m hm => by cases hm⟩
  have htracks : Throughout (ServedTab.step settings caller) (Tracks bu) (ServedTab.initial world)
      ls ↔ EachStep (ServedTab.step settings caller) (AnswersTrue settings caller bu)
        (ServedTab.initial world) ls :=
    throughout_iff_eachStep_within (J := fun _ => True) (A := fun _ l => OneOwner l)
      (fun _ _ _ _ _ _ _ => trivial) (fun _ _ _ _ hs hl hstep => tracks_step hs hl hstep) trivial
      hinitial (eachStep_of_labels howner _) h
  refine ⟨fun hanswers => (htracks.mpr hanswers).mono fun _ hs => hs.settled, fun hnot => ?_⟩
  obtain ⟨first, m, hfirst, hrun, hm⟩ :=
    exists_not_of_not_throughout fun hall => hnot (htracks.mp hall)
  have hstart : Aligned (ServedTab.initial world) := rfl
  have haligned : Aligned m := run_invariant (I := Aligned)
    (fun _ _ _ hs hstep => (ServedTab.stepped hs hstep).2) hstart hrun
  obtain ⟨n, s', hrun', hempty, hunsettled⟩ := exists_unsettled settings caller haligned hm
  exact ⟨first, n, s', hfirst, run_trans hrun hrun', hempty, hunsettled⟩

/-- The workspace of the seed with a member. -/
def headquarters : ChatDb where
  workspaces := [⟨2, InitialDataSeed.buId, InitialDataSeed.companyId, "Aura Wellness Demo HQ", 0⟩]
  members := [⟨3, 2, InitialDataSeed.personId, "Member", true, 0⟩]
  conversations := []
  participants := []
  messages := []
  valid := by constructor <;> simp [UniqueColumn, groups, Uuid.nil]

/-- The installation with this workspace. -/
def installed : World := { World.seeded with chat := ⟨headquarters, []⟩ }

/-- The seeded owner. -/
def owner : Caller := ⟨InitialDataSeed.personId, InitialDataSeed.companyId⟩

/-- The owner loads the table. -/
def loads : List ServedLabel :=
  [.call (.fetchWorkspace InitialDataSeed.buId), .handle 0 (servedWith 30), .answer 0]

/-- The owner loads the table and takes an access away. -/
def loadsAndRevokes : List ServedLabel := loads ++
  [.call (.updateAccess InitialDataSeed.buId InitialDataSeed.personId false),
    .handle 0 (servedWith 30), .answer 0]

/-- The owner takes an access away while the table is loaded once more. -/
def revokesWhileLoading : List ServedLabel := loads ++
  [.call (.fetchWorkspace InitialDataSeed.buId), .handle 0 (servedWith 30),
    .call (.updateAccess InitialDataSeed.buId InitialDataSeed.personId false),
    .handle 1 (servedWith 30), .answer 1, .answer 0]

/-- A table that has been loaded and changed shows the stored access. -/
theorem access_settles_revoked : ∃ s, run (ServedTab.step Settings.plain owner)
    (ServedTab.initial installed) loadsAndRevokes = some s ∧
      listedMembers s.tab.chat InitialDataSeed.buId =
        [⟨InitialDataSeed.personId, "Demo", "Owner", "Member", false⟩] ∧
      Settled InitialDataSeed.buId s := by
  obtain ⟨s, hrun, hlisted⟩ : ∃ s, run (ServedTab.step Settings.plain owner)
      (ServedTab.initial installed) loadsAndRevokes = some s ∧
        listedMembers s.tab.chat InitialDataSeed.buId =
          [⟨InitialDataSeed.personId, "Demo", "Owner", "Member", false⟩] := ⟨_, rfl, rfl⟩
  have howner : ∀ l ∈ loadsAndRevokes, OneOwner l := by
    intro l hl
    simp only [loadsAndRevokes, loads, List.cons_append, List.nil_append, List.mem_cons,
      List.not_mem_nil, or_false] at hl
    obtain rfl | rfl | rfl | rfl | rfl | rfl := hl <;> trivial
  exact ⟨s, hrun, hlisted, ((access_settles howner hrun).1 (by decide)).last hrun⟩

/-- The response of the older load enters the access that has been taken away. -/
theorem access_not_settled : ∃ s, run (ServedTab.step Settings.plain owner)
    (ServedTab.initial installed) revokesWhileLoading = some s ∧ s.flights = [] ∧
      ¬Settled InitialDataSeed.buId s := by
  refine ⟨_, rfl, rfl, fun hsettled => ?_⟩
  have hstored := hsettled (fun f hf => by cases hf) _ (List.mem_singleton_self _)
  exact absurd hstored (by decide)

end AuraWellness.Frontend.AccessTable
