import AuraWellness.Frontend.Stores

/-!
# What a logout leaves

`logout` resets the store of the user and no other one. What the other stores
hold before it is there for the next user of the tab, so two sessions end alike
exactly if they leave the same contents in them.
-/

namespace AuraWellness.Frontend.Logout

open AuraWellness.Lib.Transition
open AuraWellness.Chat.Entities AuraWellness.Backend.Entities AuraWellness.Backend.Services
open AuraWellness.Frontend.Stores

/-- The contents of the four stores. -/
def contents (s : Tab) : AuthStore × ChatStore × StaffStore × BusinessUnitStore :=
  (s.auth, s.chat, s.staff, s.businessUnits)

/-- What the stores for chat, staff and business units hold, but whether they load. -/
structure Leftover where
  workspaces : Uuid → Option ChatWorkspaceResponse
  conversations : Uuid → Option (List ChatConversationResponse)
  activeConversationId : Option Uuid
  messages : Uuid → Option (List ChatMessageDto)
  chatError : Option String
  staff : List StaffResponse
  staffBusinessUnits : List BusinessUnit
  persons : List PersonOption
  staffError : Option String
  businessUnits : List BusinessUnit
  businessUnitError : Option String

/-- What a logout would leave. -/
def leftover (s : Tab) : Leftover where
  workspaces := s.chat.workspaces
  conversations := s.chat.conversations
  activeConversationId := s.chat.activeConversationId
  messages := s.chat.messages
  chatError := s.chat.error
  staff := s.staff.staff
  staffBusinessUnits := s.staff.businessUnits
  persons := s.staff.persons
  staffError := s.staff.error
  businessUnits := s.businessUnits.businessUnits
  businessUnitError := s.businessUnits.error

/-- A store loads only while a request of it is in flight. -/
structure LoadsOnRequest (s : Tab) : Prop where
  chat : s.chat.isLoading = true → ∃ buId, .getWorkspace buId ∈ s.requests
  staff : s.staff.isLoading = true → .getStaff ∈ s.requests
  businessUnits : s.businessUnits.isLoading = true → .getBusinessUnits ∈ s.requests

/-- The last step of the session: the request of a `logout` has succeeded. -/
def LogsOut (s s' : Tab) : Prop :=
  ∃ k, s.requests[k]? = some .logout ∧ s.step (.answer k .done) = some s'

/-- What loads after a change that does not start to load. -/
theorem LoadsOnRequest.congr {s s' : Tab} (hs : LoadsOnRequest s)
    (hrequests : ∀ r ∈ s.requests, r ∈ s'.requests)
    (hchat : s'.chat.isLoading = s.chat.isLoading) (hstaff : s'.staff.isLoading = s.staff.isLoading)
    (hunits : s'.businessUnits.isLoading = s.businessUnits.isLoading) : LoadsOnRequest s' where
  chat h := by
    obtain ⟨buId, hmem⟩ := hs.chat (hchat.symm.trans h)
    exact ⟨buId, hrequests _ hmem⟩
  staff h := hrequests _ (hs.staff (hstaff.symm.trans h))
  businessUnits h := hrequests _ (hs.businessUnits (hunits.symm.trans h))

/-- Another request in flight changes nothing. -/
theorem LoadsOnRequest.send {s : Tab} (hs : LoadsOnRequest s) (request : Request) :
    LoadsOnRequest (s.send request) :=
  hs.congr (fun _ h => List.mem_append_left _ h) rfl rfl rfl

/-- `fetch` of the staff store loads on its request. -/
theorem LoadsOnRequest.fetchStaff {s : Tab} (hs : LoadsOnRequest s) :
    LoadsOnRequest s.fetchStaff where
  chat h := by
    obtain ⟨buId, hmem⟩ := hs.chat h
    exact ⟨buId, List.mem_append_left _ hmem⟩
  staff _ := List.mem_append_right _ List.mem_cons_self
  businessUnits h := List.mem_append_left _ (hs.businessUnits h)

/-- `fetch` of the store for business units loads on its request. -/
theorem LoadsOnRequest.fetchBusinessUnits {s : Tab} (hs : LoadsOnRequest s) :
    LoadsOnRequest s.fetchBusinessUnits where
  chat h := by
    obtain ⟨buId, hmem⟩ := hs.chat h
    exact ⟨buId, List.mem_append_left _ hmem⟩
  staff h := List.mem_append_left _ (hs.staff h)
  businessUnits _ := List.mem_append_right _ List.mem_cons_self

@[simp] theorem appendMessage_isLoading (s : ChatStore) (c : Uuid) (msg : ChatMessageDto) :
    (s.appendMessage c msg).isLoading = s.isLoading := by
  unfold ChatStore.appendMessage
  dsimp only
  split <;> rfl

@[simp] theorem accessUpdated_isLoading (s : ChatStore) (buId personId : Uuid) (hasAccess : Bool) :
    (s.accessUpdated buId personId hasAccess).isLoading = s.isLoading := by
  unfold ChatStore.accessUpdated
  split <;> rfl

@[simp] theorem dmCreated_isLoading (s : ChatStore) (buId : Uuid) (conv : ChatConversationResponse) :
    (s.dmCreated buId conv).isLoading = s.isLoading := by
  unfold ChatStore.dmCreated
  dsimp only
  split <;> rfl

/-- An action starts to load together with a request. -/
theorem LoadsOnRequest.call {s : Tab} (hs : LoadsOnRequest s) (action : Action) :
    LoadsOnRequest (s.call action) := by
  cases action with
  | setUser user => exact hs.congr (fun _ h => h) rfl rfl rfl
  | fetchWorkspace buId =>
    refine ⟨fun _ => ⟨buId, List.mem_append_right _ List.mem_cons_self⟩, fun h => ?_, fun h => ?_⟩
    · exact List.mem_append_left _ (hs.staff h)
    · exact List.mem_append_left _ (hs.businessUnits h)
  | setActiveConversation conversationId => exact hs.congr (fun _ h => h) rfl rfl rfl
  | appendMessage conversationId msg =>
    exact hs.congr (fun _ h => h) (appendMessage_isLoading s.chat conversationId msg) rfl rfl
  | hydrateStaff staff bus => exact hs.congr (fun _ h => h) rfl rfl rfl
  | clearStaffError => exact hs.congr (fun _ h => h) rfl rfl rfl
  | fetchStaff => exact hs.fetchStaff
  | updateRole personId role =>
    unfold Tab.call
    dsimp only
    split
    · exact hs.send _
    · exact hs
  | hydrateBusinessUnits bus => exact hs.congr (fun _ h => h) rfl rfl rfl
  | clearBusinessUnitError => exact hs.congr (fun _ h => h) rfl rfl rfl
  | fetchBusinessUnits => exact hs.fetchBusinessUnits
  | _ => exact hs.send _

/-- What else is in flight stays so when a request is answered. -/
theorem mem_eraseIdx_of_ne {requests : List Request} {k : ℕ} {r x : Request}
    (hk : requests[k]? = some r) (hx : x ∈ requests) (hne : x ≠ r) : x ∈ requests.eraseIdx k := by
  obtain ⟨j, hj⟩ := List.mem_iff_getElem?.mp hx
  refine List.mem_eraseIdx_iff_getElem?.mpr ⟨j, fun hjk => ?_, hj⟩
  rw [hjk] at hj
  exact hne (Option.some.inj (hj.symm.trans hk))

/-- What an answer to a request leaves loading, and which requests it leaves in flight. -/
structure LoadsAfter (r : Request) (s s' : Tab) : Prop where
  requests : ∀ x ∈ s.requests, x ∈ s'.requests
  chat : s'.chat.isLoading = true → s.chat.isLoading = true ∧ ∀ buId, r ≠ .getWorkspace buId
  staff : s'.staff.isLoading = true →
    .getStaff ∈ s'.requests ∨ s.staff.isLoading = true ∧ r ≠ .getStaff
  businessUnits : s'.businessUnits.isLoading = true →
    .getBusinessUnits ∈ s'.requests ∨ s.businessUnits.isLoading = true ∧ r ≠ .getBusinessUnits

/-- An answer that touches no flag. -/
theorem LoadsAfter.quiet {r : Request} {s s' : Tab} (hrequests : s'.requests = s.requests)
    (hchat : s'.chat.isLoading = s.chat.isLoading)
    (hstaff : s'.staff.isLoading = s.staff.isLoading)
    (hunits : s'.businessUnits.isLoading = s.businessUnits.isLoading)
    (hr : ∀ buId, r ≠ .getWorkspace buId) (hr' : r ≠ .getStaff) (hr'' : r ≠ .getBusinessUnits) :
    LoadsAfter r s s' := by
  constructor
  · rw [hrequests]
    exact fun _ h => h
  · rw [hchat]
    exact fun h => ⟨h, hr⟩
  · rw [hstaff]
    exact fun h => Or.inr ⟨h, hr'⟩
  · rw [hunits]
    exact fun h => Or.inr ⟨h, hr''⟩

/-- An answer that lists the staff anew. -/
theorem LoadsAfter.fetchStaff {r : Request} (s : Tab) (hr : ∀ buId, r ≠ .getWorkspace buId)
    (hr' : r ≠ .getBusinessUnits) : LoadsAfter r s s.fetchStaff where
  requests _ h := List.mem_append_left _ h
  chat h := ⟨h, hr⟩
  staff _ := Or.inl (List.mem_append_right _ List.mem_cons_self)
  businessUnits h := Or.inr ⟨h, hr'⟩

/-- An answer that lists the business units anew. -/
theorem LoadsAfter.fetchBusinessUnits {r : Request} (s : Tab)
    (hr : ∀ buId, r ≠ .getWorkspace buId) (hr' : r ≠ .getStaff) :
    LoadsAfter r s s.fetchBusinessUnits where
  requests _ h := List.mem_append_left _ h
  chat h := ⟨h, hr⟩
  staff h := Or.inr ⟨h, hr'⟩
  businessUnits _ := Or.inl (List.mem_append_right _ List.mem_cons_self)

/-- What every answer leaves loading. -/
theorem answered_loading {s s' : Tab} {r : Request} {reply : Reply}
    (h : s.answered r reply = some s') : LoadsAfter r s s' := by
  unfold Tab.answered at h
  split at h
  -- the three requests that end the loading of their store, successful and failed
  · cases h
    exact ⟨fun _ h => h, fun h => absurd h Bool.false_ne_true, fun h => Or.inr ⟨h, by simp⟩,
      fun h => Or.inr ⟨h, by simp⟩⟩
  · cases h
    exact ⟨fun _ h => h, fun h => absurd h Bool.false_ne_true, fun h => Or.inr ⟨h, by simp⟩,
      fun h => Or.inr ⟨h, by simp⟩⟩
  · cases h
    exact ⟨fun _ h => h, fun h => ⟨h, by simp⟩, fun h => absurd h Bool.false_ne_true,
      fun h => Or.inr ⟨h, by simp⟩⟩
  · cases h
    exact ⟨fun _ h => h, fun h => ⟨h, by simp⟩, fun h => absurd h Bool.false_ne_true,
      fun h => Or.inr ⟨h, by simp⟩⟩
  · cases h
    exact ⟨fun _ h => h, fun h => ⟨h, by simp⟩, fun h => Or.inr ⟨h, by simp⟩,
      fun h => absurd h Bool.false_ne_true⟩
  · cases h
    exact ⟨fun _ h => h, fun h => ⟨h, by simp⟩, fun h => Or.inr ⟨h, by simp⟩,
      fun h => absurd h Bool.false_ne_true⟩
  · rename_i hworkspace hstaff hunits
    cases h
    exact LoadsAfter.quiet rfl rfl rfl rfl hworkspace hstaff hunits
  · cases h
    exact LoadsAfter.quiet rfl rfl rfl rfl (by simp) (by simp) (by simp)
  · cases h
    exact LoadsAfter.quiet rfl (accessUpdated_isLoading s.chat _ _ _) rfl rfl (by simp) (by simp)
      (by simp)
  · cases h
    exact LoadsAfter.quiet rfl rfl rfl rfl (by simp) (by simp) (by simp)
  · cases h
    exact LoadsAfter.quiet rfl (dmCreated_isLoading s.chat _ _) rfl rfl (by simp) (by simp)
      (by simp)
  · cases h
    exact LoadsAfter.quiet rfl rfl rfl rfl (by simp) (by simp) (by simp)
  · cases h
    exact LoadsAfter.quiet rfl rfl rfl rfl (by simp) (by simp) (by simp)
  · cases h
    exact LoadsAfter.quiet rfl rfl rfl rfl (by simp) (by simp) (by simp)
  · cases h
    exact LoadsAfter.fetchStaff s (by simp) (by simp)
  · cases h
    exact LoadsAfter.fetchStaff s (by simp) (by simp)
  · cases h
    exact LoadsAfter.quiet rfl rfl rfl rfl (by simp) (by simp) (by simp)
  · cases h
    exact LoadsAfter.fetchBusinessUnits s (by simp) (by simp)
  · cases h

/-- Every step keeps the stores loading on requests only. -/
theorem loadsOnRequest_step {s s' : Tab} {l : TabLabel} (hs : LoadsOnRequest s)
    (h : s.step l = some s') : LoadsOnRequest s' := by
  cases l with
  | call action =>
    cases h
    exact hs.call action
  | answer k reply =>
    obtain ⟨r, hk, hanswer⟩ := Option.bind_eq_some_iff.mp h
    obtain ⟨hrequests, hchat, hstaff, hunits⟩ := answered_loading hanswer
    refine ⟨fun hloading => ?_, fun hloading => ?_, fun hloading => ?_⟩
    · obtain ⟨hbefore, hr⟩ := hchat hloading
      obtain ⟨buId, hmem⟩ := hs.chat hbefore
      exact ⟨buId, hrequests _ (mem_eraseIdx_of_ne hk hmem (Ne.symm (hr buId)))⟩
    · obtain hmem | ⟨hbefore, hr⟩ := hstaff hloading
      · exact hmem
      · exact hrequests _ (mem_eraseIdx_of_ne hk (hs.staff hbefore) (Ne.symm hr))
    · obtain hmem | ⟨hbefore, hr⟩ := hunits hloading
      · exact hmem
      · exact hrequests _ (mem_eraseIdx_of_ne hk (hs.businessUnits hbefore) (Ne.symm hr))

/-- Without a request in flight nothing loads. -/
theorem LoadsOnRequest.idle {s : Tab} (hs : LoadsOnRequest s) (h : s.requests = []) :
    s.chat.isLoading = false ∧ s.staff.isLoading = false ∧ s.businessUnits.isLoading = false := by
  refine ⟨?_, ?_, ?_⟩ <;> refine Bool.eq_false_iff.mpr fun hloading => ?_
  · obtain ⟨buId, hmem⟩ := hs.chat hloading
    rw [h] at hmem
    cases hmem
  · have hmem := hs.staff hloading
    rw [h] at hmem
    cases hmem
  · have hmem := hs.businessUnits hloading
    rw [h] at hmem
    cases hmem

/-- The answer stores nothing for the next user, if nothing was there. -/
def AnswersNothing : Request → Reply → Prop
  | .getWorkspace _, _ => False
  | .getStaff, .staff staff bus => staff = [] ∧ bus = []
  | .getStaff, _ => False
  | .getBusinessUnits, .businessUnits bus => bus = []
  | .getBusinessUnits, _ => False
  | .getConversations _, .conversations _ => False
  | .createDM _ _, .conversation _ => False
  | .getConversationMessages _ _, .messages _ => False
  | .getMessages _, .messages _ => False
  | .getPersons, .persons persons => persons = []
  | _, _ => True

/-- The step stores nothing for the next user, if nothing was there. -/
def StoresNothing (s : Tab) : TabLabel → Prop
  | .call (.setActiveConversation _) => False
  | .call (.appendMessage _ _) => False
  | .call (.hydrateStaff staff bus) => staff = [] ∧ bus = []
  | .call (.hydrateBusinessUnits bus) => bus = []
  | .call _ => True
  | .answer k reply =>
    match s.requests[k]? with
    | some r => AnswersNothing r reply
    | none => True

/-- Nothing is left for the next user. -/
def LeavesNothing (s : Tab) : Prop := leftover s = leftover Tab.initial

/-- After a change of what is left, nothing is left exactly if the change leaves nothing
where nothing was left. -/
theorem LeavesNothing.change_iff {s s' : Tab} (hs : LeavesNothing s) (f : Leftover → Leftover)
    (h : leftover s' = f (leftover s)) :
    LeavesNothing s' ↔ f (leftover Tab.initial) = leftover Tab.initial := by
  unfold LeavesNothing at hs ⊢
  rw [h, hs]

/-- Storing lists of staff and of their business units. -/
theorem LeavesNothing.staff_iff {s s' : Tab} (hs : LeavesNothing s) {staff : List StaffResponse}
    {bus : List BusinessUnit}
    (h : leftover s' = { leftover s with staff, staffBusinessUnits := bus }) :
    LeavesNothing s' ↔ staff = [] ∧ bus = [] := by
  rw [hs.change_iff (fun l => { l with staff, staffBusinessUnits := bus }) h]
  constructor
  · exact fun h => ⟨congrArg Leftover.staff h, congrArg Leftover.staffBusinessUnits h⟩
  · intro h
    obtain ⟨rfl, rfl⟩ := h
    rfl

/-- Storing a list of business units. -/
theorem LeavesNothing.businessUnits_iff {s s' : Tab} (hs : LeavesNothing s)
    {bus : List BusinessUnit} (h : leftover s' = { leftover s with businessUnits := bus }) :
    LeavesNothing s' ↔ bus = [] := by
  rw [hs.change_iff (fun l => { l with businessUnits := bus }) h]
  constructor
  · exact fun h => congrArg Leftover.businessUnits h
  · intro h
    obtain rfl := h
    rfl

/-- After an action nothing is left exactly if it stores nothing. -/
theorem leavesNothing_call {s : Tab} (hs : LeavesNothing s) (action : Action) :
    LeavesNothing (s.call action) ↔ StoresNothing s (.call action) := by
  cases action with
  | setActiveConversation conversationId =>
    refine iff_of_false (fun h => ?_) id
    cases congrArg Leftover.activeConversationId h
  | appendMessage conversationId msg =>
    refine iff_of_false (fun h => ?_) id
    have hnone : s.chat.messages conversationId = none :=
      congrFun (congrArg Leftover.messages hs) conversationId
    have hempty := congrFun (congrArg Leftover.messages h) conversationId
    simp [leftover, Tab.call, ChatStore.appendMessage, hnone, Tab.initial] at hempty
  | hydrateStaff staff bus => exact hs.staff_iff rfl
  | hydrateBusinessUnits bus => exact hs.businessUnits_iff rfl
  | fetchWorkspace buId =>
    exact iff_of_true ((hs.change_iff (fun l => { l with chatError := none }) rfl).mpr rfl) trivial
  | clearStaffError =>
    exact iff_of_true ((hs.change_iff (fun l => { l with staffError := none }) rfl).mpr rfl) trivial
  | fetchStaff =>
    exact iff_of_true ((hs.change_iff (fun l => { l with staffError := none }) rfl).mpr rfl) trivial
  | clearBusinessUnitError =>
    exact iff_of_true ((hs.change_iff (fun l => { l with businessUnitError := none }) rfl).mpr rfl)
      trivial
  | fetchBusinessUnits =>
    exact iff_of_true ((hs.change_iff (fun l => { l with businessUnitError := none }) rfl).mpr rfl)
      trivial
  | updateRole personId role =>
    refine iff_of_true ?_ trivial
    unfold Tab.call
    dsimp only
    split <;> exact hs
  | _ => exact iff_of_true hs trivial

/-- Loaded messages are left. -/
theorem not_leavesNothing_messages {s : Tab} {key : Uuid} {msgs : List ChatMessageDto} :
    ¬LeavesNothing { s with chat := s.chat.messagesFetched key msgs } := by
  intro h
  have hloaded := congrFun (congrArg Leftover.messages h) key
  simp [leftover, Tab.initial, ChatStore.messagesFetched] at hloaded

/-- A conversation that was opened is left. -/
theorem not_leavesNothing_dm {s : Tab} {buId : Uuid} {conv : ChatConversationResponse} :
    ¬LeavesNothing { s with chat := s.chat.dmCreated buId conv } := by
  intro h
  have hactive := congrArg Leftover.activeConversationId h
  unfold leftover ChatStore.dmCreated at hactive
  dsimp only at hactive
  split at hactive <;> cases hactive

/-- Access that is granted in a workspace that is not loaded leaves nothing. -/
theorem leavesNothing_access {s : Tab} (hs : LeavesNothing s) (buId personId : Uuid)
    (hasAccess : Bool) :
    LeavesNothing { s with chat := s.chat.accessUpdated buId personId hasAccess } := by
  have hnone : s.chat.workspaces buId = none := congrFun (congrArg Leftover.workspaces hs) buId
  have hsame : s.chat.accessUpdated buId personId hasAccess = s.chat := by
    simp only [ChatStore.accessUpdated, hnone]
  rw [hsame]
  exact hs

/-- A role that is changed in an empty list leaves nothing. -/
theorem leavesNothing_role {s : Tab} (hs : LeavesNothing s) (personId : Uuid) (role : String) :
    LeavesNothing { s with staff := s.staff.roleUpdated personId role } := by
  have hempty : s.staff.staff = [] := congrArg Leftover.staff hs
  have hsame : (s.staff.roleUpdated personId role).staff = s.staff.staff := by
    simp [StaffStore.roleUpdated, hempty]
  calc leftover { s with staff := s.staff.roleUpdated personId role }
      = { leftover s with staff := (s.staff.roleUpdated personId role).staff } := rfl
    _ = leftover s := by rw [hsame]; rfl
    _ = leftover Tab.initial := hs

/-- After an answer nothing is left exactly if it stores nothing. -/
theorem leavesNothing_answered {s s' : Tab} {r : Request} {reply : Reply} (hs : LeavesNothing s)
    (h : s.answered r reply = some s') : LeavesNothing s' ↔ AnswersNothing r reply := by
  unfold Tab.answered at h
  split at h
  · rename_i buId ws
    cases h
    refine iff_of_false (fun h => ?_) id
    have hloaded := congrFun (congrArg Leftover.workspaces h) buId
    simp [leftover, Tab.initial] at hloaded
  · cases h
    exact iff_of_false (fun h => by cases congrArg Leftover.chatError h) id
  · cases h
    exact hs.staff_iff rfl
  · cases h
    exact iff_of_false (fun h => by cases congrArg Leftover.staffError h) id
  · cases h
    exact hs.businessUnits_iff rfl
  · cases h
    exact iff_of_false (fun h => by cases congrArg Leftover.businessUnitError h) id
  · -- a failure that is only thrown
    rename_i hworkspace hstaff hunits
    cases h
    refine iff_of_true hs ?_
    cases r with
    | getWorkspace buId => exact absurd rfl (hworkspace buId)
    | getStaff => exact absurd rfl hstaff
    | getBusinessUnits => exact absurd rfl hunits
    | _ => trivial
  · cases h
    exact iff_of_true hs trivial
  · cases h
    exact iff_of_true (leavesNothing_access hs _ _ _) trivial
  · rename_i buId convs
    cases h
    refine iff_of_false (fun h => ?_) id
    have hloaded := congrFun (congrArg Leftover.conversations h) buId
    simp [leftover, Tab.initial, ChatStore.conversationsFetched] at hloaded
  · cases h
    exact iff_of_false not_leavesNothing_dm id
  · cases h
    exact iff_of_false not_leavesNothing_messages id
  · cases h
    exact iff_of_false not_leavesNothing_messages id
  · rename_i persons
    cases h
    refine (hs.change_iff (fun l => { l with persons }) rfl).trans ?_
    constructor
    · exact fun h => congrArg Leftover.persons h
    · intro h
      obtain rfl := h
      rfl
  · cases h
    exact iff_of_true ((leavesNothing_call hs .fetchStaff).mpr trivial) trivial
  · cases h
    exact iff_of_true ((leavesNothing_call hs .fetchStaff).mpr trivial) trivial
  · cases h
    exact iff_of_true (leavesNothing_role hs _ _) trivial
  · cases h
    exact iff_of_true ((leavesNothing_call hs .fetchBusinessUnits).mpr trivial) trivial
  · cases h

/-- A step leaves nothing exactly if it stores nothing. -/
theorem leavesNothing_step {s s' : Tab} {l : TabLabel} (hs : LeavesNothing s)
    (h : s.step l = some s') : LeavesNothing s' ↔ StoresNothing s l := by
  cases l with
  | call action =>
    cases h
    exact leavesNothing_call hs action
  | answer k reply =>
    obtain ⟨r, hk, hanswer⟩ := Option.bind_eq_some_iff.mp h
    have hstores : StoresNothing s (.answer k reply) = AnswersNothing r reply := by
      simp only [StoresNothing, hk]
    rw [hstores]
    exact leavesNothing_answered (s := { s with requests := s.requests.eraseIdx k }) hs hanswer

/-- Throughout a run nothing is left for the next user exactly if no step stores anything. -/
theorem leavesNothing_throughout_iff {ls : List TabLabel} {s : Tab}
    (hrun : run Tab.step Tab.initial ls = some s) :
    Throughout Tab.step LeavesNothing Tab.initial ls ↔
      EachStep Tab.step StoresNothing Tab.initial ls :=
  throughout_iff_eachStep (J := fun _ => True) (fun _ _ _ _ _ _ => trivial)
    (fun _ _ _ _ hs h => leavesNothing_step hs h) trivial rfl hrun

/-- What a completed logout leaves. -/
theorem LogsOut.contents_eq {s s' : Tab} (h : LogsOut s s') :
    contents s' = (AuthStore.loggedOut, s.chat, s.staff, s.businessUnits) := by
  obtain ⟨k, hk, hstep⟩ := h
  obtain ⟨r, hr, hanswer⟩ := Option.bind_eq_some_iff.mp hstep
  cases hk.symm.trans hr
  cases hanswer
  rfl

/-- What a stored leftover without loading says about the stores. -/
theorem stores_eq_of_leftover {s s' : Tab} (h : leftover s = leftover s')
    (hchat : s.chat.isLoading = s'.chat.isLoading) (hstaff : s.staff.isLoading = s'.staff.isLoading)
    (hunits : s.businessUnits.isLoading = s'.businessUnits.isLoading) :
    s.chat = s'.chat ∧ s.staff = s'.staff ∧ s.businessUnits = s'.businessUnits := by
  have hchat' : s.chat = s'.chat := by
    cases hc : s.chat
    cases hc' : s'.chat
    simp only [leftover, hc, hc', Leftover.mk.injEq] at h hchat
    simp only [ChatStore.mk.injEq]
    exact ⟨h.1, h.2.1, h.2.2.1, h.2.2.2.1, hchat, h.2.2.2.2.1⟩
  have hstaff' : s.staff = s'.staff := by
    cases hc : s.staff
    cases hc' : s'.staff
    simp only [leftover, hc, hc', Leftover.mk.injEq] at h hstaff
    simp only [StaffStore.mk.injEq]
    obtain ⟨-, -, -, -, -, hrows, hbus, hpersons, herror, -⟩ := h
    exact ⟨hrows, hbus, hpersons, hstaff, herror⟩
  have hunits' : s.businessUnits = s'.businessUnits := by
    cases hc : s.businessUnits
    cases hc' : s'.businessUnits
    simp only [leftover, hc, hc', Leftover.mk.injEq] at h hunits
    simp only [BusinessUnitStore.mk.injEq]
    obtain ⟨-, -, -, -, -, -, -, -, -, hbus, herror⟩ := h
    exact ⟨hbus, hunits, herror⟩
  exact ⟨hchat', hstaff', hunits'⟩

/-- When a session has ended with a logout and no request in flight, nothing loads. -/
theorem not_loading {h : List TabLabel} {s s' : Tab} (hrun : run Tab.step Tab.initial h = some s)
    (hout : LogsOut s s') (hidle : s'.requests = []) :
    s.chat.isLoading = false ∧ s.staff.isLoading = false ∧ s.businessUnits.isLoading = false := by
  have hinitial : LoadsOnRequest Tab.initial := by
    constructor <;> intro hloading <;> exact absurd hloading Bool.false_ne_true
  have hs : LoadsOnRequest s :=
    run_invariant (fun _ _ _ hs h => loadsOnRequest_step hs h) hinitial hrun
  obtain ⟨k, hk, hstep⟩ := hout
  have hflags := (loadsOnRequest_step hs hstep).idle hidle
  have hsame := LogsOut.contents_eq ⟨k, hk, hstep⟩
  unfold contents at hsame
  simp only [Prod.mk.injEq] at hsame
  obtain ⟨-, hchat, hstaff, hunits⟩ := hsame
  rw [hchat, hstaff, hunits] at hflags
  exact hflags

/-- A session that stores nothing leaves nothing. -/
theorem leavesNothing_of_eachStep {h : List TabLabel} {s : Tab}
    (hrun : run Tab.step Tab.initial h = some s)
    (hstores : EachStep Tab.step StoresNothing Tab.initial h) : LeavesNothing s :=
  run_guarded (fun _ _ _ hs hG h => (leavesNothing_step hs h).mpr hG) rfl hstores hrun

/-- After two sessions that end with a logout and no request in flight, the stores hold
the same exactly if the sessions have left the same; and they do when neither has stored
anything. -/
theorem logout_isolates_iff {h₁ h₂ : List TabLabel} {s₁ s₂ s₁' s₂' : Tab}
    (hrun₁ : run Tab.step Tab.initial h₁ = some s₁) (hrun₂ : run Tab.step Tab.initial h₂ = some s₂)
    (hout₁ : LogsOut s₁ s₁') (hout₂ : LogsOut s₂ s₂')
    (hidle₁ : s₁'.requests = []) (hidle₂ : s₂'.requests = []) :
    (contents s₁' = contents s₂' ↔ leftover s₁ = leftover s₂) ∧
    (EachStep Tab.step StoresNothing Tab.initial h₁ →
      EachStep Tab.step StoresNothing Tab.initial h₂ → contents s₁' = contents s₂') := by
  have hiff : contents s₁' = contents s₂' ↔ leftover s₁ = leftover s₂ := by
    rw [hout₁.contents_eq, hout₂.contents_eq]
    constructor
    · intro h
      simp only [Prod.mk.injEq] at h
      obtain ⟨-, hchat, hstaff, hunits⟩ := h
      unfold leftover
      rw [hchat, hstaff, hunits]
    · intro h
      obtain ⟨hchat₁, hstaff₁, hunits₁⟩ := not_loading hrun₁ hout₁ hidle₁
      obtain ⟨hchat₂, hstaff₂, hunits₂⟩ := not_loading hrun₂ hout₂ hidle₂
      obtain ⟨hchat, hstaff, hunits⟩ := stores_eq_of_leftover h (hchat₁.trans hchat₂.symm)
        (hstaff₁.trans hstaff₂.symm) (hunits₁.trans hunits₂.symm)
      rw [hchat, hstaff, hunits]
  refine ⟨hiff, fun hstores₁ hstores₂ => hiff.mpr ?_⟩
  exact (leavesNothing_of_eachStep hrun₁ hstores₁).trans
    (leavesNothing_of_eachStep hrun₂ hstores₂).symm

/-- An owner looks at the business units of the company and signs out. -/
def looksAtUnits : List TabLabel :=
  [.call (.setUser (some ⟨1, 2, 3, "Owner", "Ann", "Lee"⟩)), .call .fetchBusinessUnits,
    .answer 0 (.businessUnits [⟨2, 3, "Spa", 0⟩]), .call .logout]

/-- The tab with these business units. -/
def withUnits (auth : AuthStore) (requests : List Request) : Tab :=
  { Tab.initial with auth, requests, businessUnits := ⟨[⟨2, 3, "Spa", 0⟩], false, none⟩ }

/-- The equivalence for this session and one that does nothing but sign out. -/
theorem logout_isolates_looksAtUnits :
    (contents (withUnits AuthStore.loggedOut []) = contents Tab.initial ↔
      leftover (withUnits (AuthStore.setUser (some ⟨1, 2, 3, "Owner", "Ann", "Lee"⟩)) [.logout]) =
        leftover { Tab.initial with requests := [.logout] }) ∧
    (EachStep Tab.step StoresNothing Tab.initial looksAtUnits →
      EachStep Tab.step StoresNothing Tab.initial [.call .logout] →
        contents (withUnits AuthStore.loggedOut []) = contents Tab.initial) := by
  have hlooks : run Tab.step Tab.initial looksAtUnits =
      some (withUnits (AuthStore.setUser (some ⟨1, 2, 3, "Owner", "Ann", "Lee"⟩)) [.logout]) := rfl
  have hleaves : run Tab.step Tab.initial [.call .logout] =
      some { Tab.initial with requests := [.logout] } := rfl
  exact logout_isolates_iff hlooks hleaves ⟨0, rfl, rfl⟩ ⟨0, rfl, rfl⟩ rfl rfl

/-- The owner's business units are still there for the next user of the tab. -/
theorem logout_not_isolating : ¬∀ (h₁ h₂ : List TabLabel) (s₁ s₂ s₁' s₂' : Tab),
    run Tab.step Tab.initial h₁ = some s₁ → run Tab.step Tab.initial h₂ = some s₂ →
      LogsOut s₁ s₁' → LogsOut s₂ s₂' → s₁'.requests = [] → s₂'.requests = [] →
        contents s₁' = contents s₂' := by
  intro h
  have hsame := h looksAtUnits [.call .logout] _ _ _ _ rfl rfl ⟨0, rfl, rfl⟩ ⟨0, rfl, rfl⟩ rfl rfl
  have hunits := congrArg (fun c => BusinessUnitStore.businessUnits c.2.2.2) hsame
  cases hunits

end AuraWellness.Frontend.Logout
