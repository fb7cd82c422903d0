import AuraWellness.Lib.Results
import AuraWellness.Chat.Handlers

/-!
# What fits on the wire

An identifier fits if it has 128 bits, and a time if it is of the years 1 to 9999.
When the generated ones fit, so do all rows of the chat database and everything that
the services return, in every interleaving.
-/

namespace AuraWellness.Chat.Fitting

open AuraWellness.Lib.Calls AuraWellness.Lib.Transition AuraWellness.Lib.Ranked
open AuraWellness.Lib.Reversal
open AuraWellness.Lib.Keyed (forall_mem_concat)
open AuraWellness.Chat.Entities AuraWellness.Chat.Schema AuraWellness.Chat.Repositories
open AuraWellness.Chat.Services AuraWellness.Chat.Growth AuraWellness.Chat.Handlers

/-- The identifier has 128 bits. -/
def Bits (id : Uuid) : Prop := id < 2 ^ 128

instance (id : Uuid) : Decidable (Bits id) := by
  unfold Bits
  infer_instance

/-- The columns of a workspace fit. -/
def ChatWorkspace.Fits (w : ChatWorkspace) : Prop :=
  Bits w.id ∧ Bits w.buID ∧ Bits w.companyID ∧ Timestamp.IsValid w.createdAt

/-- The columns of a member fit. -/
def ChatWorkspaceMember.Fits (m : ChatWorkspaceMember) : Prop :=
  Bits m.id ∧ Bits m.workspaceID ∧ Bits m.personID ∧ Timestamp.IsValid m.createdAt

/-- The columns of a conversation fit. -/
def ChatConversation.Fits (c : ChatConversation) : Prop :=
  Bits c.id ∧ Bits c.workspaceID ∧ Timestamp.IsValid c.createdAt

/-- The columns of a participant fit. -/
def ChatConversationParticipant.Fits (p : ChatConversationParticipant) : Prop :=
  Bits p.id ∧ Bits p.conversationID ∧ Bits p.personID

/-- The columns of a message fit. -/
def ChatMessage.Fits (m : ChatMessage) : Prop :=
  Bits m.id ∧ Bits m.workspaceID ∧ Bits m.conversationID ∧ Bits m.personID ∧
    Timestamp.IsValid m.createdAt

/-- All rows fit. -/
structure FitsDb (d : Tables) : Prop where
  workspaces : ∀ w ∈ d.workspaces, ChatWorkspace.Fits w
  members : ∀ m ∈ d.members, ChatWorkspaceMember.Fits m
  conversations : ∀ c ∈ d.conversations, ChatConversation.Fits c
  participants : ∀ p ∈ d.participants, ChatConversationParticipant.Fits p
  messages : ∀ m ∈ d.messages, ChatMessage.Fits m

/-- The generated values of a statement fit. -/
def Choice.Fits (c : Choice) : Prop := Bits c.uuid ∧ Timestamp.IsValid c.now

/-- The generated values of a turn fit, if it takes effect. -/
def FittingTurn (t : Turn Choice GoError) : Prop := ∀ c ∈ t.choice?, Choice.Fits c

/-- The identifiers that a repository call stores fit. -/
def CallFits : ServiceCall → Prop
  | .workspaceCreate w => Bits w.buID ∧ Bits w.companyID
  | .memberUpsert m => Bits m.workspaceID ∧ Bits m.personID
  | .memberUpdateAccess w p _ => Bits w ∧ Bits p
  | .messageSave m => Bits m.workspaceID ∧ Bits m.conversationID ∧ Bits m.personID
  | .conversationCreate c => Bits c.workspaceID
  | .conversationAddParticipant p => Bits p.conversationID ∧ Bits p.personID
  | _ => True

/-- What a repository call has returned fits. -/
def ReturnFits : (op : ServiceCall) → op.Reply → Prop
  | .workspaceCreate _, w | .workspaceGetByBuID _, w | .workspaceGetByID _, w =>
    ChatWorkspace.Fits w
  | .memberUpsert _, m | .memberUpdateAccess _ _ _, m
  | .memberGetByWorkspaceAndPerson _ _, m => ChatWorkspaceMember.Fits m
  | .memberListByWorkspace _, ms =>
    ∀ m ∈ (ms : List ChatWorkspaceMember), ChatWorkspaceMember.Fits m
  | .messageSave _, m => ChatMessage.Fits m
  | .messageList _ _ _, ms => ∀ m ∈ (ms : List ChatMessage), ChatMessage.Fits m
  | .conversationCreate _, c | .conversationGetByID _, c | .conversationGetGroupByWorkspace _, c
  | .conversationGetDMByParticipants _ _ _, c => ChatConversation.Fits c
  | .conversationListByWorkspaceAndPerson _ _, cs =>
    ∀ c ∈ (cs : List ChatConversation), ChatConversation.Fits c
  | .conversationListParticipants _, ps =>
    ∀ p ∈ (ps : List ChatConversationParticipant), ChatConversationParticipant.Fits p
  | .conversationAddParticipant _, _ | .goPublish _ _, _ => True

/-- The reply of a repository call fits, unless it is an error. -/
def ReplyFits (op : ServiceCall) (r : Except GoError op.Reply) : Prop :=
  ∀ a, r = .ok a → ReturnFits op a

/-- An upserted member is stored. -/
theorem mem_of_upsert {d d' : ChatDb} {choice : Choice} {m row : ChatWorkspaceMember}
    (h : MemberRepo.upsert d choice m = .ok (row, d')) : row ∈ d'.members := by
  unfold MemberRepo.upsert at h
  split at h
  · cases h
  split at h
  · split at h
    · dsimp only at h
      split at h
      · rename_i found hfound
        cases h
        exact List.mem_of_find?_eq_some hfound
      · cases h
    · obtain ⟨-, -, -, hd⟩ := insertMember_ok_iff.mp h
      rw [hd]
      exact List.mem_append_right _ (List.mem_singleton_self _)
  · cases h

/-- So is one whose access was updated. -/
theorem mem_of_updateAccess {d d' : ChatDb} {choice : Choice} {w p : Uuid} {access : Bool}
    {row : ChatWorkspaceMember} (h : MemberRepo.updateAccess d choice w p access = .ok (row, d')) :
    row ∈ d'.members := by
  unfold MemberRepo.updateAccess at h
  dsimp only at h
  split at h
  · split at h
    · rename_i found hfound
      cases h
      exact List.mem_of_find?_eq_some hfound
    · cases h
  · obtain ⟨-, -, -, hd⟩ := insertMember_ok_iff.mp h
    rw [hd]
    exact List.mem_append_right _ (List.mem_singleton_self _)

/-- Members fit when others of their columns are rewritten. -/
theorem fits_map {rows : List ChatWorkspaceMember} {f : ChatWorkspaceMember → ChatWorkspaceMember}
    (h : ∀ m ∈ rows, ChatWorkspaceMember.Fits m)
    (hf : ∀ m, ChatWorkspaceMember.Fits m → ChatWorkspaceMember.Fits (f m)) :
    ∀ m ∈ rows.map f, ChatWorkspaceMember.Fits m := by
  intro m hm
  obtain ⟨v, hv, rfl⟩ := List.mem_map.mp hm
  exact hf v (h v hv)

/-- A fitting effect keeps the rows fitting. -/
theorem Effect.fits {choice : Choice} {d d' : ChatDb} {op : ServiceCall}
    (h : Effect choice d op d') (hop : CallFits op) (hchoice : Choice.Fits choice)
    (hd : FitsDb d.toTables) : FitsDb d'.toTables := by
  obtain ⟨hid, hnow⟩ := hchoice
  cases h with
  | same => exact hd
  | workspaceCreate h =>
    obtain ⟨-, -, -, rfl, hd'⟩ := insertWorkspace_ok_iff.mp h
    rw [hd']
    exact { hd with workspaces := forall_mem_concat hd.workspaces ⟨hid, hop.1, hop.2, hnow⟩ }
  | memberUpsert h =>
    obtain ⟨-, ⟨-, rfl, -, hd'⟩ | ⟨-, hd'⟩⟩ := upsert_ok h
    · rw [hd']
      exact { hd with members := forall_mem_concat hd.members ⟨hid, hop.1, hop.2, hnow⟩ }
    · rw [hd']
      exact { hd with members := fits_map hd.members fun v hv => by split <;> exact hv }
  | memberUpdateAccess h =>
    obtain ⟨-, rfl, -, hd'⟩ | ⟨-, hd'⟩ := updateAccess_ok h
    · rw [hd']
      exact { hd with members := forall_mem_concat hd.members ⟨hid, hop.1, hop.2, hnow⟩ }
    · rw [hd']
      exact { hd with members := fits_map hd.members fun v hv => by split <;> exact hv }
  | conversationCreate h =>
    obtain ⟨-, -, -, rfl, hd'⟩ := insertConversation_ok_iff.mp h
    rw [hd']
    exact { hd with conversations := forall_mem_concat hd.conversations ⟨hid, hop, hnow⟩ }
  | conversationAddParticipant h =>
    obtain ⟨-, rfl⟩ | ⟨-, -, -, hd'⟩ := insertParticipant_ok_iff.mp h
    · exact hd
    · rw [hd']
      exact { hd with participants := forall_mem_concat hd.participants ⟨hid, hop.1, hop.2⟩ }
  | messageSave h =>
    obtain ⟨-, -, -, rfl, hd'⟩ := insertMessage_ok_iff.mp h
    rw [hd']
    exact { hd with messages := forall_mem_concat hd.messages ⟨hid, hop.1, hop.2.1, hop.2.2, hnow⟩ }

/-- What a write returns was stored by it. -/
theorem commitWrite_return {α : Type} {label : String} {s : ChatState}
    {r : Except GoError (α × ChatDb)} {a : α} (h : (commitWrite label s r).1 = .ok a) :
    r = .ok (a, (commitWrite label s r).2.db) := by
  cases r with
  | ok ad =>
    cases h
    rfl
  | error e => cases h

/-- A call returns rows that fit when those that it leaves do. -/
theorem exec_returnFits {op : ServiceCall} {c : Choice} {s : ChatState}
    (hd : FitsDb (op.exec c s).2.db.toTables) : ReplyFits op (op.exec c s).1 := by
  intro a h
  cases op with
  | workspaceCreate w =>
    obtain ⟨-, -, -, -, htables⟩ := insertWorkspace_ok_iff.mp (commitWrite_return h)
    refine hd.workspaces a ?_
    change a ∈ (commitWrite _ _ _).2.db.toTables.workspaces
    rw [htables]
    exact List.mem_append_right _ (List.mem_singleton_self _)
  | memberUpsert m => exact hd.members a (mem_of_upsert (commitWrite_return h))
  | memberUpdateAccess w p access => exact hd.members a (mem_of_updateAccess (commitWrite_return h))
  | messageSave m =>
    obtain ⟨-, -, -, -, htables⟩ := insertMessage_ok_iff.mp (commitWrite_return h)
    refine hd.messages a ?_
    change a ∈ (commitWrite _ _ _).2.db.toTables.messages
    rw [htables]
    exact List.mem_append_right _ (List.mem_singleton_self _)
  | conversationCreate conv =>
    obtain ⟨-, -, -, -, htables⟩ := insertConversation_ok_iff.mp (commitWrite_return h)
    refine hd.conversations a ?_
    change a ∈ (commitWrite _ _ _).2.db.toTables.conversations
    rw [htables]
    exact List.mem_append_right _ (List.mem_singleton_self _)
  | workspaceGetByBuID bu => exact hd.workspaces a (getByBuID_ok h).1
  | workspaceGetByID id =>
    change WorkspaceRepo.getByID s.db id = .ok a at h
    unfold WorkspaceRepo.getByID at h
    split at h
    · rename_i w hw
      cases h
      exact hd.workspaces _ (List.mem_of_find?_eq_some hw)
    · cases h
  | memberListByWorkspace w =>
    cases h
    intro m hm
    exact hd.members m (List.mem_of_mem_filter (mem_sortOn.mp hm))
  | memberGetByWorkspaceAndPerson w p =>
    change MemberRepo.getByWorkspaceAndPerson s.db w p = .ok a at h
    unfold MemberRepo.getByWorkspaceAndPerson at h
    split at h
    · rename_i m hm
      cases h
      exact hd.members _ (List.mem_of_find?_eq_some hm)
    · cases h
  | messageList conv before limit =>
    change MessageRepo.list s.db c conv before limit = .ok a at h
    unfold MessageRepo.list at h
    split at h
    · cases h
    · cases h
      intro m hm
      rw [reverseInPlace_eq, List.mem_reverse] at hm
      exact hd.messages m (List.mem_of_mem_filter (mem_sortOn.mp (List.mem_of_mem_take hm)))
  | conversationGetByID id =>
    change ConversationRepo.getByID s.db id = .ok a at h
    unfold ConversationRepo.getByID at h
    split at h
    · rename_i conv hconv
      cases h
      exact hd.conversations _ (List.mem_of_find?_eq_some hconv)
    · cases h
  | conversationGetGroupByWorkspace w =>
    exact hd.conversations a (List.mem_of_mem_filter (mem_sortOn.mp (scanRow_ok h)))
  | conversationGetDMByParticipants w x y =>
    exact hd.conversations a (List.mem_of_mem_filter (mem_sortOn.mp (scanRow_ok h)))
  | conversationListByWorkspaceAndPerson w p =>
    cases h
    intro conv hconv
    obtain ⟨row, hrow, rfl⟩ := List.mem_map.mp (mem_sortOn.mp hconv)
    obtain ⟨x, hx, hjoin⟩ := List.mem_flatMap.mp (List.mem_of_mem_filter hrow)
    have hrow₁ : row.1 = x := by
      unfold ConversationRepo.joinParticipants at hjoin
      split at hjoin
      · rw [List.mem_singleton.mp hjoin]
      · obtain ⟨q, -, rfl⟩ := List.mem_map.mp hjoin
        rfl
    rw [hrow₁]
    exact hd.conversations x hx
  | conversationListParticipants conv =>
    cases h
    intro p hp
    exact hd.participants p (List.mem_of_mem_filter (mem_sortOn.mp hp))
  | conversationAddParticipant p => trivial
  | goPublish conv event => trivial

/-- A fitting turn keeps the rows fitting, and its reply fits. -/
theorem answer_fits {op : ServiceCall} {t : Turn Choice GoError} {s : ChatState}
    (hop : CallFits op) (ht : FittingTurn t) (hs : FitsDb s.db.toTables) :
    FitsDb (chatMachine.answer op t s).2.db.toTables ∧
      ReplyFits op (chatMachine.answer op t s).1 := by
  have executed : ∀ c, Choice.Fits c → FitsDb (op.exec c s).2.db.toTables := fun c hc =>
    Effect.fits (exec_effect op c s) hop hc hs
  cases t with
  | serve c =>
    have hc := executed c (ht c rfl)
    exact ⟨hc, exec_returnFits hc⟩
  | drop e => exact ⟨hs, fun a h => by cases h⟩
  | lost c e => exact ⟨executed c (ht c rfl), fun a h => by cases h⟩

/-- The identifiers that a call is made with fit. -/
def Call.Fits : Call → Prop
  | .createWorkspace bu company _ => Bits bu ∧ Bits company
  | .getByBuID bu => Bits bu
  | .getByID id => Bits id
  | .addMember w p _ => Bits w ∧ Bits p
  | .updateMemberAccess w p _ => Bits w ∧ Bits p
  | .listMembers w => Bits w
  | .getOrCreateGroupConversation w => Bits w
  | .getOrCreateDMConversation w a b => Bits w ∧ Bits a ∧ Bits b
  | .listConversations w p => Bits w ∧ Bits p
  | .getConversationParticipants c => Bits c
  | .getConversationByID id => Bits id
  | .sendMessage w c p _ _ => Bits w ∧ Bits c ∧ Bits p
  | .listMessages c _ _ => Bits c

/-- What a call returns fits. -/
def Response.Fits : Response → Prop
  | .workspace w => ChatWorkspace.Fits w
  | .member m => ChatWorkspaceMember.Fits m
  | .members ms => ∀ m ∈ ms, ChatWorkspaceMember.Fits m
  | .conversation c => ChatConversation.Fits c
  | .conversations cs => ∀ c ∈ cs, ChatConversation.Fits c
  | .participants ps => ∀ p ∈ ps, ChatConversationParticipant.Fits p
  | .message m => ChatMessage.Fits m
  | .messages ms => ∀ m ∈ ms, ChatMessage.Fits m

/-- The program makes calls that fit, and what it returns satisfies the property, as long
as the replies to its calls fit. -/
def Returning {α : Type} (P : α → Prop) (p : ServiceProgram α) : Prop :=
  p.Within CallFits ReplyFits fun r => ∀ a, r = .ok a → P a

/-- A single call returns what its reply is. -/
theorem returning_perform {op : ServiceCall} (hop : CallFits op) :
    Returning (ReturnFits op) (perform op) :=
  Program.within_perform hop fun _ hr => hr

/-- A call whose error is handled. -/
theorem returning_attempt_bind {β : Type} {P : β → Prop} {op : ServiceCall}
    {f : Except GoError op.Reply → ServiceProgram β} (hop : CallFits op)
    (hok : ∀ a, ReturnFits op a → Returning P (f (.ok a)))
    (herror : ∀ e, Returning P (f (.error e))) : Returning P (attempt op >>= f) := by
  refine ⟨hop, fun r hr => ?_⟩
  cases r with
  | ok a => exact hok a (hr a rfl)
  | error e => exact herror e

/-- A value returned at once. -/
theorem returning_pure {α : Type} {P : α → Prop} {a : α} (ha : P a) :
    Returning P (pure a : ServiceProgram α) := by
  intro b hb
  cases hb
  exact ha

/-- An error returns nothing. -/
theorem returning_throw {α : Type} {P : α → Prop} (e : GoError) :
    Returning P (Program.throw e : ServiceProgram α) :=
  fun b hb => by cases hb

/-- An error in front of the rest returns nothing. -/
theorem returning_ofExcept {α β : Type} {P : β → Prop} {x : Except GoError α}
    {f : α → ServiceProgram β} (hf : ∀ a, x = .ok a → Returning P (f a)) :
    Returning P (Program.ofExcept x >>= f) := by
  cases x with
  | error e => exact fun b hb => by cases hb
  | ok a => exact hf a rfl

/-- A call and what follows it. -/
theorem returning_bind {α β : Type} {P : α → Prop} {Q : β → Prop} {p : ServiceProgram α}
    {f : α → ServiceProgram β} (hp : Returning P p) (hf : ∀ a, P a → Returning Q (f a)) :
    Returning Q (p >>= f) :=
  Program.Within.bind hp (fun a ha => hf a (ha a rfl)) fun _ _ b hb => by cases hb

/-- Wrapping what is returned. -/
theorem returning_map {α β : Type} {P : α → Prop} {Q : β → Prop} {p : ServiceProgram α}
    {f : α → β} (hp : Returning P p) (hf : ∀ a, P a → Q (f a)) : Returning Q (f <$> p) := by
  unfold Returning
  rw [Program.map_eq_mapResult]
  refine Program.Within.mapResult hp fun r hr b hb => ?_
  cases r with
  | error e => cases hb
  | ok a =>
    cases hb
    exact hf a (hr a rfl)

/-- What the lookup-or-create of the group conversation returns fits. -/
theorem group_returning (stamps : ℕ → Stamp) {w : Uuid} (hw : Bits w) :
    Returning ChatConversation.Fits
      (ConversationService.getOrCreateGroupConversation stamps w) := by
  refine returning_attempt_bind trivial (fun conv hconv => returning_pure hconv) fun err => ?_
  dsimp only
  split
  · exact returning_throw _
  · refine returning_ofExcept fun c hc => returning_perform ?_
    obtain ⟨-, type, -, rfl⟩ := newConversation_ok.mp hc
    exact hw

/-- What the lookup-or-create of a direct conversation returns fits. -/
theorem dm_returning (stamps : ℕ → Stamp) {w a b : Uuid} (hw : Bits w) (ha : Bits a)
    (hb : Bits b) : Returning ChatConversation.Fits
      (ConversationService.getOrCreateDMConversation stamps w a b) := by
  refine returning_attempt_bind trivial (fun conv hconv => returning_pure hconv) fun err => ?_
  refine returning_ofExcept fun c hc => ?_
  obtain ⟨-, type, -, rfl⟩ := newConversation_ok.mp hc
  refine returning_bind (returning_perform hw) fun created hcreated => ?_
  unfold ConversationService.addBothParticipants
  refine returning_ofExcept fun pA hpA => ?_
  obtain ⟨-, -, rfl⟩ := newConversationParticipant_ok.mp hpA
  refine returning_bind (returning_perform ⟨hcreated.1, ha⟩) fun _ _ => ?_
  refine returning_ofExcept fun pB hpB => ?_
  obtain ⟨-, -, rfl⟩ := newConversationParticipant_ok.mp hpB
  exact returning_bind (returning_perform ⟨hcreated.1, hb⟩) fun _ _ => returning_pure hcreated

/-- What sending a message returns fits. -/
theorem send_returning (stamps : ℕ → Stamp) {w c p : Uuid} (hw : Bits w) (hc : Bits c)
    (hp : Bits p) (name content : String) : Returning ChatMessage.Fits
      (MessagingService.sendMessage stamps w c p name content) := by
  have hlookup : CallFits (.memberGetByWorkspaceAndPerson w p) := trivial
  refine returning_bind (returning_perform hlookup) fun member _ => ?_
  split
  · exact returning_throw _
  · refine returning_ofExcept fun m hm => ?_
    obtain ⟨-, -, -, -, rfl⟩ := newMessage_ok.mp hm
    refine returning_bind (returning_perform ⟨hw, hc, hp⟩) fun saved hsaved => ?_
    have hpublish : CallFits (.goPublish c ⟨saved⟩) := trivial
    exact returning_bind (returning_perform hpublish) fun _ _ => returning_pure hsaved

/-- What a call returns fits. -/
theorem body_returning {r : Request} (h : Call.Fits r.call) : Returning Response.Fits (body r) := by
  obtain ⟨call, stamps⟩ := r
  cases call with
  | createWorkspace bu company name =>
    refine returning_map (returning_ofExcept fun w hw => returning_perform ?_) fun _ ha => ha
    obtain ⟨-, -, -, rfl⟩ := newWorkspace_ok.mp hw
    exact h
  | getByBuID bu => exact returning_map (returning_perform trivial) fun _ ha => ha
  | getByID id => exact returning_map (returning_perform trivial) fun _ ha => ha
  | addMember w p role =>
    refine returning_map (returning_ofExcept fun m hm => returning_perform ?_) fun _ ha => ha
    obtain ⟨-, -, -, rfl⟩ := newMember_ok.mp hm
    exact h
  | updateMemberAccess w p access => exact returning_map (returning_perform h) fun _ ha => ha
  | listMembers w => exact returning_map (returning_perform trivial) fun _ ha => ha
  | getOrCreateGroupConversation w => exact returning_map (group_returning stamps h) fun _ ha => ha
  | getOrCreateDMConversation w a b =>
    exact returning_map (dm_returning stamps h.1 h.2.1 h.2.2) fun _ ha => ha
  | listConversations w p => exact returning_map (returning_perform trivial) fun _ ha => ha
  | getConversationParticipants c => exact returning_map (returning_perform trivial) fun _ ha => ha
  | getConversationByID id => exact returning_map (returning_perform trivial) fun _ ha => ha
  | sendMessage w c p name content =>
    exact returning_map (send_returning stamps h.1 h.2.1 h.2.2 name content) fun _ ha => ha
  | listMessages c before limit => exact returning_map (returning_perform trivial) fun _ ha => ha

/-- The calls of a label fit, and so do the values that its turn generates. -/
abbrev FittingLabel : Label Choice GoError Request → Prop :=
  Label.Meets (fun r => Call.Fits r.call) FittingTurn

/-- In every run with fitting calls and generated values all rows fit, and what the
programs return satisfies what follows of the calls and replies that they make. -/
theorem within_run {Q : Request → Except GoError Response → Prop} {s : ChatState}
    {p : Pool serviceSignature ChatState GoError Response Request}
    {ls : List (Label Choice GoError Request)} (hs : FitsDb s.db.toTables)
    (hls : ∀ l ∈ ls, FittingLabel l)
    (hbody : ∀ r, Call.Fits r.call → (body r).Within CallFits ReplyFits (Q r))
    (herror : ∀ r e, Q r (.error e)) (hr : run (Pool.step chatMachine body) ⟨s, []⟩ ls = some p) :
    FitsDb p.state.db.toTables ∧
      p.Each fun _ r _ q => q.Within CallFits ReplyFits (Q r) := by
  refine run_guarded (G := fun _ => FittingLabel)
    (I := fun p => FitsDb p.state.db.toTables ∧
      p.Each fun _ r _ q => q.Within CallFits ReplyFits (Q r))
    (fun p l p' hp hl h => ?_) ⟨hs, fun i th hi => by cases hi⟩ (eachStep_of_labels hls _) hr
  exact Pool.step_within (I := fun s => FitsDb s.db.toTables) hbody herror
    (fun op t s hop ht hs => answer_fits hop ht hs) hl hp h

end AuraWellness.Chat.Fitting
