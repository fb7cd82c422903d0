import AuraWellness.Chat.Growth

/-!
# Where messages are placed

A message is well placed when its conversation belongs to its workspace and,
for a direct conversation, its sender takes part. Neither `SendMessage` nor
the schema compares the three identifiers, so the rows stay well placed exactly
in the runs in which every accepted save is addressed to such a conversation.
-/

namespace AuraWellness.Chat.Placement

open AuraWellness.Lib.Transition AuraWellness.Lib.Calls
open AuraWellness.Chat.Entities AuraWellness.Chat.Schema AuraWellness.Chat.Repositories
open AuraWellness.Chat.Services AuraWellness.Chat.Growth

/-- The conversation of the message belongs to the message's workspace, and the
sender takes part in it when it is a direct one. -/
def Placed (d : ChatDb) (m : ChatMessage) : Prop :=
  ∃ c ∈ d.conversations, c.id = m.conversationID ∧ c.workspaceID = m.workspaceID ∧
    (c.type = .dm → Participates d c.id m.personID)

instance (d : ChatDb) (m : ChatMessage) : Decidable (Placed d m) := by
  unfold Placed
  infer_instance

/-- Every stored message is well placed. -/
def MessagesPlaced (d : ChatDb) : Prop := ∀ m ∈ d.messages, Placed d m

instance (d : ChatDb) : Decidable (MessagesPlaced d) := by
  unfold MessagesPlaced
  infer_instance

/-- The arguments of a send name no conversation of another workspace and no
direct conversation of other people. -/
def Addressed (d : ChatDb) (workspaceID conversationID personID : Uuid) : Prop :=
  ∀ c ∈ d.conversations, c.id = conversationID →
    c.workspaceID = workspaceID ∧ (c.type = .dm → Participates d c.id personID)

instance (d : ChatDb) (w c p : Uuid) : Decidable (Addressed d w c p) := by
  unfold Addressed
  infer_instance

/-- When the label lets a `SendMessage` call save under a new identifier in an
existing workspace, the arguments of that call are well addressed. -/
def SaveAddressed (p : Service) : ServiceLabel → Prop
  | .turn i t => ∀ choice r m next w conv person name content,
    t.choice? = some choice → p.threads[i]? = some ⟨r, .call (.messageSave m) next⟩ →
    r.call = .sendMessage w conv person name content →
    (¬∃ v ∈ p.state.db.messages, v.id = choice.uuid) →
    (∃ v ∈ p.state.db.workspaces, v.id = w) →
    Addressed p.state.db w conv person
  | _ => True

/-- Rows that are only added keep a message well placed. -/
theorem Placed.grows {d d' : ChatDb} {m : ChatMessage} (h : Placed d m) (hg : Grows d d') :
    Placed d' m := by
  obtain ⟨c, hc, hid, hw, hdm⟩ := h
  exact ⟨c, hg.conversations c hc, hid, hw, fun ht => hg.participates (hdm ht)⟩

/-- Conversations are identified by their id, so a message to an existing
conversation is well placed exactly when it is well addressed. -/
theorem placed_iff_addressed {d : ChatDb} {m : ChatMessage}
    (h : ∃ c ∈ d.conversations, c.id = m.conversationID) :
    Placed d m ↔ Addressed d m.workspaceID m.conversationID m.personID := by
  constructor
  · rintro ⟨c, hc, hid, hw, hdm⟩ v hv hvid
    have he : v = c := d.valid.conversations_id.eq hv hc (hvid.trans hid.symm)
    rw [he]
    exact ⟨hw, hdm⟩
  · intro ha
    obtain ⟨c, hc, hid⟩ := h
    have hca := ha c hc hid
    exact ⟨c, hc, hid, hca.1, hca.2⟩

/-- A call that saves no message keeps every message well placed. -/
theorem exec_keeps_placed {op : ServiceCall} {choice : Choice} {s : ChatState}
    (hop : ∀ m, op ≠ .messageSave m) (hs : MessagesPlaced s.db) :
    MessagesPlaced (op.exec choice s).2.db := by
  have he : Effect choice s.db op (op.exec choice s).2.db := exec_effect op choice s
  intro m hm
  obtain hold | ⟨m₀, hm₀, -⟩ := he.message_new hm
  · exact (hs m hold).grows he.grows
  · exact absurd hm₀ (hop m₀)

/-- A save keeps every message well placed exactly when it is refused for its
identifier or its workspace, or is well addressed. -/
theorem save_placed_iff {m : ChatMessage} {choice : Choice} {s : ChatState}
    (hs : MessagesPlaced s.db) :
    MessagesPlaced ((ServiceCall.messageSave m).exec choice s).2.db ↔
      ((¬∃ v ∈ s.db.messages, v.id = choice.uuid) →
        (∃ v ∈ s.db.workspaces, v.id = m.workspaceID) →
        Addressed s.db m.workspaceID m.conversationID m.personID) := by
  obtain ⟨row, d, hr, hc⟩ | ⟨e, hr, hc⟩ :=
    commitWrite_cases "save message" s (s.db.insertMessage choice m)
  · obtain ⟨hid, hw, hconv, hrow, hd⟩ := insertMessage_ok_iff.mp hr
    have hg : Grows s.db d := (Effect.messageSave hr).grows
    have hplace : Placed d row ↔ Addressed s.db m.workspaceID m.conversationID m.personID := by
      rw [hrow, ← placed_iff_addressed (m := m) hconv]
      unfold Placed Participates
      rw [hd]
    rw [ServiceCall.exec, hc]
    constructor
    · intro h _ _
      have hmem : row ∈ d.messages := by
        rw [hd]
        exact List.mem_append_right _ (List.mem_singleton_self row)
      exact hplace.mp (h row hmem)
    · intro ha x hx
      rw [hd] at hx
      obtain hx | hx := List.mem_append.mp hx
      · exact (hs x hx).grows hg
      · rw [List.mem_singleton.mp hx]
        exact hplace.mpr (ha hid hw)
  · rw [ServiceCall.exec, hc]
    refine ⟨fun _ hid hw c hc' hcid => ?_, fun _ => hs⟩
    obtain ⟨row, d, hok⟩ := insertMessage_accepts hid hw ⟨c, hc', hcid⟩
    rw [hr] at hok
    cases hok

/-- One step of the service keeps every message well placed exactly when the
save that it may contain is well addressed. -/
theorem step_placed_iff {p p' : Service} {l : ServiceLabel}
    (hJ : p.Each fun _ r _ q => q.AllOps (Makes r.call)) (hp : MessagesPlaced p.state.db)
    (h : Service.step p l = some p') : MessagesPlaced p'.state.db ↔ SaveAddressed p l := by
  cases l with
  | start r =>
    cases h
    exact ⟨fun _ => trivial, fun _ => hp⟩
  | crash i e =>
    obtain ⟨_, _, _, -, rfl⟩ := Pool.step_crash h
    exact ⟨fun _ => trivial, fun _ => hp⟩
  | turn i t =>
    obtain ⟨r, op, next, hi, -, rfl⟩ := Pool.step_turn h
    dsimp only
    cases ht : t.choice? with
    | none =>
      rw [chatMachine.answer_state_none op p.state ht]
      refine ⟨fun _ choice _ _ _ _ _ _ _ _ hu => ?_, fun _ => hp⟩
      rw [ht] at hu
      cases hu
    | some choice =>
      rw [chatMachine.answer_state_some op p.state ht]
      by_cases hop : ∃ m, op = .messageSave m
      · obtain ⟨m, rfl⟩ := hop
        have hmakes : Makes r.call (.messageSave m) := (hJ i _ hi).1
        refine (save_placed_iff hp).trans ⟨fun h => ?_, fun h hid hw => ?_⟩
        · intro choice' r' m' next' w c person name content hu hj hcall hid hw
          cases ht.symm.trans hu
          cases hi.symm.trans hj
          rw [hcall] at hmakes
          cases hmakes with
          | sendSave hmw hmc hmp =>
            subst hmw hmc hmp
            exact h hid hw
        · generalize hcall : r.call = call at hmakes
          cases hmakes with
          | sendSave hmw hmc hmp =>
            subst hmw hmc hmp
            exact h choice r m next _ _ _ _ _ ht hi hcall hid hw
      · have hkeep : MessagesPlaced (op.exec choice p.state).2.db :=
          exec_keeps_placed (fun m hm => hop ⟨m, hm⟩) hp
        refine ⟨fun _ choice' r' m' next' _ _ _ _ _ _ hj => ?_, fun _ => hkeep⟩
        cases hi.symm.trans hj
        exact absurd ⟨m', rfl⟩ hop

/-- Every message is well placed in all states of a run exactly when each save
that the run accepts is addressed to a conversation of its workspace in which
its sender, when it is a direct one, takes part. -/
theorem messagesPlaced_throughout_iff {ls : List ServiceLabel} {p : Service}
    (h : run Service.step Service.initial ls = some p) :
    Throughout Service.step (fun q => MessagesPlaced q.state.db) Service.initial ls ↔
      EachStep Service.step SaveAddressed Service.initial ls := by
  refine throughout_iff_eachStep (J := fun q => q.Each fun _ r _ q => q.AllOps (Makes r.call))
    (fun s l s' hs _ hl => Pool.step_allOps body_makes hs hl)
    (fun s l s' hs hp hl => step_placed_iff hs hp hl) ?_ ?_ h
  · intro i th hi
    cases hi
  · intro m hm
    cases hm

/-- A member of workspace 10 sends to the group conversation 30 of workspace 11. -/
def foreignSend : List ServiceLabel :=
  [.start (Call.createWorkspace 1 3 "HQ").request, served 0 10 0,
    .start (Call.createWorkspace 2 4 "Branch").request, served 1 11 0,
    .start (Call.addMember 10 5 "Admin").request, served 2 20 0,
    .start (Call.getOrCreateGroupConversation 11).request, served 3 1 0, served 3 30 0,
    .start (Call.sendMessage 10 30 5 "Ann" "hello").request, served 4 1 0, served 4 50 0]

/-- The service stores messages that are not well placed. -/
theorem messagesPlaced_not_invariant :
    ¬∀ ls p, run Service.step Service.initial ls = some p → MessagesPlaced p.state.db := by
  intro h
  have hrun : ((run Service.step Service.initial foreignSend).map
      fun p => decide (MessagesPlaced p.state.db)) = some false := by decide
  obtain ⟨p, hp, hbad⟩ := Option.map_eq_some_iff.mp hrun
  exact of_decide_eq_false hbad (h foreignSend p hp)

/-- The equivalence at the run of a foreign send. -/
theorem messagesPlaced_throughout_foreignSend :
    Throughout Service.step (fun q => MessagesPlaced q.state.db) Service.initial foreignSend ↔
      EachStep Service.step SaveAddressed Service.initial foreignSend := by
  have hrun : (run Service.step Service.initial foreignSend).isSome = true := by decide
  obtain ⟨p, hp⟩ := Option.isSome_iff_exists.mp hrun
  exact messagesPlaced_throughout_iff hp

end AuraWellness.Chat.Placement
