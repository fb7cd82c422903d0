import AuraWellness.Chat.DirectMessages

/-!
# Participants and members

Participants and members are two tables without a key between them. A call
that adds no participant keeps every participant a member; a call for a direct
conversation adds the two persons it is asked for, members or not.
-/

namespace AuraWellness.Chat.Membership

open AuraWellness.Lib.Calls AuraWellness.Lib.Keyed
open AuraWellness.Chat.Entities AuraWellness.Chat.Schema AuraWellness.Chat.Repositories
open AuraWellness.Chat.Services AuraWellness.Chat.Growth AuraWellness.Chat.DirectMessages

/-- The person has a member row in the workspace. -/
def IsMember (d : ChatDb) (workspaceID personID : Uuid) : Prop :=
  ∃ m ∈ d.members, memberKey m = (workspaceID, personID)

instance (d : ChatDb) (w p : Uuid) : Decidable (IsMember d w p) := by
  unfold IsMember
  infer_instance

/-- The person has a member row in the workspace, and the row grants access. -/
def HasAccess (d : ChatDb) (workspaceID personID : Uuid) : Prop :=
  ∃ m ∈ d.members, memberKey m = (workspaceID, personID) ∧ m.hasAccess = true

instance (d : ChatDb) (w p : Uuid) : Decidable (HasAccess d w p) := by
  unfold HasAccess
  infer_instance

/-- The member row that grants access is the one that a message is checked against. -/
theorem HasAccess.getByWorkspaceAndPerson {d : ChatDb} {w p : Uuid} (h : HasAccess d w p) :
    ∃ m, MemberRepo.getByWorkspaceAndPerson d w p = .ok m ∧ m.hasAccess = true := by
  obtain ⟨m, hm, hkey, haccess⟩ := h
  have hfound : d.members.find? (fun m => memberKey m = (w, p)) = some m :=
    (find?_eq_some_iff d.valid.members_key).mpr ⟨hm, hkey⟩
  refine ⟨m, ?_, haccess⟩
  unfold MemberRepo.getByWorkspaceAndPerson
  rw [hfound]

/-- Every participant of a conversation is a member of its workspace. -/
def ParticipantsAreMembers (d : ChatDb) : Prop :=
  ∀ c ∈ d.conversations, ∀ p ∈ d.participants, p.conversationID = c.id →
    IsMember d c.workspaceID p.personID

instance (d : ChatDb) : Decidable (ParticipantsAreMembers d) := by
  unfold ParticipantsAreMembers
  infer_instance

/-- A member stays a member. -/
theorem IsMember.grows {d d' : ChatDb} {w p : Uuid} (h : IsMember d w p) (hg : Grows d d') :
    IsMember d' w p := by
  obtain ⟨m, hm, hkey⟩ := h
  obtain ⟨m', hm', -, hkey'⟩ := hg.members m hm
  exact ⟨m', hm', hkey'.trans hkey⟩

/-- A database whose new participants are members of the workspaces of their
conversations. -/
theorem ParticipantsAreMembers.grows {d d' : ChatDb} (h : ParticipantsAreMembers d)
    (hg : Grows d d')
    (hnew : ∀ c x, Participates d' c x → Participates d c x ∨
      ∃ v ∈ d'.conversations, v.id = c ∧ IsMember d' v.workspaceID x) :
    ParticipantsAreMembers d' := by
  intro c hc p hp hpc
  obtain hold | ⟨v, hv, hvid, hmember⟩ := hnew p.conversationID p.personID ⟨p, hp, rfl, rfl⟩
  · obtain ⟨q, hq, hqc, hqp⟩ := hold
    obtain ⟨v, hv, hvid⟩ := d.valid.participants_conversation q hq
    have he : v = c := d'.valid.conversations_id.eq (hg.conversations v hv) hc
      (by rw [hvid, hqc, hpc])
    rw [← he, ← hqp]
    exact (h v hv q hq hvid.symm).grows hg
  · have he : v = c := d'.valid.conversations_id.eq hv hc (by rw [hvid, hpc])
    rw [← he]
    exact hmember

/-- Only an update that takes the access away ends it. -/
theorem exec_keeps_access {op : ServiceCall} {choice : Choice} {s : ChatState} {w p : Uuid}
    (hop : op ≠ .memberUpdateAccess w p false) (h : HasAccess s.db w p) :
    HasAccess (op.exec choice s).2.db w p := by
  obtain ⟨m, hm, hkey, haccess⟩ := h
  have keep : ∀ d' : ChatDb, (∀ v ∈ s.db.members, v ∈ d'.members) → HasAccess d' w p :=
    fun d' hsub => ⟨m, hsub m hm, hkey, haccess⟩
  have heffect := exec_effect op choice s
  generalize (op.exec choice s).2.db = d' at heffect
  cases heffect with
  | same => exact keep _ fun v hv => hv
  | workspaceCreate h =>
    obtain ⟨-, -, -, -, hd⟩ := insertWorkspace_ok_iff.mp h
    exact keep _ fun v hv => by rw [hd]; exact hv
  | memberUpsert h =>
    obtain ⟨-, ⟨-, -, -, hd⟩ | ⟨-, hd⟩⟩ := upsert_ok h
    · exact keep _ fun v hv => by rw [hd]; exact List.mem_append_left _ hv
    · refine ⟨_, by rw [hd]; exact List.mem_map_of_mem hm, ?_, ?_⟩
      · split <;> exact hkey
      · split <;> exact haccess
  | memberUpdateAccess h =>
    rename_i w' p' access row
    obtain ⟨-, -, -, hd⟩ | ⟨-, hd⟩ := updateAccess_ok h
    · exact keep _ fun v hv => by rw [hd]; exact List.mem_append_left _ hv
    · refine ⟨_, by rw [hd]; exact List.mem_map_of_mem hm, ?_, ?_⟩
      · split <;> exact hkey
      · split
        · rename_i hsame
          -- the row of the person is updated, so the update grants the access
          cases access with
          | true => rfl
          | false =>
            have he := hsame.symm.trans hkey
            cases he
            exact absurd rfl hop
        · exact haccess
  | messageSave h =>
    obtain ⟨-, -, -, -, hd⟩ := insertMessage_ok_iff.mp h
    exact keep _ fun v hv => by rw [hd]; exact hv
  | conversationCreate h =>
    obtain ⟨-, -, -, -, hd⟩ := insertConversation_ok_iff.mp h
    exact keep _ fun v hv => by rw [hd]; exact hv
  | conversationAddParticipant h =>
    obtain ⟨-, rfl⟩ | ⟨-, -, -, hd⟩ := insertParticipant_ok_iff.mp h
    · exact keep _ fun v hv => hv
    · exact keep _ fun v hv => by rw [hd]; exact hv

/-- A call that adds no participant keeps every participant a member. -/
theorem exec_keeps_members {op : ServiceCall} (hop : ∀ p, op ≠ .conversationAddParticipant p)
    (choice : Choice) {s : ChatState} (hs : ParticipantsAreMembers s.db) :
    ParticipantsAreMembers (op.exec choice s).2.db := by
  have hg : Grows s.db (op.exec choice s).2.db := (exec_effect op choice s).grows
  refine hs.grows hg fun c x hx => Or.inl ?_
  have hx' : Participates (chatMachine.answer op (.serve choice) s).2.db c x := hx
  exact participates_of_not_add hop hx'

/-- What a call for a direct conversation leaves: new participants are the
first person, and then the second, in a conversation of the workspace. -/
structure AddsPair (w a b : Uuid) (d d' : ChatDb) : Prop where
  grows : Grows d d'
  participants : ∀ c x, Participates d' c x → Participates d c x ∨
    ((∃ v ∈ d'.conversations, v.id = c ∧ v.workspaceID = w) ∧ a ≠ Uuid.nil ∧
      (x = a ∨ (x = b ∧ b ≠ Uuid.nil)))

theorem AddsPair.refl (w a b : Uuid) (d : ChatDb) : AddsPair w a b d d :=
  ⟨Grows.refl d, fun _ _ h => Or.inl h⟩

theorem AddsPair.trans {w a b : Uuid} {d d' d'' : ChatDb} (h : AddsPair w a b d d')
    (h' : AddsPair w a b d' d'') : AddsPair w a b d d'' := by
  refine ⟨h.grows.trans h'.grows, fun c x hx => ?_⟩
  obtain hx | hx := h'.participants c x hx
  · obtain hx | ⟨⟨v, hv, hid, hw⟩, hrest⟩ := h.participants c x hx
    · exact Or.inl hx
    · exact Or.inr ⟨⟨v, h'.grows.conversations v hv, hid, hw⟩, hrest⟩
  · exact Or.inr hx

/-- What a stage has to know for its own insert. -/
def Stage.Ready (w a b : Uuid) (s : ChatState) : Stage → Prop
  | .addingFirst c => (c ∈ s.db.conversations ∧ c.workspaceID = w) ∧ a ≠ Uuid.nil
  | .addingSecond c => (c ∈ s.db.conversations ∧ c.workspaceID = w) ∧ a ≠ Uuid.nil ∧ b ≠ Uuid.nil
  | _ => True

/-- The stage that a reply leads to knows what it has to know. -/
theorem stage_ready {stamps : ℕ → Stamp} {w a b : Uuid} {stage : Stage} {op : ServiceCall}
    {after : Except GoError op.Reply → Stage} {s : ChatState} (t : Turn Choice GoError)
    (hcalls : Stage.Calls stamps w a b stage op after) (h : Stage.Ready w a b s stage) :
    Stage.Ready w a b (chatMachine.answer op t s).2 (after (chatMachine.answer op t s).1) := by
  cases hcalls with
  | looking =>
    cases (chatMachine.answer (.conversationGetDMByParticipants w a b) t s).1 with
    | ok conv => trivial
    | error e =>
      dsimp only
      split <;> trivial
  | creating =>
    cases hr : (chatMachine.answer
      (.conversationCreate ⟨(stamps 0).id, w, .dm, (stamps 0).now⟩) t s).1 with
    | ok created =>
      obtain ⟨hstored, hw, -, -, -⟩ := answer_create_ok hr
      dsimp only
      split
      · trivial
      split
      · trivial
      · rename_i ha
        exact ⟨⟨hstored, hw⟩, ha⟩
    | error e => trivial
  | addingFirst created =>
    obtain ⟨⟨hstored, hw⟩, ha⟩ := h
    have hg := answer_grows (.conversationAddParticipant
      ⟨(stamps 1).id, created.id, a, (stamps 1).now⟩) t s
    cases (chatMachine.answer (.conversationAddParticipant
      ⟨(stamps 1).id, created.id, a, (stamps 1).now⟩) t s).1 with
    | ok u =>
      dsimp only
      split
      · trivial
      split
      · trivial
      · rename_i hb
        exact ⟨⟨hg.conversations created hstored, hw⟩, ha, hb⟩
    | error e => trivial
  | addingSecond created =>
    cases (chatMachine.answer (.conversationAddParticipant
      ⟨(stamps 2).id, created.id, b, (stamps 2).now⟩) t s).1 with
    | ok u => trivial
    | error e => trivial

/-- The call of a stage adds at most the pair. -/
theorem stage_addsPair {stamps : ℕ → Stamp} {w a b : Uuid} {stage : Stage} {op : ServiceCall}
    {after : Except GoError op.Reply → Stage} {s : ChatState} (t : Turn Choice GoError)
    (hcalls : Stage.Calls stamps w a b stage op after) (h : Stage.Ready w a b s stage) :
    AddsPair w a b s.db (chatMachine.answer op t s).2.db := by
  have hg := answer_grows op t s
  refine ⟨hg, fun c x hx => ?_⟩
  obtain hold | ⟨p, hp, hc, hx⟩ := answer_participates hx
  · exact Or.inl hold
  refine Or.inr ?_
  cases hcalls with
  | looking => cases hp
  | creating => cases hp
  | addingFirst created =>
    cases hp
    obtain ⟨⟨hstored, hw⟩, ha⟩ := h
    exact ⟨⟨created, hg.conversations created hstored, hc, hw⟩, ha, Or.inl hx.symm⟩
  | addingSecond created =>
    cases hp
    obtain ⟨⟨hstored, hw⟩, ha, hb⟩ := h
    exact ⟨⟨created, hg.conversations created hstored, hc, hw⟩, ha, Or.inr ⟨hx.symm, hb⟩⟩

/-- The rest of the program of a stage adds at most the pair. -/
theorem stage_run_addsPair {stamps : ℕ → Stamp} {w a b : Uuid} {stage : Stage} {s : ChatState}
    (env : ℕ → Turn Choice GoError) (h : Stage.Ready w a b s stage) :
    AddsPair w a b s.db ((stage.program stamps w a b).run chatMachine env s).2.db := by
  generalize hp : stage.program stamps w a b = p
  induction p generalizing stage s env with
  | ret r => exact AddsPair.refl w a b s.db
  | call op next ih =>
    obtain ⟨after, hcalls, hnext⟩ := stage.program_call hp
    have hadds := stage_addsPair (env 0) hcalls h
    have hready := stage_ready (env 0) hcalls h
    rw [Program.run_call]
    exact hadds.trans (ih _ _ hready (hnext _).symm)

/-- A whole call for a direct conversation adds at most its pair. -/
theorem getOrCreateDM_addsPair (stamps : ℕ → Stamp) (w a b : Uuid)
    (env : ℕ → Turn Choice GoError) (s : ChatState) :
    AddsPair w a b s.db ((ConversationService.getOrCreateDMConversation stamps w a b).run
      chatMachine env s).2.db := by
  have hready : Stage.Ready w a b s .looking := trivial
  have h : AddsPair w a b s.db ((Stage.looking.program stamps w a b).run chatMachine env s).2.db :=
    stage_run_addsPair env hready
  have hmap := Program.run_map chatMachine Response.conversation
    (ConversationService.getOrCreateDMConversation stamps w a b) env s
  have hprogram : Stage.program stamps w a b .looking =
      Response.conversation <$> ConversationService.getOrCreateDMConversation stamps w a b := rfl
  rw [hprogram, hmap] at h
  exact h

end AuraWellness.Chat.Membership
