import AuraWellness.Chat.DirectMessages

/-!
# What a lookup's outcome leads a get-or-create to do

The driver delivers a row, reports `pgx.ErrNoRows`, or fails in another way,
and the repository wraps the error. The group function tells the last two apart
by the text of the wrapped error; the direct function takes every error for an
absent conversation.
-/

namespace AuraWellness.Chat.LookupOutcomes

open AuraWellness.Lib.Calls
open AuraWellness.Chat.Entities AuraWellness.Chat.Schema AuraWellness.Chat.Repositories
open AuraWellness.Chat.Services AuraWellness.Chat.DirectMessages

/-- What the driver reports for the one row of a lookup. -/
inductive Outcome
  /-- A row is delivered. -/
  | row (conv : ChatConversation)
  /-- The error is `pgx.ErrNoRows`. -/
  | noRows
  /-- The error is another one, which `errors.Is` does not take for it. -/
  | failed (err : GoError) (other : err.kind ≠ .noRows)

/-- What a lookup method returns, as `scanRow` does for the rows of a query: its errors are wrapped
with its label. -/
def Outcome.returned (label : String) : Outcome → Except GoError ChatConversation
  | row conv => .ok conv
  | noRows => .error (errorf label errNoRows)
  | failed err _ => .error (errorf label err)

/-- The replies to a program whose first call is a lookup with this outcome. -/
def answering (outcome : Outcome) (rest : ℕ → (op : ServiceCall) → Except GoError op.Reply) :
    ℕ → (op : ServiceCall) → Except GoError op.Reply
  | 0, .conversationGetGroupByWorkspace _ => outcome.returned "get group conversation"
  | 0, .conversationGetDMByParticipants _ _ _ => outcome.returned "get dm conversation"
  | n, op => rest n op

/-- A get-or-create with these identifiers inserts exactly when the conversation
is known to be absent, and returns every other error of its lookup at once. -/
structure CreatesWhenAbsent (ids : List Uuid) (lookup : ServiceCall) (label : String)
    (outcome : Outcome) (played : List ServiceCall × Except GoError ChatConversation) : Prop where
  inserts : (∃ conv, .conversationCreate conv ∈ played.1) ↔
    outcome = .noRows ∧ ∀ id ∈ ids, id ≠ Uuid.nil
  returnsError : ∀ err other, outcome = .failed err other →
    played = ([lookup], .error (errorf label err))

variable {rest : ℕ → (op : ServiceCall) → Except GoError op.Reply}

/-- The group function from the lookup on, when it takes the conversation for
absent. -/
def playCreatingGroup (stamps : ℕ → Stamp) (w : Uuid)
    (rest : ℕ → (op : ServiceCall) → Except GoError op.Reply) :
    List ServiceCall × Except GoError ChatConversation :=
  if w = Uuid.nil then ([.conversationGetGroupByWorkspace w], .error (required "workspaceID"))
  else
    let create : ServiceCall := .conversationCreate ⟨(stamps 0).id, w, .group, (stamps 0).now⟩
    ([.conversationGetGroupByWorkspace w, create],
      rest 1 (.conversationCreate ⟨(stamps 0).id, w, .group, (stamps 0).now⟩))

/-- A constructor of a group conversation refuses only a nil workspace. -/
theorem newConversation_group (stamp : Stamp) (w : Uuid) :
    newConversation stamp w "group" =
      if w = Uuid.nil then .error (required "workspaceID")
      else .ok ⟨stamp.id, w, .group, stamp.now⟩ := by
  unfold newConversation requireID
  split <;> rfl

/-- The text that the group function compares is that of a wrapped error with
the text of no rows. -/
theorem groupError_text_iff {err : GoError} :
    (errorf "get group conversation" err).text =
      "get group conversation: " ++ errNoRows.text ↔ err.text = errNoRows.text :=
  String.append_right_inj "get group conversation: "

/-- The group function when its lookup reports the text of no rows. -/
theorem play_group_absent (stamps : ℕ → Stamp) (w : Uuid) {outcome : Outcome} {err : GoError}
    (h : outcome.returned "get group conversation" = .error (errorf "get group conversation" err))
    (htext : err.text = errNoRows.text) :
    (ConversationService.getOrCreateGroupConversation stamps w).play (answering outcome rest) =
      playCreatingGroup stamps w rest := by
  have hreply : answering outcome rest 0 (.conversationGetGroupByWorkspace w) =
      .error (errorf "get group conversation" err) := h
  unfold ConversationService.getOrCreateGroupConversation playCreatingGroup
  rw [Program.play_attempt_bind, hreply, newConversation_group]
  dsimp only
  rw [if_neg (not_not_intro (groupError_text_iff.mpr htext))]
  split
  · rfl
  · rfl

/-- The direct function from the lookup on, when the lookup has failed: its
first calls and, for a nil workspace, its result. -/
theorem play_dm_missing (stamps : ℕ → Stamp) (w a b : Uuid) (outcome : Outcome)
    (rest : ℕ → (op : ServiceCall) → Except GoError op.Reply) {err : GoError}
    (h : outcome.returned "get dm conversation" = .error err) :
    (ConversationService.getOrCreateDMConversation stamps w a b).play (answering outcome rest) =
      if w = Uuid.nil then
        ([.conversationGetDMByParticipants w a b], .error (required "workspaceID"))
      else
        let played := (do
          let created ← perform (.conversationCreate ⟨(stamps 0).id, w, .dm, (stamps 0).now⟩)
          ConversationService.addBothParticipants stamps created a b).play fun n => rest (n + 1)
        (.conversationGetDMByParticipants w a b :: played.1, played.2) := by
  have hreply : answering outcome rest 0 (.conversationGetDMByParticipants w a b) = .error err := h
  unfold ConversationService.getOrCreateDMConversation
  rw [Program.play_attempt_bind, hreply, newConversation_dm]
  dsimp only
  split <;> rfl

/-- The group function creates once it takes the conversation for absent and
the workspace is not nil. -/
theorem creatingGroup_inserts (stamps : ℕ → Stamp) (w : Uuid) :
    (∃ conv, .conversationCreate conv ∈ (playCreatingGroup stamps w rest).1) ↔ w ≠ Uuid.nil := by
  unfold playCreatingGroup
  split
  · rename_i hw
    simp [hw]
  · rename_i hw
    simp [hw]

/-- A get-or-create that makes no call after its lookup follows the rule unless
the row is absent. -/
theorem CreatesWhenAbsent.of_lookup_only {ids : List Uuid} {lookup : ServiceCall} {label : String}
    {outcome : Outcome} {result : Except GoError ChatConversation}
    (hlookup : ∀ conv, lookup ≠ .conversationCreate conv) (hpresent : outcome ≠ .noRows)
    (hresult : ∀ err other, outcome = .failed err other → result = .error (errorf label err)) :
    CreatesWhenAbsent ids lookup label outcome ([lookup], result) := by
  refine ⟨⟨fun ⟨conv, hconv⟩ => ?_, fun h => absurd h.1 hpresent⟩, fun err other h => ?_⟩
  · exact absurd (List.mem_singleton.mp hconv).symm (hlookup conv)
  · rw [hresult err other h]

/-- The refusal of a nil workspace is not the error of a lookup. -/
theorem required_ne_lookupError {label : String} (hlabel : label.toList.head? = some 'g')
    (err : GoError) : required "workspaceID" ≠ errorf label err := by
  intro h
  have hhead := congrArg (fun e : GoError => e.text.toList.head?) h
  simp [required, errorsNew, errorf, String.toList_append, hlabel] at hhead

/-- The group function follows the rule unless another error has the text of no
rows. -/
theorem group_createsWhenAbsent_iff (stamps : ℕ → Stamp) (w : Uuid) (outcome : Outcome) :
    CreatesWhenAbsent [w] (.conversationGetGroupByWorkspace w) "get group conversation" outcome
        ((ConversationService.getOrCreateGroupConversation stamps w).play
          (answering outcome rest)) ↔
      ∀ err other, outcome = .failed err other → err.text ≠ errNoRows.text := by
  have hlookup : ∀ conv, ServiceCall.conversationGetGroupByWorkspace w ≠
      .conversationCreate conv := fun conv h => by cases h
  cases outcome with
  | row conv =>
    exact ⟨fun _ err other h => (by cases h), fun _ => CreatesWhenAbsent.of_lookup_only hlookup
      (fun h => by cases h) (fun err other h => by cases h)⟩
  | noRows =>
    refine ⟨fun _ err other h => (by cases h), fun _ => ⟨?_, fun err other h => (by cases h)⟩⟩
    rw [play_group_absent stamps w rfl rfl, creatingGroup_inserts]
    simp
  | failed err other =>
    by_cases htext : err.text = errNoRows.text
    · refine ⟨fun h => ?_, fun h => absurd htext (h err other rfl)⟩
      have hplayed := h.returnsError err other rfl
      rw [play_group_absent stamps w rfl htext] at hplayed
      unfold playCreatingGroup at hplayed
      split at hplayed
      · exact absurd (Except.error.inj (congrArg Prod.snd hplayed))
          (required_ne_lookupError rfl err)
      · cases congrArg Prod.fst hplayed
    · have hplay : (ConversationService.getOrCreateGroupConversation stamps w).play
          (answering (.failed err other) rest) =
          ([.conversationGetGroupByWorkspace w], .error (errorf "get group conversation" err)) := by
        have hreply : answering (.failed err other) rest 0 (.conversationGetGroupByWorkspace w) =
            .error (errorf "get group conversation" err) := rfl
        unfold ConversationService.getOrCreateGroupConversation
        rw [Program.play_attempt_bind, hreply]
        dsimp only
        rw [if_pos (mt groupError_text_iff.mp htext)]
        rfl
      rw [hplay]
      refine ⟨fun _ err' other' h => ?_, fun _ => CreatesWhenAbsent.of_lookup_only hlookup
        (fun h => by cases h) fun err' other' h => ?_⟩
      · cases h
        exact htext
      · cases h
        rfl

/-- The direct function follows the rule exactly when its lookup finds a row, or
reports no rows while the workspace is nil or both persons are given. -/
theorem dm_createsWhenAbsent_iff (stamps : ℕ → Stamp) (w a b : Uuid) (outcome : Outcome) :
    CreatesWhenAbsent [w, a, b] (.conversationGetDMByParticipants w a b) "get dm conversation"
        outcome ((ConversationService.getOrCreateDMConversation stamps w a b).play
          (answering outcome rest)) ↔
      (∀ err other, outcome ≠ .failed err other) ∧
        (outcome = .noRows → w = Uuid.nil ∨ (a ≠ Uuid.nil ∧ b ≠ Uuid.nil)) := by
  have hlookup : ∀ conv, ServiceCall.conversationGetDMByParticipants w a b ≠
      .conversationCreate conv := fun conv h => by cases h
  cases outcome with
  | row conv =>
    exact ⟨fun _ => ⟨fun err other h => (by cases h), fun h => (by cases h)⟩,
      fun _ => CreatesWhenAbsent.of_lookup_only hlookup (fun h => by cases h)
        (fun err other h => by cases h)⟩
  | noRows =>
    have hplay := play_dm_missing stamps w a b .noRows rest rfl
    by_cases hw : w = Uuid.nil
    · rw [if_pos hw] at hplay
      rw [hplay]
      refine ⟨fun _ => ⟨fun err other h => (by cases h), fun _ => Or.inl hw⟩,
        fun _ => ⟨⟨fun ⟨conv, hconv⟩ => ?_, fun h => ?_⟩, fun err other h => (by cases h)⟩⟩
      · exact absurd (List.mem_singleton.mp hconv).symm (hlookup conv)
      · exact absurd hw (h.2 w List.mem_cons_self)
    · rw [if_neg hw] at hplay
      have hinserts : ∃ conv, ServiceCall.conversationCreate conv ∈
          ((ConversationService.getOrCreateDMConversation stamps w a b).play
            (answering .noRows rest)).1 := by
        rw [hplay]
        exact ⟨_, List.mem_cons_of_mem _ List.mem_cons_self⟩
      constructor
      · intro h
        have hids := (h.inserts.mp hinserts).2
        exact ⟨fun err other h => (by cases h), fun _ => Or.inr
          ⟨hids a (by simp), hids b (by simp)⟩⟩
      · rintro ⟨-, hpersons⟩
        obtain ⟨ha, hb⟩ := (hpersons rfl).resolve_left hw
        refine ⟨⟨fun _ => ⟨rfl, ?_⟩, fun _ => hinserts⟩, fun err other h => (by cases h)⟩
        simp [hw, ha, hb]
  | failed err other =>
    refine ⟨fun h => ?_, fun h => absurd rfl (h.1 err other)⟩
    have hplayed := h.returnsError err other rfl
    rw [play_dm_missing stamps w a b (.failed err other) rest rfl] at hplayed
    split at hplayed
    · exact absurd (Except.error.inj (congrArg Prod.snd hplayed))
        (required_ne_lookupError rfl err)
    · cases congrArg Prod.fst hplayed

/-- Exactly when the two functions create only what is known to be absent. -/
theorem createsWhenAbsent_iff (stamps : ℕ → Stamp) (w a b : Uuid) (outcome : Outcome)
    (rest : ℕ → (op : ServiceCall) → Except GoError op.Reply) :
    (CreatesWhenAbsent [w] (.conversationGetGroupByWorkspace w) "get group conversation" outcome
        ((ConversationService.getOrCreateGroupConversation stamps w).play
          (answering outcome rest)) ↔
      ∀ err other, outcome = .failed err other → err.text ≠ errNoRows.text) ∧
    (CreatesWhenAbsent [w, a, b] (.conversationGetDMByParticipants w a b) "get dm conversation"
        outcome ((ConversationService.getOrCreateDMConversation stamps w a b).play
          (answering outcome rest)) ↔
      (∀ err other, outcome ≠ .failed err other) ∧
        (outcome = .noRows → w = Uuid.nil ∨ (a ≠ Uuid.nil ∧ b ≠ Uuid.nil))) :=
  ⟨group_createsWhenAbsent_iff stamps w outcome, dm_createsWhenAbsent_iff stamps w a b outcome⟩

/-- The connection broke while the lookup was under way. -/
def connectionReset : GoError := ⟨.infrastructure, "read tcp: connection reset by peer"⟩

/-- A broken connection makes the direct function create. -/
theorem createsWhenAbsent_not_always :
    ¬∀ stamps w a b outcome (rest : ℕ → (op : ServiceCall) → Except GoError op.Reply),
      CreatesWhenAbsent [w] (.conversationGetGroupByWorkspace w) "get group conversation" outcome
          ((ConversationService.getOrCreateGroupConversation stamps w).play
            (answering outcome rest)) ∧
        CreatesWhenAbsent [w, a, b] (.conversationGetDMByParticipants w a b) "get dm conversation"
          outcome ((ConversationService.getOrCreateDMConversation stamps w a b).play
            (answering outcome rest)) := by
  intro h
  have hplayed := (h (fun _ => ⟨1, 0⟩) 10 1 2 (.failed connectionReset (by decide))
    (fun _ _ => .error connectionReset)).2.returnsError _ _ rfl
  cases congrArg Prod.fst hplayed

end AuraWellness.Chat.LookupOutcomes
