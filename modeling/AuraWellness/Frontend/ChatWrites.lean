import AuraWellness.Frontend.Stores
import AuraWellness.Lib.Arrival

/-!
# What the chat store is written

Every step of a tab writes at most one entry of the three maps of the chat store. The
lists of messages and of conversations take in whole lists from the server, and single
messages and conversations, which are appended unless they are there.
-/

namespace AuraWellness.Frontend.ChatWrites

open AuraWellness.Lib.Transition AuraWellness.Lib.Arrival
open AuraWellness.Chat.Entities AuraWellness.Backend.Services AuraWellness.Frontend.Stores

/-- A write to a map of the chat store. -/
inductive ChatWrite
  | workspace (buId : Uuid) (ws : ChatWorkspaceResponse)
  | access (buId personId : Uuid) (hasAccess : Bool)
  | conversations (buId : Uuid) (convs : List ChatConversationResponse)
  | conversation (buId : Uuid) (conv : ChatConversationResponse)
  | messages (key : Uuid) (msgs : List ChatMessageDto)
  | message (conversationId : Uuid) (msg : ChatMessageDto)

/-- The store after a write. -/
def ChatWrite.into (s : ChatStore) : ChatWrite → ChatStore
  | .workspace buId ws => { s with workspaces := Function.update s.workspaces buId (some ws) }
  | .access buId personId hasAccess => s.accessUpdated buId personId hasAccess
  | .conversations buId convs => s.conversationsFetched buId convs
  | .conversation buId conv => s.dmCreated buId conv
  | .messages key msgs => s.messagesFetched key msgs
  | .message conversationId msg => s.appendMessage conversationId msg

/-- What an answer to a request writes. -/
def answerWrite : Request → Reply → Option ChatWrite
  | .getWorkspace buId, .workspace ws => some (.workspace buId ws)
  | .updateAccess buId personId hasAccess, .done => some (.access buId personId hasAccess)
  | .getConversations buId, .conversations convs => some (.conversations buId convs)
  | .createDM buId _, .conversation conv => some (.conversation buId conv)
  | .getConversationMessages _ conversationId, .messages msgs =>
    some (.messages conversationId msgs)
  | .getMessages buId, .messages msgs => some (.messages buId msgs)
  | _, _ => none

/-- What a step writes. -/
def stepWrite (s : Tab) : TabLabel → Option ChatWrite
  | .call (.appendMessage conversationId msg) => some (.message conversationId msg)
  | .call _ => none
  | .answer k reply => (s.requests[k]?).bind fun request => answerWrite request reply

/-- Two chat stores with the same maps. -/
structure SameMaps (s s' : ChatStore) : Prop where
  workspaces : s'.workspaces = s.workspaces
  conversations : s'.conversations = s.conversations
  messages : s'.messages = s.messages

/-- Nothing has been written. -/
theorem SameMaps.refl (s : ChatStore) : SameMaps s s := ⟨rfl, rfl, rfl⟩

/-- A call of an action writes at most a message. -/
theorem call_maps (s : Tab) (action : Action) :
    SameMaps ((stepWrite s (.call action)).elim s.chat (ChatWrite.into s.chat))
      (s.call action).chat := by
  cases action with
  | updateRole personId role =>
    unfold Tab.call
    dsimp only
    split <;> exact SameMaps.refl _
  | _ => exact ⟨rfl, rfl, rfl⟩

/-- An answer writes at most one entry. -/
theorem answered_maps {s s' : Tab} {r : Request} {reply : Reply}
    (h : s.answered r reply = some s') :
    SameMaps ((answerWrite r reply).elim s.chat (ChatWrite.into s.chat)) s'.chat := by
  cases r <;> cases reply <;> cases h <;> exact ⟨rfl, rfl, rfl⟩

/-- A step writes at most one entry. -/
theorem step_maps {s s' : Tab} {l : TabLabel} (h : s.step l = some s') :
    SameMaps ((stepWrite s l).elim s.chat (ChatWrite.into s.chat)) s'.chat := by
  cases l with
  | call action =>
    cases h
    exact call_maps s action
  | answer k reply =>
    obtain ⟨r, hk, hanswer⟩ := Option.bind_eq_some_iff.mp h
    have hwrite : stepWrite s (.answer k reply) = answerWrite r reply := by
      simp [stepWrite, hk]
    rw [hwrite]
    exact answered_maps (s := { s with requests := s.requests.eraseIdx k }) hanswer

/-- The messages of a conversation; a missing key is the empty list. -/
def messagesIn (s : ChatStore) (c : Uuid) : List ChatMessageDto := (s.messages c).getD []

/-- The conversations of a business unit; a missing key is the empty list. -/
def conversationsIn (s : ChatStore) (bu : Uuid) : List ChatConversationResponse :=
  (s.conversations bu).getD []

/-- What the messages of a conversation take in. -/
def messageIntake (c : Uuid) : ChatWrite → Option (Intake ChatMessageDto)
  | .messages key msgs => if key = c then some (.snapshot msgs) else none
  | .message conversationId msg => if conversationId = c then some (.event msg) else none
  | _ => none

/-- What the conversations of a business unit take in. -/
def conversationIntake (bu : Uuid) : ChatWrite → Option (Intake ChatConversationResponse)
  | .conversations buId convs => if buId = bu then some (.snapshot convs) else none
  | .conversation buId conv => if buId = bu then some (.event conv) else none
  | _ => none

/-- The messages take in what a response lists or a single message. -/
theorem messageIntake_step {s : Tab} {l : TabLabel} {c : Uuid} {intake : Intake ChatMessageDto}
    (h : (stepWrite s l).bind (messageIntake c) = some intake) :
    (∃ k msgs, l = .answer k (.messages msgs) ∧ intake = .snapshot msgs) ∨
      ∃ msg, l = .call (.appendMessage c msg) ∧ intake = .event msg := by
  obtain ⟨w, hw, hintake⟩ := Option.bind_eq_some_iff.mp h
  cases l with
  | call action =>
    cases action <;> cases hw
    obtain ⟨rfl, ⟨⟩⟩ := Option.ite_none_right_eq_some.mp hintake
    exact .inr ⟨_, rfl, rfl⟩
  | answer k reply =>
    obtain ⟨r, -, hanswer⟩ := Option.bind_eq_some_iff.mp hw
    cases r <;> cases reply <;> cases hanswer <;> first
      | (obtain ⟨-, ⟨⟩⟩ := Option.ite_none_right_eq_some.mp hintake
         exact .inl ⟨k, _, rfl, rfl⟩)
      | cases hintake

/-- The conversations take in what a response lists or a single conversation. -/
theorem conversationIntake_step {s : Tab} {l : TabLabel} {bu : Uuid}
    {intake : Intake ChatConversationResponse}
    (h : (stepWrite s l).bind (conversationIntake bu) = some intake) :
    (∃ k convs, l = .answer k (.conversations convs) ∧ intake = .snapshot convs) ∨
      ∃ k conv, l = .answer k (.conversation conv) ∧ intake = .event conv := by
  obtain ⟨w, hw, hintake⟩ := Option.bind_eq_some_iff.mp h
  cases l with
  | call action =>
    cases action <;> cases hw
    cases hintake
  | answer k reply =>
    obtain ⟨r, -, hanswer⟩ := Option.bind_eq_some_iff.mp hw
    cases r <;> cases reply <;> cases hanswer <;> first
      | (obtain ⟨-, ⟨⟩⟩ := Option.ite_none_right_eq_some.mp hintake
         first
           | exact .inl ⟨k, _, rfl, rfl⟩
           | exact .inr ⟨k, _, rfl, rfl⟩)
      | cases hintake

/-- A write to the messages takes in what is for the conversation. -/
theorem messagesIn_into (s : ChatStore) (w : ChatWrite) (c : Uuid) :
    messagesIn (w.into s) c = (messageIntake c w).elim (messagesIn s c)
      (takeIn ChatMessageDto.messageId (messagesIn s c)) := by
  unfold messagesIn
  cases w with
  | workspace buId ws => rfl
  | access buId personId hasAccess =>
    unfold ChatWrite.into ChatStore.accessUpdated
    dsimp only
    split <;> rfl
  | conversations buId convs => rfl
  | conversation buId conv =>
    unfold ChatWrite.into ChatStore.dmCreated
    dsimp only
    split <;> rfl
  | messages key msgs =>
    by_cases hkey : key = c
    · subst hkey
      simp [ChatWrite.into, ChatStore.messagesFetched, messageIntake, takeIn]
    · simp [ChatWrite.into, ChatStore.messagesFetched, messageIntake, hkey,
        Function.update_of_ne (Ne.symm hkey)]
  | message conversationId msg =>
    by_cases hkey : conversationId = c
    · subst hkey
      simp only [ChatWrite.into, ChatStore.appendMessage, messageIntake, takeIn, addNew, if_true,
        Option.elim_some]
      split
      · rfl
      · simp
    · simp only [ChatWrite.into, ChatStore.appendMessage, messageIntake, if_neg hkey,
        Option.elim_none]
      split
      · rfl
      · simp [Function.update_of_ne (Ne.symm hkey)]

/-- A write to the conversations takes in what is for the business unit. -/
theorem conversationsIn_into (s : ChatStore) (w : ChatWrite) (bu : Uuid) :
    conversationsIn (w.into s) bu = (conversationIntake bu w).elim (conversationsIn s bu)
      (takeIn ChatConversationResponse.conversationId (conversationsIn s bu)) := by
  unfold conversationsIn
  cases w with
  | workspace buId ws => rfl
  | access buId personId hasAccess =>
    unfold ChatWrite.into ChatStore.accessUpdated
    dsimp only
    split <;> rfl
  | conversations buId convs =>
    by_cases hkey : buId = bu
    · subst hkey
      simp [ChatWrite.into, ChatStore.conversationsFetched, conversationIntake, takeIn]
    · simp [ChatWrite.into, ChatStore.conversationsFetched, conversationIntake, hkey,
        Function.update_of_ne (Ne.symm hkey)]
  | conversation buId conv =>
    by_cases hkey : buId = bu
    · subst hkey
      simp only [ChatWrite.into, ChatStore.dmCreated, conversationIntake, takeIn, addNew, if_true,
        Option.elim_some]
      split
      · rfl
      · simp
    · simp only [ChatWrite.into, ChatStore.dmCreated, conversationIntake, if_neg hkey,
        Option.elim_none]
      split
      · rfl
      · simp [Function.update_of_ne (Ne.symm hkey)]
  | messages key msgs => rfl
  | message conversationId msg =>
    unfold ChatWrite.into ChatStore.appendMessage
    dsimp only
    split <;> rfl

/-- A step takes in what it writes for the conversation. -/
theorem messagesIn_step {s s' : Tab} {l : TabLabel} (h : s.step l = some s') (c : Uuid) :
    messagesIn s'.chat c = ((stepWrite s l).bind (messageIntake c)).elim (messagesIn s.chat c)
      (takeIn ChatMessageDto.messageId (messagesIn s.chat c)) := by
  have hmaps : messagesIn s'.chat c =
      messagesIn ((stepWrite s l).elim s.chat (ChatWrite.into s.chat)) c :=
    congrArg (fun m => (m c).getD []) (step_maps h).messages
  rw [hmaps]
  cases stepWrite s l with
  | none => rfl
  | some w => exact messagesIn_into s.chat w c

/-- A step takes in what it writes for the business unit. -/
theorem conversationsIn_step {s s' : Tab} {l : TabLabel} (h : s.step l = some s') (bu : Uuid) :
    conversationsIn s'.chat bu = ((stepWrite s l).bind (conversationIntake bu)).elim
      (conversationsIn s.chat bu)
      (takeIn ChatConversationResponse.conversationId (conversationsIn s.chat bu)) := by
  have hmaps : conversationsIn s'.chat bu =
      conversationsIn ((stepWrite s l).elim s.chat (ChatWrite.into s.chat)) bu :=
    congrArg (fun m => (m bu).getD []) (step_maps h).conversations
  rw [hmaps]
  cases stepWrite s l with
  | none => rfl
  | some w => exact conversationsIn_into s.chat w bu

/-- What the messages of a conversation take in along a run. -/
def messageHistory (c : Uuid) : Tab → List TabLabel → List (Intake ChatMessageDto)
  | _, [] => []
  | s, l :: ls => ((stepWrite s l).bind (messageIntake c)).toList ++
      (s.step l).elim [] fun s' => messageHistory c s' ls

/-- The messages of a conversation are what has been taken in. -/
theorem messagesIn_run {s s' : Tab} {ls : List TabLabel} (h : run Tab.step s ls = some s')
    (c : Uuid) : messagesIn s'.chat c =
      (messageHistory c s ls).foldl (takeIn ChatMessageDto.messageId) (messagesIn s.chat c) := by
  induction ls generalizing s with
  | nil =>
    cases h
    rfl
  | cons l ls ih =>
    obtain ⟨middle, hstep, hrest⟩ := run_cons.mp h
    have hhistory : messageHistory c s (l :: ls) =
        ((stepWrite s l).bind (messageIntake c)).toList ++ messageHistory c middle ls := by
      rw [messageHistory, hstep]
      rfl
    rw [ih hrest, messagesIn_step hstep, hhistory]
    cases (stepWrite s l).bind (messageIntake c) <;> rfl

end AuraWellness.Frontend.ChatWrites
