import AuraWellness.Chat.HistoryPage
import AuraWellness.Frontend.ChatWrites

/-!
# When two clients show the same

Two clients that have taken in the same messages show the same list, in the order of the
times, exactly if the same messages have come since the last response of each, none of them
after a newer one.
-/

namespace AuraWellness.Frontend.Convergence

open AuraWellness.Lib.Transition AuraWellness.Lib.Arrival
open AuraWellness.Chat.Entities AuraWellness.Chat.Schema AuraWellness.Chat.Repositories
open AuraWellness.Chat.HistoryPage AuraWellness.Backend.Services
open AuraWellness.Frontend.Stores AuraWellness.Frontend.ChatWrites

/-- The message has been taken in. -/
def TakenIn (history : List (Intake ChatMessageDto)) (m : ChatMessageDto) : Prop :=
  ∃ intake ∈ history, m ∈ intake.items

/-- Two clients have taken in the same messages. -/
structure SameMessages (history history' : List (Intake ChatMessageDto)) : Prop where
  /-- The messages are the same. -/
  same : ∀ m, TakenIn history m ↔ TakenIn history' m
  /-- Each is known by its id. -/
  ids : ∀ m m', TakenIn history m → TakenIn history m' → m.messageId = m'.messageId → m = m'
  /-- Responses list a message once. -/
  distinct : SnapshotsDistinct ChatMessageDto.messageId history
  /-- Also those of the other client. -/
  distinct' : SnapshotsDistinct ChatMessageDto.messageId history'
  /-- Responses are oldest-first. -/
  oldestFirst : SnapshotsOrdered ChatMessageDto.createdAt history
  /-- Also those of the other client. -/
  oldestFirst' : SnapshotsOrdered ChatMessageDto.createdAt history'

/-- No two messages have been created at the same time. -/
def DistinctTimes (history : List (Intake ChatMessageDto)) : Prop :=
  ∀ m m', TakenIn history m → TakenIn history m' → m.createdAt = m'.createdAt → m = m'

/-- Both clients show the same list, in the order of the times if these are distinct. -/
def Converged (c : Uuid) (history : List (Intake ChatMessageDto)) (s s' : Tab) : Prop :=
  messagesIn s.chat c = messagesIn s'.chat c ∧
    (DistinctTimes history →
      (messagesIn s.chat c).Pairwise fun m m' => m.createdAt ≤ m'.createdAt)

/-- The same messages have come to both since the last response, none of them after a newer
one; where two have the same time, all of them in the same order. -/
def SettleAlike (history history' : List (Intake ChatMessageDto)) : Prop :=
  (∀ m, m ∈ latest history ↔ m ∈ latest history') ∧
    (DistinctTimes history → ¬Late ChatMessageDto.createdAt history ∧
      ¬Late ChatMessageDto.createdAt history') ∧
    (¬DistinctTimes history → ∀ m m', Precedes (latest history) m m' ↔
      Precedes (latest history') m m')

/-- The pages that the service lists are oldest-first and list a message once. -/
theorem list_oldestFirst {d : ChatDb} {choice : Choice} {conv : Uuid} {before : Time} {limit : ℕ}
    {page : List ChatMessage} (h : MessageRepo.list d choice conv before limit = .ok page) :
    ((page.map toMessageDto).map ChatMessageDto.messageId).Nodup ∧
      (page.map toMessageDto).Pairwise fun m m' => m.createdAt ≤ m'.createdAt := by
  have hwindow := rightWindow_of_list h
  constructor
  · rw [List.map_map]
    exact hwindow.distinct
  · exact List.pairwise_map.mpr hwindow.oldestFirst

/-- What has come since the last response is known by its ids. -/
theorem SameMessages.identified {history history' : List (Intake ChatMessageDto)}
    (h : SameMessages history history') :
    Identified ChatMessageDto.messageId (latest history) ∧
      Identified ChatMessageDto.messageId (latest history') :=
  ⟨fun m hm m' hm' => h.ids m m' (mem_latest hm) (mem_latest hm'),
    fun m hm m' hm' =>
      h.ids m m' ((h.same m).mpr (mem_latest hm)) ((h.same m').mpr (mem_latest hm'))⟩

/-- Two histories of the same messages lead to one list exactly if they settle alike. -/
theorem shown_converges_iff {history history' : List (Intake ChatMessageDto)}
    (h : SameMessages history history') :
    (shown ChatMessageDto.messageId history = shown ChatMessageDto.messageId history' ∧
        (DistinctTimes history → (shown ChatMessageDto.messageId history).Pairwise
          fun m m' => m.createdAt ≤ m'.createdAt)) ↔ SettleAlike history history' := by
  obtain ⟨hid, hid'⟩ := h.identified
  have hsorted := (pairwise_firsts_iff hid).trans (precedes_le_iff h.oldestFirst)
  have hsorted' := (pairwise_firsts_iff hid').trans (precedes_le_iff h.oldestFirst')
  rw [shown_eq_firsts h.distinct, shown_eq_firsts h.distinct']
  constructor
  · rintro ⟨heq, horder⟩
    obtain ⟨hmem, hprecedes⟩ := (firsts_eq_iff hid hid').mp heq
    refine ⟨hmem, fun htimes => ⟨hsorted.mp (horder htimes), hsorted'.mp ?_⟩, fun _ => hprecedes⟩
    exact heq ▸ horder htimes
  · rintro ⟨hmem, hdistinct, hties⟩
    by_cases htimes : DistinctTimes history
    · obtain ⟨hlate, hlate'⟩ := hdistinct htimes
      refine ⟨?_, fun _ => hsorted.mpr hlate⟩
      refine List.Perm.eq_of_pairwise (fun m m' hm hm' hle hge => ?_) (hsorted.mpr hlate)
        (hsorted'.mpr hlate') (firsts_perm hid hid' hmem)
      exact htimes m m' (mem_latest (mem_of_mem_firsts hm))
        (mem_latest ((hmem m').mpr (mem_of_mem_firsts hm'))) (le_antisymm hle hge)
    · exact ⟨(firsts_eq_iff hid hid').mpr ⟨hmem, hties htimes⟩, fun hnot => absurd hnot htimes⟩

/-- For any two clients that start without messages of a conversation and have taken in the
same ones, through any runs: they show the same list, in the order of the times if these are
distinct, exactly if they settle alike. -/
theorem clients_converge_iff {c : Uuid} {s₁ s₁' s₂ s₂' : Tab} {ls₁ ls₂ : List TabLabel}
    (h₁ : run Tab.step s₁ ls₁ = some s₁') (h₂ : run Tab.step s₂ ls₂ = some s₂')
    (hempty₁ : messagesIn s₁.chat c = []) (hempty₂ : messagesIn s₂.chat c = [])
    (hsame : SameMessages (messageHistory c s₁ ls₁) (messageHistory c s₂ ls₂)) :
    Converged c (messageHistory c s₁ ls₁) s₁' s₂' ↔
      SettleAlike (messageHistory c s₁ ls₁) (messageHistory c s₂ ls₂) := by
  unfold Converged
  rw [messagesIn_run h₁, messagesIn_run h₂, hempty₁, hempty₂]
  exact shown_converges_iff hsame

/-- The first of two messages. -/
def hello : ChatMessageDto := ⟨10, 1, 5, "Ann", "Hello", 1⟩

/-- The second of two messages. -/
def bye : ChatMessageDto := ⟨11, 1, 5, "Ann", "Bye", 2⟩

/-- A response with the first one and a frame with the second one. -/
def joinsBetween : List TabLabel :=
  [.call (.fetchConversationMessages 3 1), .answer 0 (.messages [hello]),
    .call (.appendMessage 1 bye)]

/-- A frame with the second one and a response with both. -/
def joinsAfter : List TabLabel :=
  [.call (.appendMessage 1 bye), .call (.fetchConversationMessages 3 1),
    .answer 0 (.messages [hello, bye])]

/-- Histories of just these two messages are histories of the same messages. -/
theorem sameMessages_pair {history history' : List (Intake ChatMessageDto)}
    (h : ∀ m, TakenIn history m ↔ m = hello ∨ m = bye)
    (h' : ∀ m, TakenIn history' m ↔ m = hello ∨ m = bye)
    (hlists : ∀ items, .snapshot items ∈ history ++ history' → items.Sublist [hello, bye]) :
    SameMessages history history' := by
  have hdistinct : ∀ items, .snapshot items ∈ history ++ history' →
      (items.map ChatMessageDto.messageId).Nodup := fun items hitems => by
    have hpair : ([hello, bye].map ChatMessageDto.messageId).Nodup := by decide
    exact hpair.sublist ((hlists items hitems).map _)
  have holdest : ∀ items, .snapshot items ∈ history ++ history' →
      items.Pairwise fun m m' => m.createdAt ≤ m'.createdAt := fun items hitems => by
    have hpair : [hello, bye].Pairwise fun m m' => m.createdAt ≤ m'.createdAt := by
      simp [hello, bye]
    exact hpair.sublist (hlists items hitems)
  refine ⟨fun m => (h m).trans (h' m).symm, fun m m' hm hm' hid => ?_,
    fun items hitems => hdistinct items (List.mem_append_left _ hitems),
    fun items hitems => hdistinct items (List.mem_append_right _ hitems),
    fun items hitems => holdest items (List.mem_append_left _ hitems),
    fun items hitems => holdest items (List.mem_append_right _ hitems)⟩
  obtain rfl | rfl := (h m).mp hm <;> obtain rfl | rfl := (h m').mp hm' <;> first
    | rfl
    | cases hid

/-- A client that joins between the two messages and one that joins after them show the
same. -/
theorem clients_converge_iff_joins : ∃ s₁ s₂ : Tab,
    run Tab.step Tab.initial joinsBetween = some s₁ ∧
    run Tab.step Tab.initial joinsAfter = some s₂ ∧
    messagesIn s₁.chat 1 = messagesIn s₂.chat 1 := by
  obtain ⟨s₁, h₁⟩ : ∃ s₁, run Tab.step Tab.initial joinsBetween = some s₁ := ⟨_, rfl⟩
  obtain ⟨s₂, h₂⟩ : ∃ s₂, run Tab.step Tab.initial joinsAfter = some s₂ := ⟨_, rfl⟩
  have hbetween : messageHistory 1 Tab.initial joinsBetween =
      [.snapshot [hello], .event bye] := rfl
  have hafter : messageHistory 1 Tab.initial joinsAfter =
      [.event bye, .snapshot [hello, bye]] := rfl
  have hsame : SameMessages (messageHistory 1 Tab.initial joinsBetween)
      (messageHistory 1 Tab.initial joinsAfter) := by
    rw [hbetween, hafter]
    refine sameMessages_pair (fun m => ?_) (fun m => ?_) fun items hitems => ?_
    · simp [TakenIn, Intake.items]
    · simp only [TakenIn, Intake.items, List.mem_cons, List.not_mem_nil, or_false, exists_eq_or_imp,
        exists_eq_left]
      exact or_iff_right_of_imp .inr
    · obtain rfl | rfl : items = [hello] ∨ items = [hello, bye] := by simpa using hitems
      · decide
      · decide
  refine ⟨s₁, s₂, h₁, h₂, ((clients_converge_iff h₁ h₂ rfl rfl hsame).mpr ?_).1⟩
  rw [hbetween, hafter]
  refine ⟨fun m => Iff.rfl, fun _ => ⟨fun hlate => ?_, ?_⟩, fun _ m m' => Iff.rfl⟩
  · have hsplit : Late ChatMessageDto.createdAt ([.snapshot [hello]] ++ [.event bye]) := hlate
    obtain hnone | ⟨-, v, hv, hlt⟩ := late_event.mp hsplit
    · exact not_late_snapshot [] [hello] hnone
    · obtain rfl := List.mem_singleton.mp hv
      exact absurd hlt (by decide)
  · exact not_late_snapshot [.event bye] [hello, bye]

/-- Two frames that arrive in the other order are shown in the other order. -/
theorem clients_not_converged : ∃ s₁ s₂ : Tab,
    run Tab.step Tab.initial [.call (.appendMessage 1 hello), .call (.appendMessage 1 bye)] =
      some s₁ ∧
    run Tab.step Tab.initial [.call (.appendMessage 1 bye), .call (.appendMessage 1 hello)] =
      some s₂ ∧
    SameMessages (messageHistory 1 Tab.initial
        [.call (.appendMessage 1 hello), .call (.appendMessage 1 bye)])
      (messageHistory 1 Tab.initial
        [.call (.appendMessage 1 bye), .call (.appendMessage 1 hello)]) ∧
    messagesIn s₁.chat 1 ≠ messagesIn s₂.chat 1 ∧
    ¬(messagesIn s₂.chat 1).Pairwise fun m m' => m.createdAt ≤ m'.createdAt := by
  refine ⟨_, _, rfl, rfl, ?_, ?_, ?_⟩
  · change SameMessages [.event hello, .event bye] [.event bye, .event hello]
    refine sameMessages_pair (fun m => ?_) (fun m => ?_) fun items hitems => ?_
    · simp [TakenIn, Intake.items]
    · simp [TakenIn, Intake.items, or_comm]
    · simp at hitems
  · change [hello, bye] ≠ [bye, hello]
    decide
  · change ¬[bye, hello].Pairwise fun m m' => m.createdAt ≤ m'.createdAt
    simp [hello, bye]

end AuraWellness.Frontend.Convergence
