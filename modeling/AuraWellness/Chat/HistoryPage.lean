import AuraWellness.Chat.Paging
import AuraWellness.Lib.SwapLoop

/-!
# One page of history

`messageRepo.List` collects the rows that the query delivers and reverses them
in place. Whatever order of equally old rows the query chooses, the page is the
window of the newest messages below the cursor, oldest first.
-/

namespace AuraWellness.Chat.HistoryPage

open AuraWellness.Lib.Ranked AuraWellness.Lib.Reversal AuraWellness.Lib.Chains
open AuraWellness.Lib.SwapLoop
open AuraWellness.Chat.Entities AuraWellness.Chat.Schema AuraWellness.Chat.Repositories
open AuraWellness.Chat.Paging

/-- Rows that the query may deliver: the first ones of the messages below the
cursor in some order that is descending in `created_at`. -/
def MayDeliver (d : ChatDb) (conversationID : Uuid) (before : Time) (limit : ℕ)
    (rows : List ChatMessage) : Prop :=
  ∃ ordered : List ChatMessage, ordered.Perm (rowsBelow d conversationID before) ∧
    ordered.Pairwise (fun m v => v.createdAt ≤ m.createdAt) ∧ rows = ordered.take limit

/-- The newest messages of a conversation below a cursor, oldest first. -/
structure RightWindow (d : ChatDb) (conversationID : Uuid) (before : Time) (limit : ℕ)
    (page : List ChatMessage) : Prop where
  /-- The page is ascending in `created_at`. -/
  oldestFirst : page.Pairwise fun m v => m.createdAt ≤ v.createdAt
  /-- The page is full unless there are too few messages. -/
  length_eq : page.length = min limit (rowsBelow d conversationID before).length
  /-- No message comes twice. -/
  distinct : (page.map ChatMessage.id).Nodup
  /-- Only messages of the conversation below the cursor. -/
  below : ∀ m ∈ page,
    m ∈ d.messages ∧ m.conversationID = conversationID ∧ m.createdAt < before
  /-- What is left out is not newer than what is on the page. -/
  newest : ∀ m ∈ d.messages, m.conversationID = conversationID → m.createdAt < before →
    m ∉ page → ∀ v ∈ page, m.createdAt ≤ v.createdAt

/-- The first rows of any such order, reversed, are the right window. -/
theorem MayDeliver.rightWindow {d : ChatDb} {conv : Uuid} {before : Time} {limit : ℕ}
    {rows : List ChatMessage} (h : MayDeliver d conv before limit rows) :
    RightWindow d conv before limit rows.reverse := by
  obtain ⟨ordered, hperm, hdesc, rfl⟩ := h
  have hmem : ∀ m, m ∈ ordered ↔ m ∈ d.messages ∧ m.conversationID = conv ∧ m.createdAt < before :=
    fun m => hperm.mem_iff.trans mem_rowsBelow
  refine ⟨?_, ?_, ?_, ?_, ?_⟩
  · exact List.pairwise_reverse.mpr (hdesc.sublist (List.take_sublist _ _))
  · rw [List.length_reverse, List.length_take, hperm.length_eq]
  · have hids : (ordered.map ChatMessage.id).Nodup :=
      (hperm.map _).nodup_iff.mpr (d.valid.messages_id.filter _)
    rw [List.map_reverse, List.nodup_reverse]
    exact hids.sublist ((List.take_sublist _ _).map _)
  · intro m hm
    exact (hmem m).mp (List.mem_of_mem_take (List.mem_reverse.mp hm))
  · intro m hm hconv hbefore hnot v hv
    rw [List.mem_reverse] at hnot hv
    -- the message is in the part of the order that the limit cuts off
    have hm' : m ∈ ordered := (hmem m).mpr ⟨hm, hconv, hbefore⟩
    rw [← List.take_append_drop limit ordered] at hm' hdesc
    obtain hm' | hm' := List.mem_append.mp hm'
    · exact absurd hm' hnot
    · exact (List.pairwise_append.mp hdesc).2.2 v hv m hm'

/-- The query delivers the rows of some choice exactly if their order is one that
`ORDER BY created_at DESC` permits. -/
theorem mayDeliver_iff {d : ChatDb} {conv : Uuid} {before : Time} {limit : ℕ}
    {rows : List ChatMessage} : MayDeliver d conv before limit rows ↔
      ∃ choice, MessageRepo.queryPage d choice conv before limit = rows := by
  have hids : ((rowsBelow d conv before).map ChatMessage.id).Nodup := d.valid.messages_id.filter _
  constructor
  · rintro ⟨ordered, hperm, hdesc, rfl⟩
    obtain ⟨tie, htie⟩ := exists_tie_sortOn
      (fun m : ChatMessage => OrderDual.toDual m.createdAt) hperm hids hdesc
    exact ⟨⟨1, Nat.one_ne_zero, 0, tie⟩, congrArg (List.take limit) htie⟩
  · rintro ⟨choice, rfl⟩
    exact ⟨sortOn (newestFirst choice) (rowsBelow d conv before), sortOn_perm _ _,
      pairwise_key_sortOn (fun m : ChatMessage => OrderDual.toDual m.createdAt) choice.tie
        ChatMessage.id _, rfl⟩

/-- Every page of `messageRepo.List` is the right window. -/
theorem rightWindow_of_list {d : ChatDb} {choice : Choice} {conv : Uuid} {before : Time} {limit : ℕ}
    {page : List ChatMessage} (h : MessageRepo.list d choice conv before limit = .ok page) :
    RightWindow d conv before limit page := by
  rw [list_eq] at h
  cases h
  exact (mayDeliver_iff.mpr ⟨choice, rfl⟩).rightWindow

/-- The query may deliver its rows in every order that is descending in
`created_at`. From each of them the loop of `messageRepo.List` ends with exactly
the reverse, which is what `messageRepo.List` returns, and that is the right
window. -/
theorem list_rightWindow (d : ChatDb) (conversationID : Uuid) (before : Time) (limit : ℕ) :
    (∀ rows, MayDeliver d conversationID before limit rows ↔
      ∃ choice, MessageRepo.queryPage d choice conversationID before limit = rows) ∧
    ∀ choice, ∃ rounds last,
      Follows Swapping.step
        (.start (MessageRepo.queryPage d choice conversationID before limit)) rounds last ∧
      last.guard = false ∧
      last.items = (MessageRepo.queryPage d choice conversationID before limit).reverse ∧
      MessageRepo.list d choice conversationID before limit = .ok last.items ∧
      RightWindow d conversationID before limit last.items := by
  refine ⟨fun rows => mayDeliver_iff, fun choice => ?_⟩
  obtain ⟨rounds, last, hfollows, hguard, hitems⟩ :=
    Swapping.ends (MessageRepo.queryPage d choice conversationID before limit)
  have hlist : MessageRepo.list d choice conversationID before limit = .ok last.items := by
    rw [hitems]
    exact list_eq d choice conversationID before limit
  exact ⟨rounds, last, hfollows, hguard, hitems, hlist, rightWindow_of_list hlist⟩

end AuraWellness.Chat.HistoryPage
