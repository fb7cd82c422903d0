import AuraWellness.Chat.Handlers

/-!
# Paging through a conversation

A client asks for the newest page of a conversation and then again and again
for the page before the oldest message it has, while messages are being saved.
The cursor is the bare time of a message and is compared strictly, so a page
that ends between messages of the same time hides the rest of them for good.
Without such a cut the pages together are the conversation.
-/

namespace AuraWellness.Chat.Paging

open AuraWellness.Lib.Calls AuraWellness.Lib.Ranked AuraWellness.Lib.Reversal
open AuraWellness.Lib.Keyed
open AuraWellness.Chat.Entities AuraWellness.Chat.Schema AuraWellness.Chat.Repositories
open AuraWellness.Chat.Services AuraWellness.Chat.Handlers

/-- The rank by which a page is ordered: newest first. -/
abbrev newestFirst (choice : Choice) : ChatMessage → Timeᵒᵈ ×ₗ ℕ ×ₗ ℕ :=
  tieRank (fun m => OrderDual.toDual m.createdAt) choice.tie ChatMessage.id

/-- The messages of a conversation below a cursor. -/
def rowsBelow (d : ChatDb) (conversationID : Uuid) (before : Time) : List ChatMessage :=
  d.messages.filter fun m => m.conversationID = conversationID ∧ m.createdAt < before

@[simp] theorem mem_rowsBelow {d : ChatDb} {conv : Uuid} {before : Time} {m : ChatMessage} :
    m ∈ rowsBelow d conv before ↔
      m ∈ d.messages ∧ m.conversationID = conv ∧ m.createdAt < before := by
  simp [rowsBelow, List.mem_filter]

theorem rowsBelow_nodup (d : ChatDb) (conv : Uuid) (before : Time) :
    (rowsBelow d conv before).Nodup := d.valid.messages_id.nodup.filter _

/-- A page holds the newest messages below the cursor, oldest first. -/
theorem list_eq (d : ChatDb) (choice : Choice) (conv : Uuid) (before : Time) (limit : ℕ) :
    MessageRepo.list d choice conv before limit =
      .ok ((sortOn (newestFirst choice) (rowsBelow d conv before)).take limit).reverse := by
  unfold MessageRepo.list
  rw [if_neg (by omega), reverseInPlace_eq, Int.toNat_natCast]
  rfl

/-- A message is on the page when at most a page of messages are not older. -/
theorem mem_list_of_few {d : ChatDb} {choice : Choice} {conv : Uuid} {before : Time} {limit : ℕ}
    {page : List ChatMessage} (h : MessageRepo.list d choice conv before limit = .ok page)
    {m : ChatMessage} (hm : m ∈ rowsBelow d conv before)
    (hfew : ((rowsBelow d conv before).filter fun v => m.createdAt ≤ v.createdAt).length ≤ limit) :
    m ∈ page := by
  rw [list_eq] at h
  cases h
  rw [List.mem_reverse]
  refine mem_take_sortOn (rowsBelow_nodup d conv before) hm (le_trans ?_ hfew)
  refine (List.monotone_filter_right _ fun v hv => ?_).length_le
  have hle := key_le_of_tieRank_le (of_decide_eq_true hv)
  have hle' : m.createdAt ≤ v.createdAt := hle
  exact decide_eq_true hle'

/-- Where a page of messages is newer than a time, the page is newer. -/
theorem newer_of_mem_list {d : ChatDb} {choice : Choice} {conv : Uuid} {before : Time} {limit : ℕ}
    {page : List ChatMessage} (h : MessageRepo.list d choice conv before limit = .ok page)
    {t : Time} (hmany : limit ≤ ((rowsBelow d conv before).filter fun v => t < v.createdAt).length)
    {v : ChatMessage} (hv : v ∈ page) : t < v.createdAt := by
  rw [list_eq] at h
  cases h
  rw [List.mem_reverse] at hv
  by_contra hle
  refine not_mem_take_sortOn (rowsBelow_nodup d conv before) (le_trans hmany ?_) hv
  refine (List.monotone_filter_right _ fun u hu => ?_).length_le
  have hu' : t < u.createdAt := of_decide_eq_true hu
  exact decide_eq_true (tieRank_lt (Or.inl ((not_lt.mp hle).trans_lt hu')))

/-- A message is on the page exactly if it is below the cursor and fewer messages than the
page has are ranked before it. -/
theorem mem_list_iff {d : ChatDb} {choice : Choice} {conv : Uuid} {before : Time} {limit : ℕ}
    {page : List ChatMessage} (h : MessageRepo.list d choice conv before limit = .ok page)
    {m : ChatMessage} : m ∈ page ↔ m ∈ rowsBelow d conv before ∧
      ((rowsBelow d conv before).filter fun v =>
        newestFirst choice v < newestFirst choice m).length < limit := by
  rw [list_eq] at h
  cases h
  rw [List.mem_reverse]
  have hown : ∀ m ∈ rowsBelow d conv before, ∀ v ∈ rowsBelow d conv before,
      newestFirst choice v = newestFirst choice m → v = m := fun m hm v hv he =>
    d.valid.messages_id.eq (mem_rowsBelow.mp hv).1 (mem_rowsBelow.mp hm).1 (tieRank_inj he)
  constructor
  · intro hmem
    have hm : m ∈ rowsBelow d conv before := mem_sortOn.mp (List.mem_of_mem_take hmem)
    exact ⟨hm, (mem_take_sortOn_iff (rowsBelow_nodup d conv before) hm (hown m hm)).mp hmem⟩
  · rintro ⟨hm, hfew⟩
    exact (mem_take_sortOn_iff (rowsBelow_nodup d conv before) hm (hown m hm)).mpr hfew

/-- The page is full and newer than a time exactly if a page of messages below the cursor
is. -/
theorem full_and_newer_iff {d : ChatDb} {choice : Choice} {conv : Uuid} {before : Time}
    {limit : ℕ} {page : List ChatMessage}
    (h : MessageRepo.list d choice conv before limit = .ok page) {t : Time} :
    (page.length = limit ∧ ∀ v ∈ page, t < v.createdAt) ↔
      limit ≤ ((rowsBelow d conv before).filter fun v => t < v.createdAt).length := by
  have heq := h
  rw [list_eq] at heq
  constructor
  · rintro ⟨hfull, hnewer⟩
    have hnodup : page.Nodup := by
      cases heq
      exact List.nodup_reverse.mpr (((sortOn_perm _ _).nodup_iff.mpr
        (rowsBelow_nodup d conv before)).sublist (List.take_sublist _ _))
    rw [← hfull]
    refine (List.subperm_of_subset hnodup fun v hv => ?_).length_le
    exact List.mem_filter.mpr ⟨((mem_list_iff h).mp hv).1, decide_eq_true (hnewer v hv)⟩
  · intro hmany
    refine ⟨?_, fun v hv => newer_of_mem_list h hmany hv⟩
    cases heq
    rw [List.length_reverse, List.length_take, length_sortOn]
    exact Nat.min_eq_left (hmany.trans (List.length_filter_le _ _))

/-- A client pages through a conversation of a service at work. -/
structure Client where
  /-- The conversation. -/
  conversationID : Uuid
  /-- The page size that every request asks for. -/
  limit : ℕ
  /-- The service accepts the page size. -/
  limit_bounds : 1 ≤ limit ∧ limit ≤ 200
  /-- The service at the time of each request. -/
  states : ℕ → ChatState
  /-- Messages are saved between the requests. -/
  grows : ∀ k, ∀ m ∈ (states k).db.messages, m ∈ (states (k + 1)).db.messages
  /-- Only finitely many of them. -/
  settles : ∃ last, ∀ k, last ≤ k → (states k).db.messages = (states last).db.messages
  /-- The clock of the handler at each request. -/
  clock : ℕ → Time
  /-- The default cursor is a valid timestamp. -/
  clock_valid : ∀ k, Timestamp.IsValid (clock k + 1000000)
  /-- All messages that exist at the start are below the default cursor. -/
  below : ∀ m ∈ (states 0).db.messages, m.conversationID = conversationID →
    m.createdAt < clock 0 + 1000000

namespace Client

variable (w : Client)

/-- The environment of one request; the procedure draws no stamps and its only
statement is answered. -/
def env (choices : ℕ → Choice) (k : ℕ) : RpcEnv :=
  ⟨fun _ => ⟨Uuid.nil, w.clock k⟩, w.clock k, fun _ => .serve (choices k)⟩

/-- The answer to a request. -/
def page (choices : ℕ → Choice) (k : ℕ) (before : Option Time) :
    Except RpcError (List ChatMessage) :=
  ((Rpc.listMessages w.conversationID before w.limit).serve (w.env choices k) (w.states k)).1

/-- Ask for pages until one is empty, putting each page in front of the newer
ones. -/
def walk (choices : ℕ → Choice) : ℕ → ℕ → Option Time → Option (List ChatMessage)
  | 0, _, _ => none
  | fuel + 1, k, before =>
    match w.page choices k before with
    | .ok [] => some []
    | .ok (oldest :: rest) =>
      (walk choices fuel (k + 1) (some oldest.createdAt)).map (· ++ oldest :: rest)
    | .error _ => none

/-- The messages of the conversation that exist at the start. -/
def Initial (m : ChatMessage) : Prop :=
  m ∈ (w.states 0).db.messages ∧ m.conversationID = w.conversationID

instance (m : ChatMessage) : Decidable (w.Initial m) := by
  unfold Initial
  infer_instance

/-- What a walk is to deliver: every message of the start once, in the order of
their times. -/
structure Complete (history : List ChatMessage) : Prop where
  once : ∀ m, w.Initial m → history.count m = 1
  sorted : history.Pairwise fun m v => m.createdAt ≤ v.createdAt

/-- The messages of the conversation below a cursor at a request. -/
abbrev rows (k : ℕ) (cursor : Time) : List ChatMessage :=
  rowsBelow (w.states k).db w.conversationID cursor

/-- The time at which a page of these times ends. -/
def lastOfPage (limit : ℕ) (times : List Time) : Option Time :=
  ((sortOn OrderDual.toDual times).take limit).getLast?

/-- The cursor of each request, from the times of the messages alone. -/
def cursorAt : ℕ → Option Time
  | 0 => some (w.clock 0 + 1000000)
  | k + 1 => (cursorAt k).bind fun cursor =>
    lastOfPage w.limit ((w.rows k cursor).map ChatMessage.createdAt)

/-- Every message time that serves as a cursor is a valid timestamp. -/
def CursorsValid : Prop := ∀ k cursor, w.cursorAt (k + 1) = some cursor → Timestamp.IsValid cursor

/-- Where a message of the start has the time at which a page ends, all messages
of that time are on the page. -/
def CutsNoTie : Prop :=
  ∀ k cursor next, w.cursorAt k = some cursor → w.cursorAt (k + 1) = some next →
    (∃ m, w.Initial m ∧ m.createdAt = next) →
    ((w.rows k cursor).filter fun m => next ≤ m.createdAt).length ≤ w.limit

/-- A page holds the newest messages below the cursor, oldest first. -/
theorem page_eq (choices : ℕ → Choice) (k : ℕ) (before : Option Time) :
    w.page choices k before = .ok ((sortOn (newestFirst (choices k))
      (w.rows k (defaultBefore (w.clock k) before))).take w.limit).reverse := by
  have hlimit : clampLimit (w.limit : ℤ) = w.limit := by
    have h := w.limit_bounds
    unfold clampLimit
    rw [if_neg (by omega)]
  have hserve : w.page choices k before = (MessageRepo.list (w.states k).db (choices k)
      w.conversationID (defaultBefore (w.clock k) before)
      (clampLimit w.limit)).mapError toGrpcError := rfl
  rw [hserve, hlimit, list_eq]
  rfl

/-- A delivered page has the rows below the cursor, no two of them equal, in the
order of their times. -/
theorem page_spec {choices : ℕ → Choice} {k : ℕ} {before : Option Time} {page : List ChatMessage}
    (h : w.page choices k before = .ok page) :
    (∀ m ∈ page, m ∈ w.rows k (defaultBefore (w.clock k) before)) ∧ page.Nodup ∧
      page.Pairwise fun m v => m.createdAt ≤ v.createdAt := by
  rw [page_eq] at h
  cases h
  set rows := w.rows k (defaultBefore (w.clock k) before) with hrows
  have hnodup : (sortOn (newestFirst (choices k)) rows).Nodup :=
    (sortOn_perm _ rows).nodup_iff.mpr (rowsBelow_nodup _ _ _)
  have hsorted := pairwise_key_sortOn (fun m : ChatMessage => OrderDual.toDual m.createdAt)
    (choices k).tie ChatMessage.id rows
  refine ⟨fun m hm => ?_, ?_, ?_⟩
  · exact mem_sortOn.mp (List.mem_of_mem_take (List.mem_reverse.mp hm))
  · exact List.nodup_reverse.mpr (hnodup.sublist (List.take_sublist _ _))
  · rw [List.pairwise_reverse]
    exact hsorted.sublist (List.take_sublist _ _)

/-- The first message of a page is the oldest one. -/
theorem oldest_le {choices : ℕ → Choice} {k : ℕ} {before : Option Time} {oldest m : ChatMessage}
    {rest : List ChatMessage} (h : w.page choices k before = .ok (oldest :: rest))
    (hm : m ∈ oldest :: rest) : oldest.createdAt ≤ m.createdAt := by
  obtain rfl | hm := List.mem_cons.mp hm
  · exact le_refl _
  · exact (List.pairwise_cons.mp (w.page_spec h).2.2).1 m hm

/-- The first message of a page has the time at which the page ends. -/
theorem head?_page {choices : ℕ → Choice} {k : ℕ} {before : Option Time} {page : List ChatMessage}
    (h : w.page choices k before = .ok page) :
    (page.map ChatMessage.createdAt).head? = lastOfPage w.limit
      ((w.rows k (defaultBefore (w.clock k) before)).map ChatMessage.createdAt) := by
  rw [page_eq] at h
  cases h
  set rows := w.rows k (defaultBefore (w.clock k) before) with hrows
  have hmap : (sortOn (newestFirst (choices k)) rows).map ChatMessage.createdAt =
      sortOn OrderDual.toDual (rows.map ChatMessage.createdAt) := by
    refine map_sortOn (fun a b hab => ?_) OrderDual.toDual.injective rows
    have hle := key_le_of_tieRank_le hab
    exact hle
  unfold lastOfPage
  rw [List.map_reverse, List.head?_reverse, List.map_take, hmap]

/-- Every request is answered with a page. -/
theorem page_total (choices : ℕ → Choice) (k : ℕ) (before : Option Time) :
    ∃ page, w.page choices k before = .ok page := ⟨_, w.page_eq choices k before⟩

/-- The page is empty only when no message is below the cursor. -/
theorem rows_eq_nil_of_page {choices : ℕ → Choice} {k : ℕ} {before : Option Time}
    (h : w.page choices k before = .ok []) : w.rows k (defaultBefore (w.clock k) before) = [] := by
  rw [page_eq] at h
  have htake := List.reverse_eq_nil_iff.mp (Except.ok.inj h)
  have hlimit := w.limit_bounds
  obtain hzero | hsort := List.take_eq_nil_iff.mp htake
  · omega
  · exact eq_nil_of_sortOn_eq_nil hsort

/-- A message that is newer than one on the page is on the page. -/
theorem mem_page_of_newer {choices : ℕ → Choice} {k : ℕ} {before : Option Time}
    {page : List ChatMessage} (h : w.page choices k before = .ok page) {m v : ChatMessage}
    (hm : m ∈ w.rows k (defaultBefore (w.clock k) before)) (hv : v ∈ page)
    (hlt : v.createdAt < m.createdAt) : m ∈ page := by
  rw [page_eq] at h
  cases h
  rw [List.mem_reverse] at hv ⊢
  by_contra hnot
  have hle := key_le_of_tieRank_le (rank_le_of_not_mem_take hm hnot hv)
  exact absurd hlt (not_lt_of_ge hle)

/-- A page is what the repository lists. -/
theorem list_of_page {choices : ℕ → Choice} {k : ℕ} {before : Option Time}
    {page : List ChatMessage} (h : w.page choices k before = .ok page) :
    MessageRepo.list (w.states k).db (choices k) w.conversationID
      (defaultBefore (w.clock k) before) w.limit = .ok page := by
  rw [page_eq] at h
  cases h
  exact list_eq _ _ _ _ _

/-- A message is not on the page when the query engine prefers all others of its
time and more than a page of messages are not older. -/
theorem not_mem_page {choices : ℕ → Choice} {k : ℕ} {before : Option Time}
    {page : List ChatMessage} (h : w.page choices k before = .ok page) {m : ChatMessage}
    (hm : m ∈ (w.states k).db.messages)
    (htie : ∀ id, id ≠ m.id → (choices k).tie id < (choices k).tie m.id)
    (hmany : w.limit < ((w.rows k (defaultBefore (w.clock k) before)).filter fun v =>
      m.createdAt ≤ v.createdAt).length) : m ∉ page := by
  rw [page_eq] at h
  cases h
  rw [List.mem_reverse]
  set rows := w.rows k (defaultBefore (w.clock k) before) with hrows
  have hnodup : rows.Nodup := rowsBelow_nodup _ _ _
  have hsub : (rows.filter fun v => m.createdAt ≤ v.createdAt) ⊆
      m :: rows.filter fun v => newestFirst (choices k) v < newestFirst (choices k) m := by
    intro v hv
    obtain ⟨hv, hle⟩ := List.mem_filter.mp hv
    have hle' : m.createdAt ≤ v.createdAt := of_decide_eq_true hle
    by_cases hvm : v = m
    · rw [hvm]
      exact List.mem_cons_self
    · have hid : v.id ≠ m.id := fun hid =>
        hvm ((w.states k).db.valid.messages_id.eq (mem_rowsBelow.mp hv).1 hm hid)
      refine List.mem_cons_of_mem m (List.mem_filter.mpr ⟨hv, decide_eq_true (tieRank_lt ?_)⟩)
      obtain hlt | heq := lt_or_eq_of_le hle'
      · exact Or.inl hlt
      · exact Or.inr ⟨by rw [heq], htie v.id hid⟩
  have hlen := (List.subperm_of_subset (hnodup.filter _) hsub).length_le
  rw [List.length_cons] at hlen
  exact not_mem_take_sortOn hnodup (by omega)

/-- The cursor that a request uses is a valid timestamp. -/
theorem defaultBefore_valid (k : ℕ) (before : Option Time) :
    Timestamp.IsValid (defaultBefore (w.clock k) before) := by
  unfold defaultBefore
  split
  · split
    · assumption
    · exact w.clock_valid k
  · exact w.clock_valid k

/-- Saved messages stay. -/
theorem mem_states {m : ChatMessage} {j k : ℕ} (hjk : j ≤ k) (h : m ∈ (w.states j).db.messages) :
    m ∈ (w.states k).db.messages := by
  induction k, hjk using Nat.le_induction with
  | base => exact h
  | succ k _ ih => exact w.grows k m ih

/-- No message is saved after the last of them. -/
theorem exists_last : ∃ last, ∀ k, ∀ m ∈ (w.states k).db.messages,
    m ∈ (w.states last).db.messages := by
  obtain ⟨last, hlast⟩ := w.settles
  refine ⟨last, fun k m hm => ?_⟩
  by_cases hk : last ≤ k
  · rw [← hlast k hk]
    exact hm
  · exact w.mem_states (by omega) hm

/-- Below an older cursor there are fewer messages. -/
theorem rows_length_lt {k : ℕ} {cursor : Time} {v : ChatMessage} (hv : v ∈ w.rows k cursor) :
    (w.rows k v.createdAt).length < (w.rows k cursor).length := by
  have hv' := mem_rowsBelow.mp hv
  have hnodup : (v :: w.rows k v.createdAt).Nodup := by
    refine List.nodup_cons.mpr ⟨fun h => ?_, rowsBelow_nodup _ _ _⟩
    exact absurd (mem_rowsBelow.mp h).2.2 (lt_irrefl _)
  have hsub : v :: w.rows k v.createdAt ⊆ w.rows k cursor := by
    refine List.cons_subset.mpr ⟨hv, fun m hm => ?_⟩
    obtain ⟨hmem, hconv, hlt⟩ := mem_rowsBelow.mp hm
    exact mem_rowsBelow.mpr ⟨hmem, hconv, hlt.trans hv'.2.2⟩
  have hlen := (List.subperm_of_subset hnodup hsub).length_le
  rw [List.length_cons] at hlen
  omega

/-- A walk that goes on: a page that is not empty, and the walk before it. -/
theorem walk_cons {choices : ℕ → Choice} {fuel k : ℕ} {before : Option Time}
    {oldest : ChatMessage} {rest : List ChatMessage}
    (h : w.page choices k before = .ok (oldest :: rest)) :
    w.walk choices (fuel + 1) k before =
      (w.walk choices fuel (k + 1) (some oldest.createdAt)).map (· ++ oldest :: rest) := by
  rw [walk, h]

/-- A walk that has got past a page ends with that page. -/
theorem exists_walk_of_cons {choices : ℕ → Choice} {fuel k : ℕ} {before : Option Time}
    {oldest : ChatMessage} {rest history : List ChatMessage}
    (hpage : w.page choices k before = .ok (oldest :: rest))
    (h : w.walk choices fuel k before = some history) :
    ∃ fuel older, w.walk choices fuel (k + 1) (some oldest.createdAt) = some older ∧
      history = older ++ oldest :: rest := by
  cases fuel with
  | zero => cases h
  | succ fuel =>
    rw [w.walk_cons hpage] at h
    obtain ⟨older, hwalk, rfl⟩ := Option.map_eq_some_iff.mp h
    exact ⟨fuel, older, hwalk, rfl⟩

/-- A walk ends at an empty page. -/
theorem walk_nil {choices : ℕ → Choice} {fuel k : ℕ} {before : Option Time}
    (h : w.page choices k before = .ok []) : w.walk choices (fuel + 1) k before = some [] := by
  rw [walk, h]

/-- The oldest message of a page has the time of the next cursor. -/
theorem cursorAt_succ {choices : ℕ → Choice} {k : ℕ} {before : Option Time} {oldest : ChatMessage}
    {rest : List ChatMessage} (hcursor : w.cursorAt k = some (defaultBefore (w.clock k) before))
    (h : w.page choices k before = .ok (oldest :: rest)) :
    w.cursorAt (k + 1) = some oldest.createdAt := by
  have hhead := w.head?_page h
  rw [List.map_cons, List.head?_cons] at hhead
  rw [cursorAt, hcursor, Option.bind_some, ← hhead]

/-- Where there is a next cursor the page is not empty and starts at its time. -/
theorem page_of_cursorAt_succ (choices : ℕ → Choice) {k : ℕ} {before : Option Time} {next : Time}
    (hcursor : w.cursorAt k = some (defaultBefore (w.clock k) before))
    (hnext : w.cursorAt (k + 1) = some next) :
    ∃ oldest rest, w.page choices k before = .ok (oldest :: rest) ∧ oldest.createdAt = next := by
  obtain ⟨page, hpage⟩ := w.page_total choices k before
  have hhead := w.head?_page hpage
  rw [cursorAt, hcursor, Option.bind_some, ← hhead] at hnext
  cases page with
  | nil => cases hnext
  | cons oldest rest => exact ⟨oldest, rest, hpage, Option.some.inj hnext⟩

/-- A message before the first valid timestamp is below every cursor, so no walk
ever ends. -/
theorem walk_never_ends {choices : ℕ → Choice} {m : ChatMessage} (fuel : ℕ) {k : ℕ}
    {before : Option Time} (hm : m ∈ (w.states k).db.messages)
    (hconv : m.conversationID = w.conversationID) (hold : m.createdAt < -62135596800000000) :
    w.walk choices fuel k before = none := by
  induction fuel generalizing k before with
  | zero => rfl
  | succ fuel ih =>
    obtain ⟨page, hpage⟩ := w.page_total choices k before
    have hvalid := w.defaultBefore_valid k before
    have hrow : m ∈ w.rows k (defaultBefore (w.clock k) before) :=
      mem_rowsBelow.mpr ⟨hm, hconv, hold.trans_le hvalid.1⟩
    cases page with
    | nil =>
      rw [w.rows_eq_nil_of_page hpage] at hrow
      cases hrow
    | cons oldest rest =>
      rw [w.walk_cons hpage, ih (w.grows k m hm), Option.map_none]

/-- A walk that ends has come to every cursor. What it puts behind the rest is
not older than the cursor. -/
theorem walk_reaches {choices : ℕ → Choice} {fuel : ℕ} {history : List ChatMessage}
    (h : w.walk choices fuel 0 none = some history) (k : ℕ) {cursor : Time}
    (hcursor : w.cursorAt k = some cursor) :
    ∃ fuel before older newer, defaultBefore (w.clock k) before = cursor ∧
      w.walk choices fuel k before = some older ∧ history = older ++ newer ∧
      ∀ m ∈ newer, cursor ≤ m.createdAt := by
  induction k generalizing cursor with
  | zero =>
    cases hcursor
    exact ⟨fuel, none, history, [], rfl, h, (List.append_nil _).symm, fun m hm => by cases hm⟩
  | succ k ih =>
    have hprev : ∃ previous, w.cursorAt k = some previous := by
      cases hk : w.cursorAt k with
      | none =>
        rw [cursorAt, hk] at hcursor
        cases hcursor
      | some previous => exact ⟨previous, rfl⟩
    obtain ⟨previous, hprevious⟩ := hprev
    obtain ⟨fuel', before, older, newer, rfl, hwalk, hhistory, hnewer⟩ := ih hprevious
    obtain ⟨oldest, rest, hpage, rfl⟩ := w.page_of_cursorAt_succ choices hprevious hcursor
    have hrows := (w.page_spec hpage).1
    have holdest := mem_rowsBelow.mp (hrows oldest List.mem_cons_self)
    obtain ⟨fuel, older', hwalk', rfl⟩ := w.exists_walk_of_cons hpage hwalk
    have hvalid : Timestamp.IsValid oldest.createdAt := by
      have hupper := (w.defaultBefore_valid k before).2
      refine ⟨?_, holdest.2.2.trans hupper⟩
      by_contra hold
      have hnone : w.walk choices fuel (k + 1) (some oldest.createdAt) = none :=
        w.walk_never_ends fuel (w.grows k oldest holdest.1) holdest.2.1 (not_le.mp hold)
      rw [hnone] at hwalk'
      cases hwalk'
    refine ⟨fuel, some oldest.createdAt, older', oldest :: rest ++ newer,
      defaultBefore_some _ hvalid, hwalk', by rw [hhistory, List.append_assoc], fun m hm => ?_⟩
    obtain hm | hm := List.mem_append.mp hm
    · exact w.oldest_le hpage hm
    · exact (holdest.2.2.trans_le (hnewer m hm)).le

/-- When every cursor is valid, a walk delivers messages below its cursor. -/
theorem walk_below {choices : ℕ → Choice} (hvalid : w.CursorsValid) {fuel k : ℕ}
    {before : Option Time} (hcursor : w.cursorAt k = some (defaultBefore (w.clock k) before))
    {history : List ChatMessage} (h : w.walk choices fuel k before = some history) :
    ∀ m ∈ history, m.createdAt < defaultBefore (w.clock k) before := by
  induction fuel generalizing k before history with
  | zero => cases h
  | succ fuel ih =>
    obtain ⟨page, hpage⟩ := w.page_total choices k before
    have hrows := (w.page_spec hpage).1
    cases page with
    | nil =>
      rw [w.walk_nil hpage] at h
      cases h
      exact fun m hm => by cases hm
    | cons oldest rest =>
      rw [w.walk_cons hpage] at h
      obtain ⟨older, hwalk, rfl⟩ := Option.map_eq_some_iff.mp h
      have hnext := w.cursorAt_succ hcursor hpage
      have hdefault : defaultBefore (w.clock (k + 1)) (some oldest.createdAt) = oldest.createdAt :=
        defaultBefore_some _ (hvalid k _ hnext)
      have holder := ih (by rw [hdefault]; exact hnext) hwalk
      rw [hdefault] at holder
      have holdest := (mem_rowsBelow.mp (hrows oldest List.mem_cons_self)).2.2
      intro m hm
      obtain hm | hm := List.mem_append.mp hm
      · exact (holder m hm).trans holdest
      · exact (mem_rowsBelow.mp (hrows m hm)).2.2

/-- A message of the start below the cursor is on the page or below the next
cursor, when the page cuts no tie of it. -/
theorem mem_page_or_lt {choices : ℕ → Choice} (hties : w.CutsNoTie) {k : ℕ} {before : Option Time}
    {oldest : ChatMessage} {rest : List ChatMessage}
    (hcursor : w.cursorAt k = some (defaultBefore (w.clock k) before))
    (hpage : w.page choices k before = .ok (oldest :: rest)) {m : ChatMessage} (hm : w.Initial m)
    (hbelow : m.createdAt < defaultBefore (w.clock k) before) :
    m ∈ oldest :: rest ∨ m.createdAt < oldest.createdAt := by
  have hrow : m ∈ w.rows k (defaultBefore (w.clock k) before) :=
    mem_rowsBelow.mpr ⟨w.mem_states (Nat.zero_le k) hm.1, hm.2, hbelow⟩
  obtain hlt | heq | hgt := lt_trichotomy m.createdAt oldest.createdAt
  · exact Or.inr hlt
  · have hfew := hties k _ _ hcursor (w.cursorAt_succ hcursor hpage) ⟨m, hm, heq⟩
    rw [← heq] at hfew
    exact Or.inl (mem_list_of_few (w.list_of_page hpage) hrow hfew)
  · exact Or.inl (w.mem_page_of_newer hpage hrow List.mem_cons_self hgt)

/-- With enough fuel a walk ends, in the order of the times, and every message of
the start below the cursor is delivered once. The number of messages below the
cursor decreases with every page. -/
theorem walk_complete {last : ℕ}
    (hlast : ∀ k, ∀ m ∈ (w.states k).db.messages, m ∈ (w.states last).db.messages)
    (hvalid : w.CursorsValid) (hties : w.CutsNoTie) (choices : ℕ → Choice) (fuel : ℕ) {k : ℕ}
    {before : Option Time} (hcursor : w.cursorAt k = some (defaultBefore (w.clock k) before))
    (hfuel : (w.rows last (defaultBefore (w.clock k) before)).length < fuel) :
    ∃ history, w.walk choices fuel k before = some history ∧
      history.Pairwise (fun m v => m.createdAt ≤ v.createdAt) ∧
      ∀ m, w.Initial m → m.createdAt < defaultBefore (w.clock k) before → history.count m = 1 := by
  induction fuel generalizing k before with
  | zero => omega
  | succ fuel ih =>
    obtain ⟨page, hpage⟩ := w.page_total choices k before
    cases page with
    | nil =>
      refine ⟨[], w.walk_nil hpage, List.Pairwise.nil, fun m hm hbelow => ?_⟩
      have hrow : m ∈ w.rows k (defaultBefore (w.clock k) before) :=
        mem_rowsBelow.mpr ⟨w.mem_states (Nat.zero_le k) hm.1, hm.2, hbelow⟩
      rw [w.rows_eq_nil_of_page hpage] at hrow
      cases hrow
    | cons oldest rest =>
      obtain ⟨hrows, hnodup, hsorted⟩ := w.page_spec hpage
      have holdest := mem_rowsBelow.mp (hrows oldest List.mem_cons_self)
      have hnext := w.cursorAt_succ hcursor hpage
      have hdefault : defaultBefore (w.clock (k + 1)) (some oldest.createdAt) = oldest.createdAt :=
        defaultBefore_some _ (hvalid k _ hnext)
      have hnext' : w.cursorAt (k + 1) =
          some (defaultBefore (w.clock (k + 1)) (some oldest.createdAt)) := by
        rw [hdefault]
        exact hnext
      have hfewer : (w.rows last oldest.createdAt).length <
          (w.rows last (defaultBefore (w.clock k) before)).length :=
        w.rows_length_lt (mem_rowsBelow.mpr ⟨hlast k oldest holdest.1, holdest.2⟩)
      obtain ⟨older, hwalk, holder, hcount⟩ := ih hnext' (by rw [hdefault]; omega)
      have hbelow := w.walk_below hvalid hnext' hwalk
      rw [hdefault] at hcount hbelow
      refine ⟨older ++ oldest :: rest, ?_, ?_, fun m hm hlt => ?_⟩
      · rw [w.walk_cons hpage, hwalk, Option.map_some]
      · exact List.pairwise_append.mpr ⟨holder, hsorted, fun m hm v hv =>
          (hbelow m hm).le.trans (w.oldest_le hpage hv)⟩
      · rw [List.count_append]
        by_cases hmem : m ∈ oldest :: rest
        · have hnot : m ∉ older := fun hm' =>
            absurd (hbelow m hm') (not_lt_of_ge (w.oldest_le hpage hmem))
          rw [List.count_eq_zero_of_not_mem hnot, List.count_eq_one_of_mem hnodup hmem]
        · obtain hmem' | hlt' := w.mem_page_or_lt hties hcursor hpage hm hlt
          · exact absurd hmem' hmem
          · rw [hcount m hm hlt', List.count_eq_zero_of_not_mem hmem]

/-- A choice of the environment that delivers a row after all others of its time. -/
def delaying (m : ChatMessage) (_ : ℕ) : Choice :=
  ⟨1, Nat.one_ne_zero, 0, fun id => if id = m.id then 1 else 0⟩

/-- Where a page cuts a tie of a message of the start, the query engine can leave
the message out, and no later page has it. -/
theorem missing_of_cut {k : ℕ} {cursor : Time} {m : ChatMessage} (hm : w.Initial m)
    (hcursor : w.cursorAt k = some cursor) (hnext : w.cursorAt (k + 1) = some m.createdAt)
    (hcut : w.limit < ((w.rows k cursor).filter fun v => m.createdAt ≤ v.createdAt).length)
    (hvalid : w.CursorsValid) {fuel : ℕ} {history : List ChatMessage}
    (h : w.walk (delaying m) fuel 0 none = some history) : m ∉ history := by
  obtain ⟨fuel', before, older, newer, rfl, hwalk, hhistory, hnewer⟩ := w.walk_reaches h k hcursor
  obtain ⟨oldest, rest, hpage, holdest⟩ := w.page_of_cursorAt_succ (delaying m) hcursor hnext
  have hstored := w.mem_states (Nat.zero_le k) hm.1
  have hpage' : m ∉ oldest :: rest := by
    refine w.not_mem_page hpage hstored (fun id hid => ?_) hcut
    simp [delaying, hid]
  have hbefore : m.createdAt < defaultBefore (w.clock k) before := by
    rw [← holdest]
    exact (mem_rowsBelow.mp ((w.page_spec hpage).1 oldest List.mem_cons_self)).2.2
  have hdefault : defaultBefore (w.clock (k + 1)) (some oldest.createdAt) = m.createdAt := by
    rw [holdest]
    exact defaultBefore_some _ (hvalid k _ hnext)
  obtain ⟨fuel, older', hwalk', rfl⟩ := w.exists_walk_of_cons hpage hwalk
  have hbelow := w.walk_below hvalid (by rw [hdefault]; exact hnext) hwalk'
  rw [hdefault] at hbelow
  rw [hhistory]
  intro hmem
  obtain hmem | hmem := List.mem_append.mp hmem
  · obtain hmem | hmem := List.mem_append.mp hmem
    · exact absurd (hbelow m hmem) (lt_irrefl _)
    · exact hpage' hmem
  · exact absurd hbefore (not_lt_of_ge (hnewer m hmem))

/-- Paging delivers every message of the start once and in order, however the
query engine breaks ties, exactly when every cursor is a valid timestamp and no
page ends between messages of the same time. -/
theorem walk_complete_iff :
    (∀ choices, ∃ fuel history, w.walk choices fuel 0 none = some history ∧ w.Complete history) ↔
      w.CursorsValid ∧ w.CutsNoTie := by
  constructor
  · intro h
    have hvalid : w.CursorsValid := by
      intro k cursor hcursor
      obtain ⟨fuel, history, hwalk, -⟩ := h fun _ => ⟨1, by decide, 0, fun _ => 0⟩
      obtain ⟨_, before, _, _, rfl, -⟩ := w.walk_reaches hwalk (k + 1) hcursor
      exact w.defaultBefore_valid (k + 1) before
    refine ⟨hvalid, fun k cursor next hcursor hnext hex => ?_⟩
    obtain ⟨m, hm, rfl⟩ := hex
    by_contra hcut
    obtain ⟨fuel, history, hwalk, hcomplete⟩ := h (delaying m)
    have hmissing := w.missing_of_cut hm hcursor hnext (not_le.mp hcut) hvalid hwalk
    have honce := hcomplete.once m hm
    rw [List.count_eq_zero_of_not_mem hmissing] at honce
    omega
  · rintro ⟨hvalid, hties⟩ choices
    obtain ⟨last, hlast⟩ := w.exists_last
    obtain ⟨history, hwalk, hsorted, hcount⟩ := w.walk_complete hlast hvalid hties choices
      ((w.rows last (defaultBefore (w.clock 0) none)).length + 1) rfl (Nat.lt_succ_self _)
    exact ⟨_, history, hwalk, fun m hm => hcount m hm (w.below m hm.1 hm.2), hsorted⟩

end Client

/-- A procedure is served at time 0; the database generates the identifiers that
follow the first one. -/
def after (s : ChatState) (first : ℕ) (rpc : Rpc) : ChatState :=
  (rpc.serve ⟨fun _ => ⟨1, 0⟩, 0,
    fun n => .serve ⟨first + n + 1, Nat.succ_ne_zero _, 0, fun _ => 0⟩⟩ s).2

/-- The group conversation 30 of workspace 10 with the Admin 5. -/
def group : ChatState :=
  after (after (after ChatState.initial 9 (.createWorkspace 1 3 "HQ"))
    19 (.addMember 10 5 "Admin")) 28 (.getGroupConversation 10)

/-- Two messages saved at the same time. -/
def twins : ChatState :=
  after (after group 48 (.sendMessage 10 30 5 "Ann" "one")) 49 (.sendMessage 10 30 5 "Ann" "two")

/-- A client that reads them one at a time. -/
def twinsClient : Client where
  conversationID := 30
  limit := 1
  limit_bounds := by decide
  states := fun _ => twins
  grows := fun _ _ hm => hm
  settles := ⟨0, fun _ _ => rfl⟩
  clock := fun _ => 0
  clock_valid := fun _ => by decide
  below := by decide

/-- Paging one message at a time through two messages of the same time delivers
the first and loses the second. -/
theorem walk_complete_fails :
    ¬∀ (w : Client) choices, ∃ fuel history,
      w.walk choices fuel 0 none = some history ∧ w.Complete history := by
  intro h
  let choices : ℕ → Choice := fun _ => ⟨1, by decide, 0, fun _ => 0⟩
  have hfirst : twinsClient.page choices 0 none = .ok [⟨50, 10, 30, 5, "Ann", "one", 0⟩] := rfl
  have hsecond : twinsClient.page choices 1 (some 0) = .ok [] := rfl
  obtain ⟨fuel, history, hwalk, hcomplete⟩ := h twinsClient choices
  have honce := hcomplete.once ⟨51, 10, 30, 5, "Ann", "two", 0⟩ (by decide)
  cases fuel with
  | zero => cases hwalk
  | succ fuel =>
    rw [twinsClient.walk_cons hfirst] at hwalk
    cases fuel with
    | zero => cases hwalk
    | succ fuel =>
      rw [twinsClient.walk_nil hsecond] at hwalk
      cases hwalk
      revert honce
      decide

end AuraWellness.Chat.Paging
