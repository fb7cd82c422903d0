import Mathlib.Data.List.Perm.Subperm
import Mathlib.Data.List.Sort
import Mathlib.Data.Prod.Lex
import Mathlib.Order.Basic

/-!
# Listing rows by rank

A query delivers its rows in the order of a rank. Rows that the order leaves
open are ranked by a tie value that the environment chooses, so every order
that a query engine may deliver is the order of some rank.
-/

namespace AuraWellness.Lib.Ranked

variable {α κ : Type*} [LinearOrder κ]

/-- The rows in non-decreasing rank. -/
def sortOn (rank : α → κ) (rows : List α) : List α :=
  rows.insertionSort fun a b => rank a ≤ rank b

theorem sortOn_perm (rank : α → κ) (rows : List α) : (sortOn rank rows).Perm rows :=
  List.perm_insertionSort _ rows

@[simp] theorem mem_sortOn {rank : α → κ} {rows : List α} {a : α} :
    a ∈ sortOn rank rows ↔ a ∈ rows := (sortOn_perm rank rows).mem_iff

@[simp] theorem length_sortOn (rank : α → κ) (rows : List α) :
    (sortOn rank rows).length = rows.length := (sortOn_perm rank rows).length_eq

/-- Nothing is delivered only from an empty table. -/
theorem eq_nil_of_sortOn_eq_nil {rank : α → κ} {rows : List α} (h : sortOn rank rows = []) :
    rows = [] := by
  have hlen : rows.length = 0 := by rw [← length_sortOn rank rows, h, List.length_nil]
  exact List.eq_nil_of_length_eq_zero hlen

/-- The delivered list is ordered by rank. -/
theorem pairwise_sortOn (rank : α → κ) (rows : List α) :
    (sortOn rank rows).Pairwise fun a b => rank a ≤ rank b := by
  have : Std.Total fun a b : α => rank a ≤ rank b := ⟨fun a b => le_total (rank a) (rank b)⟩
  have : IsTrans α fun a b => rank a ≤ rank b := ⟨fun _ _ _ => le_trans⟩
  exact List.pairwise_insertionSort _ rows

/-- A row of least rank is delivered first. -/
theorem head?_sortOn {rank : α → κ} {rows : List α} {a : α} (ha : a ∈ rows)
    (h : ∀ b ∈ rows, b ≠ a → rank a < rank b) : (sortOn rank rows).head? = some a := by
  have hsorted := pairwise_sortOn rank rows
  have hmem : a ∈ sortOn rank rows := mem_sortOn.mpr ha
  cases hrows : sortOn rank rows with
  | nil =>
    rw [hrows] at hmem
    cases hmem
  | cons b rest =>
    rw [hrows] at hsorted hmem
    have hb' : b ∈ sortOn rank rows := by
      rw [hrows]
      exact List.mem_cons_self
    have hb : b ∈ rows := mem_sortOn.mp hb'
    by_cases hba : b = a
    · rw [hba]
      rfl
    · have hle : rank b ≤ rank a :=
        (List.pairwise_cons.mp hsorted).1 a (List.mem_of_ne_of_mem (Ne.symm hba) hmem)
      exact absurd (h b hb hba) (not_lt_of_ge hle)

/-- What is delivered before and after a row. -/
theorem exists_split_sortOn (rank : α → κ) {rows : List α} {a : α} (ha : a ∈ rows) :
    ∃ before after, sortOn rank rows = before ++ a :: after ∧
      (∀ b ∈ before, rank b ≤ rank a) ∧ ∀ b ∈ after, rank a ≤ rank b := by
  have ha' : a ∈ sortOn rank rows := mem_sortOn.mpr ha
  obtain ⟨before, after, hsplit⟩ := List.append_of_mem ha'
  have hsorted := pairwise_sortOn rank rows
  rw [hsplit, List.pairwise_append] at hsorted
  obtain ⟨-, hrest, hacross⟩ := hsorted
  exact ⟨before, after, hsplit, fun b hb => hacross b hb a List.mem_cons_self,
    (List.pairwise_cons.mp hrest).1⟩

/-- A row is among the first `n` when at most `n` rows are not ranked after it. -/
theorem mem_take_sortOn {rank : α → κ} {rows : List α} {a : α} {n : ℕ} (hnodup : rows.Nodup)
    (ha : a ∈ rows) (h : (rows.filter fun b => rank b ≤ rank a).length ≤ n) :
    a ∈ (sortOn rank rows).take n := by
  obtain ⟨before, after, hsplit, hbefore, -⟩ := exists_split_sortOn rank ha
  have hsorted : (before ++ a :: after).Nodup := by
    rw [← hsplit]
    exact (sortOn_perm rank rows).nodup_iff.mpr hnodup
  have hprefix : (before ++ [a]).Nodup := by
    refine hsorted.sublist ?_
    exact List.Sublist.append_left (List.singleton_sublist.mpr List.mem_cons_self) before
  have hsub : before ++ [a] ⊆ rows.filter fun b => rank b ≤ rank a := by
    intro b hb
    have hmem : b ∈ sortOn rank rows := by
      rw [hsplit]
      obtain hb | hb := List.mem_append.mp hb
      · exact List.mem_append_left _ hb
      · rw [List.mem_singleton.mp hb]
        exact List.mem_append_right _ List.mem_cons_self
    have hle : rank b ≤ rank a := by
      obtain hb | hb := List.mem_append.mp hb
      · exact hbefore b hb
      · rw [List.mem_singleton.mp hb]
    exact List.mem_filter.mpr ⟨mem_sortOn.mp hmem, by simpa using hle⟩
  have hlen : before.length + 1 ≤ n := by
    have hle := (List.subperm_of_subset hprefix hsub).length_le
    rw [List.length_append, List.length_singleton] at hle
    omega
  rw [hsplit, List.take_append, List.take_of_length_le (by omega)]
  obtain ⟨k, hk⟩ : ∃ k, n - before.length = k + 1 := ⟨n - before.length - 1, by omega⟩
  rw [hk, List.take_succ_cons]
  exact List.mem_append_right _ List.mem_cons_self

/-- A row is not among the first `n` when `n` rows are ranked before it. -/
theorem not_mem_take_sortOn {rank : α → κ} {rows : List α} {a : α} {n : ℕ} (hnodup : rows.Nodup)
    (h : n ≤ (rows.filter fun b => rank b < rank a).length) :
    a ∉ (sortOn rank rows).take n := by
  intro hmem
  have ha : a ∈ rows := mem_sortOn.mp (List.mem_of_mem_take hmem)
  obtain ⟨before, after, hsplit, -, hafter⟩ := exists_split_sortOn rank ha
  have hsorted : (before ++ a :: after).Nodup := by
    rw [← hsplit]
    exact (sortOn_perm rank rows).nodup_iff.mpr hnodup
  have hsub : (rows.filter fun b => rank b < rank a) ⊆ before := by
    intro b hb
    obtain ⟨hb, hlt⟩ := List.mem_filter.mp hb
    have hlt' : rank b < rank a := by simpa using hlt
    have hmem : b ∈ before ++ a :: after := by
      rw [← hsplit]
      exact mem_sortOn.mpr hb
    obtain hb | hb := List.mem_append.mp hmem
    · exact hb
    · obtain rfl | hb := List.mem_cons.mp hb
      · exact absurd hlt' (lt_irrefl _)
      · exact absurd hlt' (not_lt_of_ge (hafter b hb))
  have hlen : n ≤ before.length :=
    h.trans (List.subperm_of_subset (hnodup.filter _) hsub).length_le
  rw [hsplit, List.take_append_of_le_length hlen] at hmem
  exact (List.nodup_append.mp hsorted).2.2 a (List.mem_of_mem_take hmem) a List.mem_cons_self rfl

/-- A row of a rank of its own is among the first `n` exactly if fewer than `n` are ranked
before it. -/
theorem mem_take_sortOn_iff {rank : α → κ} {rows : List α} {a : α} {n : ℕ} (hnodup : rows.Nodup)
    (ha : a ∈ rows) (hown : ∀ b ∈ rows, rank b = rank a → b = a) :
    a ∈ (sortOn rank rows).take n ↔ (rows.filter fun b => rank b < rank a).length < n := by
  constructor
  · intro hmem
    by_contra hmany
    exact not_mem_take_sortOn hnodup (not_lt.mp hmany) hmem
  · intro hfew
    refine mem_take_sortOn hnodup ha (le_trans ?_ (Nat.succ_le_of_lt hfew))
    have hsub : (rows.filter fun b => rank b ≤ rank a) ⊆
        a :: rows.filter fun b => rank b < rank a := by
      intro b hb
      obtain ⟨hb, hle⟩ := List.mem_filter.mp hb
      obtain hlt | heq := lt_or_eq_of_le (of_decide_eq_true hle)
      · exact List.mem_cons_of_mem a (List.mem_filter.mpr ⟨hb, decide_eq_true hlt⟩)
      · rw [hown b hb heq]
        exact List.mem_cons_self
    exact (List.subperm_of_subset (hnodup.filter _) hsub).length_le

/-- What is not among the first `n` is ranked after all of them. -/
theorem rank_le_of_not_mem_take {rank : α → κ} {rows : List α} {a b : α} {n : ℕ} (ha : a ∈ rows)
    (hnot : a ∉ (sortOn rank rows).take n) (hb : b ∈ (sortOn rank rows).take n) :
    rank b ≤ rank a := by
  have hsorted := pairwise_sortOn rank rows
  have ha' : a ∈ sortOn rank rows := mem_sortOn.mpr ha
  rw [← List.take_append_drop n (sortOn rank rows)] at hsorted ha'
  obtain ha' | ha' := List.mem_append.mp ha'
  · exact absurd ha' hnot
  · exact (List.pairwise_append.mp hsorted).2.2 b hb a ha'

/-- The order of the keys that a sorted list shows does not depend on how the
rank breaks ties between them. -/
theorem map_sortOn {β μ : Type*} [LinearOrder μ] {rank : α → κ} {key : α → β} {order : β → μ}
    (hmono : ∀ a b, rank a ≤ rank b → order (key a) ≤ order (key b))
    (hinj : Function.Injective order) (rows : List α) :
    (sortOn rank rows).map key = sortOn order (rows.map key) := by
  have hleft : ((sortOn rank rows).map key).Pairwise fun a b => order a ≤ order b :=
    List.pairwise_map.mpr ((pairwise_sortOn rank rows).imp fun h => hmono _ _ h)
  have hperm : ((sortOn rank rows).map key).Perm (sortOn order (rows.map key)) :=
    ((sortOn_perm rank rows).map key).trans (sortOn_perm order (rows.map key)).symm
  refine List.Perm.eq_of_pairwise ?_ hleft (pairwise_sortOn order (rows.map key)) hperm
  intro a b _ _ hab hba
  exact hinj (le_antisymm hab hba)

/-- Sorting depends on the rows only, not on the order they are stored in,
when no two of them have the same rank. -/
theorem sortOn_eq_of_perm {rank : α → κ} {rows rows' : List α} (h : rows.Perm rows')
    (hinj : ∀ a ∈ rows, ∀ b ∈ rows, rank a = rank b → a = b) :
    sortOn rank rows = sortOn rank rows' := by
  refine List.Perm.eq_of_pairwise ?_ (pairwise_sortOn rank rows) (pairwise_sortOn rank rows')
    ((sortOn_perm rank rows).trans (h.trans (sortOn_perm rank rows').symm))
  intro a b ha hb hab hba
  have hb' : b ∈ rows := h.symm.mem_iff.mp (mem_sortOn.mp hb)
  exact hinj a (mem_sortOn.mp ha) b hb' (le_antisymm hab hba)

/-- Selecting rows before or after sorting delivers the same list. -/
theorem sortOn_filter {rank : α → κ} {rows : List α} (p : α → Bool)
    (hinj : ∀ a ∈ rows, ∀ b ∈ rows, rank a = rank b → a = b) :
    (sortOn rank rows).filter p = sortOn rank (rows.filter p) := by
  have hperm : ((sortOn rank rows).filter p).Perm (sortOn rank (rows.filter p)) :=
    ((sortOn_perm rank rows).filter p).trans (sortOn_perm rank (rows.filter p)).symm
  have hleft : ((sortOn rank rows).filter p).Pairwise fun a b => rank a ≤ rank b :=
    (pairwise_sortOn rank rows).filter p
  refine List.Perm.eq_of_pairwise ?_ hleft (pairwise_sortOn rank (rows.filter p)) hperm
  intro a b ha hb hab hba
  have ha' : a ∈ rows := mem_sortOn.mp (List.mem_of_mem_filter ha)
  have hb' : b ∈ rows := List.mem_of_mem_filter (mem_sortOn.mp hb)
  exact hinj a ha' b hb' (le_antisymm hab hba)

/-- The rank that orders by a key and leaves ties to the environment. The
identity of the row closes what even the environment's choice leaves open. -/
def tieRank (key : α → κ) (tie : ℕ → ℕ) (id : α → ℕ) (a : α) : κ ×ₗ ℕ ×ₗ ℕ :=
  toLex (key a, toLex (tie (id a), id a))

omit [LinearOrder κ] in
theorem tieRank_inj {key : α → κ} {tie : ℕ → ℕ} {id : α → ℕ} {a b : α}
    (h : tieRank key tie id a = tieRank key tie id b) : id a = id b := by
  have h₁ : (key a, toLex (tie (id a), id a)) = (key b, toLex (tie (id b), id b)) := h
  exact (Prod.mk.inj (Prod.mk.inj h₁).2).2

/-- The rank is less when the key is less, or when the environment prefers the
row among those with the same key. -/
theorem tieRank_lt {key : α → κ} {tie : ℕ → ℕ} {id : α → ℕ} {a b : α}
    (h : key a < key b ∨ (key a = key b ∧ tie (id a) < tie (id b))) :
    tieRank key tie id a < tieRank key tie id b := by
  refine Prod.Lex.lt_iff.mpr ?_
  obtain hlt | ⟨heq, htie⟩ := h
  · exact Or.inl hlt
  · exact Or.inr ⟨heq, Prod.Lex.lt_iff.mpr (Or.inl htie)⟩

/-- Among rows that the order leaves open, the one that the environment prefers to all
others is delivered first. -/
theorem head?_sortOn_preferred {tie : ℕ → ℕ} (id : α → ℕ) {rows : List α} {a : α} (ha : a ∈ rows)
    (hid : ∀ b ∈ rows, id b = id a → b = a) (htie : ∀ n, n ≠ id a → tie (id a) < tie n) :
    (sortOn (tieRank (fun _ => ()) tie id) rows).head? = some a := by
  refine head?_sortOn ha fun b hb hne => tieRank_lt (Or.inr ⟨rfl, htie _ fun he => ?_⟩)
  exact hne (hid b hb he)

/-- Rows delivered by a tie rank are ordered by its key. -/
theorem key_le_of_tieRank_le {key : α → κ} {tie : ℕ → ℕ} {id : α → ℕ} {a b : α}
    (h : tieRank key tie id a ≤ tieRank key tie id b) : key a ≤ key b := by
  obtain hlt | ⟨heq, -⟩ := Prod.Lex.le_iff.mp h
  · exact hlt.le
  · exact le_of_eq heq

theorem pairwise_key_sortOn (key : α → κ) (tie : ℕ → ℕ) (id : α → ℕ) (rows : List α) :
    (sortOn (tieRank key tie id) rows).Pairwise fun a b => key a ≤ key b :=
  (pairwise_sortOn (tieRank key tie id) rows).imp fun h => key_le_of_tieRank_le h

/-- Tables with a key column: delivering rows with pairwise different
identities does not depend on the stored order. -/
theorem sortOn_tieRank_eq_of_perm {key : α → κ} {tie : ℕ → ℕ} {id : α → ℕ}
    {rows rows' : List α} (h : rows.Perm rows') (hid : (rows.map id).Nodup) :
    sortOn (tieRank key tie id) rows = sortOn (tieRank key tie id) rows' :=
  sortOn_eq_of_perm h fun _ ha _ hb hab =>
    List.inj_on_of_nodup_map hid ha hb (tieRank_inj hab)

/-- Every order of the rows that follows the key is the order of some tie rank. -/
theorem exists_tie_sortOn (key : α → κ) {id : α → ℕ} {rows ordered : List α}
    (hperm : ordered.Perm rows) (hid : (rows.map id).Nodup)
    (hkey : ordered.Pairwise fun a b => key a ≤ key b) :
    ∃ tie, sortOn (tieRank key tie id) rows = ordered := by
  have hnodup : (ordered.map id).Nodup := (hperm.map id).nodup_iff.mpr hid
  -- the environment prefers what stands further to the front
  refine ⟨(ordered.map id).idxOf, ?_⟩
  have hsorted : ordered.Pairwise fun a b => tieRank key (ordered.map id).idxOf id a ≤
      tieRank key (ordered.map id).idxOf id b := by
    rw [List.pairwise_iff_getElem] at hkey ⊢
    intro i j hi hj hij
    have hpos : ∀ k (hk : k < ordered.length), (ordered.map id).idxOf (id ordered[k]) = k := by
      intro k hk
      have h := hnodup.idxOf_getElem k (by simpa using hk)
      rwa [List.getElem_map] at h
    refine (tieRank_lt ?_).le
    obtain hlt | heq := lt_or_eq_of_le (hkey i j hi hj hij)
    · exact Or.inl hlt
    · refine Or.inr ⟨heq, ?_⟩
      rw [hpos i hi, hpos j hj]
      exact hij
  refine List.Perm.eq_of_pairwise ?_ (pairwise_sortOn _ rows) hsorted
    ((sortOn_perm _ rows).trans hperm.symm)
  intro a b ha hb hab hba
  have ha' : a ∈ rows := mem_sortOn.mp ha
  exact List.inj_on_of_nodup_map hid ha' (hperm.mem_iff.mp hb) (tieRank_inj (le_antisymm hab hba))

end AuraWellness.Lib.Ranked
