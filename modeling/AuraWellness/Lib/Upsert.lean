import AuraWellness.Lib.Keyed

/-!
# Insert or update

A statement that inserts a row, or rewrites the row that already has its key. A
lookup of the key then finds the inserted or the rewritten row, and the rows with
any other key stay as they are.
-/

namespace AuraWellness.Lib.Upsert

open AuraWellness.Lib.Keyed

variable {α κ : Type*} [DecidableEq κ] {key : α → κ} {k k' : κ} {f g : α → α} {fresh other : α}

/-- Rewrite the rows with this key. -/
def rewriteAt (key : α → κ) (k : κ) (f : α → α) (rows : List α) : List α :=
  rows.map fun b => if key b = k then f b else b

/-- Rewrite the row with this key, or append a row if there is none. -/
def upsertRow (key : α → κ) (k : κ) (f : α → α) (fresh : α) (rows : List α) : List α :=
  if ∃ b ∈ rows, key b = k then rewriteAt key k f rows else rows ++ [fresh]

/-- A rewriting that keeps the keys keeps who has the key. -/
theorem exists_rewriteAt (hf : ∀ b, key (f b) = key b) (rows : List α) :
    (∃ b ∈ rewriteAt key k f rows, key b = k') ↔ ∃ b ∈ rows, key b = k' := by
  have hkey : ∀ b, key (if key b = k then f b else b) = key b := by
    intro b
    split
    · exact hf b
    · rfl
  constructor
  · rintro ⟨_, hmem, hk⟩
    obtain ⟨b, hb, rfl⟩ := List.mem_map.mp hmem
    exact ⟨b, hb, (hkey b).symm.trans hk⟩
  · rintro ⟨b, hb, hk⟩
    exact ⟨_, List.mem_map_of_mem hb, (hkey b).trans hk⟩

/-- Rewriting twice is rewriting with both functions. -/
theorem rewriteAt_rewriteAt (hg : ∀ b, key (g b) = key b) (rows : List α) :
    rewriteAt key k f (rewriteAt key k g rows) = rewriteAt key k (f ∘ g) rows := by
  unfold rewriteAt
  rw [List.map_map]
  refine List.map_congr_left fun b _ => ?_
  by_cases hb : key b = k
  · simp only [Function.comp_apply, if_pos hb, if_pos ((hg b).trans hb)]
  · simp only [Function.comp_apply, if_neg hb]

/-- The rows with another key stay as they are. -/
theorem filter_rewriteAt_of_ne (hf : ∀ b, key (f b) = key b) (h : k' ≠ k) (rows : List α) :
    (rewriteAt key k f rows).filter (fun b => key b = k') = rows.filter fun b => key b = k' := by
  unfold rewriteAt
  induction rows with
  | nil => rfl
  | cons b rows ih =>
    rw [List.map_cons]
    by_cases hb : key b = k
    · have hne : key b ≠ k' := fun he => h (he.symm.trans hb)
      rw [if_pos hb, List.filter_cons_of_neg (by simpa [hf] using hne),
        List.filter_cons_of_neg (by simpa using hne), ih]
    · rw [if_neg hb, List.filter_cons, List.filter_cons, ih]

/-- A lookup of the key finds the rewritten row. -/
theorem find?_rewriteAt (hf : ∀ b, key (f b) = key b) (rows : List α) :
    (rewriteAt key k f rows).find? (fun b => key b = k) =
      (rows.find? fun b => key b = k).map f := by
  unfold rewriteAt
  induction rows with
  | nil => rfl
  | cons b rows ih =>
    rw [List.map_cons]
    by_cases hb : key b = k
    · rw [if_pos hb, List.find?_cons_of_pos (by simpa [hf] using hb),
        List.find?_cons_of_pos (by simpa using hb)]
      rfl
    · rw [if_neg hb, List.find?_cons_of_neg (by simpa using hb),
        List.find?_cons_of_neg (by simpa using hb), ih]

/-- After the statement the key is there. -/
theorem find?_upsertRow (hf : ∀ b, key (f b) = key b) (hfresh : key fresh = k) (rows : List α) :
    (upsertRow key k f fresh rows).find? (fun b => key b = k) =
      some ((rows.find? fun b => key b = k).elim fresh f) := by
  unfold upsertRow
  split
  · rename_i hthere
    rw [find?_rewriteAt hf]
    cases hfind : rows.find? fun b => key b = k with
    | none => exact absurd hthere (find?_eq_none_iff.mp hfind)
    | some b => rfl
  · rename_i hnone
    rw [List.find?_append, find?_eq_none_iff.mpr hnone]
    simp [hfresh]

/-- The rows with another key stay as they are. -/
theorem filter_upsertRow_of_ne (hf : ∀ b, key (f b) = key b) (hfresh : key fresh = k) (h : k' ≠ k)
    (rows : List α) :
    (upsertRow key k f fresh rows).filter (fun b => key b = k') =
      rows.filter fun b => key b = k' := by
  unfold upsertRow
  split
  · exact filter_rewriteAt_of_ne hf h rows
  · have hne : key fresh ≠ k' := fun he => h (he.symm.trans hfresh)
    rw [List.filter_append]
    simp [hne]

/-- Two statements on one key: the second one rewrites what the first one left. -/
theorem upsertRow_upsertRow (fresh : α) (hg : ∀ b, key (g b) = key b) (hother : key other = k)
    (rows : List α) :
    upsertRow key k f fresh (upsertRow key k g other rows) =
      upsertRow key k (f ∘ g) (f other) rows := by
  by_cases hthere : ∃ b ∈ rows, key b = k
  · have hagain : ∃ b ∈ rewriteAt key k g rows, key b = k := (exists_rewriteAt hg rows).mpr hthere
    unfold upsertRow
    rw [if_pos hthere, if_pos hagain, if_pos hthere, rewriteAt_rewriteAt hg]
  · have hagain : ∃ b ∈ rows ++ [other], key b = k :=
      ⟨other, List.mem_append_right _ (List.mem_singleton_self other), hother⟩
    unfold upsertRow
    rw [if_neg hthere, if_pos hagain, if_neg hthere]
    unfold rewriteAt
    rw [List.map_append, List.map_singleton, if_pos hother]
    have hsame : rows.map (fun b => if key b = k then f b else b) = rows := by
      refine (List.map_congr_left fun b hb => ?_).trans (List.map_id rows)
      exact if_neg fun he => hthere ⟨b, hb, he⟩
    rw [hsame]

end AuraWellness.Lib.Upsert
