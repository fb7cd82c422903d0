import Mathlib.Data.Fintype.EquivFin
import Mathlib.Data.List.Nodup

/-!
# Tables with a unique column

A table is a list of rows. A column is unique when no two rows share its
value, and then a row is determined by that value. Appending a row with a new
value and rewriting the other columns in place keep the column unique.
-/

namespace AuraWellness.Lib.Keyed

variable {α κ : Type*}

/-- No two rows have the same value in this column. -/
def UniqueColumn (key : α → κ) (rows : List α) : Prop := (rows.map key).Nodup

/-- A value of a unique column determines the row. -/
theorem UniqueColumn.eq {key : α → κ} {rows : List α} (h : UniqueColumn key rows) {a b : α}
    (ha : a ∈ rows) (hb : b ∈ rows) (hk : key a = key b) : a = b :=
  List.inj_on_of_nodup_map h ha hb hk

theorem UniqueColumn.nodup {key : α → κ} {rows : List α} (h : UniqueColumn key rows) : rows.Nodup :=
  List.Nodup.of_map key h

/-- Any selection of the rows keeps the column unique. -/
theorem UniqueColumn.filter {key : α → κ} {rows : List α} (h : UniqueColumn key rows) (p : α → Bool) :
    UniqueColumn key (rows.filter p) :=
  List.Nodup.sublist (List.Sublist.map key List.filter_sublist) h

/-- At most one row has a given value. -/
theorem UniqueColumn.length_filter_le_one [DecidableEq κ] {key : α → κ} {rows : List α}
    (h : UniqueColumn key rows) (k : κ) : (rows.filter fun a => key a = k).length ≤ 1 := by
  have hcount : (rows.filter fun a => key a = k).length = (rows.map key).count k := by
    rw [← List.countP_eq_length_filter, List.count, List.countP_map]
    exact List.countP_congr fun a _ => by simp
  rw [hcount]
  exact List.nodup_iff_count_le_one.mp h k

/-- Appending a row whose value is new. -/
theorem UniqueColumn.concat {key : α → κ} {rows : List α} {a : α} (h : UniqueColumn key rows)
    (hnew : ¬∃ b ∈ rows, key b = key a) : UniqueColumn key (rows ++ [a]) := by
  unfold UniqueColumn at h ⊢
  rw [List.map_append, List.map_singleton]
  refine List.nodup_append.mpr ⟨h, List.nodup_singleton _, ?_⟩
  intro x hx y hy hxy
  obtain ⟨b, hb, rfl⟩ := List.mem_map.mp hx
  have hy' : y = key a := List.mem_singleton.mp hy
  exact hnew ⟨b, hb, hxy.trans hy'⟩

/-- Rewriting rows in place without touching the column. -/
theorem UniqueColumn.map {key : α → κ} {rows : List α} {f : α → α} (h : UniqueColumn key rows)
    (hf : ∀ a, key (f a) = key a) : UniqueColumn key (rows.map f) := by
  unfold UniqueColumn at h ⊢
  rw [List.map_map]
  have he : key ∘ f = key := funext hf
  rw [he]
  exact h

/-- Looking a value of a unique column up finds its row. -/
theorem find?_eq_some_iff [DecidableEq κ] {key : α → κ} {rows : List α} (h : UniqueColumn key rows)
    {k : κ} {a : α} : rows.find? (fun b => key b = k) = some a ↔ a ∈ rows ∧ key a = k := by
  constructor
  · intro hf
    exact ⟨List.mem_of_find?_eq_some hf, by simpa using List.find?_some hf⟩
  · rintro ⟨ha, rfl⟩
    cases hf : rows.find? (fun b => key b = key a) with
    | none => exact absurd (List.find?_eq_none.mp hf a ha) (by simp)
    | some b =>
      have hb : key b = key a := by simpa using List.find?_some hf
      rw [h.eq (List.mem_of_find?_eq_some hf) ha hb]

theorem find?_eq_none_iff [DecidableEq κ] {key : α → κ} {rows : List α} {k : κ} :
    rows.find? (fun b => key b = k) = none ↔ ¬∃ b ∈ rows, key b = k := by
  simp [List.find?_eq_none]

/-- Two tables with the same rows for a value answer its lookup alike. -/
theorem find?_congr [DecidableEq κ] {key : α → κ} {rows rows' : List α} {k : κ}
    (h : UniqueColumn key rows) (h' : UniqueColumn key rows')
    (hsame : ∀ a, key a = k → (a ∈ rows ↔ a ∈ rows')) :
    rows.find? (fun b => key b = k) = rows'.find? (fun b => key b = k) := by
  refine Option.ext fun a => ?_
  rw [find?_eq_some_iff h, find?_eq_some_iff h']
  constructor
  · rintro ⟨ha, hk⟩
    exact ⟨(hsame a hk).mp ha, hk⟩
  · rintro ⟨ha, hk⟩
    exact ⟨(hsame a hk).mpr ha, hk⟩

/-- Reordering the rows keeps the column unique. -/
theorem UniqueColumn.perm {key : α → κ} {rows rows' : List α} (h : UniqueColumn key rows)
    (hperm : rows.Perm rows') : UniqueColumn key rows' :=
  (hperm.map key).nodup_iff.mp h

/-- A lookup does not depend on the order of the rows. -/
theorem find?_perm [DecidableEq κ] {key : α → κ} {rows rows' : List α}
    (h : UniqueColumn key rows) (hperm : rows.Perm rows') (k : κ) :
    rows.find? (fun b => key b = k) = rows'.find? (fun b => key b = k) :=
  find?_congr h (h.perm hperm) fun _ _ => hperm.mem_iff

/-- Two selections with the same rows are reorderings of each other. -/
theorem filter_perm_of_mem_iff {rows rows' : List α} (h : rows.Nodup) (h' : rows'.Nodup)
    {p : α → Bool} (hsame : ∀ a, p a = true → (a ∈ rows ↔ a ∈ rows')) :
    (rows.filter p).Perm (rows'.filter p) := by
  refine (List.perm_ext_iff_of_nodup (h.filter p) (h'.filter p)).mpr fun a => ?_
  rw [List.mem_filter, List.mem_filter]
  constructor
  · rintro ⟨ha, hp⟩
    exact ⟨(hsame a hp).mp ha, hp⟩
  · rintro ⟨ha, hp⟩
    exact ⟨(hsame a hp).mpr ha, hp⟩

instance [DecidableEq κ] (key : α → κ) (rows : List α) : Decidable (UniqueColumn key rows) := by
  unfold UniqueColumn
  infer_instance

/-- The rows with a generated value each. -/
def numbered (draw : ℕ → κ) (rows : List α) : List (κ × α) :=
  rows.zipIdx.map fun r => (draw r.2, r.1)

@[simp] theorem map_snd_numbered (draw : ℕ → κ) (rows : List α) :
    (numbered draw rows).map Prod.snd = rows := by
  unfold numbered
  rw [List.map_map]
  exact List.zipIdx_map_fst 0 rows

/-- Every row gets a generated value. -/
theorem mem_numbered {draw : ℕ → κ} {rows : List α} {r : κ × α} (h : r ∈ numbered draw rows) :
    (∃ n, r.1 = draw n) ∧ r.2 ∈ rows := by
  constructor
  · obtain ⟨x, -, rfl⟩ := List.mem_map.mp h
    exact ⟨x.2, rfl⟩
  · rw [← map_snd_numbered draw rows]
    exact List.mem_map_of_mem h

theorem exists_mem_numbered (draw : ℕ → κ) {rows : List α} {a : α} (h : a ∈ rows) :
    ∃ k, (k, a) ∈ numbered draw rows := by
  rw [← map_snd_numbered draw rows] at h
  obtain ⟨⟨k, b⟩, hr, rfl⟩ := List.mem_map.mp h
  exact ⟨k, hr⟩

/-- Distinct draws make the generated column unique. -/
theorem uniqueColumn_numbered {draw : ℕ → κ} (hdraw : draw.Injective) (rows : List α) :
    UniqueColumn Prod.fst (numbered draw rows) := by
  unfold UniqueColumn numbered
  rw [List.map_map]
  refine (?_ : (rows.zipIdx.map (draw ∘ Prod.snd)).Nodup)
  rw [← List.map_map, List.zipIdx_map_snd]
  exact (List.nodup_range' 1).map hdraw

/-- The rows that a join makes of one row of a table. -/
theorem filter_join {β : Type*} [DecidableEq α] {join : α → List (α × β)}
    (hjoin : ∀ a, ∀ r ∈ join a, r.1 = a) {rows : List α} (h : rows.Nodup) (a : α) :
    ((rows.flatMap join).filter fun r => r.1 = a) = if a ∈ rows then join a else [] := by
  induction rows with
  | nil => rfl
  | cons b rows ih =>
    obtain ⟨hb, hrows⟩ := List.nodup_cons.mp h
    rw [List.flatMap_cons, List.filter_append, ih hrows]
    by_cases hab : a = b
    · have hall : ((join b).filter fun r => r.1 = a) = join b :=
        List.filter_eq_self.mpr fun r hr => by simp [hjoin b r hr, hab]
      rw [hall, hab, if_neg hb, List.append_nil, if_pos List.mem_cons_self]
    · have hnone : ((join b).filter fun r => r.1 = a) = [] :=
        List.filter_eq_nil_iff.mpr fun r hr => by simp [hjoin b r hr, Ne.symm hab]
      rw [hnone, List.nil_append]
      simp [hab]

/-- An identifier that is not nil and that no row has. -/
theorem exists_fresh (ids : List ℕ) : ∃ id, id ≠ 0 ∧ id ∉ ids := by
  obtain ⟨id, hid⟩ := Infinite.exists_notMem_finset (insert 0 ids.toFinset)
  rw [Finset.mem_insert, List.mem_toFinset] at hid
  exact ⟨id, fun h => hid (Or.inl h), fun h => hid (Or.inr h)⟩

/-- No two rows are in conflict. -/
def ConflictFree (R : α → α → Prop) (rows : List α) : Prop := ∀ a ∈ rows, ∀ b ∈ rows, ¬R a b

/-- New rows are appended without conflict exactly if none of them is in conflict
with an old row or a new one. -/
theorem ConflictFree.append_iff {R : α → α → Prop} {rows new : List α} (hsymm : ∀ a b, R a b → R b a)
    (h : ConflictFree R rows) :
    ConflictFree R (rows ++ new) ↔ ∀ b ∈ new, ∀ a ∈ rows ++ new, ¬R a b := by
  constructor
  · exact fun hfree b hb a ha => hfree a ha b (List.mem_append_right rows hb)
  · intro hnew a ha b hb hR
    rcases List.mem_append.mp hb with hold | hlast
    · rcases List.mem_append.mp ha with hold' | hlast'
      · exact h a hold' b hold hR
      · exact hnew a hlast' b (List.mem_append_left new hold) (hsymm a b hR)
    · exact hnew b hlast a ha hR

/-- Selected rows are rewritten without conflict exactly if no rewritten row is in
conflict with an old row or a rewritten one, where selected rows do not count. -/
theorem ConflictFree.rewrite_iff {R : α → α → Prop} {rows : List α} {p : α → Prop}
    [DecidablePred p] {g : α → α} (hsymm : ∀ a b, R a b → R b a) (h : ConflictFree R rows)
    (hown : ∀ a ∈ rows, ∀ b ∈ rows, p a → p b → ¬R a (g b)) :
    ConflictFree R (rows.map fun a => if p a then g a else a) ↔
      ∀ b ∈ (rows.filter fun a => p a).map g, ∀ a ∈ rows ++ (rows.filter fun a => p a).map g,
        ¬R a b := by
  -- a row of the new table is an old one that is not selected, or a rewritten one
  have hmem : ∀ a, (a ∈ rows.map fun a => if p a then g a else a) ↔
      (a ∈ rows ∧ ¬p a) ∨ a ∈ (rows.filter fun a => p a).map g := by
    intro a
    rw [List.mem_map, List.mem_map]
    constructor
    · rintro ⟨x, hx, rfl⟩
      by_cases hp : p x
      · rw [if_pos hp]
        exact Or.inr ⟨x, List.mem_filter.mpr ⟨hx, decide_eq_true hp⟩, rfl⟩
      · rw [if_neg hp]
        exact Or.inl ⟨hx, hp⟩
    · rintro (⟨ha, hp⟩ | ⟨x, hx, rfl⟩)
      · exact ⟨a, ha, if_neg hp⟩
      · obtain ⟨hx, hp⟩ := List.mem_filter.mp hx
        exact ⟨x, hx, if_pos (of_decide_eq_true hp)⟩
  constructor
  · intro hfree b hb a ha
    have hb' := (hmem b).mpr (Or.inr hb)
    rcases List.mem_append.mp ha with hold | hlast
    · by_cases hp : p a
      · obtain ⟨x, hx, rfl⟩ := List.mem_map.mp hb
        obtain ⟨hx, hpx⟩ := List.mem_filter.mp hx
        exact hown a hold x hx hp (of_decide_eq_true hpx)
      · exact hfree a ((hmem a).mpr (Or.inl ⟨hold, hp⟩)) b hb'
    · exact hfree a ((hmem a).mpr (Or.inr hlast)) b hb'
  · intro hnew a ha b hb hR
    rcases (hmem b).mp hb with ⟨hold, -⟩ | hlast
    · rcases (hmem a).mp ha with ⟨hold', -⟩ | hlast'
      · exact h a hold' b hold hR
      · exact hnew a hlast' b (List.mem_append_left _ hold) (hsymm a b hR)
    · rcases (hmem a).mp ha with ⟨hold', -⟩ | hlast'
      · exact hnew b hlast a (List.mem_append_left _ hold') hR
      · exact hnew b hlast a (List.mem_append_right rows hlast') hR

/-- A reference that a table resolves is still resolved after an append. -/
theorem resolved_append {p : α → Prop} {rows : List α} (new : List α)
    (h : ∃ a ∈ rows, p a) : ∃ a ∈ rows ++ new, p a :=
  h.imp fun _ ha => ⟨List.mem_append_left new ha.1, ha.2⟩

/-- What all rows satisfy and the appended row too. -/
theorem forall_mem_concat {p : α → Prop} {rows : List α} {new : α}
    (h : ∀ a ∈ rows, p a) (hnew : p new) : ∀ a ∈ rows ++ [new], p a := by
  intro a ha
  obtain ha | ha := List.mem_append.mp ha
  · exact h a ha
  · rw [List.mem_singleton.mp ha]
    exact hnew

end AuraWellness.Lib.Keyed
