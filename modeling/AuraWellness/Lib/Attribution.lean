import Mathlib.Data.List.Nodup

/-!
# Logs whose entries have a source

A log is a list of entries that each name their source. The entries of one
source are a list of their own, which the entries of other sources never touch.
-/

namespace AuraWellness.Lib.Attribution

variable {κ β : Type*}

/-- An entry of every value for one source. -/
def tagged (i : κ) (values : List β) : List (κ × β) := values.map fun v => (i, v)

@[simp] theorem map_snd_tagged (i : κ) (values : List β) :
    (tagged i values).map Prod.snd = values := by
  unfold tagged
  rw [List.map_map]
  exact List.map_id values

theorem mem_tagged {i j : κ} {v : β} {values : List β} :
    (j, v) ∈ tagged i values ↔ j = i ∧ v ∈ values := by
  unfold tagged
  constructor
  · intro h
    obtain ⟨u, hu, he⟩ := List.mem_map.mp h
    cases he
    exact ⟨rfl, hu⟩
  · intro h
    rw [h.1]
    exact List.mem_map_of_mem h.2

variable [DecidableEq κ]

/-- The entries of one source, in their order. -/
def entriesOf (i : κ) (log : List (κ × β)) : List β :=
  (log.filter fun e => e.1 = i).map Prod.snd

@[simp] theorem entriesOf_append (i : κ) (log new : List (κ × β)) :
    entriesOf i (log ++ new) = entriesOf i log ++ entriesOf i new := by
  simp [entriesOf]

@[simp] theorem entriesOf_tagged_self (i : κ) (values : List β) :
    entriesOf i (tagged i values) = values := by
  induction values with
  | nil => rfl
  | cons v values ih =>
    have hhead : entriesOf i (tagged i (v :: values)) = v :: entriesOf i (tagged i values) := by
      simp [entriesOf, tagged]
    rw [hhead, ih]

theorem entriesOf_tagged_other {i j : κ} (h : i ≠ j) (values : List β) :
    entriesOf j (tagged i values) = [] := by
  have hnone : (tagged i values).filter (fun e => e.1 = j) = [] := by
    refine List.filter_eq_nil_iff.mpr fun e he => ?_
    have hi : e.1 = i := (mem_tagged.mp (show (e.1, e.2) ∈ tagged i values from he)).1
    simp [hi, h]
  rw [entriesOf, hnone]
  rfl

theorem mem_entriesOf {i : κ} {v : β} {log : List (κ × β)} : v ∈ entriesOf i log ↔ (i, v) ∈ log := by
  unfold entriesOf
  constructor
  · intro h
    obtain ⟨e, he, rfl⟩ := List.mem_map.mp h
    obtain ⟨hlog, hi⟩ := List.mem_filter.mp he
    have hsource : e.1 = i := by simpa using hi
    rw [← hsource]
    exact hlog
  · intro h
    exact List.mem_map.mpr ⟨(i, v), List.mem_filter.mpr ⟨h, by simp⟩, rfl⟩

/-- A source names as many entries as it has. -/
theorem count_map_fst (i : κ) (log : List (κ × β)) :
    (log.map Prod.fst).count i = (entriesOf i log).length := by
  induction log with
  | nil => rfl
  | cons e log ih =>
    rw [List.map_cons, List.count_cons, ih]
    by_cases h : e.1 = i <;> simp [entriesOf, h]

/-- A log in which every source has one entry at most names no source twice. -/
theorem nodup_map_fst {log : List (κ × β)} (h : ∀ i, (entriesOf i log).length ≤ 1) :
    (log.map Prod.fst).Nodup := by
  refine List.nodup_iff_count_le_one.mpr fun i => ?_
  rw [count_map_fst]
  exact h i

/-- A log repeats no entry when no source does. -/
theorem nodup_of_entriesOf {log : List (κ × β)} (h : ∀ i, (entriesOf i log).Nodup) : log.Nodup := by
  refine List.nodup_iff_sublist.mpr fun e hsub => ?_
  have hfilter : [e, e].Sublist (log.filter fun x => x.1 = e.1) := by
    have hs := hsub.filter fun x => decide (x.1 = e.1)
    simpa using hs
  have htwice : [e.2, e.2].Sublist (entriesOf e.1 log) := hfilter.map Prod.snd
  exact List.nodup_iff_sublist.mp (h e.1) e.2 htwice

end AuraWellness.Lib.Attribution
