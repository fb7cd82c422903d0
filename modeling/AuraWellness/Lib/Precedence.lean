import Mathlib.Data.List.Nodup

/-!
# Order of two elements in a list

One element comes before another in a list when the two are a sublist. A list
without repetitions puts every two of its elements in exactly one order, and a
sublist keeps the order of its own elements.
-/

namespace AuraWellness.Lib.Precedence

variable {α : Type*}

/-- The first element comes before the second one in the list. -/
def Before (a b : α) (l : List α) : Prop := [a, b].Sublist l

instance [DecidableEq α] (a b : α) (l : List α) : Decidable (Before a b l) := by
  unfold Before
  infer_instance

/-- A longer list keeps the order. -/
theorem Before.mono {a b : α} {l l' : List α} (h : Before a b l) (hsub : l.Sublist l') :
    Before a b l' := List.Sublist.trans h hsub

/-- What is in the first part comes before what is in the second one. -/
theorem before_append {a b : α} {l l' : List α} (ha : a ∈ l) (hb : b ∈ l') : Before a b (l ++ l') :=
  (List.singleton_sublist.mpr ha).append (List.singleton_sublist.mpr hb)

/-- Two different elements have an order. -/
theorem before_total {a b : α} {l : List α} (ha : a ∈ l) (hb : b ∈ l) (hne : a ≠ b) :
    Before a b l ∨ Before b a l := by
  obtain ⟨first, rest, rfl⟩ := List.append_of_mem ha
  obtain hfirst | hrest := List.mem_append.mp hb
  · exact Or.inr (before_append hfirst List.mem_cons_self)
  · obtain he | hrest := List.mem_cons.mp hrest
    · exact absurd he.symm hne
    · have hfirst : a ∈ first ++ [a] := List.mem_append_right _ (List.mem_singleton_self a)
      have hsplit : first ++ a :: rest = (first ++ [a]) ++ rest := by simp
      rw [hsplit]
      exact Or.inl (before_append hfirst hrest)

/-- A list without repetitions has its elements in one order only. -/
theorem Before.asymm {a b : α} {l : List α} (hl : l.Nodup) (h : Before a b l) : ¬Before b a l := by
  induction l with
  | nil => cases h
  | cons c l ih =>
    intro h'
    have hnodup := List.nodup_cons.mp hl
    have later : ∀ {x y : α}, Before x y (c :: l) → y ≠ c := by
      intro x y hxy he
      subst he
      cases hxy with
      | cons _ hsub => exact hnodup.1 (hsub.subset (List.mem_cons_of_mem _ List.mem_cons_self))
      | cons_cons _ hsub => exact hnodup.1 (hsub.subset List.mem_cons_self)
    -- neither comes first, so both orders are in the rest
    have inner : ∀ {x y : α}, Before x y (c :: l) → x ≠ c → Before x y l := by
      intro x y hxy hne
      cases hxy with
      | cons _ hsub => exact hsub
      | cons_cons _ hsub => exact absurd rfl hne
    exact ih hnodup.2 (inner h (later h')) (inner h' (later h))

/-- A sublist of a list without repetitions has its elements in the same order. -/
theorem before_sublist_iff {a b : α} {l l' : List α} (hl : l'.Nodup) (hsub : l.Sublist l')
    (ha : a ∈ l) (hb : b ∈ l) : Before a b l ↔ Before a b l' := by
  constructor
  · intro h
    exact h.mono hsub
  · intro h
    by_cases hne : a = b
    · subst hne
      exact absurd h (h.asymm hl)
    · obtain hab | hba := before_total ha hb hne
      · exact hab
      · exact absurd (hba.mono hsub) (h.asymm hl)

end AuraWellness.Lib.Precedence
