import Mathlib.Data.Int.Order.Basic
import AuraWellness.Lib.Chains
import AuraWellness.Lib.Reversal

/-!
# The reversal loop with two indices

The loop `for i, j := 0, len(xs)-1; i < j; i, j = i+1, j-1` that swaps the
elements at its two indices. The indices are integers, since the right one is
below zero for an empty slice, and indexing out of range panics. The loop ends
without a panic and leaves the reversed list, whatever the length.
-/

namespace AuraWellness.Lib.SwapLoop

open AuraWellness.Lib.Chains AuraWellness.Lib.Reversal

variable {α : Type*}

/-- The slice and the two indices of the loop. -/
structure Swapping (α : Type*) where
  /-- The slice as it is after the rounds so far. -/
  items : List α
  /-- The left index. -/
  i : ℤ
  /-- The right index. -/
  j : ℤ
  deriving DecidableEq, Repr

namespace Swapping

/-- `i, j := 0, len(xs)-1`. -/
def start (xs : List α) : Swapping α := ⟨xs, 0, xs.length - 1⟩

/-- `i < j`. -/
def guard (s : Swapping α) : Bool := s.i < s.j

/-- The index does not panic. -/
def InRange (xs : List α) (k : ℤ) : Prop := 0 ≤ k ∧ k < xs.length

instance (xs : List α) (k : ℤ) : Decidable (InRange xs k) :=
  inferInstanceAs (Decidable (0 ≤ k ∧ k < xs.length))

/-- Swap the elements at the indices and move both inwards. -/
def round (s : Swapping α) : Option (Swapping α) :=
  if InRange s.items s.i ∧ InRange s.items s.j then
    some ⟨swap s.items s.i.toNat s.j.toNat, s.i + 1, s.j - 1⟩
  else none

/-- One step of the loop. -/
def step : Swapping α → Option (Swapping α) := whileStep guard round

/-- What is outside the two indices is mirrored, and the rest is as it was. -/
structure Mirrors (xs : List α) (s : Swapping α) : Prop where
  /-- No element is lost. -/
  length_eq : s.items.length = xs.length
  /-- The left index is not negative. -/
  nonneg : 0 ≤ s.i
  /-- The indices are equally far from the ends. -/
  opposite : s.i + s.j = xs.length - 1
  /-- The slice position by position. -/
  getElem? : ∀ k : ℕ, s.items[k]? = if s.i ≤ k ∧ k ≤ s.j then xs[k]? else xs.reverse[k]?

theorem mirrors_start (xs : List α) : Mirrors xs (start xs) := by
  refine ⟨rfl, le_refl _, by simp [start], fun k => ?_⟩
  by_cases hk : k < xs.length
  · rw [if_pos ⟨by simp [start], by simp only [start]; omega⟩]
    rfl
  · have hlen : xs.length ≤ k := by omega
    have hreverse : xs.reverse[k]? = none :=
      List.getElem?_eq_none (by rw [List.length_reverse]; exact hlen)
    rw [hreverse, List.getElem?_eq_none hlen, ite_self]
    exact List.getElem?_eq_none hlen

/-- A round below the guard is defined and mirrors one more pair. -/
theorem Mirrors.round {xs : List α} {s : Swapping α} (h : Mirrors xs s) (hguard : s.guard = true) :
    ∃ m, s.round = some m ∧ Mirrors xs m ∧ (m.j - m.i).toNat < (s.j - s.i).toNat := by
  have hlt : s.i < s.j := of_decide_eq_true hguard
  have hnonneg := h.nonneg
  have hopposite := h.opposite
  have hlen := h.length_eq
  have hin : InRange s.items s.i ∧ InRange s.items s.j := by
    unfold InRange
    omega
  refine ⟨_, if_pos hin, ⟨?_, by dsimp only; omega, by dsimp only; omega, fun k => ?_⟩, ?_⟩
  · rw [length_swap, hlen]
  · dsimp only
    rw [getElem?_swap (by omega) (by omega), h.getElem?, h.getElem?, h.getElem?]
    -- the two ends of the range trade places, every other position stays
    by_cases hi : k = s.i.toNat
    · rw [if_pos hi, if_pos (by omega), if_neg (by omega), List.getElem?_reverse (by omega)]
      congr 1
      omega
    · by_cases hj : k = s.j.toNat
      · rw [if_neg hi, if_pos hj, if_pos (by omega), if_neg (by omega),
          List.getElem?_reverse (by omega)]
        congr 1
        omega
      · rw [if_neg hi, if_neg hj]
        refine if_congr ?_ rfl rfl
        omega
  · dsimp only
    omega

/-- Where the indices have met, the whole slice is mirrored. -/
theorem Mirrors.items_eq {xs : List α} {s : Swapping α} (h : Mirrors xs s)
    (hguard : s.guard = false) : s.items = xs.reverse := by
  have hle : ¬s.i < s.j := of_decide_eq_false hguard
  have hopposite := h.opposite
  refine List.ext_getElem? fun k => ?_
  rw [h.getElem?]
  split
  · -- only the middle of an odd length is left, and it stays where it is
    next hk =>
    rw [List.getElem?_reverse (by omega)]
    congr 1
    omega
  · rfl

/-- For every list, the loop ends without a panic and leaves exactly the reverse. -/
theorem ends (xs : List α) :
    ∃ rounds e, Follows step (start xs) rounds e ∧ e.guard = false ∧ e.items = xs.reverse := by
  obtain ⟨rounds, e, hfollows, hguard, he⟩ := while_ends (fun s : Swapping α => (s.j - s.i).toNat)
    (fun s hs hguard => Mirrors.round hs hguard) (mirrors_start xs)
  exact ⟨rounds, e, hfollows, hguard, he.items_eq hguard⟩

end Swapping

end AuraWellness.Lib.SwapLoop
