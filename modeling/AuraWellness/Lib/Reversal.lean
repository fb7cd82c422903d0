import Mathlib.Data.List.Basic

/-!
# In-place reversal by swapping the ends

The loop that swaps the two ends of a range and moves both inwards. It stops
after at most one round for each element and leaves the reversed list.
-/

namespace AuraWellness.Lib.Reversal

variable {α : Type*}

/-- Exchange the elements at two positions. -/
def swap (xs : List α) (i j : ℕ) : List α :=
  match xs[i]?, xs[j]? with
  | some a, some b => (xs.set i b).set j a
  | _, _ => xs

/-- Swap the ends of the range while its left end is below its right end. -/
def swapLoop : ℕ → List α → ℕ → ℕ → List α
  | 0, xs, _, _ => xs
  | fuel + 1, xs, i, j => if i < j then swapLoop fuel (swap xs i j) (i + 1) (j - 1) else xs

/-- Reverse in place, starting from the whole list. -/
def reverseInPlace (xs : List α) : List α := swapLoop xs.length xs 0 (xs.length - 1)

@[simp] theorem length_swap (xs : List α) (i j : ℕ) : (swap xs i j).length = xs.length := by
  unfold swap
  split <;> simp

/-- The swapped list position by position. -/
theorem getElem?_swap {xs : List α} {i j : ℕ} (hij : i < j) (hj : j < xs.length) (k : ℕ) :
    (swap xs i j)[k]? = if k = i then xs[j]? else if k = j then xs[i]? else xs[k]? := by
  have hi : i < xs.length := by omega
  unfold swap
  rw [List.getElem?_eq_getElem hi, List.getElem?_eq_getElem hj]
  dsimp only
  by_cases hkj : k = j
  · subst hkj
    have hki : k ≠ i := by omega
    rw [List.getElem?_set_self (by simpa using hj), if_neg hki, if_pos rfl]
  · rw [List.getElem?_set_ne (Ne.symm hkj), if_neg hkj]
    by_cases hki : k = i
    · subst hki
      rw [List.getElem?_set_self hi, if_pos rfl]
    · rw [List.getElem?_set_ne (Ne.symm hki), if_neg hki]

/-- With enough rounds the loop mirrors exactly the positions of its range. -/
theorem getElem?_swapLoop (fuel : ℕ) {xs : List α} {i j : ℕ} (hj : j < xs.length)
    (hfuel : j + 1 ≤ i + 2 * fuel + 1) (k : ℕ) :
    (swapLoop fuel xs i j)[k]? = if i ≤ k ∧ k ≤ j then xs[i + j - k]? else xs[k]? := by
  induction fuel generalizing xs i j with
  | zero =>
    unfold swapLoop
    split
    · have hk : i + j - k = k := by omega
      rw [hk]
    · rfl
  | succ fuel ih =>
    unfold swapLoop
    by_cases hij : i < j
    · have hlen : j - 1 < (swap xs i j).length := by
        rw [length_swap]
        omega
      rw [if_pos hij, ih hlen (by omega), getElem?_swap hij hj, getElem?_swap hij hj]
      by_cases hki : k = i
      · subst hki
        rw [if_neg (by omega), if_pos rfl, if_pos (by omega)]
        congr 1
        omega
      · by_cases hkj : k = j
        · subst hkj
          rw [if_neg (by omega), if_neg hki, if_pos rfl, if_pos (by omega)]
          congr 1
          omega
        · by_cases hk : i ≤ k ∧ k ≤ j
          · rw [if_pos (by omega), if_neg (by omega), if_neg (by omega), if_pos hk]
            congr 1
            omega
          · rw [if_neg (by omega), if_neg hki, if_neg hkj, if_neg hk]
    · rw [if_neg hij]
      split
      · have hk : i + j - k = k := by omega
        rw [hk]
      · rfl

/-- The loop ends and leaves exactly the reversed list. -/
theorem reverseInPlace_eq (xs : List α) : reverseInPlace xs = xs.reverse := by
  unfold reverseInPlace
  cases xs with
  | nil => rfl
  | cons x xs =>
    refine List.ext_getElem? fun k => ?_
    have hlen : (x :: xs).length - 1 < (x :: xs).length := by simp
    rw [getElem?_swapLoop _ hlen (by omega)]
    by_cases hk : k < (x :: xs).length
    · rw [if_pos (by omega), List.getElem?_reverse hk]
      congr 1
      omega
    · rw [if_neg (by omega), List.getElem?_eq_none (by omega),
        List.getElem?_eq_none (by rw [List.length_reverse]; omega)]

end AuraWellness.Lib.Reversal
