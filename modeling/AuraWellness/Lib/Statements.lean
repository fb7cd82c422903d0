import AuraWellness.Lib.Calls

/-!
# Calls one after the other without a transaction

A list of calls is made in order until one of them fails. When every call would succeed
if it were served, the state afterwards is one of the states on the way, and how far the
calls get depends on the turns alone: up to the first one that is not served, which may
have taken effect all the same.
-/

namespace AuraWellness.Lib.Calls

variable {S : Signature} {σ χ ε : Type}

/-- Make the calls one after the other. -/
def Program.sequence : List S.Op → Program S ε Unit
  | [] => pure ()
  | op :: ops => perform op >>= fun _ => sequence ops

/-- How many of so many calls take effect. -/
def inEffect (env : ℕ → Turn χ ε) : ℕ → ℕ
  | 0 => 0
  | n + 1 =>
    match env 0 with
    | .serve _ => inEffect (fun i => env (i + 1)) n + 1
    | .drop _ => 0
    | .lost _ _ => 1

/-- So many turns are all served. -/
def AllServed (env : ℕ → Turn χ ε) (n : ℕ) : Prop := ∀ i < n, ∃ c, env i = .serve c

/-- One more turn is served when it is and those after it are. -/
theorem allServed_succ {env : ℕ → Turn χ ε} {n : ℕ} :
    AllServed env (n + 1) ↔ (∃ c, env 0 = .serve c) ∧ AllServed (fun i => env (i + 1)) n := by
  constructor
  · exact fun h => ⟨h 0 (Nat.zero_lt_succ n), fun i hi => h (i + 1) (Nat.succ_lt_succ hi)⟩
  · rintro ⟨hfirst, hrest⟩ i hi
    cases i with
    | zero => exact hfirst
    | succ i => exact hrest i (Nat.lt_of_succ_lt_succ hi)

/-- No more calls take effect than are made. -/
theorem inEffect_le (env : ℕ → Turn χ ε) (n : ℕ) : inEffect env n ≤ n := by
  induction n generalizing env with
  | zero => exact Nat.le_refl 0
  | succ n ih =>
    unfold inEffect
    split
    · exact Nat.succ_le_succ (ih _)
    · exact Nat.zero_le _
    · exact Nat.succ_le_succ (Nat.zero_le n)

/-- Every call, if it is served, succeeds and leads to the next one of these states. -/
def Leads (M : Machine S σ χ ε) : List S.Op → (ℕ → σ) → Prop
  | [], _ => True
  | op :: ops, after =>
    (∀ c, ∃ a, M.exec op c (after 0) = (.ok a, after 1)) ∧ Leads M ops fun i => after (i + 1)

/-- The calls leave the state that belongs to their number in effect, and succeed exactly
if all of them are served. -/
theorem run_sequence {M : Machine S σ χ ε} {ops : List S.Op} {after : ℕ → σ}
    (h : Leads M ops after) (env : ℕ → Turn χ ε) :
    ((Program.sequence ops : Program S ε Unit).run M env (after 0)).2 =
        after (inEffect env ops.length) ∧
      (((Program.sequence ops : Program S ε Unit).run M env (after 0)).1 = .ok () ↔
        AllServed env ops.length) := by
  induction ops generalizing env after with
  | nil => exact ⟨rfl, iff_of_true rfl fun i hi => absurd hi (Nat.not_lt_zero i)⟩
  | cons op ops ih =>
    rw [Program.sequence, Program.run_perform_bind, List.length_cons, allServed_succ]
    cases hturn : env 0 with
    | serve c =>
      obtain ⟨a, hexec⟩ := h.1 c
      obtain ⟨hstate, hok⟩ := ih h.2 fun i => env (i + 1)
      have hanswer : M.answer op (.serve c) (after 0) = (.ok a, after 1) := hexec
      simp only [hanswer, inEffect, hturn]
      exact ⟨hstate, hok.trans (by simp)⟩
    | drop e =>
      simp only [Machine.answer, inEffect, hturn]
      exact ⟨trivial, by simp⟩
    | lost c e =>
      obtain ⟨a, hexec⟩ := h.1 c
      simp only [Machine.answer, hexec, inEffect, hturn]
      exact ⟨trivial, by simp⟩

end AuraWellness.Lib.Calls
