import AuraWellness.Lib.Calls

/-!
# Systems that come to rest

A bound that every step of some kind uses up limits the runs of such steps, and
when every state that is not at rest has such a step, each state has a run to
rest. Programs carry such a bound in the number of their calls.
-/

namespace AuraWellness.Lib.Rest

open AuraWellness.Lib.Calls AuraWellness.Lib.Transition

variable {σ α : Type*} {step : σ → α → Option σ} {B : σ → ℕ → Prop} {G C : α → Prop}

/-- Every step with one of these labels leaves a smaller bound. -/
def UsesUp (step : σ → α → Option σ) (G : α → Prop) (B : σ → ℕ → Prop) : Prop :=
  ∀ s a s' n, B s n → G a → step s a = some s' → ∃ n' < n, B s' n'

/-- A run of such steps is no longer than the bound. -/
theorem UsesUp.length_le (h : UsesUp step G B) {s s' : σ} {as : List α} {n : ℕ} (hB : B s n)
    (hG : ∀ a ∈ as, G a) (hr : run step s as = some s') : as.length ≤ n := by
  induction as generalizing s n with
  | nil => exact Nat.zero_le n
  | cons a as ih =>
    obtain ⟨middle, ha, hrest⟩ := run_cons.mp hr
    obtain ⟨n', hlt, hB'⟩ := h s a middle n hB (hG a List.mem_cons_self) ha
    have hle := ih hB' (fun b hb => hG b (List.mem_cons_of_mem a hb)) hrest
    rw [List.length_cons]
    omega

/-- When some of these steps lead on from every state that is not at rest, some
run of them leads to rest. -/
theorem UsesUp.exists_rest (h : UsesUp step G B) {R : σ → Prop} (hC : ∀ a, C a → G a)
    (hgo : ∀ s n, B s n → ¬R s → ∃ a s', C a ∧ step s a = some s') {s : σ} {n : ℕ} (hB : B s n) :
    ∃ as s', (∀ a ∈ as, C a) ∧ run step s as = some s' ∧ R s' := by
  induction n using Nat.strongRecOn generalizing s with
  | ind n ih =>
    by_cases hR : R s
    · exact ⟨[], s, fun a ha => (by cases ha), rfl, hR⟩
    · obtain ⟨a, next, ha, hstep⟩ := hgo s n hB hR
      obtain ⟨n', hlt, hB'⟩ := h s a next n hB (hC a ha) hstep
      obtain ⟨as, s', has, hr, hR'⟩ := ih n' hlt hB'
      refine ⟨a :: as, s', fun b hb => ?_, run_cons.mpr ⟨next, hstep, hr⟩, hR'⟩
      obtain rfl | hb := List.mem_cons.mp hb
      · exact ha
      · exact has b hb

variable {S : Signature} {ε β γ : Type}

/-- A larger number of calls is not exceeded either. -/
theorem callsAtMost_mono {p : Program S ε β} {m n : ℕ} (h : p.CallsAtMost m) (hle : m ≤ n) :
    p.CallsAtMost n := by
  induction p generalizing m n with
  | ret result => exact Program.callsAtMost_ret n result
  | call op next ih =>
    cases m with
    | zero => exact h.elim
    | succ m =>
      cases n with
      | zero => omega
      | succ n => exact fun r => ih r (h r) (by omega)

/-- In sequence the calls add up. -/
theorem callsAtMost_bind {p : Program S ε β} {f : β → Program S ε γ} {m n : ℕ}
    (hp : p.CallsAtMost m) (hf : ∀ a, (f a).CallsAtMost n) : (p >>= f).CallsAtMost (m + n) := by
  induction p generalizing m with
  | ret result =>
    cases result with
    | ok a => exact callsAtMost_mono (hf a) (Nat.le_add_left n m)
    | error e => exact Program.callsAtMost_ret (m + n) _
  | call op next ih =>
    cases m with
    | zero => exact hp.elim
    | succ m =>
      rw [Nat.succ_add]
      exact fun r => ih r (hp r)

/-- A call and what follows it. -/
theorem callsAtMost_perform_bind {op : S.Op} {f : S.Res op → Program S ε γ} {n : ℕ}
    (hf : ∀ a, (f a).CallsAtMost n) : (Program.perform op >>= f).CallsAtMost (n + 1) := by
  rw [Nat.add_comm]
  exact callsAtMost_bind (fun r => Program.callsAtMost_ret 0 r) hf

/-- A call whose error is handled, and what follows it. -/
theorem callsAtMost_attempt_bind {op : S.Op} {f : Except ε (S.Res op) → Program S ε γ} {n : ℕ}
    (hf : ∀ r, (f r).CallsAtMost n) : (Program.attempt op >>= f).CallsAtMost (n + 1) := by
  rw [Nat.add_comm]
  exact callsAtMost_bind (fun r => Program.callsAtMost_ret 0 _) hf

/-- A value that is already there, and what follows it. -/
theorem callsAtMost_ofExcept_bind {r : Except ε β} {f : β → Program S ε γ} {n : ℕ}
    (hf : ∀ a, (f a).CallsAtMost n) : (Program.ofExcept r >>= f).CallsAtMost n := by
  cases r with
  | ok a => exact hf a
  | error e => exact Program.callsAtMost_ret n _

/-- Mapping the result makes no calls. -/
theorem callsAtMost_map (f : β → γ) {p : Program S ε β} {n : ℕ} (hp : p.CallsAtMost n) :
    (f <$> p).CallsAtMost n :=
  callsAtMost_bind hp fun a => Program.callsAtMost_ret 0 (.ok (f a))

end AuraWellness.Lib.Rest
