import AuraWellness.Lib.RelyGuarantee

/-!
# The history of a pool

A pool that keeps a log of what its calls do. A statement about the log and the
shared state holds in every state of the pool when each call that is made as its
thread guarantees keeps it.
-/

namespace AuraWellness.Lib.History

open AuraWellness.Lib.Calls AuraWellness.Lib.RelyGuarantee

variable {S : Signature} {σ χ ε α ρ η : Type}

/-- A pool and the log of its calls. -/
structure Recorded (S : Signature) (σ ε α ρ η : Type) where
  /-- The shared state and the threads. -/
  pool : Pool S σ ε α ρ
  /-- The entries of all calls so far. -/
  log : List η

/-- The entries of one step, from what a call of a request adds to the log. -/
def entries (record : ρ → S.Op → Turn χ ε → σ → List η) (p : Pool S σ ε α ρ) :
    Label χ ε ρ → List η
  | .turn i t =>
    match p.threads[i]? with
    | some ⟨r, .call op _⟩ => record r op t p.state
    | _ => []
  | _ => []

/-- One step of the pool, with its entries. -/
def Recorded.step (M : Machine S σ χ ε) (body : ρ → Program S ε α)
    (record : ρ → S.Op → Turn χ ε → σ → List η) (p : Recorded S σ ε α ρ η) (l : Label χ ε ρ) :
    Option (Recorded S σ ε α ρ η) :=
  (p.pool.step M body l).map fun next => ⟨next, p.log ++ entries record p.pool l⟩

variable {M : Machine S σ χ ε} {body : ρ → Program S ε α}
  {record : ρ → S.Op → Turn χ ε → σ → List η}

/-- A recorded step is a step of the pool. -/
theorem Recorded.step_iff {p p' : Recorded S σ ε α ρ η} {l : Label χ ε ρ} :
    p.step M body record l = some p' ↔
      p.pool.step M body l = some p'.pool ∧ p'.log = p.log ++ entries record p.pool l := by
  unfold Recorded.step
  rw [Option.map_eq_some_iff]
  constructor
  · rintro ⟨next, hnext, rfl⟩
    exact ⟨hnext, rfl⟩
  · intro h
    refine ⟨p'.pool, h.1, ?_⟩
    rw [← h.2]

/-- The entries of a call. -/
theorem entries_turn {p : Pool S σ ε α ρ} {i : ℕ} {r : ρ} {op : S.Op}
    {next : Except ε (S.Res op) → Program S ε α} (hi : p.threads[i]? = some ⟨r, .call op next⟩)
    (t : Turn χ ε) : entries record p (.turn i t) = record r op t p.state := by
  simp only [entries, hi]

variable {R : Rely σ} {Γ : ρ → S.Op → Turn χ ε → σ → Prop} {H : List η → σ → Prop}

/-- The threads are under their guarantees, and the log fits the state. -/
structure Recounts (M : Machine S σ χ ε) (R : Rely σ) (Γ : ρ → S.Op → Turn χ ε → σ → Prop)
    (H : List η → σ → Prop) (p : Recorded S σ ε α ρ η) : Prop where
  governed : Governed M R Γ p.pool
  history : H p.log p.pool.state

/-- When every call that is made as its thread guarantees keeps the log fitting
the state, every step does. -/
theorem Recounts.step {p p' : Recorded S σ ε α ρ η} {l : Label χ ε ρ} (hp : Recounts M R Γ H p)
    (hbody : ∀ r s, R.inv s → Guarantees M R (Γ r) (body r) s)
    (hrely : ∀ r op t s, R.inv s → Γ r op t s → R.steps s (M.answer op t s).2)
    (hcall : ∀ log r op t s, H log s → Γ r op t s →
      H (log ++ record r op t s) (M.answer op t s).2)
    (h : p.step M body record l = some p') : Recounts M R Γ H p' := by
  obtain ⟨hpool, hlog⟩ := Recorded.step_iff.mp h
  refine ⟨(hp.governed.step hbody hrely hpool).1, ?_⟩
  rw [hlog]
  cases l with
  | start r =>
    have hnext : some { p.pool with threads := p.pool.threads ++ [⟨r, body r⟩] } = some p'.pool :=
      hpool
    rw [← Option.some.inj hnext]
    simpa [entries] using hp.history
  | turn i t =>
    obtain ⟨r, op, next, hi, -, hnext⟩ := Pool.step_turn hpool
    have hstate : p'.pool.state = (M.answer op t p.pool.state).2 := by rw [hnext]
    rw [hstate, entries_turn hi]
    exact hcall p.log r op t p.pool.state hp.history (hp.governed.call hi t)
  | crash i e =>
    obtain ⟨r, op, next, -, hnext⟩ := Pool.step_crash hpool
    have hstate : p'.pool.state = p.pool.state := by rw [hnext]
    rw [hstate]
    simpa [entries] using hp.history

end AuraWellness.Lib.History
