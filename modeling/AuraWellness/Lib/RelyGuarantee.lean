import AuraWellness.Lib.Calls

/-!
# Rely and guarantee for the threads of a pool

A thread relies on what the other threads can do to the shared state between
two of its calls, and guarantees something about each call that it makes. When
every guarantee is within what the others rely on, the shared invariant holds
in every state of the pool and every call is made as its thread guarantees.
-/

namespace AuraWellness.Lib.RelyGuarantee

open AuraWellness.Lib.Calls AuraWellness.Lib.Transition

variable {S : Signature} {σ χ ε α β ρ : Type}

/-- What the threads of a pool rely on: an invariant of the shared state, and a
relation that covers any number of steps of the other threads. -/
structure Rely (σ : Type) where
  /-- The invariant. -/
  inv : σ → Prop
  /-- What the other threads can do. -/
  steps : σ → σ → Prop
  refl : ∀ s, steps s s
  trans : ∀ s s' s'', steps s s' → steps s' s'' → steps s s''

/-- However the other threads interfere between its calls, the program keeps the
invariant and makes every call as the guarantee says. -/
def Guarantees (M : Machine S σ χ ε) (R : Rely σ) (G : S.Op → Turn χ ε → σ → Prop) :
    Program S ε α → σ → Prop
  | .ret _, _ => True
  | .call op next, s => ∀ s' t, R.steps s s' → R.inv s' →
      (R.inv (M.answer op t s').2 ∧ G op t s') ∧
        Guarantees M R G (next (M.answer op t s').1) (M.answer op t s').2

variable {M : Machine S σ χ ε} {R : Rely σ} {G : S.Op → Turn χ ε → σ → Prop}

/-- Steps of other threads leave a guarantee in force. -/
theorem Guarantees.stable {p : Program S ε α} {s s' : σ} (h : Guarantees M R G p s)
    (hs : R.steps s s') : Guarantees M R G p s' := by
  cases p with
  | ret r => trivial
  | call op next => exact fun s'' t hs' hinv => h s'' t (R.trans s s' s'' hs hs') hinv

/-- Wrapping a result makes no calls. -/
theorem Guarantees.map {p : Program S ε α} {s : σ} (f : α → β) (h : Guarantees M R G p s) :
    Guarantees M R G (f <$> p) s := by
  induction p generalizing s with
  | ret r => cases r <;> trivial
  | call op next ih => exact fun s' t hs hinv => ⟨(h s' t hs hinv).1, ih _ (h s' t hs hinv).2⟩

/-- A call whose error ends the program. -/
theorem Guarantees.perform_bind {op : S.Op} {f : S.Res op → Program S ε β} {s : σ}
    (h : ∀ s' t, R.steps s s' → R.inv s' → R.inv (M.answer op t s').2 ∧ G op t s')
    (hok : ∀ s' t a, R.steps s s' → R.inv s' → (M.answer op t s').1 = .ok a →
      Guarantees M R G (f a) (M.answer op t s').2) :
    Guarantees M R G (Program.perform op >>= f) s := by
  intro s' t hs hinv
  refine ⟨h s' t hs hinv, ?_⟩
  cases hr : (M.answer op t s').1 with
  | ok a => exact hok s' t a hs hinv hr
  | error e => trivial

/-- A call that is the whole program. -/
theorem Guarantees.perform {op : S.Op} {s : σ}
    (h : ∀ s' t, R.steps s s' → R.inv s' → R.inv (M.answer op t s').2 ∧ G op t s') :
    Guarantees M R G (Program.perform op : Program S ε (S.Res op)) s := by
  intro s' t hs hinv
  exact ⟨h s' t hs hinv, trivial⟩

/-- A call whose error is handled. -/
theorem Guarantees.attempt_bind {op : S.Op} {f : Except ε (S.Res op) → Program S ε β} {s : σ}
    (h : ∀ s' t, R.steps s s' → R.inv s' → R.inv (M.answer op t s').2 ∧ G op t s')
    (hnext : ∀ s' t, R.steps s s' → R.inv s' →
      Guarantees M R G (f (M.answer op t s').1) (M.answer op t s').2) :
    Guarantees M R G (Program.attempt op >>= f) s :=
  fun s' t hs hinv => ⟨h s' t hs hinv, hnext s' t hs hinv⟩

/-- A program whose calls keep the invariant and the guarantee in every state. -/
theorem Guarantees.of_allOps {P : S.Op → Prop} {p : Program S ε α} (hp : p.AllOps P)
    (h : ∀ op t s, P op → R.inv s → R.inv (M.answer op t s).2 ∧ G op t s) (s : σ) :
    Guarantees M R G p s := by
  induction p generalizing s with
  | ret r => trivial
  | call op next ih => exact fun s' t _ hinv => ⟨h op t s' hp.1 hinv, ih _ (hp.2 _) _⟩

/-- A program that runs alone keeps what every call keeps that is made as the guarantee
says. -/
theorem Guarantees.run {I : σ → Prop} {p : Program S ε α} {s : σ} (h : Guarantees M R G p s)
    (hkeeps : ∀ op t s, R.inv s → G op t s → I s → I (M.answer op t s).2) (env : ℕ → Turn χ ε)
    (hinv : R.inv s) (hs : I s) : I (p.run M env s).2 := by
  induction p generalizing env s with
  | ret r => exact hs
  | call op next ih =>
    obtain ⟨⟨hinv', hguarantee⟩, hnext⟩ := h s (env 0) (R.refl s) hinv
    rw [Program.run_call]
    exact ih _ hnext _ hinv' (hkeeps op (env 0) s hinv hguarantee hs)

/-- The shared state satisfies the invariant and every thread is under its
guarantee. -/
structure Governed (M : Machine S σ χ ε) (R : Rely σ) (G : ρ → S.Op → Turn χ ε → σ → Prop)
    (p : Pool S σ ε α ρ) : Prop where
  inv : R.inv p.state
  threads : p.Each fun _ r s q => Guarantees M R (G r) q s

variable {body : ρ → Program S ε α} {Γ : ρ → S.Op → Turn χ ε → σ → Prop}

/-- A pool without threads. -/
theorem Governed.initial {s : σ} (h : R.inv s) :
    Governed M R Γ (⟨s, []⟩ : Pool S σ ε α ρ) :=
  ⟨h, fun _ _ hi => by cases hi⟩

/-- A call that a thread makes is made as the thread guarantees. -/
theorem Governed.call {p : Pool S σ ε α ρ} (hp : Governed M R Γ p) {i : ℕ} {r : ρ} {op : S.Op}
    {next : Except ε (S.Res op) → Program S ε α} (hi : p.threads[i]? = some ⟨r, .call op next⟩)
    (t : Turn χ ε) : Γ r op t p.state :=
  (hp.threads i _ hi p.state t (R.refl _) hp.inv).1.2

/-- Something outside the pool may change the state as its threads rely on. -/
theorem Governed.stable {p : Pool S σ ε α ρ} (hp : Governed M R Γ p) {s : σ} (hinv : R.inv s)
    (hs : R.steps p.state s) : Governed M R Γ ⟨s, p.threads⟩ :=
  ⟨hinv, fun i th hi => (hp.threads i th hi).stable hs⟩

/-- Every step of the pool keeps the invariant and the guarantees, and is a step
that all threads rely on. -/
theorem Governed.step {p p' : Pool S σ ε α ρ} {l : Label χ ε ρ} (hp : Governed M R Γ p)
    (hbody : ∀ r s, R.inv s → Guarantees M R (Γ r) (body r) s)
    (hrely : ∀ r op t s, R.inv s → Γ r op t s → R.steps s (M.answer op t s).2)
    (h : p.step M body l = some p') : Governed M R Γ p' ∧ R.steps p.state p'.state := by
  cases l with
  | start r =>
    cases h
    refine ⟨⟨hp.inv, fun i th hi => ?_⟩, R.refl _⟩
    obtain ⟨-, rfl⟩ | hi := getElem?_concat_cases hi
    · exact hbody r p.state hp.inv
    · exact hp.threads i th hi
  | turn i t =>
    obtain ⟨r, op, next, hi, -, rfl⟩ := Pool.step_turn h
    obtain ⟨⟨hinv, hguarantee⟩, hnext⟩ := hp.threads i _ hi p.state t (R.refl _) hp.inv
    have hsteps := hrely r op t p.state hp.inv hguarantee
    refine ⟨⟨hinv, fun j th hj => ?_⟩, hsteps⟩
    obtain ⟨rfl, rfl⟩ | ⟨-, hj⟩ := getElem?_set_cases hj
    · exact hnext
    · exact (hp.threads j th hj).stable hsteps
  | crash i e =>
    obtain ⟨r, op, next, hi, rfl⟩ := Pool.step_crash h
    refine ⟨⟨hp.inv, fun j th hj => ?_⟩, R.refl _⟩
    obtain ⟨rfl, rfl⟩ | ⟨-, hj⟩ := getElem?_set_cases hj
    · trivial
    · exact hp.threads j th hj

end AuraWellness.Lib.RelyGuarantee
