import AuraWellness.Lib.Calls

/-!
# Two runs of one program

A relation between two states is carried through a program when every call of
the program gets the same reply in related states and leaves related states.
Then the two runs have the same result, whatever the environment does in both.
-/

namespace AuraWellness.Lib.Relational

open AuraWellness.Lib.Calls

variable {S : Signature} {σ χ ε α β : Type}

/-- From these two states the program goes the same way, and it ends in related
states. -/
def Alike (M : Machine S σ χ ε) (R : σ → σ → Prop) : Program S ε α → σ → σ → Prop
  | .ret _, s, s' => R s s'
  | .call op next, s, s' => ∀ t, (M.answer op t s).1 = (M.answer op t s').1 ∧
      Alike M R (next (M.answer op t s).1) (M.answer op t s).2 (M.answer op t s').2

variable {M : Machine S σ χ ε} {R : σ → σ → Prop}

/-- The two runs of such a program have the same result and end in related states. -/
theorem Alike.run {p : Program S ε α} {s s' : σ} (h : Alike M R p s s') (env : ℕ → Turn χ ε) :
    (p.run M env s).1 = (p.run M env s').1 ∧ R (p.run M env s).2 (p.run M env s').2 := by
  induction p generalizing s s' env with
  | ret r => exact ⟨rfl, h⟩
  | call op next ih =>
    obtain ⟨hreply, hrest⟩ := h (env 0)
    rw [Program.run_call, Program.run_call, ← hreply]
    exact ih _ hrest _

/-- Wrapping a result makes no calls. -/
theorem Alike.map {p : Program S ε α} {s s' : σ} (f : α → β) (h : Alike M R p s s') :
    Alike M R (f <$> p) s s' := by
  induction p generalizing s s' with
  | ret r => cases r <;> exact h
  | call op next ih => exact fun t => ⟨(h t).1, ih _ (h t).2⟩

/-- A call whose error ends the program. -/
theorem Alike.perform_bind {op : S.Op} {f : S.Res op → Program S ε β} {s s' : σ}
    (h : ∀ t, (M.answer op t s).1 = (M.answer op t s').1 ∧
      R (M.answer op t s).2 (M.answer op t s').2)
    (hok : ∀ t a, (M.answer op t s).1 = .ok a →
      Alike M R (f a) (M.answer op t s).2 (M.answer op t s').2) :
    Alike M R (Program.perform op >>= f) s s' := by
  intro t
  refine ⟨(h t).1, ?_⟩
  cases hr : (M.answer op t s).1 with
  | ok a => exact hok t a hr
  | error e => exact (h t).2

/-- A call that is the whole program. -/
theorem Alike.perform {op : S.Op} {s s' : σ}
    (h : ∀ t, (M.answer op t s).1 = (M.answer op t s').1 ∧
      R (M.answer op t s).2 (M.answer op t s').2) :
    Alike M R (Program.perform op : Program S ε (S.Res op)) s s' := h

/-- A program whose calls agree in all related states. -/
theorem Alike.of_allOps {P : S.Op → Prop} {p : Program S ε α} (hp : p.AllOps P)
    (h : ∀ op t s s', P op → R s s' → (M.answer op t s).1 = (M.answer op t s').1 ∧
      R (M.answer op t s).2 (M.answer op t s').2)
    {s s' : σ} (hs : R s s') : Alike M R p s s' := by
  induction p generalizing s s' with
  | ret r => exact hs
  | call op next ih =>
    intro t
    obtain ⟨hreply, hrest⟩ := h op t s s' hp.1 hs
    exact ⟨hreply, ih _ (hp.2 _) hrest⟩

end AuraWellness.Lib.Relational
