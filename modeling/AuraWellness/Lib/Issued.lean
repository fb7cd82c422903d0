import AuraWellness.Lib.Calls

/-!
# The calls that a run makes

The calls of one run of a program in their order, whether they succeed or not:
an observer outside the program sees these.
-/

namespace AuraWellness.Lib.Calls

variable {S : Signature} {σ χ ε α β : Type}

/-- The calls that a run makes. -/
def Program.issued (M : Machine S σ χ ε) : Program S ε α → (ℕ → Turn χ ε) → σ → List S.Op
  | .ret _, _, _ => []
  | .call op next, env, s =>
    op :: (next (M.answer op (env 0) s).1).issued M (fun n => env (n + 1)) (M.answer op (env 0) s).2

@[simp] theorem Program.issued_ret (M : Machine S σ χ ε) (r : Except ε α) (env : ℕ → Turn χ ε)
    (s : σ) : (Program.ret r : Program S ε α).issued M env s = [] := rfl

/-- A call whose error is handled. -/
theorem Program.issued_attempt_bind (M : Machine S σ χ ε) (op : S.Op)
    (f : Except ε (S.Res op) → Program S ε β) (env : ℕ → Turn χ ε) (s : σ) :
    (attempt op >>= f).issued M env s = op ::
      (f (M.answer op (env 0) s).1).issued M (fun n => env (n + 1)) (M.answer op (env 0) s).2 := rfl

/-- A call whose error ends the program, when it succeeds. -/
theorem Program.issued_perform_ok {M : Machine S σ χ ε} {op : S.Op}
    (f : S.Res op → Program S ε β) {env : ℕ → Turn χ ε} {s : σ} {a : S.Res op}
    (h : (M.answer op (env 0) s).1 = .ok a) :
    (perform op >>= f).issued M env s =
      op :: (f a).issued M (fun n => env (n + 1)) (M.answer op (env 0) s).2 := by
  rw [Program.perform_bind, Program.issued, h]
  rfl

/-- A call whose error ends the program, when it fails. -/
theorem Program.issued_perform_error {M : Machine S σ χ ε} {op : S.Op}
    (f : S.Res op → Program S ε β) {env : ℕ → Turn χ ε} {s : σ} {e : ε}
    (h : (M.answer op (env 0) s).1 = .error e) :
    (perform op >>= f).issued M env s = [op] := by
  rw [Program.perform_bind, Program.issued, h]
  rfl

/-- What is done with a result makes no calls. -/
theorem Program.issued_map (M : Machine S σ χ ε) (f : α → β) (p : Program S ε α)
    (env : ℕ → Turn χ ε) (s : σ) : (f <$> p).issued M env s = p.issued M env s := by
  induction p generalizing env s with
  | ret r => cases r <;> rfl
  | call op next ih => exact congrArg (op :: ·) (ih _ _ _)

end AuraWellness.Lib.Calls
