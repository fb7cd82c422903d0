import AuraWellness.Lib.RelyGuarantee

/-!
# What programs return

A handler around a program rewrites its result and makes no calls of its own.
The guarantees of a program, its calls and what all its results satisfy go through
the handler.
-/

namespace AuraWellness.Lib.Calls

open AuraWellness.Lib.Transition AuraWellness.Lib.RelyGuarantee

variable {S : Signature} {σ χ ε α β ρ : Type}

namespace Program

/-- Hand the result or the error on through a handler. -/
def mapResult (f : Except ε α → Except ε β) : Program S ε α → Program S ε β
  | ret r => ret (f r)
  | call op next => call op fun r => (next r).mapResult f

/-- Wrapping a result is a handler. -/
theorem map_eq_mapResult (f : α → β) (p : Program S ε α) :
    f <$> p = p.mapResult (Except.map f) := by
  induction p with
  | ret r => cases r <;> rfl
  | call op next ih => exact congrArg (call op) (funext ih)

/-- Two handlers around each other are one. -/
theorem mapResult_mapResult {γ : Type} (f : Except ε α → Except ε β) (g : Except ε β → Except ε γ)
    (p : Program S ε α) : (p.mapResult f).mapResult g = p.mapResult fun r => g (f r) := by
  induction p with
  | ret r => rfl
  | call op next ih => exact congrArg (call op) (funext ih)

/-- A handler makes no calls. -/
theorem AllOps.mapResult {P : S.Op → Prop} {p : Program S ε α} (f : Except ε α → Except ε β)
    (h : p.AllOps P) : (p.mapResult f).AllOps P := by
  induction p with
  | ret r => trivial
  | call op next ih => exact ⟨h.1, fun r => ih r (h.2 r)⟩

/-- Every result of the program satisfies the postcondition, whatever its calls are
answered. -/
abbrev Ends (Q : Except ε α → Prop) : Program S ε α → Prop := Returns (fun _ _ => True) Q

/-- A handler of results with one postcondition gives results with another. -/
theorem Ends.mapResult {P : Except ε α → Prop} {Q : Except ε β → Prop}
    {f : Except ε α → Except ε β} {p : Program S ε α} (hp : p.Ends P) (h : ∀ r, P r → Q (f r)) :
    (p.mapResult f).Ends Q := by
  induction p with
  | ret r => exact h r hp
  | call op next ih => exact fun r hr => ih r (hp r hr)

/-- The results of a wrapped program are wrapped results and errors. -/
theorem ends_map {Q : Except ε β → Prop} {f : α → β} (hok : ∀ a, Q (.ok (f a)))
    (herror : ∀ e, Q (.error e)) (p : Program S ε α) : (f <$> p).Ends Q := by
  induction p with
  | ret r =>
    cases r with
    | ok a => exact hok a
    | error e => exact herror e
  | call op next ih => exact fun r _ => ih r

end Program

/-- A handler leaves a guarantee in force. -/
theorem mapResult_guarantees {M : Machine S σ χ ε} {R : Rely σ}
    {G : S.Op → Turn χ ε → σ → Prop} {p : Program S ε α} {s : σ} (f : Except ε α → Except ε β)
    (h : Guarantees M R G p s) : Guarantees M R G (p.mapResult f) s := by
  induction p generalizing s with
  | ret r => trivial
  | call op next ih => exact fun s' t hs hinv => ⟨(h s' t hs hinv).1, ih _ (h s' t hs hinv).2⟩

/-- The first part of a program is under the guarantees of the whole. -/
theorem guarantees_of_bind {M : Machine S σ χ ε} {R : Rely σ} {G : S.Op → Turn χ ε → σ → Prop}
    {p : Program S ε α} {f : α → Program S ε β} {s : σ} (h : Guarantees M R G (p >>= f) s) :
    Guarantees M R G p s := by
  induction p generalizing s with
  | ret r => trivial
  | call op next ih => exact fun s' t hs hinv => ⟨(h s' t hs hinv).1, ih _ (h s' t hs hinv).2⟩

/-- A guarantee together with what all calls of the program are like. -/
theorem guarantees_strengthen {M : Machine S σ χ ε} {R : Rely σ}
    {G G' : S.Op → Turn χ ε → σ → Prop} {P : S.Op → Prop} {p : Program S ε α} {s : σ}
    (h : Guarantees M R G p s) (hp : p.AllOps P) (hG : ∀ op t s, P op → G op t s → G' op t s) :
    Guarantees M R G' p s := by
  induction p generalizing s with
  | ret r => trivial
  | call op next ih =>
    intro s' t hs hinv
    obtain ⟨⟨hinv', hcall⟩, hnext⟩ := h s' t hs hinv
    exact ⟨⟨hinv', hG op t s' hp.1 hcall⟩, ih _ hnext (hp.2 _)⟩

namespace Program

/-- The program makes admitted calls and its results satisfy the postcondition, as long
as the replies to its calls are admitted. -/
def Within (A : S.Op → Prop) (R : (op : S.Op) → Except ε (S.Res op) → Prop)
    (Q : Except ε α → Prop) : Program S ε α → Prop
  | ret r => Q r
  | call op next => A op ∧ ∀ r, R op r → (next r).Within A R Q

variable {A : S.Op → Prop} {R : (op : S.Op) → Except ε (S.Res op) → Prop}

/-- The rule of sequencing. -/
theorem Within.bind {P : Except ε α → Prop} {Q : Except ε β → Prop} {p : Program S ε α}
    {f : α → Program S ε β} (hp : p.Within A R P) (hf : ∀ a, P (.ok a) → (f a).Within A R Q)
    (he : ∀ e, P (.error e) → Q (.error e)) : (p >>= f).Within A R Q := by
  induction p with
  | ret r =>
    cases r with
    | ok a => exact hf a hp
    | error e => exact he e hp
  | call op next ih => exact ⟨hp.1, fun r hr => ih r (hp.2 r hr)⟩

/-- A call that is the whole program. -/
theorem within_perform {op : S.Op} {Q : Except ε (S.Res op) → Prop} (hop : A op)
    (h : ∀ r, R op r → Q r) : (perform op : Program S ε (S.Res op)).Within A R Q :=
  ⟨hop, h⟩

/-- A handler of results with one postcondition gives results with another. -/
theorem Within.mapResult {P : Except ε α → Prop} {Q : Except ε β → Prop}
    {f : Except ε α → Except ε β} {p : Program S ε α} (hp : p.Within A R P)
    (h : ∀ r, P r → Q (f r)) : (p.mapResult f).Within A R Q := by
  induction p with
  | ret r => exact h r hp
  | call op next ih => exact ⟨hp.1, fun r hr => ih r (hp.2 r hr)⟩

/-- A weaker postcondition. -/
theorem Within.mono {P Q : Except ε α → Prop} {p : Program S ε α} (hp : p.Within A R P)
    (h : ∀ r, P r → Q r) : p.Within A R Q := by
  induction p with
  | ret r => exact h r hp
  | call op next ih => exact ⟨hp.1, fun r hr => ih r (hp.2 r hr)⟩

/-- Besides, the results of a wrapped program are wrapped results. -/
theorem Within.map {Q : Except ε β → Prop} {f : α → β} {p : Program S ε α}
    (hp : (f <$> p).Within A R Q) :
    (f <$> p).Within A R fun r => Q r ∧ ∃ a, r = Except.map f a := by
  rw [map_eq_mapResult] at hp ⊢
  induction p with
  | ret r => exact ⟨hp, r, rfl⟩
  | call op next ih => exact ⟨hp.1, fun r hr => ih r (hp.2 r hr)⟩

end Program

/-- The label starts a request of this kind or answers with a turn of this kind. -/
def Label.Meets (C : ρ → Prop) (T : Turn χ ε → Prop) : Label χ ε ρ → Prop
  | .start r => C r
  | .turn _ t => T t
  | .crash _ _ => True

/-- A pool whose calls are admitted keeps its invariant, and what its threads return
satisfies their postconditions. -/
theorem Pool.step_within {M : Machine S σ χ ε} {body : ρ → Program S ε α} {C : ρ → Prop}
    {T : Turn χ ε → Prop} {I : σ → Prop} {A : S.Op → Prop}
    {R : (op : S.Op) → Except ε (S.Res op) → Prop} {Q : ρ → Except ε α → Prop}
    (hbody : ∀ r, C r → (body r).Within A R (Q r)) (hcrash : ∀ r e, Q r (.error e))
    (hanswer : ∀ op t s, A op → T t → I s → I (M.answer op t s).2 ∧ R op (M.answer op t s).1)
    {p p' : Pool S σ ε α ρ} {l : Label χ ε ρ} (hl : l.Meets C T)
    (hp : I p.state ∧ p.Each fun _ r _ q => q.Within A R (Q r)) (h : p.step M body l = some p') :
    I p'.state ∧ p'.Each fun _ r _ q => q.Within A R (Q r) := by
  obtain ⟨hI, hL⟩ := hp
  cases l with
  | start r =>
    cases h
    refine ⟨hI, fun j th hj => ?_⟩
    obtain ⟨-, rfl⟩ | hj := getElem?_concat_cases hj
    · exact hbody r hl
    · exact hL j th hj
  | turn i t =>
    obtain ⟨r, op, next, hi, -, rfl⟩ := Pool.step_turn h
    obtain ⟨hop, hnext⟩ := hL i _ hi
    obtain ⟨hI', hreply⟩ := hanswer op t p.state hop hl hI
    refine ⟨hI', fun j th hj => ?_⟩
    obtain ⟨rfl, rfl⟩ | ⟨-, hj⟩ := getElem?_set_cases hj
    · exact hnext _ hreply
    · exact hL j th hj
  | crash i e =>
    obtain ⟨r, op, next, hi, rfl⟩ := Pool.step_crash h
    refine ⟨hI, fun j th hj => ?_⟩
    obtain ⟨rfl, rfl⟩ | ⟨-, hj⟩ := getElem?_set_cases hj
    · exact hcrash _ e
    · exact hL j th hj

end AuraWellness.Lib.Calls
