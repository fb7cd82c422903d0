import AuraWellness.Lib.Results

/-!
# Requests behind a screen

A front hands some requests on and handles what they come to. The others it
refuses, and what it calls for them changes nothing. In every interleaving the
shared state is then the one that the requests behind the front make of it by
themselves, and every answer of the front is the handled result of one of them.
-/

namespace AuraWellness.Lib.Calls

open AuraWellness.Lib.Transition

variable {S : Signature} {σ χ ε α β ρ θ : Type}

/-- Whatever the call is answered, the state stays. -/
def Idle (M : Machine S σ χ ε) (op : S.Op) : Prop := ∀ t s, (M.answer op t s).2 = s

/-- The programs of the front are those behind it with a handler, or change nothing. -/
structure Screen (M : Machine S σ χ ε) (front : ρ → Program S ε β) (inner : θ → Program S ε α)
    (accept : ρ → Option θ) (handle : ρ → Except ε α → Except ε β) : Prop where
  handed : ∀ {r q}, accept r = some q → front r = (inner q).mapResult (handle r)
  refused : ∀ {r}, accept r = none → (front r).AllOps (Idle M)

/-- The rest of a request that was handed on is that of the one behind the front with
its handler, unless both have crashed. -/
def Follows (f : Except ε α → Except ε β) (p : Program S ε β) (q : Program S ε α) : Prop :=
  p = q.mapResult f ∨ ∃ e, p = .ret (.error e) ∧ q = .ret (.error e)

/-- The threads of the front and, in their order, those that it has handed on. -/
inductive Covers (M : Machine S σ χ ε) (accept : ρ → Option θ)
    (handle : ρ → Except ε α → Except ε β) : List (Thread S ε β ρ) → List (Thread S ε α θ) → Prop
  | nil : Covers M accept handle [] []
  | refused {r : ρ} {p : Program S ε β} {ths : List (Thread S ε β ρ)} {us : List (Thread S ε α θ)}
      (hr : accept r = none) (hp : p.AllOps (Idle M)) (h : Covers M accept handle ths us) :
      Covers M accept handle (⟨r, p⟩ :: ths) us
  | handed {r : ρ} {q : θ} {p : Program S ε β} {p' : Program S ε α} {ths : List (Thread S ε β ρ)}
      {us : List (Thread S ε α θ)} (hr : accept r = some q) (hp : Follows (handle r) p p')
      (h : Covers M accept handle ths us) : Covers M accept handle (⟨r, p⟩ :: ths) (⟨q, p'⟩ :: us)

/-- The place that a request which the front hands on has among those: their number before
it. -/
def place (accept : ρ → Option θ) (ths : List (Thread S ε β ρ)) (i : ℕ) : ℕ :=
  ((ths.take i).filterMap fun th => accept th.req).length

/-- A refused request before it takes no place. -/
theorem place_refused {accept : ρ → Option θ} {th : Thread S ε β ρ}
    (h : accept th.req = none) (ths : List (Thread S ε β ρ)) (i : ℕ) :
    place accept (th :: ths) (i + 1) = place accept ths i := by
  unfold place
  rw [List.take_succ_cons, List.filterMap_cons, h]

/-- One that is handed on takes a place. -/
theorem place_handed {accept : ρ → Option θ} {th : Thread S ε β ρ} {q : θ}
    (h : accept th.req = some q) (ths : List (Thread S ε β ρ)) (i : ℕ) :
    place accept (th :: ths) (i + 1) = place accept ths i + 1 := by
  unfold place
  rw [List.take_succ_cons, List.filterMap_cons, h, List.length_cons]

variable {M : Machine S σ χ ε} {front : ρ → Program S ε β} {inner : θ → Program S ε α}
  {accept : ρ → Option θ} {handle : ρ → Except ε α → Except ε β}
  {ths : List (Thread S ε β ρ)} {us : List (Thread S ε α θ)}

/-- A handled program that waits for a call is one that waits for it. -/
theorem Program.mapResult_eq_call {f : Except ε α → Except ε β} {q : Program S ε α} {op : S.Op}
    {next : Except ε (S.Res op) → Program S ε β} (h : q.mapResult f = .call op next) :
    ∃ next', q = .call op next' ∧ next = fun r => (next' r).mapResult f := by
  cases q with
  | ret r => cases h
  | call op' next' =>
    cases h
    exact ⟨next', rfl, rfl⟩

/-- So is one that has followed it to the call. -/
theorem Follows.call {f : Except ε α → Except ε β} {q : Program S ε α} {op : S.Op}
    {next : Except ε (S.Res op) → Program S ε β} (h : Follows f (.call op next) q) :
    ∃ next', q = .call op next' ∧ ∀ r, Follows f (next r) (next' r) := by
  obtain h | ⟨e, he, -⟩ := h
  · obtain ⟨next', rfl, rfl⟩ := Program.mapResult_eq_call h.symm
    exact ⟨next', rfl, fun r => Or.inl rfl⟩
  · cases he

/-- The requests behind the front are the accepted ones. -/
theorem Covers.requests (h : Covers M accept handle ths us) :
    us.map Thread.req = ths.filterMap fun th => accept th.req := by
  induction h with
  | nil => rfl
  | refused hr hp h ih => simpa only [List.filterMap_cons, hr] using ih
  | handed hr hp h ih => simpa only [List.filterMap_cons, hr, List.map_cons, List.cons.injEq,
      true_and] using ih

/-- One more thread of the front. -/
theorem Covers.concat {ths' : List (Thread S ε β ρ)} {us' : List (Thread S ε α θ)}
    (h : Covers M accept handle ths us) (h' : Covers M accept handle ths' us') :
    Covers M accept handle (ths ++ ths') (us ++ us') := by
  induction h with
  | nil => exact h'
  | refused hr hp h ih => exact .refused hr hp ih
  | handed hr hp h ih => exact .handed hr hp ih

/-- A thread of the front is refused, or it follows the one in its place; and it can be
taken further alone or with the other. -/
theorem Covers.thread (h : Covers M accept handle ths us) {i : ℕ} {r : ρ} {p : Program S ε β}
    (hi : ths[i]? = some ⟨r, p⟩) :
    (accept r = none ∧ p.AllOps (Idle M) ∧ ∀ p₂ : Program S ε β, p₂.AllOps (Idle M) →
      Covers M accept handle (ths.set i ⟨r, p₂⟩) us) ∨
    ∃ q p', accept r = some q ∧ us[place accept ths i]? = some ⟨q, p'⟩ ∧
      Follows (handle r) p p' ∧ ∀ p₂ p₂', Follows (handle r) p₂ p₂' →
        Covers M accept handle (ths.set i ⟨r, p₂⟩) (us.set (place accept ths i) ⟨q, p₂'⟩) := by
  induction h generalizing i with
  | nil => cases hi
  | @refused r₀ p₀ ths us hr hp h ih =>
    cases i with
    | zero =>
      cases hi
      exact Or.inl ⟨hr, hp, fun p₂ hp₂ => .refused hr hp₂ h⟩
    | succ i =>
      have hplace : place accept (⟨r₀, p₀⟩ :: ths) (i + 1) = place accept ths i :=
        place_refused hr ths i
      rw [hplace]
      obtain ⟨hr', hp', hset⟩ | ⟨q, p', hq, hj, hfollows, hset⟩ := ih hi
      · exact Or.inl ⟨hr', hp', fun p₂ hp₂ => .refused hr hp (hset p₂ hp₂)⟩
      · exact Or.inr ⟨q, p', hq, hj, hfollows, fun p₂ p₂' h₂ => .refused hr hp (hset p₂ p₂' h₂)⟩
  | @handed r₀ q₀ p₀ p₀' ths us hr hp h ih =>
    cases i with
    | zero =>
      cases hi
      exact Or.inr ⟨q₀, p₀', hr, rfl, hp, fun p₂ p₂' h₂ => .handed hr h₂ h⟩
    | succ i =>
      have hplace : place accept (⟨r₀, p₀⟩ :: ths) (i + 1) = place accept ths i + 1 :=
        place_handed hr ths i
      rw [hplace]
      obtain ⟨hr', hp', hset⟩ | ⟨q, p', hq, hj, hfollows, hset⟩ := ih hi
      · exact Or.inl ⟨hr', hp', fun p₂ hp₂ => .handed hr hp (hset p₂ hp₂)⟩
      · exact Or.inr ⟨q, p', hq, hj, hfollows, fun p₂ p₂' h₂ => .handed hr hp (hset p₂ p₂' h₂)⟩

/-- A step of the front is one behind it, or none: a request that it hands on, or a turn
or crash of one that it has handed on. -/
theorem Screen.step (h : Screen M front inner accept handle) {p p' : Pool S σ ε β ρ}
    {u : Pool S σ ε α θ} {l : Label χ ε ρ} (hstate : u.state = p.state)
    (hc : Covers M accept handle p.threads u.threads) (hstep : p.step M front l = some p') :
    ∃ ls u', run (Pool.step M inner) u ls = some u' ∧ u'.state = p'.state ∧
      Covers M accept handle p'.threads u'.threads ∧
      ∀ (C : θ → Prop) (T : Turn χ ε → Prop),
        l.Meets (fun r => ∀ q, accept r = some q → C q) T → ∀ l' ∈ ls, l'.Meets C T := by
  have unmoved : ∀ (C : θ → Prop) (T : Turn χ ε → Prop),
      l.Meets (fun r => ∀ q, accept r = some q → C q) T →
      ∀ l' ∈ ([] : List (Label χ ε θ)), l'.Meets C T :=
    fun _ _ _ l' hl' => absurd hl' List.not_mem_nil
  cases l with
  | start r =>
    cases hstep
    cases hr : accept r with
    | none =>
      have hnew : Covers M accept handle (p.threads ++ [⟨r, front r⟩]) (u.threads ++ []) :=
        hc.concat (.refused hr (h.refused hr) .nil)
      rw [List.append_nil] at hnew
      exact ⟨[], u, rfl, hstate, hnew, unmoved⟩
    | some q =>
      refine ⟨[.start q], { u with threads := u.threads ++ [⟨q, inner q⟩] }, rfl, hstate,
        hc.concat (.handed hr (Or.inl (h.handed hr)) .nil), fun C T hl l' hl' => ?_⟩
      rw [List.mem_singleton.mp hl']
      exact hl q hr
  | turn i t =>
    obtain ⟨r, op, next, hi, hadmits, rfl⟩ := Pool.step_turn hstep
    obtain ⟨-, hidle, hset⟩ | ⟨q, p', -, hj, hfollows, hset⟩ := hc.thread hi
    · exact ⟨[], u, rfl, hstate.trans (hidle.1 t p.state).symm, hset _ (hidle.2 _), unmoved⟩
    · obtain ⟨next', rfl, hnext⟩ := hfollows.call
      refine ⟨[.turn (place accept p.threads i) t], ⟨(M.answer op t u.state).2,
        u.threads.set (place accept p.threads i) ⟨q, next' (M.answer op t u.state).1⟩⟩,
        ?_, ?_, ?_, fun C T hl l' hl' => ?_⟩
      · simp only [run, Pool.step, hj, hadmits, if_true, Option.bind_some]
      · dsimp only
        rw [hstate]
      · dsimp only
        rw [hstate]
        exact hset _ _ (hnext _)
      · rw [List.mem_singleton.mp hl']
        exact hl
  | crash i e =>
    obtain ⟨r, op, next, hi, rfl⟩ := Pool.step_crash hstep
    obtain ⟨-, -, hset⟩ | ⟨q, p', -, hj, hfollows, hset⟩ := hc.thread hi
    · exact ⟨[], u, rfl, hstate, hset _ trivial, unmoved⟩
    · obtain ⟨next', rfl, -⟩ := hfollows.call
      refine ⟨[.crash (place accept p.threads i) e],
        { u with threads := u.threads.set (place accept p.threads i) ⟨q, .ret (.error e)⟩ },
        ?_, hstate, hset _ _ (Or.inr ⟨e, rfl, rfl⟩), fun C T hl l' hl' => ?_⟩
      · simp only [run, Pool.step, hj, Option.bind_some]
      · rw [List.mem_singleton.mp hl']
        trivial

/-- What the front answers to a request that it has handed on is the handled result of
the request in its place, or a crash. -/
theorem Covers.returned (h : Covers M accept handle ths us) {i : ℕ} {r : ρ} {q : θ}
    {answer : Except ε β} (hi : ths[i]? = some ⟨r, .ret answer⟩) (hq : accept r = some q) :
    ∃ result : Except ε α, us[place accept ths i]? = some ⟨q, .ret result⟩ ∧
      (answer = handle r result ∨ ∃ e, answer = .error e ∧ result = .error e) := by
  obtain ⟨hnone, -⟩ | ⟨q', p', hr, hj, hfollows, -⟩ := h.thread hi
  · cases hnone.symm.trans hq
  · obtain rfl : q' = q := Option.some.inj (hr.symm.trans hq)
    obtain hret | ⟨e, he, rfl⟩ := hfollows
    · cases p' with
      | call op next => cases hret
      | ret result => exact ⟨result, hj, Or.inl (by cases hret; rfl)⟩
    · exact ⟨_, hj, Or.inr ⟨e, by cases he; rfl, rfl⟩⟩

end AuraWellness.Lib.Calls
