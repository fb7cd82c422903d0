import AuraWellness.Lib.Transition

/-!
# Programs as trees of atomic calls, alone and interleaved

A program asks for one atomic call at a time and continues with its reply.
The environment answers each call: it serves it, drops it with an error, or
applies it and loses the reply. The same program is run alone against a state,
or as one thread of a pool whose threads take turns in any order and may crash
between two calls.
-/

namespace AuraWellness.Lib.Calls

open AuraWellness.Lib.Transition

/-- The atomic calls a program can make and the type of their replies. -/
structure Signature where
  /-- Names of the calls together with their arguments. -/
  Op : Type
  /-- What a call that succeeds returns. -/
  Res : Op → Type

/-- A program over a signature: a result, or a call and what follows its reply. -/
inductive Program (S : Signature) (ε α : Type) : Type
  /-- The program has returned. -/
  | ret (result : Except ε α) : Program S ε α
  /-- The program waits for the reply of one atomic call. -/
  | call (op : S.Op) (next : Except ε (S.Res op) → Program S ε α) : Program S ε α

namespace Program

variable {S : Signature} {ε α β : Type}

/-- Continue after a successful return; an error ends the program. -/
def bind : Program S ε α → (α → Program S ε β) → Program S ε β
  | ret (.ok a), f => f a
  | ret (.error e), _ => ret (.error e)
  | call op next, f => call op fun r => (next r).bind f

instance : Monad (Program S ε) where
  pure a := ret (.ok a)
  bind := bind

/-- Make a call and hand its reply, error or not, to what follows. -/
def attempt (op : S.Op) : Program S ε (Except ε (S.Res op)) :=
  call op fun r => ret (.ok r)

/-- Make a call whose error ends the program. -/
def perform (op : S.Op) : Program S ε (S.Res op) := call op ret

/-- Continue with a value that is already there, or end with its error. -/
def ofExcept (r : Except ε α) : Program S ε α := ret r

/-- End the program with an error. -/
def throw (e : ε) : Program S ε α := ret (.error e)

@[simp] theorem pure_eq (a : α) : (pure a : Program S ε α) = ret (.ok a) := rfl

@[simp] theorem ret_ok_bind (a : α) (f : α → Program S ε β) :
    (ret (.ok a) : Program S ε α) >>= f = f a := rfl

@[simp] theorem ret_error_bind (e : ε) (f : α → Program S ε β) :
    (ret (.error e) : Program S ε α) >>= f = ret (.error e) := rfl

@[simp] theorem perform_bind (op : S.Op) (f : S.Res op → Program S ε β) :
    perform op >>= f = call op fun r => ret r >>= f := rfl

@[simp] theorem ofExcept_eq (r : Except ε α) : (ofExcept r : Program S ε α) = ret r := rfl

@[simp] theorem map_eq_bind (f : α → β) (p : Program S ε α) :
    f <$> p = p >>= fun a => ret (.ok (f a)) := rfl

/-- Sequencing is associative. -/
theorem bind_assoc {γ : Type} (p : Program S ε α) (f : α → Program S ε β)
    (g : β → Program S ε γ) : (p >>= f) >>= g = p >>= fun a => f a >>= g := by
  induction p with
  | ret r => cases r <;> rfl
  | call op next ih => exact congrArg (call op) (funext ih)

/-- Every call that the program can still make satisfies the predicate. -/
def AllOps (P : S.Op → Prop) : Program S ε α → Prop
  | ret _ => True
  | call op next => P op ∧ ∀ r, (next r).AllOps P

@[simp] theorem allOps_ret (P : S.Op → Prop) (r : Except ε α) :
    (ret r : Program S ε α).AllOps P := trivial

/-- Every call satisfies the predicate that all calls satisfy. -/
theorem allOps_true (p : Program S ε α) : p.AllOps fun _ => True := by
  induction p with
  | ret r => trivial
  | call op next ih => exact ⟨trivial, ih⟩

/-- Sequencing makes no calls of its own. -/
theorem AllOps.bind {P : S.Op → Prop} {p : Program S ε α} {f : α → Program S ε β}
    (hp : p.AllOps P) (hf : ∀ a, (f a).AllOps P) : (p >>= f).AllOps P := by
  induction p with
  | ret r =>
    cases r with
    | ok a => exact hf a
    | error e => trivial
  | call op next ih => exact ⟨hp.1, fun r => ih r (hp.2 r)⟩

theorem allOps_perform {P : S.Op → Prop} {op : S.Op} (h : P op) :
    (perform op : Program S ε (S.Res op)).AllOps P := ⟨h, fun _ => trivial⟩

/-- Sequencing after a value that is already there. -/
theorem AllOps.ofExcept_bind {P : S.Op → Prop} {r : Except ε α} {f : α → Program S ε β}
    (h : ∀ a, r = .ok a → (f a).AllOps P) : (ofExcept r >>= f).AllOps P := by
  cases r with
  | ok a => exact h a rfl
  | error e => trivial

/-- Sequencing after a call whose error ends the program. -/
theorem AllOps.perform_bind {P : S.Op → Prop} {op : S.Op} {f : S.Res op → Program S ε β}
    (hop : P op) (h : ∀ a, (f a).AllOps P) : (perform op >>= f).AllOps P :=
  AllOps.bind (allOps_perform hop) h

/-- Sequencing after a call whose error is handled. -/
theorem AllOps.attempt_bind {P : S.Op → Prop} {op : S.Op}
    {f : Except ε (S.Res op) → Program S ε β} (hop : P op) (h : ∀ r, (f r).AllOps P) :
    (attempt op >>= f).AllOps P := ⟨hop, h⟩

/-- Wrapping a result makes no calls. -/
theorem AllOps.map {P : S.Op → Prop} {p : Program S ε α} (f : α → β) (h : p.AllOps P) :
    (f <$> p).AllOps P := AllOps.bind h fun _ => trivial

/-- The calls of a wrapped program are the calls of the program. -/
theorem AllOps.of_map {P : S.Op → Prop} {p : Program S ε α} {f : α → β}
    (h : (f <$> p).AllOps P) : p.AllOps P := by
  induction p with
  | ret r => trivial
  | call op next ih => exact ⟨h.1, fun r => ih r (h.2 r)⟩

/-- A program whose calls satisfy a predicate satisfies what follows from it. -/
theorem AllOps.mono {P Q : S.Op → Prop} {p : Program S ε α} (h : p.AllOps P)
    (hPQ : ∀ op, P op → Q op) : p.AllOps Q := by
  induction p with
  | ret r => trivial
  | call op next ih => exact ⟨hPQ op h.1, fun r => ih r (h.2 r)⟩

/-- Every call that the program can still make satisfies the predicate together
with what follows its replies. -/
def EveryCall (Q : (op : S.Op) → (Except ε (S.Res op) → Program S ε α) → Prop) :
    Program S ε α → Prop
  | ret _ => True
  | call op next => Q op next ∧ ∀ r, (next r).EveryCall Q

/-- What holds of calls of one kind that only calls of this kind follow. -/
theorem AllOps.everyCall {P : S.Op → Prop}
    {Q : (op : S.Op) → (Except ε (S.Res op) → Program S ε α) → Prop} {p : Program S ε α}
    (h : p.AllOps P) (hPQ : ∀ op next, P op → (∀ r, (next r).AllOps P) → Q op next) :
    p.EveryCall Q := by
  induction p with
  | ret r => trivial
  | call op next ih => exact ⟨hPQ op next h.1 h.2, fun r => ih r (h.2 r)⟩

/-- Sequencing after a call whose error ends the program. -/
theorem EveryCall.perform_bind {Q : (op : S.Op) → (Except ε (S.Res op) → Program S ε β) → Prop}
    {op : S.Op} {f : S.Res op → Program S ε β} (hop : Q op fun r => ret r >>= f)
    (h : ∀ a, (f a).EveryCall Q) : (perform op >>= f).EveryCall Q := by
  refine ⟨hop, fun r => ?_⟩
  cases r with
  | ok a => exact h a
  | error e => trivial

/-- Wrapping a result makes no calls. -/
theorem EveryCall.map {Q : (op : S.Op) → (Except ε (S.Res op) → Program S ε α) → Prop}
    {Q' : (op : S.Op) → (Except ε (S.Res op) → Program S ε β) → Prop} {p : Program S ε α}
    (f : α → β) (h : p.EveryCall Q) (hQ : ∀ op next, Q op next → Q' op fun r => f <$> next r) :
    (f <$> p).EveryCall Q' := by
  induction p with
  | ret r => cases r <;> trivial
  | call op next ih => exact ⟨hQ op next h.1, fun r => ih r (h.2 r)⟩

/-- The program succeeds only after a call of this kind has succeeded. -/
def Awaits (R : S.Op → Prop) : Program S ε α → Prop
  | ret (.ok _) => False
  | ret (.error _) => True
  | call op next => (∀ e, (next (.error e)).Awaits R) ∧ (R op ∨ ∀ a, (next (.ok a)).Awaits R)

/-- Sequencing before a program that awaits the call. -/
theorem Awaits.of_bind {R : S.Op → Prop} {p : Program S ε α} {f : α → Program S ε β}
    (hf : ∀ a, (f a).Awaits R) : (p >>= f).Awaits R := by
  induction p with
  | ret r =>
    cases r with
    | ok a => exact hf a
    | error e => trivial
  | call op next ih => exact ⟨fun e => ih (.error e), Or.inr fun a => ih (.ok a)⟩

/-- Sequencing after a program that awaits the call. -/
theorem Awaits.bind {R : S.Op → Prop} {p : Program S ε α} (hp : p.Awaits R)
    (f : α → Program S ε β) : (p >>= f).Awaits R := by
  induction p with
  | ret r =>
    cases r with
    | ok a => exact hp.elim
    | error e => trivial
  | call op next ih =>
    exact ⟨fun e => ih _ (hp.1 e), hp.2.imp_right fun hnext a => ih _ (hnext a)⟩

/-- The awaited call, when its error ends the program. -/
theorem awaits_perform {R : S.Op → Prop} {op : S.Op} (h : R op) :
    (perform op : Program S ε (S.Res op)).Awaits R := ⟨fun _ => trivial, Or.inl h⟩

/-- Every result of the program satisfies the postcondition, whatever admitted
replies its calls get. -/
def Returns (R : (op : S.Op) → Except ε (S.Res op) → Prop) (Q : Except ε α → Prop) :
    Program S ε α → Prop
  | ret r => Q r
  | call op next => ∀ r, R op r → (next r).Returns R Q

/-- The rule of sequencing: the errors of the first part are results. -/
theorem Returns.bind {R : (op : S.Op) → Except ε (S.Res op) → Prop} {P : Except ε α → Prop}
    {Q : Except ε β → Prop} {p : Program S ε α} {f : α → Program S ε β} (hp : p.Returns R P)
    (hf : ∀ a, P (.ok a) → (f a).Returns R Q) (he : ∀ e, P (.error e) → Q (.error e)) :
    (p >>= f).Returns R Q := by
  induction p with
  | ret r =>
    cases r with
    | ok a => exact hf a hp
    | error e => exact he e hp
  | call op next ih => exact fun r hr => ih r (hp r hr)

/-- The rule of a call whose error ends the program. -/
theorem Returns.perform_bind {R : (op : S.Op) → Except ε (S.Res op) → Prop}
    {Q : Except ε β → Prop} {op : S.Op} {f : S.Res op → Program S ε β}
    (hf : ∀ a, R op (.ok a) → (f a).Returns R Q) (he : ∀ e, R op (.error e) → Q (.error e)) :
    (perform op >>= f).Returns R Q :=
  Returns.bind (P := R op) (fun _ hr => hr) hf he

end Program

/-- How the environment answers one call. -/
inductive Turn (χ ε : Type)
  /-- The call takes effect and its reply arrives. -/
  | serve (choice : χ)
  /-- The call fails without any effect. -/
  | drop (error : ε)
  /-- The call takes effect and its reply is lost. -/
  | lost (choice : χ) (error : ε)

/-- The environment's choices of a turn in which the call takes effect. -/
def Turn.choice? {χ ε : Type} : Turn χ ε → Option χ
  | .serve c => some c
  | .drop _ => none
  | .lost c _ => some c

/-- The meaning of the atomic calls on a state. -/
structure Machine (S : Signature) (σ χ ε : Type) where
  /-- Reply and next state, for the environment's choices in this call. -/
  exec : (op : S.Op) → χ → σ → Except ε (S.Res op) × σ
  /-- Calls that leave the process and can be dropped or lost. -/
  remote : S.Op → Bool

variable {S : Signature} {σ χ ε α ρ : Type}

/-- Answer one call. A call inside the process is always served when the
environment serves it, and is not made at all otherwise. -/
def Machine.answer (M : Machine S σ χ ε) (op : S.Op) : Turn χ ε → σ → Except ε (S.Res op) × σ
  | .serve c, s => M.exec op c s
  | .drop e, s => (.error e, s)
  | .lost c e, s => (.error e, (M.exec op c s).2)

/-- The turn may answer this call. -/
def Machine.Admits (M : Machine S σ χ ε) (op : S.Op) : Turn χ ε → Bool
  | .serve _ => true
  | _ => M.remote op

/-- The call arrives and its effect is a success, whether or not the reply gets
back. -/
def Machine.effective (M : Machine S σ χ ε) (op : S.Op) (t : Turn χ ε) (s : σ) : Bool :=
  match t.choice? with
  | some c => (M.exec op c s).1.isOk
  | none => false

/-- A call that takes effect leads to the state of its effect. -/
theorem Machine.answer_state_some (M : Machine S σ χ ε) (op : S.Op) {t : Turn χ ε} {c : χ} (s : σ)
    (h : t.choice? = some c) : (M.answer op t s).2 = (M.exec op c s).2 := by
  cases t with
  | serve c' =>
    cases h
    rfl
  | drop e => cases h
  | lost c' e =>
    cases h
    rfl

/-- A call that takes no effect leaves the state. -/
theorem Machine.answer_state_none (M : Machine S σ χ ε) (op : S.Op) {t : Turn χ ε} (s : σ)
    (h : t.choice? = none) : (M.answer op t s).2 = s := by
  cases t with
  | serve c => cases h
  | drop e => rfl
  | lost c e => cases h

/-- Whatever the environment does, the state changes only by the call's effect. -/
theorem Machine.answer_state (M : Machine S σ χ ε) (op : S.Op) (t : Turn χ ε) (s : σ) :
    (M.answer op t s).2 = s ∨ ∃ c, (M.answer op t s).2 = (M.exec op c s).2 := by
  cases ht : t.choice? with
  | none => exact Or.inl (M.answer_state_none op s ht)
  | some c => exact Or.inr ⟨c, M.answer_state_some op s ht⟩

/-- A call whose effect replies alike on two states is answered alike. -/
theorem Machine.answer_congr {M : Machine S σ χ ε} {op : S.Op} {s s' : σ}
    (h : ∀ c, (M.exec op c s).1 = (M.exec op c s').1) (t : Turn χ ε) :
    (M.answer op t s).1 = (M.answer op t s').1 := by
  cases t with
  | serve c => exact h c
  | drop e => rfl
  | lost c e => rfl

/-- A successful reply is the reply of the call's effect. -/
theorem Machine.answer_ok {M : Machine S σ χ ε} {op : S.Op} {t : Turn χ ε} {s : σ}
    {a : S.Res op} (h : (M.answer op t s).1 = .ok a) :
    ∃ c, t = .serve c ∧ M.answer op t s = M.exec op c s := by
  cases t with
  | serve c => exact ⟨c, rfl, rfl⟩
  | drop e => cases h
  | lost c e => cases h

/-- Run a program alone; the n-th call gets the n-th turn. -/
def Program.run (M : Machine S σ χ ε) : Program S ε α → (ℕ → Turn χ ε) → σ → Except ε α × σ
  | .ret r, _, s => (r, s)
  | .call op next, env, s =>
    let reply := M.answer op (env 0) s
    (next reply.1).run M (fun n => env (n + 1)) reply.2

@[simp] theorem Program.run_ret (M : Machine S σ χ ε) (r : Except ε α) (env : ℕ → Turn χ ε)
    (s : σ) : (Program.ret r : Program S ε α).run M env s = (r, s) := rfl

theorem Program.run_call (M : Machine S σ χ ε) (op : S.Op)
    (next : Except ε (S.Res op) → Program S ε α) (env : ℕ → Turn χ ε) (s : σ) :
    (Program.call op next).run M env s =
      (next (M.answer op (env 0) s).1).run M (fun n => env (n + 1)) (M.answer op (env 0) s).2 :=
  rfl

/-- Wrapping a result does not change the run. -/
theorem Program.run_map {β : Type} (M : Machine S σ χ ε) (f : α → β) (p : Program S ε α)
    (env : ℕ → Turn χ ε) (s : σ) :
    (f <$> p).run M env s = ((p.run M env s).1.map f, (p.run M env s).2) := by
  induction p generalizing env s with
  | ret r => cases r <;> rfl
  | call op next ih => exact ih _ _ _

/-- A wrapped program succeeds when the program does. -/
theorem Program.run_map_ok {β : Type} {M : Machine S σ χ ε} {f : α → β} {p : Program S ε α}
    {env : ℕ → Turn χ ε} {s : σ} {b : β} (h : ((f <$> p).run M env s).1 = .ok b) :
    ∃ a, (p.run M env s).1 = .ok a := by
  rw [Program.run_map] at h
  cases hr : (p.run M env s).1 with
  | ok a => exact ⟨a, rfl⟩
  | error e =>
    rw [hr] at h
    cases h

/-- Run a call whose error ends the program. -/
theorem Program.run_perform_bind {β : Type} (M : Machine S σ χ ε) (op : S.Op)
    (f : S.Res op → Program S ε β) (env : ℕ → Turn χ ε) (s : σ) :
    (perform op >>= f).run M env s =
      match (M.answer op (env 0) s).1 with
      | .ok a => (f a).run M (fun n => env (n + 1)) (M.answer op (env 0) s).2
      | .error e => (.error e, (M.answer op (env 0) s).2) := by
  rw [Program.perform_bind, Program.run_call]
  cases (M.answer op (env 0) s).1 <;> rfl

/-- A program that starts with such a call and succeeds goes on with the call's
success. -/
theorem Program.run_perform_bind_ok {β : Type} {M : Machine S σ χ ε} {op : S.Op}
    {f : S.Res op → Program S ε β} {env : ℕ → Turn χ ε} {s : σ} {b : β}
    (h : ((perform op >>= f).run M env s).1 = .ok b) :
    ∃ a, (M.answer op (env 0) s).1 = .ok a ∧ (perform op >>= f).run M env s =
      (f a).run M (fun n => env (n + 1)) (M.answer op (env 0) s).2 := by
  have hrun := Program.run_perform_bind M op f env s
  cases hr : (M.answer op (env 0) s).1 with
  | ok a =>
    rw [hr] at hrun
    exact ⟨a, rfl, hrun⟩
  | error e =>
    rw [hr] at hrun
    cases (congrArg Prod.fst hrun).symm.trans h

/-- Run a call whose error is handled. -/
theorem Program.run_attempt_bind {β : Type} (M : Machine S σ χ ε) (op : S.Op)
    (f : Except ε (S.Res op) → Program S ε β) (env : ℕ → Turn χ ε) (s : σ) :
    (attempt op >>= f).run M env s =
      (f (M.answer op (env 0) s).1).run M (fun n => env (n + 1)) (M.answer op (env 0) s).2 := rfl

/-- Run a single call. -/
theorem Program.run_perform (M : Machine S σ χ ε) (op : S.Op) (env : ℕ → Turn χ ε) (s : σ) :
    (perform op : Program S ε (S.Res op)).run M env s = M.answer op (env 0) s := rfl

/-- What every call of a program preserves, running the program preserves. -/
theorem Program.run_preserves {M : Machine S σ χ ε} {P : S.Op → Prop} {I : σ → Prop}
    (hI : ∀ op c s, P op → I s → I (M.exec op c s).2)
    {p : Program S ε α} (hp : p.AllOps P) (env : ℕ → Turn χ ε) {s : σ} (hs : I s) :
    I (p.run M env s).2 := by
  induction p generalizing env s with
  | ret r => exact hs
  | call op next ih =>
    rw [Program.run_call]
    refine ih _ (hp.2 _) _ ?_
    obtain h | ⟨c, h⟩ := M.answer_state op (env 0) s
    · rw [h]
      exact hs
    · rw [h]
      exact hI op c s hp.1 hs

/-- The calls that a program makes and its result, when its n-th call gets the
n-th reply. -/
def Program.play : Program S ε α → (ℕ → (op : S.Op) → Except ε (S.Res op)) →
    List S.Op × Except ε α
  | .ret r, _ => ([], r)
  | .call op next, replies =>
    let rest := (next (replies 0 op)).play fun n => replies (n + 1)
    (op :: rest.1, rest.2)

/-- Play a call whose error is handled. -/
theorem Program.play_attempt_bind {β : Type} (op : S.Op)
    (f : Except ε (S.Res op) → Program S ε β) (replies : ℕ → (op : S.Op) → Except ε (S.Res op)) :
    (attempt op >>= f).play replies =
      (op :: ((f (replies 0 op)).play fun n => replies (n + 1)).1,
        ((f (replies 0 op)).play fun n => replies (n + 1)).2) := rfl

/-- When every reply of the run is admitted, its result satisfies the
postcondition. -/
theorem Program.Returns.run {M : Machine S σ χ ε} {R : (op : S.Op) → Except ε (S.Res op) → Prop}
    {Q : Except ε α → Prop} {p : Program S ε α} (hp : p.Returns R Q) {env : ℕ → Turn χ ε}
    (hR : ∀ op n s, R op (M.answer op (env n) s).1) (s : σ) : Q (p.run M env s).1 := by
  induction p generalizing env s with
  | ret r => exact hp
  | call op next ih =>
    rw [Program.run_call]
    exact ih _ (hp _ (hR op 0 s)) (fun op' n t => hR op' (n + 1) t) _

/-- One thread of a pool: the request it serves and what is left of its program. -/
structure Thread (S : Signature) (ε α ρ : Type) where
  /-- The request that started the thread. -/
  req : ρ
  /-- The rest of its program; a returned thread keeps its result. -/
  prog : Program S ε α

/-- The shared state and all threads started so far. -/
structure Pool (S : Signature) (σ ε α ρ : Type) where
  /-- The state on which the atomic calls act. -/
  state : σ
  /-- Threads in the order of their start, returned ones included. -/
  threads : List (Thread S ε α ρ)

/-- What the scheduler and the environment do next. -/
inductive Label (χ ε ρ : Type)
  /-- A new request arrives. -/
  | start (req : ρ)
  /-- The thread at this position makes its next call. -/
  | turn (i : ℕ) (answer : Turn χ ε)
  /-- The thread at this position dies between two calls. -/
  | crash (i : ℕ) (error : ε)

/-- One step of the pool. -/
def Pool.step (M : Machine S σ χ ε) (body : ρ → Program S ε α) (p : Pool S σ ε α ρ) :
    Label χ ε ρ → Option (Pool S σ ε α ρ)
  | .start r => some { p with threads := p.threads ++ [⟨r, body r⟩] }
  | .turn i t =>
    match p.threads[i]? with
    | some ⟨r, .call op next⟩ =>
      if M.Admits op t then
        let reply := M.answer op t p.state
        some ⟨reply.2, p.threads.set i ⟨r, next reply.1⟩⟩
      else none
    | _ => none
  | .crash i e =>
    match p.threads[i]? with
    | some ⟨r, .call _ _⟩ => some { p with threads := p.threads.set i ⟨r, .ret (.error e)⟩ }
    | _ => none

variable {M : Machine S σ χ ε} {body : ρ → Program S ε α}

/-- Everything that a turn can do. -/
theorem Pool.step_turn {p p' : Pool S σ ε α ρ} {i : ℕ} {t : Turn χ ε}
    (h : p.step M body (.turn i t) = some p') :
    ∃ r op next, p.threads[i]? = some ⟨r, .call op next⟩ ∧ M.Admits op t = true ∧
      p' = ⟨(M.answer op t p.state).2,
        p.threads.set i ⟨r, next (M.answer op t p.state).1⟩⟩ := by
  simp only [Pool.step] at h
  split at h
  · rename_i r op next hi
    split at h
    · rename_i ha
      exact ⟨r, op, next, hi, ha, by simpa using h.symm⟩
    · cases h
  · cases h

/-- A thread that waits for a call can be served. -/
theorem Pool.step_serve {p : Pool S σ ε α ρ} {i : ℕ} {r : ρ} {op : S.Op}
    {next : Except ε (S.Res op) → Program S ε α} (hi : p.threads[i]? = some ⟨r, .call op next⟩)
    (c : χ) : p.step M body (.turn i (.serve c)) =
      some ⟨(M.exec op c p.state).2, p.threads.set i ⟨r, next (M.exec op c p.state).1⟩⟩ := by
  simp only [Pool.step, hi]
  rfl

/-- Everything that a crash can do. -/
theorem Pool.step_crash {p p' : Pool S σ ε α ρ} {i : ℕ} {e : ε}
    (h : p.step M body (.crash i e) = some p') :
    ∃ r op next, p.threads[i]? = some ⟨r, .call op next⟩ ∧
      p' = ⟨p.state, p.threads.set i ⟨r, .ret (.error e)⟩⟩ := by
  simp only [Pool.step] at h
  split at h
  · rename_i r op next hi
    exact ⟨r, op, next, hi, by simpa using h.symm⟩
  · cases h

/-- Only a turn of a thread that waits for a call changes the shared state. -/
theorem Pool.step_state {p p' : Pool S σ ε α ρ} {l : Label χ ε ρ}
    (h : p.step M body l = some p') :
    (p'.state = p.state ∧ ∀ i t, l ≠ .turn i t) ∨
      ∃ i t r op next, l = .turn i t ∧ p.threads[i]? = some ⟨r, .call op next⟩ ∧
        p'.state = (M.answer op t p.state).2 := by
  cases l with
  | start r =>
    cases h
    exact Or.inl ⟨rfl, fun i t he => by cases he⟩
  | turn i t =>
    obtain ⟨r, op, next, hi, -, rfl⟩ := Pool.step_turn h
    exact Or.inr ⟨i, t, r, op, next, rfl, hi, rfl⟩
  | crash i e =>
    obtain ⟨r, op, next, -, rfl⟩ := Pool.step_crash h
    exact Or.inl ⟨rfl, fun i t he => by cases he⟩

/-- The threads after one position was overwritten. -/
theorem getElem?_set_cases {β : Type*} {l : List β} {i j : ℕ} {a b : β}
    (h : (l.set i a)[j]? = some b) : (j = i ∧ b = a) ∨ (j ≠ i ∧ l[j]? = some b) := by
  by_cases hij : i = j
  · subst hij
    rw [List.getElem?_set_self'] at h
    cases hl : l[i]? with
    | none =>
      rw [hl] at h
      cases h
    | some old =>
      rw [hl] at h
      exact Or.inl ⟨rfl, (Option.some.inj h).symm⟩
  · rw [List.getElem?_set_ne hij] at h
    exact Or.inr ⟨Ne.symm hij, h⟩

/-- The threads after one more was started. -/
theorem getElem?_concat_cases {β : Type*} {l : List β} {j : ℕ} {a b : β}
    (h : (l ++ [a])[j]? = some b) : (j = l.length ∧ b = a) ∨ l[j]? = some b := by
  by_cases hj : j < l.length
  · rw [List.getElem?_append_left hj] at h
    exact Or.inr h
  · rw [List.getElem?_append_right (Nat.le_of_not_lt hj)] at h
    cases hk : j - l.length with
    | zero =>
      rw [hk] at h
      exact Or.inl ⟨by omega, (Option.some.inj h).symm⟩
    | succ k =>
      rw [hk] at h
      cases h

/-- What every thread of the pool satisfies, by its position, its request, the
shared state and the rest of its program. -/
def Pool.Each (L : ℕ → ρ → σ → Program S ε α → Prop) (p : Pool S σ ε α ρ) : Prop :=
  ∀ i th, p.threads[i]? = some th → L i th.req p.state th.prog

/-- Thread-modular rule with a ghost value that all threads share. The local
assertion of each thread survives the calls of every other thread. -/
theorem Pool.step_modular {γ : Type*} (I : γ → σ → Prop)
    (L : γ → ℕ → ρ → σ → Program S ε α → Prop)
    (hstart : ∀ g i r s, I g s → L g i r s (body r))
    (hcrash : ∀ g i r s op next e, L g i r s (.call op next) → L g i r s (.ret (.error e)))
    (hturn : ∀ g i r s op next t, I g s → L g i r s (.call op next) →
      ∃ g', I g' (M.answer op t s).2 ∧
        L g' i r (M.answer op t s).2 (next (M.answer op t s).1) ∧
        ∀ j r' q, j ≠ i → L g j r' s q → L g' j r' (M.answer op t s).2 q)
    {p p' : Pool S σ ε α ρ} {l : Label χ ε ρ} (hp : ∃ g, I g p.state ∧ p.Each (L g))
    (h : p.step M body l = some p') : ∃ g, I g p'.state ∧ p'.Each (L g) := by
  obtain ⟨g, hI, hL⟩ := hp
  cases l with
  | start r =>
    cases h
    refine ⟨g, hI, fun j th hj => ?_⟩
    obtain ⟨-, rfl⟩ | hj := getElem?_concat_cases hj
    · exact hstart g j r p.state hI
    · exact hL j th hj
  | turn i t =>
    obtain ⟨r, op, next, hi, -, rfl⟩ := Pool.step_turn h
    obtain ⟨g', hI', hown, hother⟩ := hturn g i r p.state op next t hI (hL i _ hi)
    refine ⟨g', hI', fun j th hj => ?_⟩
    obtain ⟨rfl, rfl⟩ | ⟨hne, hj⟩ := getElem?_set_cases hj
    · exact hown
    · exact hother j _ _ hne (hL j th hj)
  | crash i e =>
    obtain ⟨r, op, next, hi, rfl⟩ := Pool.step_crash h
    refine ⟨g, hI, fun j th hj => ?_⟩
    obtain ⟨rfl, rfl⟩ | ⟨-, hj⟩ := getElem?_set_cases hj
    · exact hcrash g j r p.state op next e (hL j _ hi)
    · exact hL j th hj

/-- A thread keeps its request in every step. -/
theorem Pool.step_request {p p' : Pool S σ ε α ρ} {l : Label χ ε ρ} {i : ℕ} {r : ρ}
    (hi : (p.threads[i]?).map Thread.req = some r) (h : p.step M body l = some p') :
    (p'.threads[i]?).map Thread.req = some r := by
  have replaced : ∀ {j r' prog prog'}, p.threads[j]? = some ⟨r', prog⟩ →
      ((p.threads.set j ⟨r', prog'⟩)[i]?).map Thread.req = some r := by
    intro j r' prog prog' hj
    by_cases hij : j = i
    · subst hij
      rw [hj] at hi
      rw [List.getElem?_set_self', hj]
      exact hi
    · rw [List.getElem?_set_ne hij]
      exact hi
  cases l with
  | start r' =>
    cases h
    obtain ⟨th, hth, -⟩ := Option.map_eq_some_iff.mp hi
    obtain ⟨hlt, -⟩ := List.getElem?_eq_some_iff.mp hth
    rw [List.getElem?_append_left hlt]
    exact hi
  | turn j t =>
    obtain ⟨r', op, next, hj, -, rfl⟩ := Pool.step_turn h
    exact replaced hj
  | crash j e =>
    obtain ⟨r', op, next, hj, rfl⟩ := Pool.step_crash h
    exact replaced hj

/-- The requests that a step starts. -/
def Label.made : Label χ ε ρ → List ρ
  | .start r => [r]
  | _ => []

/-- A step adds the request that it starts to the list of all requests. -/
theorem Pool.requests_step {p p' : Pool S σ ε α ρ} {l : Label χ ε ρ}
    (h : p.step M body l = some p') :
    p'.threads.map Thread.req = p.threads.map Thread.req ++ l.made := by
  have replaced : ∀ {i : ℕ} {r : ρ} {q q' : Program S ε α}, p.threads[i]? = some ⟨r, q⟩ →
      (p.threads.set i ⟨r, q'⟩).map Thread.req = p.threads.map Thread.req := by
    intro i r q q' hi
    rw [List.map_set]
    refine List.ext_getElem? fun j => ?_
    rw [List.getElem?_set]
    split
    · rename_i he
      rw [← he, List.getElem?_map, hi]
      simp [(List.getElem?_eq_some_iff.mp hi).1]
    · rfl
  cases l with
  | start r =>
    cases h
    exact List.map_append
  | turn i t =>
    obtain ⟨r, op, next, hi, -, rfl⟩ := Pool.step_turn h
    exact (replaced hi).trans (List.append_nil _).symm
  | crash i e =>
    obtain ⟨r, op, next, hi, rfl⟩ := Pool.step_crash h
    exact (replaced hi).trans (List.append_nil _).symm

/-- A thread that has returned keeps its result in every step. -/
theorem Pool.step_returned {p p' : Pool S σ ε α ρ} {l : Label χ ε ρ} {i : ℕ} {r : ρ}
    {result : Except ε α} (hi : p.threads[i]? = some ⟨r, .ret result⟩)
    (h : p.step M body l = some p') : p'.threads[i]? = some ⟨r, .ret result⟩ := by
  have other : ∀ {j r' op next th}, p.threads[j]? = some ⟨r', .call op next⟩ →
      (p.threads.set j th)[i]? = some ⟨r, .ret result⟩ := by
    intro j r' op next th hj
    have hne : j ≠ i := by
      rintro rfl
      cases hj.symm.trans hi
    rw [List.getElem?_set_ne hne]
    exact hi
  cases l with
  | start r' =>
    cases h
    obtain ⟨hlt, -⟩ := List.getElem?_eq_some_iff.mp hi
    exact (List.getElem?_append_left hlt).trans hi
  | turn j t =>
    obtain ⟨r', op, next, hj, -, rfl⟩ := Pool.step_turn h
    exact other hj
  | crash j e =>
    obtain ⟨r', op, next, hj, rfl⟩ := Pool.step_crash h
    exact other hj

/-- A thread that has returned keeps its result in every run. -/
theorem Pool.run_returned {p p' : Pool S σ ε α ρ} {ls : List (Label χ ε ρ)} {i : ℕ} {r : ρ}
    {result : Except ε α} (hi : p.threads[i]? = some ⟨r, .ret result⟩)
    (h : Transition.run (Pool.step M body) p ls = some p') :
    p'.threads[i]? = some ⟨r, .ret result⟩ :=
  run_invariant (I := fun q => q.threads[i]? = some ⟨r, .ret result⟩)
    (fun _ _ _ hs hl => Pool.step_returned hs hl) hi h

/-- The calls that threads can still make are calls of their requests. -/
theorem Pool.step_allOps {P : ρ → S.Op → Prop} (hbody : ∀ r, (body r).AllOps (P r))
    {p p' : Pool S σ ε α ρ} {l : Label χ ε ρ} (hp : p.Each fun _ r _ q => q.AllOps (P r))
    (h : p.step M body l = some p') : p'.Each fun _ r _ q => q.AllOps (P r) := by
  obtain ⟨_, -, hL⟩ := Pool.step_modular (M := M) (fun (_ : Unit) _ => True)
    (fun _ _ r _ q => q.AllOps (P r)) (fun _ _ r _ _ => hbody r) (fun _ _ _ _ _ _ _ _ => trivial)
    (fun _ _ _ _ _ _ _ _ hq => ⟨(), trivial, hq.2 _, fun _ _ _ _ hq' => hq'⟩)
    ⟨(), trivial, hp⟩ h
  exact hL

/-- While all requests meet a condition, the pool keeps what their calls keep. -/
theorem Pool.step_keeps {C : ρ → Prop} {P : ρ → S.Op → Prop} {I : σ → Prop}
    (hbody : ∀ r, (body r).AllOps (P r))
    (hcall : ∀ r op c s, C r → P r op → I s → I (M.exec op c s).2)
    {p p' : Pool S σ ε α ρ} {l : Label χ ε ρ}
    (hp : I p.state ∧ p.Each fun _ r _ q => C r ∧ q.AllOps (P r))
    (hl : ∀ r, l = .start r → C r) (h : p.step M body l = some p') :
    I p'.state ∧ p'.Each fun _ r _ q => C r ∧ q.AllOps (P r) := by
  obtain ⟨hI, hL⟩ := hp
  cases l with
  | start r =>
    cases h
    refine ⟨hI, fun j th hj => ?_⟩
    obtain ⟨-, rfl⟩ | hj := getElem?_concat_cases hj
    · exact ⟨hl r rfl, hbody r⟩
    · exact hL j th hj
  | turn i t =>
    obtain ⟨r, op, next, hi, -, rfl⟩ := Pool.step_turn h
    obtain ⟨hC, hop, hnext⟩ := hL i _ hi
    refine ⟨?_, fun j th hj => ?_⟩
    · obtain hsame | ⟨c, hexec⟩ := M.answer_state op t p.state
      · rw [hsame]
        exact hI
      · rw [hexec]
        exact hcall r op c p.state hC hop hI
    · obtain ⟨rfl, rfl⟩ | ⟨-, hj⟩ := getElem?_set_cases hj
      · exact ⟨hC, hnext _⟩
      · exact hL j th hj
  | crash i e =>
    obtain ⟨r, op, next, hi, rfl⟩ := Pool.step_crash h
    refine ⟨hI, fun j th hj => ?_⟩
    obtain ⟨rfl, rfl⟩ | ⟨-, hj⟩ := getElem?_set_cases hj
    · exact ⟨(hL j _ hi).1, trivial⟩
    · exact hL j th hj

/-- A run whose requests meet a condition keeps what their calls keep. -/
theorem Pool.run_keeps {C : ρ → Prop} {P : ρ → S.Op → Prop} {I : σ → Prop}
    (hbody : ∀ r, (body r).AllOps (P r))
    (hcall : ∀ r op c s, C r → P r op → I s → I (M.exec op c s).2)
    {p p' : Pool S σ ε α ρ} {ls : List (Label χ ε ρ)}
    (hp : I p.state ∧ p.Each fun _ r _ q => C r ∧ q.AllOps (P r))
    (hls : ∀ r, .start r ∈ ls → C r) (h : Transition.run (Pool.step M body) p ls = some p') :
    I p'.state ∧ p'.Each fun _ r _ q => C r ∧ q.AllOps (P r) := by
  induction ls generalizing p with
  | nil =>
    cases h
    exact hp
  | cons l ls ih =>
    obtain ⟨middle, hl, hrest⟩ := run_cons.mp h
    refine ih (Pool.step_keeps hbody hcall hp (fun r hr => hls r ?_) hl)
      (fun r hr => hls r (List.mem_cons_of_mem l hr)) hrest
    rw [hr]
    exact List.mem_cons_self

/-- A turn makes only a call of this kind. -/
def Pool.Makes (A : S.Op → Prop) (p : Pool S σ ε α ρ) : Label χ ε ρ → Prop
  | .turn i _ => ∀ th ∈ p.threads[i]?, match th.prog with
      | .call op _ => A op
      | .ret _ => True
  | _ => True

instance (A : S.Op → Prop) [DecidablePred A] (p : Pool S σ ε α ρ) (l : Label χ ε ρ) :
    Decidable (p.Makes A l) := by
  unfold Pool.Makes
  split
  · have (th : Thread S ε α ρ) : Decidable (match th.prog with
        | .call op _ => A op
        | .ret _ => True) := by split <;> infer_instance
    infer_instance
  · infer_instance

theorem Pool.makes_true (p : Pool S σ ε α ρ) (l : Label χ ε ρ) : p.Makes (fun _ => True) l := by
  cases l with
  | start r => trivial
  | crash i e => trivial
  | turn i t =>
    intro th _
    split <;> trivial

/-- When requests of one kind succeed only after a call whose success leaves a mark
on the shared state, and every call of a run keeps the mark, then each of them that
has succeeded has left it. -/
theorem Pool.run_awaits {C : ρ → Prop} {R A : S.Op → Prop} {D : σ → Prop}
    (hbody : ∀ r, C r → (body r).Awaits R)
    (hmark : ∀ op t s a, R op → (M.answer op t s).1 = .ok a → D (M.answer op t s).2)
    (hkeep : ∀ op t s, A op → D s → D (M.answer op t s).2) {s : σ} {p : Pool S σ ε α ρ}
    {ls : List (Label χ ε ρ)} (hA : EachStep (Pool.step M body) (Pool.Makes A) ⟨s, []⟩ ls)
    (h : Transition.run (Pool.step M body) ⟨s, []⟩ ls = some p) {i : ℕ} {r : ρ} {a : α}
    (hi : p.threads[i]? = some ⟨r, .ret (.ok a)⟩) (hr : C r) : D p.state := by
  have hinv : p.Each fun _ r s q => C r → q.Awaits R ∨ D s := by
    refine run_guarded (I := fun p => p.Each fun _ r s q => C r → q.Awaits R ∨ D s)
      (fun p l p' hp hl h => ?_) (fun _ _ hi => by cases hi) hA h
    cases l with
    | start r =>
      cases h
      intro j th hj hr
      obtain ⟨-, rfl⟩ | hj := getElem?_concat_cases hj
      · exact Or.inl (hbody r hr)
      · exact hp j th hj hr
    | crash i e =>
      obtain ⟨r, op, next, hi, rfl⟩ := Pool.step_crash h
      intro j th hj hr
      obtain ⟨rfl, rfl⟩ | ⟨-, hj⟩ := getElem?_set_cases hj
      · exact Or.inl trivial
      · exact hp j th hj hr
    | turn i t =>
      obtain ⟨r, op, next, hi, -, rfl⟩ := Pool.step_turn h
      have hop : A op := hl _ hi
      intro j th hj hr
      obtain ⟨rfl, rfl⟩ | ⟨-, hj⟩ := getElem?_set_cases hj
      · obtain ⟨hfailed, hnext⟩ | hdone := hp j _ hi hr
        · cases hreply : (M.answer op t p.state).1 with
          | error e => exact Or.inl (hfailed e)
          | ok a =>
            obtain hR | hnext := hnext
            · exact Or.inr (hmark op t p.state a hR hreply)
            · exact Or.inl (hnext a)
        · exact Or.inr (hkeep op t p.state hop hdone)
      · exact (hp j th hj hr).imp_right (hkeep op t p.state hop)
  obtain hawaits | hdone := hinv i _ hi hr
  · exact hawaits.elim
  · exact hdone

/-- A request that is served alone, with turns that its calls admit, leads the
pool to the state of the program's own run. -/
theorem Pool.run_alone (M : Machine S σ χ ε) (body : ρ → Program S ε α) (p : Program S ε α)
    (env : ℕ → Turn χ ε) (henv : ∀ n, ∃ c, env n = .serve c) (s : σ) (ths : List (Thread S ε α ρ)) (r : ρ) :
    ∃ ls, Transition.run (Pool.step M body) ⟨s, ths ++ [⟨r, p⟩]⟩ ls =
      some ⟨(p.run M env s).2, ths ++ [⟨r, .ret (p.run M env s).1⟩]⟩ := by
  induction p generalizing env s with
  | ret result => exact ⟨[], rfl⟩
  | call op next ih =>
    obtain ⟨c, hc⟩ := henv 0
    obtain ⟨ls, hls⟩ := ih (M.answer op (env 0) s).1 (fun n => env (n + 1))
      (fun n => henv (n + 1)) (M.answer op (env 0) s).2
    refine ⟨.turn ths.length (env 0) :: ls, run_cons.mpr ⟨_, ?_, hls⟩⟩
    have ha : M.Admits op (env 0) = true := by rw [hc]; rfl
    simp [Pool.step, ha]

/-- Serving one more request alone extends a run of the pool. -/
theorem Pool.run_request (M : Machine S σ χ ε) (body : ρ → Program S ε α) (r : ρ)
    (env : ℕ → Turn χ ε) (henv : ∀ n, ∃ c, env n = .serve c) (p : Pool S σ ε α ρ) :
    ∃ ls, Transition.run (Pool.step M body) p ls =
      some ⟨((body r).run M env p.state).2,
        p.threads ++ [⟨r, .ret ((body r).run M env p.state).1⟩]⟩ := by
  obtain ⟨ls, hls⟩ := Pool.run_alone M body (body r) env henv p.state p.threads r
  exact ⟨.start r :: ls, run_cons.mpr ⟨_, rfl, hls⟩⟩

/-- On every path the program makes at most this many calls. -/
def Program.CallsAtMost : ℕ → Program S ε α → Prop
  | _, .ret _ => True
  | 0, .call _ _ => False
  | n + 1, .call _ next => ∀ r, (next r).CallsAtMost n

theorem Program.callsAtMost_ret (n : ℕ) (result : Except ε α) :
    (ret result : Program S ε α).CallsAtMost n := by
  cases n <;> trivial

/-- A program without calls has returned. -/
theorem Program.CallsAtMost.returned {p : Program S ε α} (h : p.CallsAtMost 0) :
    ∃ result, p = .ret result := by
  cases p with
  | ret result => exact ⟨result, rfl⟩
  | call op next => exact h.elim

/-- How often the labels give a turn to the thread at this position. -/
def turnsOf (i : ℕ) (ls : List (Label χ ε ρ)) : ℕ :=
  ls.countP fun
    | .turn j _ => j == i
    | _ => false

theorem turnsOf_turn (i j : ℕ) (t : Turn χ ε) (ls : List (Label χ ε ρ)) :
    turnsOf i (.turn j t :: ls) = turnsOf i ls + if j = i then 1 else 0 := by
  simp [turnsOf, List.countP_cons]

/-- Each turn of a thread uses up one of the calls of its program. -/
theorem Pool.run_callsAtMost_thread {p p' : Pool S σ ε α ρ} {ls : List (Label χ ε ρ)} {i n : ℕ}
    {th th' : Thread S ε α ρ} (hi : p.threads[i]? = some th) (hn : th.prog.CallsAtMost n)
    (h : Transition.run (Pool.step M body) p ls = some p') (hth : p'.threads[i]? = some th') :
    th'.prog.CallsAtMost (n - turnsOf i ls) := by
  induction ls generalizing p n th with
  | nil =>
    cases h
    cases hi.symm.trans hth
    exact hn
  | cons l ls ih =>
    obtain ⟨m, hstep, hrest⟩ := run_cons.mp h
    cases l with
    | start r =>
      cases hstep
      obtain ⟨hlt, -⟩ := List.getElem?_eq_some_iff.mp hi
      exact ih ((List.getElem?_append_left hlt).trans hi) hn hrest
    | turn j t =>
      obtain ⟨r, op, next, hj, -, rfl⟩ := Pool.step_turn hstep
      rw [turnsOf_turn]
      by_cases hji : j = i
      · subst hji
        cases hj.symm.trans hi
        cases n with
        | zero => exact hn.elim
        | succ n =>
          rw [if_pos rfl, Nat.add_sub_add_right]
          have hset : (p.threads.set j ⟨r, next (M.answer op t p.state).1⟩)[j]? =
              some ⟨r, next (M.answer op t p.state).1⟩ := by
            rw [List.getElem?_set_self', hj]
            rfl
          exact ih hset (hn _) hrest
      · rw [if_neg hji, Nat.add_zero]
        exact ih ((List.getElem?_set_ne hji).trans hi) hn hrest
    | crash j e =>
      obtain ⟨r, op, next, hj, rfl⟩ := Pool.step_crash hstep
      by_cases hji : j = i
      · subst hji
        have hset : (p.threads.set j ⟨r, .ret (.error e)⟩)[j]? = some ⟨r, .ret (.error e)⟩ := by
          rw [List.getElem?_set_self', hj]
          rfl
        exact ih hset (Program.callsAtMost_ret n _) hrest
      · exact ih ((List.getElem?_set_ne hji).trans hi) hn hrest

/-- When the thread at a position, or each request that may come to stand there,
makes at most so many calls, it has returned after so many turns. -/
theorem Pool.run_returned_of_turns {p p' : Pool S σ ε α ρ} {ls : List (Label χ ε ρ)} {i n : ℕ}
    (hp : ∀ th, p.threads[i]? = some th → th.prog.CallsAtMost n)
    (hstart : ∀ r, .start r ∈ ls → (body r).CallsAtMost n)
    (h : Transition.run (Pool.step M body) p ls = some p') {th : Thread S ε α ρ}
    (hth : p'.threads[i]? = some th) (hturns : n ≤ turnsOf i ls) :
    ∃ result, th.prog = .ret result := by
  induction ls generalizing p with
  | nil =>
    cases h
    have hn := hp th hth
    rw [Nat.le_zero.mp hturns] at hn
    exact hn.returned
  | cons l ls ih =>
    cases hi : p.threads[i]? with
    | some th₀ =>
      have hn := Pool.run_callsAtMost_thread hi (hp th₀ hi) h hth
      rw [Nat.sub_eq_zero_of_le hturns] at hn
      exact hn.returned
    | none =>
      obtain ⟨m, hstep, hrest⟩ := run_cons.mp h
      have hlater : ∀ r, .start r ∈ ls → (body r).CallsAtMost n := fun r hr =>
        hstart r (List.mem_cons_of_mem l hr)
      have absent : ∀ {j th₁}, p.threads[j]? = some th₁ → j ≠ i := by
        rintro j th₁ hj rfl
        cases hi.symm.trans hj
      cases l with
      | start r =>
        cases hstep
        refine ih (fun th₁ h₁ => ?_) hlater hrest hturns
        obtain ⟨-, rfl⟩ | h₁ := getElem?_concat_cases h₁
        · exact hstart r List.mem_cons_self
        · cases hi.symm.trans h₁
      | turn j t =>
        obtain ⟨r, op, next, hj, -, rfl⟩ := Pool.step_turn hstep
        rw [turnsOf_turn, if_neg (absent hj)] at hturns
        refine ih (fun th₁ h₁ => ?_) hlater hrest hturns
        cases hi.symm.trans ((List.getElem?_set_ne (absent hj)).symm.trans h₁)
      | crash j e =>
        obtain ⟨r, op, next, hj, rfl⟩ := Pool.step_crash hstep
        refine ih (fun th₁ h₁ => ?_) hlater hrest hturns
        cases hi.symm.trans ((List.getElem?_set_ne (absent hj)).symm.trans h₁)

/-- Translating errors keeps the success. -/
theorem mapError_eq_ok {ε ε' α : Type} {f : ε → ε'} {r : Except ε α} {a : α} :
    r.mapError f = .ok a ↔ r = .ok a := by
  cases r with
  | ok b => exact ⟨fun h => (by cases h; rfl), fun h => (by cases h; rfl)⟩
  | error e => exact ⟨fun h => (by cases h), fun h => (by cases h)⟩

end AuraWellness.Lib.Calls
