import AuraWellness.Lib.Calls

/-!
# Programs at work and the calls they have made

A program is run one call at a time, and the state changes between its calls. Every call is
entered in a journal, with what it met. A program that makes one call of a kind at most
returns what this entry decides, whatever the state was at its other calls.
-/

namespace AuraWellness.Lib.Journal

open AuraWellness.Lib.Calls AuraWellness.Lib.Transition

/-- A call that has been made: the turn and the state that it met. -/
structure Entry (S : Signature) (σ χ ε : Type) where
  op : S.Op
  turn : Turn χ ε
  state : σ

/-- A program at work. -/
structure Job (S : Signature) (σ χ ε α : Type) where
  /-- What it has still to do. -/
  program : Program S ε α
  /-- The calls that it has made. -/
  journal : List (Entry S σ χ ε)

variable {S : Signature} {σ χ ε α β : Type}

/-- What the call was replied. -/
def Entry.reply (M : Machine S σ χ ε) (e : Entry S σ χ ε) : Except ε (S.Res e.op) :=
  (M.answer e.op e.turn e.state).1

/-- A program before its first call. -/
def Job.start (p : Program S ε α) : Job S σ χ ε α := ⟨p, []⟩

/-- What the program has returned; none while it is at work. -/
def Job.result? (j : Job S σ χ ε α) : Option (Except ε α) :=
  match j.program with
  | .ret r => some r
  | .call _ _ => none

/-- The next call. -/
def Job.turn (M : Machine S σ χ ε) (t : Turn χ ε) (j : Job S σ χ ε α) (s : σ) :
    Option (Job S σ χ ε α × σ) :=
  match j.program with
  | .ret _ => none
  | .call op next =>
    if M.Admits op t then
      some (⟨next (M.answer op t s).1, j.journal ++ [⟨op, t, s⟩]⟩, (M.answer op t s).2)
    else none

/-- A job that makes a call. -/
theorem Job.turn_eq_some {M : Machine S σ χ ε} {t : Turn χ ε} {j j' : Job S σ χ ε α} {s s' : σ}
    (h : j.turn M t s = some (j', s')) : ∃ op next, j.program = .call op next ∧
      j' = ⟨next (M.answer op t s).1, j.journal ++ [⟨op, t, s⟩]⟩ ∧ s' = (M.answer op t s).2 := by
  obtain ⟨program, journal⟩ := j
  cases program with
  | ret r => cases h
  | call op next =>
    obtain ⟨-, ⟨⟩⟩ := Option.ite_none_right_eq_some.mp h
    exact ⟨op, next, rfl, rfl, rfl⟩

/-- The calls of a job, one after the other and undisturbed. -/
def Job.step (M : Machine S σ χ ε) (s : Job S σ χ ε α × σ) (t : Turn χ ε) :
    Option (Job S σ χ ε α × σ) := s.1.turn M t s.2

/-- An undisturbed job does what the program does when it is run alone. -/
theorem Job.exists_run (M : Machine S σ χ ε) (p : Program S ε α) {env : ℕ → Turn χ ε}
    (henv : ∀ n, ∃ c, env n = .serve c) (journal : List (Entry S σ χ ε)) (s : σ) :
    ∃ ts made, run (Job.step M) (⟨p, journal⟩, s) ts =
      some (⟨.ret (p.run M env s).1, made⟩, (p.run M env s).2) := by
  induction p generalizing env journal s with
  | ret r => exact ⟨[], journal, rfl⟩
  | call op next ih =>
    obtain ⟨c, hc⟩ := henv 0
    obtain ⟨ts, made, hrun⟩ := ih (M.answer op (env 0) s).1 (fun n => henv (n + 1))
      (journal ++ [⟨op, env 0, s⟩]) (M.answer op (env 0) s).2
    refine ⟨env 0 :: ts, made, run_cons.mpr ⟨_, ?_, hrun⟩⟩
    have hadmits : M.Admits op (env 0) = true := by
      rw [hc]
      rfl
    exact if_pos hadmits

/-- The program makes no call of this kind any more, and its result satisfies the
postcondition. -/
def Past (K : S.Op → Prop) (Q : Except ε α → Prop) : Program S ε α → Prop
  | .ret r => Q r
  | .call op next => ¬K op ∧ ∀ r, Past K Q (next r)

/-- The program makes one call of this kind at most. Its result satisfies `Q` with what the
call was replied, and `N` when there was no such call. -/
def ReadsOnce (K : S.Op → Prop) (N : Except ε α → Prop)
    (Q : (op : S.Op) → Except ε (S.Res op) → Except ε α → Prop) : Program S ε α → Prop
  | .ret r => N r
  | .call op next =>
    (K op → ∀ r, Past K (Q op r) (next r)) ∧ (¬K op → ∀ r, ReadsOnce K N Q (next r))

section

variable {K : S.Op → Prop}

/-- The rule of sequencing without calls of the kind. -/
theorem Past.bind {P : Except ε α → Prop} {Q : Except ε β → Prop} {p : Program S ε α}
    {f : α → Program S ε β} (hp : Past K P p) (hf : ∀ a, P (.ok a) → Past K Q (f a))
    (he : ∀ e, P (.error e) → Q (.error e)) : Past K Q (p >>= f) := by
  induction p with
  | ret r =>
    cases r with
    | ok a => exact hf a hp
    | error e => exact he e hp
  | call op next ih => exact ⟨hp.1, fun r => ih r (hp.2 r)⟩

/-- A call of another kind whose error ends the program. -/
theorem Past.perform_bind {Q : Except ε β → Prop} {op : S.Op} {f : S.Res op → Program S ε β}
    (hop : ¬K op) (hf : ∀ a, Past K Q (f a)) (he : ∀ e, Q (.error e)) :
    Past K Q (Program.perform op >>= f) := by
  refine ⟨hop, fun r => ?_⟩
  cases r with
  | ok a => exact hf a
  | error e => exact he e

variable {N : Except ε β → Prop} {Q : (op : S.Op) → Except ε (S.Res op) → Except ε β → Prop}

/-- A call of another kind whose error ends the program. -/
theorem ReadsOnce.perform_bind {op : S.Op} {f : S.Res op → Program S ε β} (hop : ¬K op)
    (hf : ∀ a, ReadsOnce K N Q (f a)) (he : ∀ e, N (.error e)) :
    ReadsOnce K N Q (Program.perform op >>= f) := by
  refine ⟨fun hK => absurd hK hop, fun _ r => ?_⟩
  cases r with
  | ok a => exact hf a
  | error e => exact he e

/-- The call of the kind. -/
theorem readsOnce_perform_bind {op : S.Op} {f : S.Res op → Program S ε β} (hop : K op)
    (hf : ∀ a, Past K (Q op (.ok a)) (f a)) (he : ∀ e, Q op (.error e) (.error e)) :
    ReadsOnce K N Q (Program.perform op >>= f) := by
  refine ⟨fun _ r => ?_, fun hK => absurd hop hK⟩
  cases r with
  | ok a => exact hf a
  | error e => exact he e

/-- Wrapping the result makes no call. -/
theorem Past.map {P : Except ε α → Prop} {Q : Except ε β → Prop} {p : Program S ε α} (f : α → β)
    (hp : Past K P p) (hQ : ∀ r, P r → Q (r.map f)) : Past K Q (f <$> p) :=
  hp.bind (fun a ha => hQ (.ok a) ha) fun e he => hQ (.error e) he

/-- Wrapping the result makes no call. -/
theorem ReadsOnce.map {N' : Except ε α → Prop}
    {Q' : (op : S.Op) → Except ε (S.Res op) → Except ε α → Prop} {p : Program S ε α} (f : α → β)
    (hp : ReadsOnce K N' Q' p) (hN : ∀ r, N' r → N (r.map f))
    (hQ : ∀ op a r, Q' op a r → Q op a (r.map f)) : ReadsOnce K N Q (f <$> p) := by
  induction p with
  | ret r => cases r with
    | ok a => exact hN _ hp
    | error e => exact hN _ hp
  | call op next ih =>
    exact ⟨fun hK r => (hp.1 hK r).map f (hQ op r), fun hK r => ih r (hp.2 hK r)⟩

end

/-- A job that has made no call of the kind yet, or one, and returns what it was replied. -/
def Job.Reads (M : Machine S σ χ ε) (K : S.Op → Prop) (N : Except ε α → Prop)
    (Q : (op : S.Op) → Except ε (S.Res op) → Except ε α → Prop) (j : Job S σ χ ε α) : Prop :=
  (ReadsOnce K N Q j.program ∧ ∀ e ∈ j.journal, ¬K e.op) ∨
    ∃ e ∈ j.journal, K e.op ∧ (∀ x ∈ j.journal, K x.op → x = e) ∧
      Past K (Q e.op (e.reply M)) j.program

section

variable {M : Machine S σ χ ε} {K : S.Op → Prop} {N : Except ε α → Prop}
  {Q : (op : S.Op) → Except ε (S.Res op) → Except ε α → Prop}

/-- A job starts without a call. -/
theorem Job.start_reads {p : Program S ε α} (h : ReadsOnce K N Q p) :
    (Job.start p : Job S σ χ ε α).Reads M K N Q := .inl ⟨h, fun _ he => by cases he⟩

/-- Every call keeps it so. -/
theorem Job.turn_reads {t : Turn χ ε} {j j' : Job S σ χ ε α} {s s' : σ} (hj : j.Reads M K N Q)
    (h : j.turn M t s = some (j', s')) : j'.Reads M K N Q := by
  obtain ⟨op, next, hprogram, rfl, rfl⟩ := Job.turn_eq_some h
  unfold Job.Reads at hj
  rw [hprogram] at hj
  obtain ⟨⟨hread, hother⟩, hnone⟩ | ⟨e, he, hK, honly, hop, hpast⟩ := hj
  · by_cases hK : K op
    · refine .inr ⟨⟨op, t, s⟩, List.mem_append_right _ (List.mem_singleton_self _), hK,
        fun x hx hxK => ?_, hread hK _⟩
      obtain hx | hx := List.mem_append.mp hx
      · exact absurd hxK (hnone x hx)
      · exact List.mem_singleton.mp hx
    · refine .inl ⟨hother hK _, fun x hx => ?_⟩
      obtain hx | hx := List.mem_append.mp hx
      · exact hnone x hx
      · rw [List.mem_singleton.mp hx]
        exact hK
  · refine .inr ⟨e, List.mem_append_left _ he, hK, fun x hx hxK => ?_, hpast _⟩
    obtain hx | hx := List.mem_append.mp hx
    · exact honly x hx hxK
    · rw [List.mem_singleton.mp hx] at hxK
      exact absurd hxK hop

/-- A job that has returned has made no call of the kind, or one that decides the result. -/
theorem Job.Reads.returned {j : Job S σ χ ε α} (hj : j.Reads M K N Q) {r : Except ε α}
    (h : j.result? = some r) : (N r ∧ ∀ e ∈ j.journal, ¬K e.op) ∨
      ∃ e ∈ j.journal, K e.op ∧ (∀ x ∈ j.journal, K x.op → x = e) ∧ Q e.op (e.reply M) r := by
  obtain ⟨program, journal⟩ := j
  cases program with
  | ret r' =>
    cases h
    exact hj
  | call op next => cases h

end

end AuraWellness.Lib.Journal
