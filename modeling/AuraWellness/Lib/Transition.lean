import Mathlib.Data.List.Basic
import Mathlib.Data.List.Induction

/-!
# Runs of a labelled partial step

A system is a partial step on states that a list of labels drives. Invariants
are carried along whole runs, also under a guard that every label must meet,
and a property whose every single step is decided by a guard holds throughout
a run exactly when each step of the run meets that guard.
-/

namespace AuraWellness.Lib.Transition

variable {σ α : Type*}

/-- Follow the labels in order; the run exists when every step is enabled. -/
def run (step : σ → α → Option σ) : σ → List α → Option σ
  | s, [] => some s
  | s, a :: as => (step s a).bind fun s' => run step s' as

/-- Every step that the labels take from this state meets the guard. -/
def EachStep (step : σ → α → Option σ) (G : σ → α → Prop) : σ → List α → Prop
  | _, [] => True
  | s, a :: as => G s a ∧ ∀ s', step s a = some s' → EachStep step G s' as

instance EachStep.decidable (step : σ → α → Option σ) (G : σ → α → Prop)
    [∀ s a, Decidable (G s a)] : (s : σ) → (as : List α) → Decidable (EachStep step G s as)
  | _, [] => isTrue trivial
  | s, a :: as =>
    match h : step s a with
    | none => decidable_of_iff (G s a)
        ⟨fun hg => ⟨hg, fun s' hs => by rw [h] at hs; cases hs⟩, fun hg => hg.1⟩
    | some next =>
      have : Decidable (EachStep step G next as) := EachStep.decidable step G next as
      decidable_of_iff (G s a ∧ EachStep step G next as)
        ⟨fun hg => ⟨hg.1, fun s' hs => by cases h.symm.trans hs; exact hg.2⟩,
          fun hg => ⟨hg.1, hg.2 next h⟩⟩

/-- Every state that the labels visit, the first and the last included. -/
def Throughout (step : σ → α → Option σ) (P : σ → Prop) : σ → List α → Prop
  | s, [] => P s
  | s, a :: as => P s ∧ ∀ s', step s a = some s' → Throughout step P s' as

/-- States that some run reaches from an initial state. -/
def Reachable (step : σ → α → Option σ) (init s : σ) : Prop :=
  ∃ as, run step init as = some s

theorem run_cons {step : σ → α → Option σ} {s s' : σ} {a : α} {as : List α} :
    run step s (a :: as) = some s' ↔
      ∃ middle, step s a = some middle ∧ run step middle as = some s' :=
  Option.bind_eq_some_iff

theorem run_append {step : σ → α → Option σ} {s : σ} {as bs : List α} :
    run step s (as ++ bs) = (run step s as).bind fun s' => run step s' bs := by
  induction as generalizing s with
  | nil => rfl
  | cons a as ih =>
    cases hs : step s a with
    | none => simp [run, hs]
    | some next => simp [run, hs, ih]

/-- Two runs compose when the second starts where the first ends. -/
theorem run_trans {step : σ → α → Option σ} {s m e : σ} {as bs : List α}
    (h₁ : run step s as = some m) (h₂ : run step m bs = some e) :
    run step s (as ++ bs) = some e := by
  rw [run_append, h₁]
  exact h₂

theorem Reachable.refl {step : σ → α → Option σ} (s : σ) : Reachable step s s := ⟨[], rfl⟩

theorem Reachable.trans {step : σ → α → Option σ} {s m e : σ} {bs : List α}
    (h : Reachable step s m) (hr : run step m bs = some e) : Reachable step s e := by
  obtain ⟨as, has⟩ := h
  exact ⟨as ++ bs, run_trans has hr⟩

/-- What every step preserves under its guard, a guarded run preserves. -/
theorem run_guarded {step : σ → α → Option σ} {I : σ → Prop} {G : σ → α → Prop}
    (hstep : ∀ s a s', I s → G s a → step s a = some s' → I s')
    {s s' : σ} {as : List α} (hI : I s) (hG : EachStep step G s as)
    (hr : run step s as = some s') : I s' := by
  induction as generalizing s with
  | nil =>
    cases hr
    exact hI
  | cons a as ih =>
    obtain ⟨middle, ha, hrest⟩ := run_cons.mp hr
    exact ih (hstep s a middle hI hG.1 ha) (hG.2 middle ha) hrest

/-- What is left of a guarded run is guarded. -/
theorem EachStep.rest {step : σ → α → Option σ} {G : σ → α → Prop} {s m : σ} {as bs : List α}
    (h : EachStep step G s (as ++ bs)) (hr : run step s as = some m) : EachStep step G m bs := by
  induction as generalizing s with
  | nil =>
    cases hr
    exact h
  | cons a as ih =>
    obtain ⟨middle, ha, hrest⟩ := run_cons.mp hr
    exact ih (h.2 middle ha) hrest

/-- The first part of a guarded run is guarded. -/
theorem EachStep.start {step : σ → α → Option σ} {G : σ → α → Prop} {s : σ} {as bs : List α}
    (h : EachStep step G s (as ++ bs)) : EachStep step G s as := by
  induction as generalizing s with
  | nil => trivial
  | cons a as ih => exact ⟨h.1, fun next hnext => ih (h.2 next hnext)⟩

/-- What every step preserves under its guard holds throughout a guarded run. -/
theorem throughout_guarded {step : σ → α → Option σ} {I : σ → Prop} {G : σ → α → Prop}
    (hstep : ∀ s a s', I s → G s a → step s a = some s' → I s')
    {s : σ} {as : List α} (hI : I s) (hG : EachStep step G s as) : Throughout step I s as := by
  induction as generalizing s with
  | nil => exact hI
  | cons a as ih =>
    exact ⟨hI, fun next hnext => ih (hstep s a next hI hG.1 hnext) (hG.2 next hnext)⟩

/-- An inductive invariant holds throughout every run. -/
theorem throughout_invariant {step : σ → α → Option σ} {I : σ → Prop}
    (hstep : ∀ s a s', I s → step s a = some s' → I s') {s : σ} (as : List α) (hI : I s) :
    Throughout step I s as := by
  induction as generalizing s with
  | nil => exact hI
  | cons a as ih => exact ⟨hI, fun next hnext => ih (hstep s a next hI hnext)⟩

/-- Every state of the run is related to one of a run of the other side, which takes some
steps for each step. -/
def Simulated {τ β : Type*} (step : σ → α → Option σ) (step' : τ → β → Option τ)
    (R : σ → τ → Prop) : σ → τ → List α → Prop
  | s, t, [] => R s t
  | s, t, a :: as => R s t ∧ ∀ s', step s a = some s' →
      ∃ bs t', run step' t bs = some t' ∧ Simulated step step' R s' t' as

/-- A relation that the other side keeps up with at every step simulates every run. -/
theorem simulated_of_step {τ β : Type*} {step : σ → α → Option σ} {step' : τ → β → Option τ}
    {R : σ → τ → Prop}
    (hstep : ∀ s t a s', R s t → step s a = some s' →
      ∃ bs t', run step' t bs = some t' ∧ R s' t') {s : σ} {t : τ} (hR : R s t) (as : List α) :
    Simulated step step' R s t as := by
  induction as generalizing s t with
  | nil => exact hR
  | cons a as ih =>
    refine ⟨hR, fun s' hs => ?_⟩
    obtain ⟨bs, t', hrun, hR'⟩ := hstep s t a s' hR hs
    exact ⟨bs, t', hrun, ih hR'⟩

/-- What follows from the relation holds of the same states. -/
theorem Simulated.mono {τ β : Type*} {step : σ → α → Option σ} {step' : τ → β → Option τ}
    {R S : σ → τ → Prop} {s : σ} {t : τ} {as : List α} (h : Simulated step step' R s t as)
    (hRS : ∀ s t, R s t → S s t) : Simulated step step' S s t as := by
  induction as generalizing s t with
  | nil => exact hRS s t h
  | cons a as ih =>
    refine ⟨hRS s t h.1, fun s' hs => ?_⟩
    obtain ⟨bs, t', hrun, hrest⟩ := h.2 s' hs
    exact ⟨bs, t', hrun, ih hrest⟩

/-- What follows from a property that holds throughout a run does too. -/
theorem Throughout.mono {step : σ → α → Option σ} {P Q : σ → Prop} {s : σ} {as : List α}
    (h : Throughout step P s as) (hPQ : ∀ s, P s → Q s) : Throughout step Q s as := by
  induction as generalizing s with
  | nil => exact hPQ s h
  | cons a as ih => exact ⟨hPQ s h.1, fun next hnext => ih (h.2 next hnext)⟩

/-- What holds of every enabled step under an invariant that the guard keeps
holds of every step of a guarded run. -/
theorem eachStep_guarded {step : σ → α → Option σ} {I : σ → Prop} {G W : σ → α → Prop}
    (hstep : ∀ s a s', I s → G s a → step s a = some s' → I s')
    (hW : ∀ s a s', I s → G s a → step s a = some s' → W s a)
    {s s' : σ} {as : List α} (hI : I s) (hG : EachStep step G s as)
    (hr : run step s as = some s') : EachStep step W s as := by
  induction as generalizing s with
  | nil => trivial
  | cons a as ih =>
    obtain ⟨middle, ha, hrest⟩ := run_cons.mp hr
    refine ⟨hW s a middle hI hG.1 ha, fun next hnext => ?_⟩
    cases ha.symm.trans hnext
    exact ih (hstep s a middle hI hG.1 ha) (hG.2 middle ha) hrest

/-- What an invariant says of every step under the guard that keeps it holds of every step
of a guarded run. -/
theorem EachStep.mono_guarded {step : σ → α → Option σ} {I : σ → Prop} {G W : σ → α → Prop}
    {s : σ} {as : List α} (hG : EachStep step G s as)
    (hstep : ∀ s a s', I s → G s a → step s a = some s' → I s')
    (hW : ∀ s a, I s → G s a → W s a) (hI : I s) : EachStep step W s as := by
  induction as generalizing s with
  | nil => trivial
  | cons a as ih =>
    exact ⟨hW s a hI hG.1, fun next hnext => ih (hG.2 next hnext) (hstep s a next hI hG.1 hnext)⟩

/-- Guards that agree under an inductive invariant are met by the same runs. -/
theorem eachStep_iff_of_invariant {step : σ → α → Option σ} {I : σ → Prop} {G W : σ → α → Prop}
    (hstep : ∀ s a s', I s → step s a = some s' → I s') (hiff : ∀ s a, I s → (G s a ↔ W s a))
    {s : σ} (hI : I s) (as : List α) : EachStep step G s as ↔ EachStep step W s as := by
  induction as generalizing s with
  | nil => exact Iff.rfl
  | cons a as ih =>
    exact and_congr (hiff s a hI)
      (forall_congr' fun next => forall_congr' fun ha => ih (hstep s a next hI ha))

/-- An inductive invariant holds after every run. -/
theorem run_invariant {step : σ → α → Option σ} {I : σ → Prop}
    (hstep : ∀ s a s', I s → step s a = some s' → I s')
    {s s' : σ} {as : List α} (hI : I s) (hr : run step s as = some s') : I s' := by
  induction as generalizing s with
  | nil =>
    cases hr
    exact hI
  | cons a as ih =>
    obtain ⟨middle, ha, hrest⟩ := run_cons.mp hr
    exact ih (hstep s a middle hI ha) hrest

/-- An inductive invariant holds in every reachable state. -/
theorem Reachable.invariant {step : σ → α → Option σ} {I : σ → Prop} {init s : σ}
    (hstep : ∀ s a s', I s → step s a = some s' → I s') (hI : I init)
    (h : Reachable step init s) : I s := by
  obtain ⟨as, has⟩ := h
  exact run_invariant hstep hI has

/-- A run that comes to have a property has a step that brings it about. -/
theorem exists_switch {step : σ → α → Option σ} {P : σ → Prop} {s s' : σ} {as : List α}
    (hr : run step s as = some s') (hs : ¬P s) (hs' : P s') :
    ∃ first a rest m next, as = first ++ a :: rest ∧ run step s first = some m ∧
      step m a = some next ∧ run step next rest = some s' ∧ ¬P m ∧ P next := by
  induction as generalizing s with
  | nil =>
    cases hr
    exact absurd hs' hs
  | cons a as ih =>
    obtain ⟨middle, ha, hrest⟩ := run_cons.mp hr
    by_cases hm : P middle
    · exact ⟨[], a, as, _, middle, rfl, rfl, ha, hrest, hs, hm⟩
    · obtain ⟨first, b, rest, m, next, rfl, hfirst, hb, hend, hnot, hnext⟩ := ih hrest hm
      exact ⟨a :: first, b, rest, m, next, rfl, run_cons.mpr ⟨middle, ha, hfirst⟩, hb, hend, hnot,
        hnext⟩

/-- Two ends of a run that are related exactly when all neighbours between them
are, and whose neighbours are related exactly when the step meets the guard. -/
theorem run_iff_eachStep {step : σ → α → Option σ} {R : σ → σ → Prop} {G : σ → α → Prop}
    (hrefl : ∀ s, R s s)
    (hsplit : ∀ s a m as s', step s a = some m → run step m as = some s' →
      (R s s' ↔ R s m ∧ R m s'))
    (hstep : ∀ s a m, step s a = some m → (R s m ↔ G s a))
    {s s' : σ} {as : List α} (hr : run step s as = some s') : R s s' ↔ EachStep step G s as := by
  induction as generalizing s with
  | nil =>
    cases hr
    exact ⟨fun _ => trivial, fun _ => hrefl _⟩
  | cons a as ih =>
    obtain ⟨middle, ha, hrest⟩ := run_cons.mp hr
    rw [hsplit s a middle as s' ha hrest, hstep s a middle ha, ih hrest]
    constructor
    · intro h
      refine ⟨h.1, fun next hnext => ?_⟩
      cases ha.symm.trans hnext
      exact h.2
    · exact fun h => ⟨h.1, h.2 middle ha⟩

/-- What every admitted step keeps has not happened in an admitted run that ends
without it. -/
theorem throughout_not_within {step : σ → α → Option σ} {J P : σ → Prop} {A : σ → α → Prop}
    (hJ : ∀ s a s', J s → A s a → step s a = some s' → J s')
    (hP : ∀ s a s', J s → P s → A s a → step s a = some s' → P s') {s s' : σ} {as : List α}
    (hs : J s) (hA : EachStep step A s as) (hr : run step s as = some s') (h : ¬P s') :
    Throughout step (fun s => ¬P s) s as := by
  have hnot : ∀ {s : σ} {as : List α}, J s → EachStep step A s as → run step s as = some s' →
      ¬P s := fun hs hA hr hp =>
    h (run_guarded (I := fun s => J s ∧ P s)
      (fun s a s' hs ha h => ⟨hJ s a s' hs.1 ha h, hP s a s' hs.1 hs.2 ha h⟩) ⟨hs, hp⟩ hA hr).2
  induction as generalizing s with
  | nil => exact hnot hs hA hr
  | cons a as ih =>
    obtain ⟨middle, ha, hrest⟩ := run_cons.mp hr
    refine ⟨hnot hs hA hr, fun next hnext => ?_⟩
    cases ha.symm.trans hnext
    exact ih (hJ s a middle hs hA.1 ha) (hA.2 middle ha) hrest

/-- A guard that every step meets. -/
theorem eachStep_of_forall {step : σ → α → Option σ} {G : σ → α → Prop} (h : ∀ s a, G s a)
    (s : σ) (as : List α) : EachStep step G s as := by
  induction as generalizing s with
  | nil => trivial
  | cons a as ih => exact ⟨h s a, fun next _ => ih next⟩

/-- A guard on the labels alone. -/
theorem eachStep_of_labels {step : σ → α → Option σ} {G : α → Prop} {as : List α}
    (h : ∀ a ∈ as, G a) (s : σ) : EachStep step (fun _ => G) s as := by
  induction as generalizing s with
  | nil => trivial
  | cons a as ih =>
    obtain ⟨ha, has⟩ := List.forall_mem_cons.mp h
    exact ⟨ha, fun next _ => ih has next⟩

/-- What every step keeps has not happened in a run that ends without it. -/
theorem throughout_not {step : σ → α → Option σ} {J P : σ → Prop}
    (hJ : ∀ s a s', J s → step s a = some s' → J s')
    (hP : ∀ s a s', J s → P s → step s a = some s' → P s') {s s' : σ} {as : List α} (hs : J s)
    (hr : run step s as = some s') (h : ¬P s') : Throughout step (fun s => ¬P s) s as :=
  throughout_not_within (fun s a s' hs _ => hJ s a s' hs) (fun s a s' hs hp _ => hP s a s' hs hp)
    hs (eachStep_of_forall (fun _ _ => trivial) s as) hr h

/-- Where a property fails somewhere in a run, the run reaches a state without it. -/
theorem exists_not_of_not_throughout {step : σ → α → Option σ} {P : σ → Prop} {s : σ} {as : List α}
    (h : ¬Throughout step P s as) :
    ∃ first m, first <+: as ∧ run step s first = some m ∧ ¬P m := by
  induction as generalizing s with
  | nil => exact ⟨[], s, List.prefix_refl _, rfl, h⟩
  | cons a as ih =>
    by_cases hs : P s
    · have hrest : ¬∀ next, step s a = some next → Throughout step P next as :=
        fun hall => h ⟨hs, hall⟩
      obtain ⟨next, hnot⟩ := Classical.not_forall.mp hrest
      obtain ⟨hstep, hnot⟩ := Classical.not_imp.mp hnot
      obtain ⟨first, m, hfirst, hrun, hm⟩ := ih hnot
      exact ⟨a :: first, m, List.cons_prefix_cons.mpr ⟨rfl, hfirst⟩,
        run_cons.mpr ⟨next, hstep, hrun⟩, hm⟩
    · exact ⟨[], s, List.nil_prefix, rfl, hs⟩

/-- A property that holds throughout a run holds at its end. -/
theorem Throughout.last {step : σ → α → Option σ} {P : σ → Prop} {s s' : σ} {as : List α}
    (h : Throughout step P s as) (hr : run step s as = some s') : P s' := by
  induction as generalizing s with
  | nil =>
    cases hr
    exact h
  | cons a as ih =>
    obtain ⟨middle, ha, hrest⟩ := run_cons.mp hr
    exact ih (h.2 middle ha) hrest

/-- What holds at the start and is kept by every step that the run so far allows
holds of every run, as a statement about its labels and its end. -/
theorem run_history {step : σ → α → Option σ} {I : List α → σ → Prop} {s : σ} (hstart : I [] s)
    (hstep : ∀ as m a m', run step s as = some m → I as m → step m a = some m' →
      I (as ++ [a]) m')
    {s' : σ} {as : List α} (hr : run step s as = some s') : I as s' := by
  induction as using List.reverseRecOn generalizing s' with
  | nil =>
    cases hr
    exact hstart
  | append_singleton as a ih =>
    rw [run_append] at hr
    obtain ⟨m, hm, hlast⟩ := Option.bind_eq_some_iff.mp hr
    obtain ⟨m', ha, hnil⟩ := run_cons.mp hlast
    cases hnil
    exact hstep as m a _ hm (ih hm) ha

/-- When an invariant, kept by every admitted step from a state with the property,
makes one admitted step keep the property exactly if the step meets the guard,
the property holds throughout an admitted run exactly if every step of the run
meets the guard. -/
theorem throughout_iff_eachStep_within {step : σ → α → Option σ} {J P : σ → Prop}
    {A G : σ → α → Prop}
    (hJ : ∀ s a s', J s → P s → A s a → step s a = some s' → J s')
    (hP : ∀ s a s', J s → P s → A s a → step s a = some s' → (P s' ↔ G s a))
    {s s' : σ} {as : List α} (hs : J s) (hp : P s) (hA : EachStep step A s as)
    (hr : run step s as = some s') : Throughout step P s as ↔ EachStep step G s as := by
  induction as generalizing s with
  | nil => exact ⟨fun _ => trivial, fun _ => hp⟩
  | cons a as ih =>
    obtain ⟨middle, ha, hrest⟩ := run_cons.mp hr
    have hj : J middle := hJ s a middle hs hp hA.1 ha
    have hiff := hP s a middle hs hp hA.1 ha
    constructor
    · intro h
      have hm : P middle := by
        have ht := h.2 middle ha
        cases as with
        | nil => exact ht
        | cons b bs => exact ht.1
      refine ⟨hiff.mp hm, fun next hnext => ?_⟩
      cases ha.symm.trans hnext
      exact (ih hj hm (hA.2 middle ha) hrest).mp (h.2 middle ha)
    · intro h
      have hm : P middle := hiff.mpr h.1
      refine ⟨hp, fun next hnext => ?_⟩
      cases ha.symm.trans hnext
      exact (ih hj hm (hA.2 middle ha) hrest).mpr (h.2 middle ha)

/-- When an invariant, kept by every step from a state with the property, makes
one step keep the property exactly if the step meets the guard, the property
holds throughout a run exactly if every step of the run meets the guard. -/
theorem throughout_iff_eachStep {step : σ → α → Option σ} {J P : σ → Prop}
    {G : σ → α → Prop}
    (hJ : ∀ s a s', J s → P s → step s a = some s' → J s')
    (hP : ∀ s a s', J s → P s → step s a = some s' → (P s' ↔ G s a))
    {s s' : σ} {as : List α} (hs : J s) (hp : P s) (hr : run step s as = some s') :
    Throughout step P s as ↔ EachStep step G s as :=
  throughout_iff_eachStep_within (fun s a s' hs hp _ => hJ s a s' hs hp)
    (fun s a s' hs hp _ => hP s a s' hs hp) hs hp (eachStep_of_forall (fun _ _ => trivial) s as) hr

end AuraWellness.Lib.Transition
