import Mathlib.Data.List.Basic

/-!
# Chains of stages that hand values on

Values enter a chain at its far end, each stage hands what it holds to the next one in
order, and the first stage lets them out. A stage may stop at any time; what it holds
and what is behind it is lost then, and what has come out never changes. So the chain
behaves as one queue: what is out is a beginning of what has entered, and while no stage
has stopped, what is out and what is held make up all of it.
-/

namespace AuraWellness.Lib.Conduit

variable {α : Type*}

/-- A stage of a chain. -/
structure Stage (α : Type*) where
  /-- The stage hands values on. -/
  alive : Bool
  /-- The values in it, the oldest first. -/
  held : List α

/-- What the values that are out say about those that have entered: they are a beginning
of these, and a first stage that has not stopped continues them. -/
def Sound : List (Stage α) → List α → List α → Prop
  | [], out, entered => out = entered
  | stage :: rest, out, entered =>
    out <+: entered ∧ (stage.alive = true → Sound rest (out ++ stage.held) entered)

/-- What is out is a beginning of what has entered. -/
theorem Sound.isPrefix {stages : List (Stage α)} {out entered : List α}
    (h : Sound stages out entered) : out <+: entered := by
  cases stages with
  | nil =>
    cases h
    exact List.prefix_rfl
  | cons stage rest => exact h.1

/-- While no stage has stopped, every value that has entered is out or held. -/
theorem Sound.conserved {stages : List (Stage α)} {out entered : List α}
    (h : Sound stages out entered) (halive : ∀ stage ∈ stages, stage.alive = true) :
    out ++ stages.flatMap Stage.held = entered := by
  induction stages generalizing out with
  | nil =>
    rw [List.flatMap_nil, List.append_nil]
    exact h
  | cons stage rest ih =>
    obtain ⟨hstage, hrest⟩ := List.forall_mem_cons.mp halive
    rw [List.flatMap_cons, ← List.append_assoc]
    exact ih (h.2 hstage) hrest

/-- An empty chain has let out all that has entered. -/
theorem sound_empty {stages : List (Stage α)} (h : ∀ stage ∈ stages, stage.held = []) :
    Sound stages [] [] := by
  induction stages with
  | nil => rfl
  | cons stage rest ih =>
    obtain ⟨hstage, hrest⟩ := List.forall_mem_cons.mp h
    refine ⟨List.prefix_rfl, fun _ => ?_⟩
    rw [hstage]
    exact ih hrest

/-- What happens behind a stage: values may enter there. -/
theorem Sound.behind {stage : Stage α} {rest rest' : List (Stage α)} {out entered entered' : List α}
    (h : Sound (stage :: rest) out entered) (hgrows : entered <+: entered')
    (hrest : ∀ out, Sound rest out entered → Sound rest' out entered') :
    Sound (stage :: rest') out entered' :=
  ⟨h.1.trans hgrows, fun halive => hrest _ (h.2 halive)⟩

/-- A value enters the last stage. -/
theorem Sound.enter {stage : Stage α} {out entered : List α} (h : Sound [stage] out entered)
    (x : α) : Sound [{ stage with held := stage.held ++ [x] }] out (entered ++ [x]) := by
  refine ⟨h.1.trans (List.prefix_append entered [x]), fun halive => ?_⟩
  have hall : out ++ stage.held = entered := h.2 halive
  change out ++ (stage.held ++ [x]) = entered ++ [x]
  rw [← List.append_assoc, hall]

/-- The first value of a stage passes to the stage before it. -/
theorem Sound.pass {alive : Bool} {before held : List α} {x : α} {rest : List (Stage α)}
    {out entered : List α} (h : Sound (⟨alive, before⟩ :: ⟨true, x :: held⟩ :: rest) out entered) :
    Sound (⟨alive, before ++ [x]⟩ :: ⟨true, held⟩ :: rest) out entered := by
  refine ⟨h.1, fun halive => ?_⟩
  have hrest := (h.2 halive).2 rfl
  have hmoved : out ++ (before ++ [x]) ++ held = out ++ before ++ x :: held := by simp
  refine ⟨?_, fun _ => hmoved ▸ hrest⟩
  exact (List.prefix_append _ held).trans (hmoved ▸ hrest.isPrefix)

/-- The first value of the first stage comes out. -/
theorem Sound.exit {held : List α} {x : α} {rest : List (Stage α)} {out entered : List α}
    (h : Sound (⟨true, x :: held⟩ :: rest) out entered) :
    Sound (⟨true, held⟩ :: rest) (out ++ [x]) entered := by
  have hrest := h.2 rfl
  have hmoved : out ++ [x] ++ held = out ++ x :: held := by simp
  refine ⟨?_, fun _ => hmoved ▸ hrest⟩
  exact (List.prefix_append _ held).trans (hmoved ▸ hrest.isPrefix)

/-- A stage stops. -/
theorem Sound.stop {stage stage' : Stage α} {rest : List (Stage α)} {out entered : List α}
    (h : Sound (stage :: rest) out entered) (hstops : stage'.alive = false) :
    Sound (stage' :: rest) out entered :=
  ⟨h.1, fun halive => absurd halive (by rw [hstops]; exact Bool.false_ne_true)⟩

end AuraWellness.Lib.Conduit
