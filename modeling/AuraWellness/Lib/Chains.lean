import Mathlib.Data.List.Nodup

/-!
# Following a partial step to its end

A partial step on states is followed until no further step is defined. A chain
that ends never passes through a state twice, since the second visit would go
on like the first. A variant shows that a chain ends, and an invariant under
which every state has a next one shows that it never does. A while loop is the
case whose step is the body under the guard.
-/

namespace AuraWellness.Lib.Chains

variable {σ : Type*}

/-- Following the step from a state passes through these states, the first
included, and stops in the last one. -/
inductive Follows (next : σ → Option σ) : σ → List σ → σ → Prop
  /-- There is no next state. -/
  | stop {s : σ} (h : next s = none) : Follows next s [s] s
  /-- The chain goes on from the next state. -/
  | go {s m e : σ} {path : List σ} (h : next s = some m) (rest : Follows next m path e) :
      Follows next s (s :: path) e

/-- Following the step comes to an end. -/
def Ends (next : σ → Option σ) (s : σ) : Prop := ∃ path e, Follows next s path e

theorem Follows.next_last {next : σ → Option σ} {s e : σ} {path : List σ}
    (h : Follows next s path e) : next e = none := by
  induction h with
  | stop h => exact h
  | go _ _ ih => exact ih

/-- The step determines the chain. -/
theorem Follows.unique {next : σ → Option σ} {s e e' : σ} {path path' : List σ}
    (h : Follows next s path e) (h' : Follows next s path' e') : path = path' ∧ e = e' := by
  induction h generalizing path' with
  | stop hs =>
    cases h' with
    | stop _ => exact ⟨rfl, rfl⟩
    | go hs' _ =>
      rw [hs] at hs'
      cases hs'
  | go hs _ ih =>
    cases h' with
    | stop hs' =>
      rw [hs] at hs'
      cases hs'
    | go hs' rest' =>
      cases hs.symm.trans hs'
      obtain ⟨hpath, he⟩ := ih rest'
      exact ⟨by rw [hpath], he⟩

/-- From a state on the way the chain goes on as it did. -/
theorem Follows.from_mem {next : σ → Option σ} {s t e : σ} {path : List σ}
    (h : Follows next s path e) (ht : t ∈ path) :
    ∃ rest, rest <:+ path ∧ Follows next t rest e := by
  induction h with
  | stop hs =>
    cases List.mem_singleton.mp ht
    exact ⟨_, List.suffix_refl _, .stop hs⟩
  | go hs rest ih =>
    obtain rfl | ht := List.mem_cons.mp ht
    · exact ⟨_, List.suffix_refl _, .go hs rest⟩
    · obtain ⟨tail, htail, hfollows⟩ := ih ht
      exact ⟨tail, htail.trans (List.suffix_cons _ _), hfollows⟩

/-- A chain that ends visits no state twice. -/
theorem Follows.nodup {next : σ → Option σ} {s e : σ} {path : List σ}
    (h : Follows next s path e) : path.Nodup := by
  induction h with
  | stop _ => exact List.nodup_singleton _
  | @go s m e path hs rest ih =>
    refine List.nodup_cons.mpr ⟨fun hmem => ?_, ih⟩
    -- a second visit would be followed by all that follows the first one
    obtain ⟨tail, htail, hagain⟩ := rest.from_mem hmem
    have heq : tail = s :: path := (hagain.unique (.go hs rest)).1
    have hlen := htail.length_le
    rw [heq, List.length_cons] at hlen
    omega

/-- What every step keeps holds in the last state. -/
theorem Follows.invariant {next : σ → Option σ} {I : σ → Prop}
    (hstep : ∀ s m, I s → next s = some m → I m) {s e : σ} {path : List σ}
    (h : Follows next s path e) (hs : I s) : I e := by
  induction h with
  | stop _ => exact hs
  | go hnext _ ih => exact ih (hstep _ _ hs hnext)

/-- A variant that every step lowers brings the chain to an end. -/
theorem ends_of_variant {next : σ → Option σ} {I : σ → Prop} (variant : σ → ℕ)
    (hstep : ∀ s m, I s → next s = some m → I m ∧ variant m < variant s) {s : σ} (hs : I s) :
    Ends next s := by
  induction hn : variant s using Nat.strongRecOn generalizing s with
  | ind n ih =>
    cases hnext : next s with
    | none => exact ⟨[s], s, .stop hnext⟩
    | some m =>
      obtain ⟨hm, hlt⟩ := hstep s m hs hnext
      obtain ⟨path, e, hfollows⟩ := ih (variant m) (hn ▸ hlt) hm rfl
      exact ⟨s :: path, e, .go hnext hfollows⟩

/-- Where every state of an invariant has a next one in it, the chain never ends. -/
theorem not_ends_of_invariant {next : σ → Option σ} {I : σ → Prop}
    (hstep : ∀ s, I s → ∃ m, next s = some m ∧ I m) {s : σ} (hs : I s) : ¬Ends next s := by
  rintro ⟨path, e, h⟩
  have hkeep : ∀ s m, I s → next s = some m → I m := fun s m hs hnext => by
    obtain ⟨m', hnext', hm'⟩ := hstep s hs
    cases hnext.symm.trans hnext'
    exact hm'
  obtain ⟨m, hnext, -⟩ := hstep e (h.invariant hkeep hs)
  rw [h.next_last] at hnext
  cases hnext

/-- The next round of a while loop. The body is undefined where it panics. -/
def whileStep (guard : σ → Bool) (body : σ → Option σ) (s : σ) : Option σ :=
  if guard s then body s else none

/-- A while loop ends with its guard false when, under the invariant and the guard,
the body is defined, keeps the invariant and lowers the variant. -/
theorem while_ends {guard : σ → Bool} {body : σ → Option σ} {I : σ → Prop} (variant : σ → ℕ)
    (hround : ∀ s, I s → guard s = true → ∃ m, body s = some m ∧ I m ∧ variant m < variant s)
    {s : σ} (hs : I s) :
    ∃ path e, Follows (whileStep guard body) s path e ∧ guard e = false ∧ I e := by
  have hstep : ∀ s m, I s → whileStep guard body s = some m → I m ∧ variant m < variant s := by
    intro s m hs hnext
    unfold whileStep at hnext
    split at hnext
    · next hguard =>
      obtain ⟨m', hbody, hm'⟩ := hround s hs hguard
      cases hnext.symm.trans hbody
      exact hm'
    · cases hnext
  obtain ⟨path, e, h⟩ := ends_of_variant variant hstep hs
  have he : I e := h.invariant (fun s m hs hnext => (hstep s m hs hnext).1) hs
  refine ⟨path, e, h, ?_, he⟩
  cases hguard : guard e with
  | false => rfl
  | true =>
    obtain ⟨m, hbody, -⟩ := hround e he hguard
    have hlast := h.next_last
    rw [whileStep, if_pos hguard, hbody] at hlast
    cases hlast

end AuraWellness.Lib.Chains
