import AuraWellness.Lib.Calls

/-!
# Keys that the threads of a pool are about to store

A thread that has checked that a key is not stored yet holds the key until its
next call stores it. When held keys are not stored and no two threads hold the
same key, the stored keys stay distinct. A turn keeps this exactly when the key
that its thread comes to hold is held by no other thread.
-/

namespace AuraWellness.Lib.Reservation

open AuraWellness.Lib.Calls

variable {S : Signature} {σ ε α ρ κ : Type}

/-- The stored keys are distinct, and a thread that holds a key holds it alone,
while the key is not stored. -/
structure Reserved (holds : Thread S ε α ρ → Option κ) (stored : σ → List κ)
    (p : Pool S σ ε α ρ) : Prop where
  unique : (stored p.state).Nodup
  free : ∀ (i : ℕ) th k, p.threads[i]? = some th → holds th = some k → k ∉ stored p.state
  alone : ∀ (i j : ℕ) th th' k, p.threads[i]? = some th → p.threads[j]? = some th' →
    holds th = some k → holds th' = some k → i = j

/-- No thread but the one at this position holds the key. -/
def NobodyElse (holds : Thread S ε α ρ → Option κ) (p : Pool S σ ε α ρ) (i : ℕ) (k : κ) : Prop :=
  ∀ (j : ℕ) th, j ≠ i → p.threads[j]? = some th → holds th ≠ some k

variable {holds : Thread S ε α ρ → Option κ} {stored : σ → List κ} {p : Pool S σ ε α ρ}

/-- Threads that hold nothing reserve nothing. -/
theorem reserved_of_idle (hunique : (stored p.state).Nodup)
    (hidle : ∀ th ∈ p.threads, holds th = none) : Reserved holds stored p := by
  have nothing : ∀ {i : ℕ} {th k}, p.threads[i]? = some th → holds th ≠ some k := by
    intro i th k hi hk
    cases (hidle th (List.mem_of_getElem? hi)).symm.trans hk
  exact ⟨hunique, fun i th k hi hk => absurd hk (nothing hi),
    fun i j th th' k hi _ hk => absurd hk (nothing hi)⟩

/-- A thread that starts holds nothing. -/
theorem reserved_start_iff {th : Thread S ε α ρ} (hth : holds th = none) :
    Reserved holds stored ⟨p.state, p.threads ++ [th]⟩ ↔ Reserved holds stored p := by
  have before : ∀ {i : ℕ} {th' k}, (p.threads ++ [th])[i]? = some th' → holds th' = some k →
      p.threads[i]? = some th' := by
    intro i th' k hi hk
    obtain ⟨-, rfl⟩ | hi := getElem?_concat_cases hi
    · cases hth.symm.trans hk
    · exact hi
  have later : ∀ {i : ℕ} {th'}, p.threads[i]? = some th' → (p.threads ++ [th])[i]? = some th' := by
    intro i th' hi
    obtain ⟨hlt, -⟩ := List.getElem?_eq_some_iff.mp hi
    exact (List.getElem?_append_left hlt).trans hi
  constructor
  · intro h
    exact ⟨h.unique, fun i th' k hi => h.free i th' k (later hi),
      fun i j th₁ th₂ k hi hj => h.alone i j th₁ th₂ k (later hi) (later hj)⟩
  · intro h
    exact ⟨h.unique, fun i th' k hi hk => h.free i th' k (before hi hk) hk,
      fun i j th₁ th₂ k hi hj h₁ h₂ => h.alone i j th₁ th₂ k (before hi h₁) (before hj h₂) h₁ h₂⟩

variable {s' : σ} {new : List κ} {i : ℕ} {th th' : Thread S ε α ρ}

/-- When a turn stores only keys that are new and that no other thread holds, and
its thread comes to hold only a key that is not stored, the keys stay reserved
exactly if no other thread holds that key. -/
theorem Reserved.turn_iff (h : Reserved holds stored p) (hi : p.threads[i]? = some th)
    (hstored : stored s' = stored p.state ++ new) (hdistinct : new.Nodup)
    (hnew : ∀ k ∈ new, k ∉ stored p.state ∧ NobodyElse holds p i k)
    (hheld : ∀ k, holds th' = some k → k ∉ stored s') :
    Reserved holds stored ⟨s', p.threads.set i th'⟩ ↔
      ∀ k, holds th' = some k → NobodyElse holds p i k := by
  have hlt : i < p.threads.length := (List.getElem?_eq_some_iff.mp hi).1
  constructor
  · intro h' k hk j th'' hne hj hk'
    exact hne (h'.alone j i th'' th' k ((List.getElem?_set_ne (Ne.symm hne)).trans hj)
      (List.getElem?_set_self hlt) hk' hk)
  · intro hothers
    refine ⟨?_, fun j th'' k hj hk => ?_, fun j j' th₁ th₂ k hj hj' h₁ h₂ => ?_⟩
    · rw [hstored]
      refine List.nodup_append.mpr ⟨h.unique, hdistinct, ?_⟩
      rintro k hk k' hk' rfl
      exact (hnew k hk').1 hk
    · obtain ⟨-, rfl⟩ | ⟨hne, hj⟩ := getElem?_set_cases hj
      · exact hheld k hk
      · rw [hstored, List.mem_append]
        rintro (hold | hlast)
        · exact h.free j th'' k hj hk hold
        · exact (hnew k hlast).2 j th'' hne hj hk
    · obtain ⟨rfl, rfl⟩ | ⟨hne, hold⟩ := getElem?_set_cases hj
      · obtain ⟨rfl, -⟩ | ⟨hne', hold'⟩ := getElem?_set_cases hj'
        · rfl
        · exact absurd h₂ (hothers k h₁ j' th₂ hne' hold')
      · obtain ⟨rfl, rfl⟩ | ⟨-, hold'⟩ := getElem?_set_cases hj'
        · exact absurd h₁ (hothers k h₂ j th₁ hne hold)
        · exact h.alone j j' th₁ th₂ k hold hold' h₁ h₂

/-- When the thread of a turn stores the key that it held, keys that are reserved
after the turn were reserved before it. -/
theorem Reserved.before (h : Reserved holds stored ⟨s', p.threads.set i th'⟩)
    (hi : p.threads[i]? = some th) (hstored : stored s' = stored p.state ++ new)
    (hkept : ∀ k, holds th = some k → k ∈ new) : Reserved holds stored p := by
  have hunique : (stored p.state ++ new).Nodup := by
    rw [← hstored]
    exact h.unique
  have later : ∀ {j : ℕ} {th''}, j ≠ i → p.threads[j]? = some th'' →
      (p.threads.set i th')[j]? = some th'' :=
    fun hne hj => (List.getElem?_set_ne (Ne.symm hne)).trans hj
  -- a key that the turn has stored is not held by any other thread
  have taken : ∀ {j : ℕ} {th'' k}, p.threads[j]? = some th'' → holds th'' = some k →
      holds th = some k → j = i := by
    intro j th'' k hj hk hown
    by_contra hne
    refine h.free j th'' k (later hne hj) hk ?_
    rw [hstored]
    exact List.mem_append_right _ (hkept k hown)
  refine ⟨(List.nodup_append.mp hunique).1, fun j th'' k hj hk hmem => ?_,
    fun j j' th₁ th₂ k hj hj' h₁ h₂ => ?_⟩
  · by_cases hne : j = i
    · subst hne
      cases hi.symm.trans hj
      exact (List.nodup_append.mp hunique).2.2 k hmem k (hkept k hk) rfl
    · refine h.free j th'' k (later hne hj) hk ?_
      rw [hstored]
      exact List.mem_append_left _ hmem
  · by_cases hne : j = i
    · subst hne
      cases hi.symm.trans hj
      exact (taken hj' h₂ h₁).symm
    · by_cases hne' : j' = i
      · subst hne'
        cases hi.symm.trans hj'
        exact taken hj h₁ h₂
      · exact h.alone j j' th₁ th₂ k (later hne hj) (later hne' hj') h₁ h₂

end AuraWellness.Lib.Reservation
