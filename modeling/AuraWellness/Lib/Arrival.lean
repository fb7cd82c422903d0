import Mathlib.Data.List.Induction
import Mathlib.Data.List.Nodup
import Mathlib.Order.Lattice

/-!
# Lists that take in snapshots and single items

A list that shows items takes in snapshots, which replace it, and single items, which
are appended unless one with their key is there. What it shows in the end is what has
come since the last snapshot, each item at the place where it came first.
-/

namespace AuraWellness.Lib.Arrival

variable {α κ : Type*} [DecidableEq κ] {key : α → κ}

/-- Append an item, unless one with its key is there. -/
def addNew (key : α → κ) (items : List α) (item : α) : List α :=
  if items.any fun i => key i = key item then items else items ++ [item]

/-- What a list takes in. -/
inductive Intake (α : Type*)
  | snapshot (items : List α)
  | event (item : α)

/-- The items of an intake. -/
def Intake.items : Intake α → List α
  | .snapshot items => items
  | .event item => [item]

/-- Take a snapshot or an item in. -/
def takeIn (key : α → κ) (items : List α) : Intake α → List α
  | .snapshot snapshot => snapshot
  | .event item => addNew key items item

/-- What is shown after everything has been taken in. -/
def shown (key : α → κ) (history : List (Intake α)) : List α := history.foldl (takeIn key) []

/-- The last snapshot and everything after it. -/
def latest (history : List (Intake α)) : List α :=
  history.foldl (fun items intake => match intake with
    | .snapshot snapshot => snapshot
    | .event item => items ++ [item]) []

/-- A list without the items whose key has come before. -/
def firsts (key : α → κ) (items : List α) : List α := items.foldl (addNew key) []

/-- One item comes before the other comes first. -/
def Precedes (items : List α) (x y : α) : Prop :=
  ∃ before after, items = before ++ x :: after ∧ y ∉ before ∧ y ≠ x ∧ y ∈ after

/-- Items with one key are one item. -/
def Identified (key : α → κ) (items : List α) : Prop :=
  ∀ x ∈ items, ∀ y ∈ items, key x = key y → x = y

/-- Every snapshot has each key once. -/
def SnapshotsDistinct (key : α → κ) (history : List (Intake α)) : Prop :=
  ∀ items, .snapshot items ∈ history → (items.map key).Nodup

@[simp] theorem shown_snapshot (history : List (Intake α)) (items : List α) :
    shown key (history ++ [.snapshot items]) = items := by
  simp [shown, takeIn]

@[simp] theorem shown_event (history : List (Intake α)) (item : α) :
    shown key (history ++ [.event item]) = addNew key (shown key history) item := by
  simp [shown, takeIn]

@[simp] theorem latest_snapshot (history : List (Intake α)) (items : List α) :
    latest (history ++ [.snapshot items]) = items := by
  simp [latest]

@[simp] theorem latest_event (history : List (Intake α)) (item : α) :
    latest (history ++ [.event item]) = latest history ++ [item] := by
  simp [latest]

@[simp] theorem firsts_append (items : List α) (item : α) :
    firsts key (items ++ [item]) = addNew key (firsts key items) item := by
  simp [firsts]

/-- An item is appended, or one with its key is there. -/
theorem addNew_cases (key : α → κ) (items : List α) (item : α) :
    ((∃ i ∈ items, key i = key item) ∧ addNew key items item = items) ∨
      (¬∃ i ∈ items, key i = key item) ∧ addNew key items item = items ++ [item] := by
  unfold addNew
  split
  · rename_i h
    exact .inl ⟨by simpa using h, rfl⟩
  · rename_i h
    exact .inr ⟨by simpa using h, rfl⟩

/-- Appending takes nothing out. -/
theorem mem_addNew_of_mem {items : List α} {x : α} (h : x ∈ items) (item : α) :
    x ∈ addNew key items item := by
  obtain ⟨-, hsame⟩ | ⟨-, happend⟩ := addNew_cases key items item
  · rwa [hsame]
  · rw [happend]
    exact List.mem_append_left _ h

/-- Appending adds at most the item. -/
theorem mem_of_mem_addNew {items : List α} {x item : α} (h : x ∈ addNew key items item) :
    x ∈ items ∨ x = item := by
  obtain ⟨-, hsame⟩ | ⟨-, happend⟩ := addNew_cases key items item
  · exact .inl (hsame ▸ h)
  · rw [happend] at h
    simpa using h

/-- Appending adds no key twice. -/
theorem nodup_addNew {items : List α} (h : (items.map key).Nodup) (item : α) :
    ((addNew key items item).map key).Nodup := by
  obtain ⟨-, hsame⟩ | ⟨hnone, happend⟩ := addNew_cases key items item
  · rwa [hsame]
  · rw [happend, List.map_append, List.map_singleton]
    refine List.Nodup.append h (List.nodup_singleton _) fun k hk hitem => hnone ?_
    obtain ⟨i, hi, rfl⟩ := List.mem_map.mp hk
    exact ⟨i, hi, List.mem_singleton.mp hitem⟩

/-- Snapshots with each key once, and items, leave each key once. -/
theorem nodup_takeIn {items : List α} (h : (items.map key).Nodup) {intake : Intake α}
    (hsnapshot : ∀ snapshot, intake = .snapshot snapshot → (snapshot.map key).Nodup) :
    ((takeIn key items intake).map key).Nodup := by
  cases intake with
  | snapshot snapshot => exact hsnapshot snapshot rfl
  | event item => exact nodup_addNew h item

/-- What is there afterwards was there or has been taken in. -/
theorem mem_of_mem_takeIn {items : List α} {intake : Intake α} {x : α}
    (h : x ∈ takeIn key items intake) : x ∈ items ∨ x ∈ intake.items := by
  cases intake with
  | snapshot snapshot => exact .inr h
  | event item => exact (mem_of_mem_addNew h).imp_right List.mem_singleton.mpr

/-- Each key is there once. -/
theorem nodup_firsts (items : List α) : ((firsts key items).map key).Nodup := by
  induction items using List.reverseRecOn with
  | nil => exact List.nodup_nil
  | append_singleton items item ih =>
    rw [firsts_append]
    exact nodup_addNew ih item

/-- A list with each key once is as it is. -/
theorem firsts_eq_self {items : List α} (h : (items.map key).Nodup) : firsts key items = items := by
  induction items using List.reverseRecOn with
  | nil => rfl
  | append_singleton items item ih =>
    rw [List.map_append, List.nodup_append] at h
    obtain ⟨hitems, -, hnew⟩ := h
    rw [firsts_append, ih hitems]
    obtain ⟨⟨i, hi, hkey⟩, -⟩ | ⟨-, happend⟩ := addNew_cases key items item
    · exact absurd hkey (hnew _ (List.mem_map_of_mem hi) _ (by simp))
    · exact happend

/-- What is shown is what has come since the last snapshot, each key once. -/
theorem shown_eq_firsts {history : List (Intake α)} (h : SnapshotsDistinct key history) :
    shown key history = firsts key (latest history) := by
  induction history using List.reverseRecOn with
  | nil => rfl
  | append_singleton history intake ih =>
    cases intake with
    | snapshot items =>
      rw [shown_snapshot, latest_snapshot, firsts_eq_self (h items (by simp))]
    | event item =>
      rw [shown_event, latest_event, firsts_append, ih fun items hitems =>
        h items (List.mem_append_left _ hitems)]

/-- Every item since the last snapshot has been taken in. -/
theorem mem_latest {history : List (Intake α)} {x : α} (h : x ∈ latest history) :
    ∃ intake ∈ history, x ∈ intake.items := by
  induction history using List.reverseRecOn with
  | nil => cases h
  | append_singleton history intake ih =>
    cases intake with
    | snapshot items =>
      rw [latest_snapshot] at h
      exact ⟨.snapshot items, by simp, h⟩
    | event item =>
      rw [latest_event, List.mem_append, List.mem_singleton] at h
      obtain hold | rfl := h
      · obtain ⟨intake, hintake, hx⟩ := ih hold
        exact ⟨intake, List.mem_append_left _ hintake, hx⟩
      · exact ⟨.event x, by simp, List.mem_singleton_self x⟩

/-- Nothing is shown that has not come. -/
theorem mem_of_mem_firsts {items : List α} {x : α} (h : x ∈ firsts key items) : x ∈ items := by
  induction items using List.reverseRecOn with
  | nil => cases h
  | append_singleton items item ih =>
    rw [firsts_append] at h
    obtain hold | rfl := mem_of_mem_addNew h
    · exact List.mem_append_left _ (ih hold)
    · exact List.mem_append_right _ (List.mem_singleton_self x)

/-- Every key that has come is there. -/
theorem exists_mem_firsts (key : α → κ) {items : List α} {x : α} (h : x ∈ items) :
    ∃ y ∈ firsts key items, key y = key x := by
  induction items using List.reverseRecOn with
  | nil => cases h
  | append_singleton items item ih =>
    rw [firsts_append]
    obtain hold | hitem := List.mem_append.mp h
    · obtain ⟨y, hy, hkey⟩ := ih hold
      exact ⟨y, mem_addNew_of_mem hy item, hkey⟩
    · obtain rfl := List.mem_singleton.mp hitem
      obtain ⟨⟨y, hy, hkey⟩, -⟩ | ⟨-, happend⟩ := addNew_cases key (firsts key items) x
      · exact ⟨y, mem_addNew_of_mem hy x, hkey⟩
      · exact ⟨x, by simp [happend], rfl⟩

/-- Exactly what has come is there. -/
theorem mem_firsts {items : List α} (hid : Identified key items) {x : α} :
    x ∈ firsts key items ↔ x ∈ items := by
  refine ⟨mem_of_mem_firsts, fun hx => ?_⟩
  obtain ⟨y, hy, hkey⟩ := exists_mem_firsts key hx
  obtain rfl := hid y (mem_of_mem_firsts hy) x hx hkey
  exact hy

/-- Both items have come. -/
theorem Precedes.mem {items : List α} {x y : α} (h : Precedes items x y) :
    x ∈ items ∧ y ∈ items := by
  obtain ⟨before, after, rfl, -, -, hy⟩ := h
  exact ⟨by simp, by simp [hy]⟩

/-- One more item comes after all others, if it is new. -/
theorem precedes_append {items : List α} {x y item : α} :
    Precedes (items ++ [item]) x y ↔ Precedes items x y ∨ x ∈ items ∧ y = item ∧ item ∉ items := by
  constructor
  · rintro ⟨before, after, heq, hbefore, hne, hafter⟩
    obtain rfl | ⟨after, last, rfl⟩ := after.eq_nil_or_concat'
    · cases hafter
    · have hsplit : items ++ [item] = (before ++ x :: after) ++ [last] := by simpa using heq
      obtain ⟨rfl, hlast⟩ := List.append_inj' hsplit rfl
      obtain rfl := List.singleton_injective hlast
      by_cases hy : y ∈ after
      · exact .inl ⟨before, after, rfl, hbefore, hne, hy⟩
      · have hitem : y = item := by simpa [hy] using hafter
        subst hitem
        exact .inr ⟨by simp, rfl, by simp [hbefore, hne, hy]⟩
  · rintro (⟨before, after, rfl, hbefore, hne, hafter⟩ | ⟨hx, rfl, hnew⟩)
    · exact ⟨before, after ++ [item], by simp, hbefore, hne, List.mem_append_left _ hafter⟩
    · obtain ⟨before, after, rfl⟩ := List.append_of_mem hx
      have hnot : y ∉ before ∧ y ≠ x ∧ y ∉ after := by simpa using hnew
      exact ⟨before, after ++ [y], by simp, hnot.1, hnot.2.1, by simp⟩

/-- Of two items one comes first. -/
theorem Precedes.asymm {items : List α} {x y : α} (h : Precedes items x y) :
    ¬Precedes items y x := by
  induction items using List.reverseRecOn with
  | nil =>
    exact absurd h.mem.1 List.not_mem_nil
  | append_singleton items item ih =>
    rw [precedes_append] at h ⊢
    rintro (hback | ⟨hy, rfl, hnew⟩)
    · obtain hforth | ⟨-, rfl, hnew⟩ := h
      · exact ih hforth hback
      · exact hnew hback.mem.1
    · obtain hforth | ⟨hx, -, -⟩ := h
      · exact hnew hforth.mem.1
      · exact hnew hx

/-- The items are in the order in which they first came. -/
theorem pairwise_firsts {items : List α} (hid : Identified key items) :
    (firsts key items).Pairwise (Precedes items) := by
  induction items using List.reverseRecOn with
  | nil => exact List.Pairwise.nil
  | append_singleton items item ih =>
    have hids : Identified key items := fun x hx y hy =>
      hid x (List.mem_append_left _ hx) y (List.mem_append_left _ hy)
    have hold : (firsts key items).Pairwise (Precedes (items ++ [item])) :=
      (ih hids).imp fun h => precedes_append.mpr (.inl h)
    rw [firsts_append]
    obtain ⟨-, hsame⟩ | ⟨hnone, happend⟩ := addNew_cases key (firsts key items) item
    · rwa [hsame]
    · rw [happend]
      refine List.pairwise_append.mpr ⟨hold, List.pairwise_singleton _ _, fun x hx y hy => ?_⟩
      obtain rfl := List.mem_singleton.mp hy
      refine precedes_append.mpr (.inr ⟨mem_of_mem_firsts hx, rfl, fun hitem => hnone ?_⟩)
      exact ⟨y, (mem_firsts hids).mpr hitem, rfl⟩

/-- A relation holds along the shown items exactly if it holds in the order in which items
first came. -/
theorem pairwise_firsts_iff {items : List α} (hid : Identified key items) {R : α → α → Prop} :
    (firsts key items).Pairwise R ↔ ∀ x y, Precedes items x y → R x y := by
  refine ⟨fun h x y hxy => ?_, fun h => (pairwise_firsts hid).imp fun hxy => h _ _ hxy⟩
  have hne : x ≠ y := by
    rintro rfl
    exact hxy.asymm hxy
  -- of the two items one stands first, and it is the one that came first
  have hboth : ∀ {a b : α}, [a, b].Sublist (firsts key items) → R a b ∧ Precedes items a b :=
    List.pairwise_iff_forall_sublist.mp (h.and (pairwise_firsts hid))
  obtain ⟨before, after, heq⟩ := List.append_of_mem ((mem_firsts hid).mpr hxy.mem.1)
  have hy := (mem_firsts hid).mpr hxy.mem.2
  rw [heq] at hy hboth
  obtain hy | hy := List.mem_append.mp hy
  · obtain ⟨b₁, b₂, rfl⟩ := List.append_of_mem hy
    refine absurd (hboth (a := y) (b := x) ?_).2 hxy.asymm
    simp
  · have hy : y ∈ after := by simpa [hne.symm] using hy
    refine (hboth ?_).1
    exact (List.Sublist.cons_cons x (List.singleton_sublist.mpr hy)).trans
      (List.sublist_append_right _ _)

/-- The same items show up, whatever the order in which they have come. -/
theorem firsts_perm {items items' : List α} (hid : Identified key items)
    (hid' : Identified key items') (h : ∀ x, x ∈ items ↔ x ∈ items') :
    (firsts key items).Perm (firsts key items') := by
  refine (List.perm_ext_iff_of_nodup (List.Nodup.of_map key (nodup_firsts items))
    (List.Nodup.of_map key (nodup_firsts items'))).mpr fun x => ?_
  rw [mem_firsts hid, mem_firsts hid', h]

/-- Two lists show the same exactly if the same items have come to them, first in the same
order. -/
theorem firsts_eq_iff {items items' : List α} (hid : Identified key items)
    (hid' : Identified key items') : firsts key items = firsts key items' ↔
      (∀ x, x ∈ items ↔ x ∈ items') ∧ ∀ x y, Precedes items x y ↔ Precedes items' x y := by
  constructor
  · intro h
    have hmem : ∀ x, x ∈ items ↔ x ∈ items' := fun x => by
      rw [← mem_firsts hid, h, mem_firsts hid']
    have hforth := (pairwise_firsts_iff hid).mp (h ▸ pairwise_firsts hid')
    have hback := (pairwise_firsts_iff hid').mp (h ▸ pairwise_firsts hid)
    exact ⟨hmem, fun x y => ⟨hforth x y, hback x y⟩⟩
  · rintro ⟨hmem, horder⟩
    have horder' : (firsts key items').Pairwise (Precedes items) :=
      (pairwise_firsts hid').imp fun h => (horder _ _).mpr h
    exact List.Perm.eq_of_pairwise (fun x y _ _ hxy hyx => absurd hyx hxy.asymm)
      (pairwise_firsts hid) horder' (firsts_perm hid hid' hmem)

section Rank

variable {μ : Type*} [LinearOrder μ] (rank : α → μ)

/-- A new item comes after one of a higher rank, and no snapshot follows. -/
def Late (history : List (Intake α)) : Prop :=
  ∃ before item after, history = before ++ .event item :: after ∧
    (∀ items, .snapshot items ∉ after) ∧ item ∉ latest before ∧
      ∃ v ∈ latest before, rank item < rank v

/-- Every snapshot is in the order of the ranks. -/
def SnapshotsOrdered (history : List (Intake α)) : Prop :=
  ∀ items, .snapshot items ∈ history → items.Pairwise fun x y => rank x ≤ rank y

variable {rank}

/-- No item comes late before a snapshot. -/
theorem not_late_snapshot (history : List (Intake α)) (items : List α) :
    ¬Late rank (history ++ [.snapshot items]) := by
  rintro ⟨before, item, after, heq, hnone, -⟩
  obtain rfl | ⟨after, last, rfl⟩ := after.eq_nil_or_concat'
  · have hlast := (List.append_inj' heq rfl).2
    simp at hlast
  · have hsplit : history ++ [.snapshot items] = (before ++ .event item :: after) ++ [last] := by
      simpa using heq
    have hlast := List.singleton_injective (List.append_inj' hsplit rfl).2
    exact hnone items (by simp [hlast])

/-- One more item is late, or another one was. -/
theorem late_event {history : List (Intake α)} {item : α} :
    Late rank (history ++ [.event item]) ↔ Late rank history ∨
      item ∉ latest history ∧ ∃ v ∈ latest history, rank item < rank v := by
  constructor
  · rintro ⟨before, late, after, heq, hnone, hnew, hv⟩
    obtain rfl | ⟨after, last, rfl⟩ := after.eq_nil_or_concat'
    · obtain ⟨rfl, hlast⟩ := List.append_inj' heq rfl
      cases hlast
      exact .inr ⟨hnew, hv⟩
    · have hsplit : history ++ [.event item] = (before ++ .event late :: after) ++ [last] := by
        simpa using heq
      obtain ⟨rfl, -⟩ := List.append_inj' hsplit rfl
      exact .inl ⟨before, late, after, rfl, fun items h =>
        hnone items (List.mem_append_left _ h), hnew, hv⟩
  · rintro (⟨before, late, after, rfl, hnone, hnew, hv⟩ | ⟨hnew, hv⟩)
    · refine ⟨before, late, after ++ [.event item], by simp, fun items h => ?_, hnew, hv⟩
      exact hnone items (by simpa using h)
    · exact ⟨history, item, [], rfl, fun items => List.not_mem_nil, hnew, hv⟩

/-- Items first come in the order of their ranks exactly if none comes late. -/
theorem precedes_le_iff {history : List (Intake α)} (h : SnapshotsOrdered rank history) :
    (∀ x y, Precedes (latest history) x y → rank x ≤ rank y) ↔ ¬Late rank history := by
  induction history using List.reverseRecOn with
  | nil =>
    refine iff_of_true (fun x y hxy => ?_) ?_
    · cases hxy.mem.1
    · rintro ⟨before, item, after, heq, -⟩
      simp at heq
  | append_singleton history intake ih =>
    have hih := ih fun items hitems => h items (List.mem_append_left _ hitems)
    cases intake with
    | snapshot items =>
      refine iff_of_true (fun x y hxy => ?_) (not_late_snapshot history items)
      rw [latest_snapshot] at hxy
      obtain ⟨before, after, rfl, -, -, hy⟩ := hxy
      have hsorted := h _ (List.mem_append_right _ (List.mem_singleton_self _))
      exact (List.pairwise_cons.mp (List.pairwise_append.mp hsorted).2.1).1 y hy
    | event item =>
      rw [latest_event, late_event, not_or, ← hih]
      constructor
      · refine fun hle => ⟨fun x y hxy => hle x y (precedes_append.mpr (.inl hxy)), ?_⟩
        rintro ⟨hnew, v, hv, hlt⟩
        exact absurd (hle v item (precedes_append.mpr (.inr ⟨hv, rfl, hnew⟩))) (not_le.mpr hlt)
      · rintro ⟨hle, hlate⟩ x y hxy
        obtain hold | ⟨hx, rfl, hnew⟩ := precedes_append.mp hxy
        · exact hle x y hold
        · exact not_lt.mp fun hlt => hlate ⟨hnew, x, hx, hlt⟩

end Rank

end AuraWellness.Lib.Arrival
