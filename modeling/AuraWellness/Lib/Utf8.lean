import Mathlib.Data.List.Basic
import Mathlib.Algebra.Order.Ring.Nat
import Mathlib.Tactic.Ring.RingNF

/-!
# Reading UTF-8

A decoder reads byte after byte and keeps the start of the character that is not complete
yet. Bytes that belong to no character are replaced by U+FFFD, one for each longest start of
a character. A byte below 0x80 is a character by itself, wherever it stands, so a text can be
cut in front of it or behind it.
-/

namespace AuraWellness.Lib.Utf8

/-- The start of a character. -/
structure Pending where
  /-- The number of bytes that are owed. -/
  owed : ℕ
  /-- The next byte is at least this, -/
  low : ℕ
  /-- and at most this. -/
  high : ℕ
  /-- The bits of the character so far. -/
  bits : ℕ
  /-- Only bytes from 0x80 on continue a character. -/
  continues : 0x80 ≤ low
  /-- The character will be none below 0x80. -/
  wide : 0x80 ≤ (bits * 64 + (low - 0x80)) * 64 ^ (owed - 1)

/-- The first byte of a character: what it decodes to, or what it leaves pending. -/
def first (b : ℕ) : List Char × Option Pending :=
  if b < 0x80 then ([Char.ofNat b], none)
  else if h : 0xC2 ≤ b ∧ b ≤ 0xDF then
    ([], some ⟨1, 0x80, 0xBF, b - 0xC0, le_rfl, by simp only [Nat.sub_self, pow_zero]; omega⟩)
  else if b = 0xE0 then ([], some ⟨2, 0xA0, 0xBF, 0, by decide, by decide⟩)
  else if b = 0xED then ([], some ⟨2, 0x80, 0x9F, 0xD, le_rfl, by decide⟩)
  else if h : 0xE1 ≤ b ∧ b ≤ 0xEF then
    ([], some ⟨2, 0x80, 0xBF, b - 0xE0, le_rfl, by norm_num; omega⟩)
  else if b = 0xF0 then ([], some ⟨3, 0x90, 0xBF, 0, by decide, by decide⟩)
  else if h : 0xF1 ≤ b ∧ b ≤ 0xF3 then
    ([], some ⟨3, 0x80, 0xBF, b - 0xF0, le_rfl, by norm_num; omega⟩)
  else if b = 0xF4 then ([], some ⟨3, 0x80, 0x8F, 4, le_rfl, by decide⟩)
  else (['\uFFFD'], none)

/-- What is left pending by a byte that continues a character without completing it. -/
def Pending.next (p : Pending) (b : ℕ) (h : p.low ≤ b) (howed : ¬p.owed ≤ 1) : Pending where
  owed := p.owed - 1
  low := 0x80
  high := 0xBF
  bits := p.bits * 64 + (b - 0x80)
  continues := le_rfl
  wide := by
    have hpow : 64 ^ (p.owed - 1) = 64 * 64 ^ (p.owed - 1 - 1) := by
      rw [← pow_succ']
      congr 1
      omega
    calc 0x80 ≤ (p.bits * 64 + (p.low - 0x80)) * 64 ^ (p.owed - 1) := p.wide
      _ ≤ (p.bits * 64 + (b - 0x80)) * 64 ^ (p.owed - 1) :=
        Nat.mul_le_mul_right _ (by omega)
      _ = ((p.bits * 64 + (b - 0x80)) * 64 + (0x80 - 0x80)) * 64 ^ (p.owed - 1 - 1) := by
        rw [hpow, Nat.sub_self, Nat.add_zero, Nat.mul_assoc]

/-- The next byte, behind a complete character or behind the start of one. -/
def step : Option Pending → ℕ → List Char × Option Pending
  | none, b => first b
  | some p, b =>
    if h : p.low ≤ b ∧ b ≤ p.high then
      if howed : p.owed ≤ 1 then ([Char.ofNat (p.bits * 64 + (b - 0x80))], none)
      else ([], some (p.next b h.1 howed))
    else ('\uFFFD' :: (first b).1, (first b).2)

/-- What the start of a character is replaced by when no more of it comes. -/
def flush : Option Pending → List Char
  | none => []
  | some _ => ['\uFFFD']

/-- The characters of the bytes behind what is pending. -/
def decodeFrom : Option Pending → List UInt8 → List Char
  | s, [] => flush s
  | s, b :: bs => (step s b.toNat).1 ++ decodeFrom (step s b.toNat).2 bs

/-- The characters of the bytes. -/
def decode (bytes : List UInt8) : List Char := decodeFrom none bytes

/-- What the bytes leave pending. -/
def after : Option Pending → List UInt8 → Option Pending
  | s, [] => s
  | s, b :: bs => after (step s b.toNat).2 bs

/-- A byte below 0x80 is a character, behind whatever is pending. -/
theorem step_ascii (s : Option Pending) {b : ℕ} (h : b < 0x80) :
    step s b = (flush s ++ [Char.ofNat b], none) := by
  have hfirst : first b = ([Char.ofNat b], none) := if_pos h
  cases s with
  | none => exact hfirst
  | some p =>
    have hnot : ¬(p.low ≤ b ∧ b ≤ p.high) := by
      have hlow := p.continues
      omega
    refine (dif_neg hnot).trans ?_
    rw [hfirst]
    rfl

theorem decodeFrom_ascii (s : Option Pending) {b : UInt8} (h : b.toNat < 0x80)
    (bs : List UInt8) :
    decodeFrom s (b :: bs) = flush s ++ Char.ofNat b.toNat :: decode bs := by
  rw [decodeFrom, step_ascii s h, List.append_assoc]
  rfl

/-- A text that ends with a complete character is decoded apart from what follows. -/
theorem decodeFrom_append {s : Option Pending} {bytes : List UInt8} (h : after s bytes = none)
    (rest : List UInt8) : decodeFrom s (bytes ++ rest) = decodeFrom s bytes ++ decode rest := by
  induction bytes generalizing s with
  | nil =>
    have hs : s = none := h
    rw [hs]
    rfl
  | cons b bytes ih =>
    rw [List.cons_append, decodeFrom, decodeFrom, ih h, List.append_assoc]

/-- So is every text in front of bytes that begin below 0x80. -/
theorem decodeFrom_append_ascii (s : Option Pending) (bytes : List UInt8) {rest : List UInt8}
    (h : ∀ b ∈ rest.head?, b.toNat < 0x80) :
    decodeFrom s (bytes ++ rest) = decodeFrom s bytes ++ decode rest := by
  induction bytes generalizing s with
  | nil =>
    cases rest with
    | nil => exact (List.append_nil _).symm
    | cons b rest =>
      have hb : b.toNat < 0x80 := h b rfl
      have hdecode : decode (b :: rest) = Char.ofNat b.toNat :: decode rest :=
        decodeFrom_ascii none hb rest
      rw [List.nil_append, decodeFrom_ascii s hb, hdecode]
      rfl
  | cons b bytes ih => rw [List.cons_append, decodeFrom, decodeFrom, ih, List.append_assoc]

/-- Bytes below 0x80 leave nothing pending. -/
theorem after_ascii {bytes : List UInt8} (h : ∀ b ∈ bytes, b.toNat < 0x80) :
    after none bytes = none := by
  induction bytes with
  | nil => rfl
  | cons b bytes ih =>
    rw [after, step_ascii none (h b List.mem_cons_self)]
    exact ih fun d hd => h d (List.mem_cons_of_mem b hd)

/-- A text that ends within a character ends with a replacement. -/
theorem decodeFrom_pending {s : Option Pending} {bytes : List UInt8} {p : Pending}
    (h : after s bytes = some p) : ∃ text, decodeFrom s bytes = text ++ ['\uFFFD'] := by
  induction bytes generalizing s with
  | nil =>
    have hs : s = some p := h
    rw [hs]
    exact ⟨[], rfl⟩
  | cons b bytes ih =>
    obtain ⟨text, htext⟩ := ih h
    refine ⟨(step s b.toNat).1 ++ text, ?_⟩
    rw [decodeFrom, htext, List.append_assoc]

/-- The character comes from bytes from 0x80 on. -/
def Wide (c : Char) : Prop := c.toNat = 0 ∨ 0x80 ≤ c.toNat

theorem wide_ofNat {n : ℕ} (h : 0x80 ≤ n) : Wide (Char.ofNat n) := by
  by_cases hvalid : n.isValidChar
  · have hchar : Char.ofNat n = Char.ofNatAux n hvalid := dif_pos hvalid
    rw [hchar]
    exact Or.inr h
  · exact Or.inl (congrArg Char.toNat (dif_neg hvalid))

/-- The first byte of a wide character, or one that begins no character. -/
theorem first_wide {b : ℕ} (h : 0x80 ≤ b) :
    first b = (['\uFFFD'], none) ∨ ∃ p, first b = ([], some p) := by
  unfold first
  rw [if_neg (by omega)]
  repeat' split
  all_goals first
    | exact Or.inr ⟨_, rfl⟩
    | exact Or.inl rfl

/-- What is pending becomes a wide character first. -/
theorem decodeFrom_some (p : Pending) (bytes : List UInt8) :
    ∃ c cs, decodeFrom (some p) bytes = c :: cs ∧ Wide c := by
  have hreplaced : Wide '\uFFFD' := Or.inr (by decide)
  induction bytes generalizing p with
  | nil => exact ⟨_, _, rfl, hreplaced⟩
  | cons b bytes ih =>
    rw [decodeFrom, step]
    split
    · rename_i hnext
      split
      · rename_i howed
        refine ⟨_, _, rfl, wide_ofNat ?_⟩
        have hwide := p.wide
        have hpow : p.owed - 1 = 0 := by omega
        rw [hpow, pow_zero, Nat.mul_one] at hwide
        omega
      · exact ih _
    · exact ⟨_, _, rfl, hreplaced⟩

/-- A byte behind a complete character: one below 0x80 is a character, any other leads to a
wide one. -/
theorem decode_cons (b : UInt8) (bytes : List UInt8) :
    (b.toNat < 0x80 ∧ decode (b :: bytes) = Char.ofNat b.toNat :: decode bytes) ∨
      0x80 ≤ b.toNat ∧ ∃ c cs, decode (b :: bytes) = c :: cs ∧ Wide c := by
  by_cases hb : b.toNat < 0x80
  · exact Or.inl ⟨hb, decodeFrom_ascii none hb bytes⟩
  · have hle : 0x80 ≤ b.toNat := Nat.le_of_not_lt hb
    refine Or.inr ⟨hle, ?_⟩
    rw [decode, decodeFrom, step]
    obtain hone | ⟨p, hp⟩ := first_wide hle
    · rw [hone]
      exact ⟨_, _, rfl, Or.inr (by decide)⟩
    · rw [hp]
      exact decodeFrom_some p bytes

-- "é" in two bytes, and its first byte alone in front of a letter
example : decode [0xC3, 0xA9, 0xC3, 0x41] = ['é', '\uFFFD', 'A'] := by decide

end AuraWellness.Lib.Utf8
