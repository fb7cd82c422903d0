import AuraWellness.Lib.Json

/-!
# Code points of UTF-16 sequences

A sequence of UTF-16 code units is made of characters and of lone halves of
surrogate pairs. Decoders that have no place for a lone half put U+FFFD where it
stands; the sequence survives the way there and back exactly if it has none.
-/

namespace AuraWellness.Lib.CodePoints

open AuraWellness.Lib.Json

/-- What a sequence of code units is made of. -/
inductive CodePoint
  /-- Half of a surrogate pair without the other half. -/
  | lone (unit : UInt16)
  /-- A character. -/
  | char (c : Char)
  deriving DecidableEq, Repr

/-- The code units of a code point. -/
def CodePoint.units : CodePoint → List UInt16
  | .lone unit => [unit]
  | .char c => utf16 c

/-- The first half of a surrogate pair. -/
def isHigh (u : UInt16) : Bool := 0xD800 ≤ u.toNat && u.toNat ≤ 0xDBFF

/-- The second half of a surrogate pair. -/
def isLow (u : UInt16) : Bool := 0xDC00 ≤ u.toNat && u.toNat ≤ 0xDFFF

/-- The code point of a code unit that is not part of a pair. -/
def single (u : UInt16) : CodePoint :=
  if isHigh u || isLow u then .lone u else .char (Char.ofNat u.toNat)

/-- The character of a surrogate pair. -/
def pair (u v : UInt16) : Char :=
  Char.ofNat (0x10000 + (u.toNat - 0xD800) * 0x400 + (v.toNat - 0xDC00))

/-- The code points of a sequence of code units. -/
def codePoints : List UInt16 → List CodePoint
  | [] => []
  | [u] => [single u]
  | u :: v :: rest =>
    if isHigh u && isLow v then .char (pair u v) :: codePoints rest
    else single u :: codePoints (v :: rest)

/-- The character that stands for a code point, U+FFFD for a lone half. -/
def CodePoint.toChar : CodePoint → Char
  | .lone _ => '\uFFFD'
  | .char c => c

/-- The text of a sequence of code units, lone halves replaced. -/
def decode (us : List UInt16) : String := String.ofList ((codePoints us).map CodePoint.toChar)

/-- No half of a surrogate pair stands alone. -/
def WellFormed (us : List UInt16) : Prop := ∀ u, CodePoint.lone u ∉ codePoints us

theorem toNat_ofNat {n : ℕ} (h : n.isValidChar) : (Char.ofNat n).toNat = n := by
  unfold Char.ofNat
  rw [dif_pos h]
  rfl

theorem toNat_toUInt16 {n : ℕ} (h : n < 0x10000) : n.toUInt16.toNat = n :=
  UInt16.toNat_ofNat_of_lt' h

theorem toUInt16_eq {n : ℕ} {u : UInt16} (h : n = u.toNat) : n.toUInt16 = u := by
  rw [h]
  exact UInt16.ofNat_toNat

/-- The numbers of a character. -/
theorem char_range (c : Char) : c.toNat < 0xD800 ∨ 0xDFFF < c.toNat ∧ c.toNat < 0x110000 :=
  c.valid

theorem utf16_small {c : Char} (h : c.toNat < 0x10000) : utf16 c = [c.toNat.toUInt16] := if_pos h

/-- A character above the basic plane is a surrogate pair. -/
theorem utf16_large {c : Char} (h : 0x10000 ≤ c.toNat) : ∃ u v, utf16 c = [u, v] ∧
    isHigh u = true ∧ isLow v = true ∧ pair u v = c := by
  have hrange := char_range c
  have hhigh : 0xD800 + (c.toNat - 0x10000) / 0x400 < 0x10000 := by omega
  have hlow : 0xDC00 + (c.toNat - 0x10000) % 0x400 < 0x10000 := by omega
  refine ⟨_, _, if_neg (by omega), ?_, ?_, ?_⟩
  · simp only [isHigh, toNat_toUInt16 hhigh, Bool.and_eq_true, decide_eq_true_eq]
    omega
  · simp only [isLow, toNat_toUInt16 hlow, Bool.and_eq_true, decide_eq_true_eq]
    omega
  · unfold pair
    rw [toNat_toUInt16 hhigh, toNat_toUInt16 hlow]
    have hnat : 0x10000 + (0xD800 + (c.toNat - 0x10000) / 0x400 - 0xD800) * 0x400 +
        (0xDC00 + (c.toNat - 0x10000) % 0x400 - 0xDC00) = c.toNat := by omega
    rw [hnat, Char.ofNat_toNat]

/-- The units of a single code point are the unit itself. -/
theorem units_single (u : UInt16) : (single u).units = [u] := by
  have hlt := u.toNat_lt
  unfold single
  split
  · rfl
  · next hnot =>
    simp only [isHigh, isLow, Bool.or_eq_true, Bool.and_eq_true, decide_eq_true_eq] at hnot
    have hvalid : u.toNat.isValidChar := by
      unfold Nat.isValidChar
      omega
    have hnat := toNat_ofNat hvalid
    refine (utf16_small (by rw [hnat]; exact hlt)).trans ?_
    rw [hnat, toUInt16_eq rfl]

/-- The units of the character of a surrogate pair. -/
theorem utf16_pair {u v : UInt16} (hu : isHigh u = true) (hv : isLow v = true) :
    utf16 (pair u v) = [u, v] := by
  simp only [isHigh, isLow, Bool.and_eq_true, decide_eq_true_eq] at hu hv
  have hvalid :
      (0x10000 + (u.toNat - 0xD800) * 0x400 + (v.toNat - 0xDC00)).isValidChar := by
    unfold Nat.isValidChar
    omega
  have hnat : (pair u v).toNat = 0x10000 + (u.toNat - 0xD800) * 0x400 + (v.toNat - 0xDC00) :=
    toNat_ofNat hvalid
  unfold utf16
  rw [if_neg (by omega), hnat]
  have hfirst : 0xD800 + (0x10000 + (u.toNat - 0xD800) * 0x400 + (v.toNat - 0xDC00) - 0x10000) /
      0x400 = u.toNat := by omega
  have hsecond : 0xDC00 + (0x10000 + (u.toNat - 0xD800) * 0x400 + (v.toNat - 0xDC00) - 0x10000) %
      0x400 = v.toNat := by omega
  rw [toUInt16_eq hfirst, toUInt16_eq hsecond]

/-- The code points of a sequence make it up. -/
theorem flatMap_units (us : List UInt16) : (codePoints us).flatMap CodePoint.units = us := by
  fun_induction codePoints us with
  | case1 => rfl
  | case2 u =>
    rw [List.flatMap_singleton]
    exact units_single u
  | case3 u v rest hpair ih =>
    obtain ⟨hu, hv⟩ := (Bool.and_eq_true _ _).mp hpair
    rw [List.flatMap_cons, ih]
    exact congrArg (· ++ rest) (utf16_pair hu hv)
  | case4 u v rest hpair ih =>
    rw [List.flatMap_cons, ih, units_single]
    rfl

/-- A unit that is not the first half of a pair stands for itself. -/
theorem codePoints_cons {u : UInt16} (h : isHigh u = false) (us : List UInt16) :
    codePoints (u :: us) = single u :: codePoints us := by
  cases us with
  | nil => rfl
  | cons v rest =>
    rw [codePoints, h, Bool.false_and]
    exact if_neg Bool.false_ne_true

/-- The units of a character are one code point, whatever follows. -/
theorem codePoints_utf16 (c : Char) (us : List UInt16) :
    codePoints (utf16 c ++ us) = .char c :: codePoints us := by
  by_cases hsmall : c.toNat < 0x10000
  · have hrange := char_range c
    have hnat := toNat_toUInt16 hsmall
    have hhigh : isHigh c.toNat.toUInt16 = false := by
      simp only [isHigh, hnat, Bool.and_eq_false_iff, decide_eq_false_iff_not]
      omega
    have hlow : isLow c.toNat.toUInt16 = false := by
      simp only [isLow, hnat, Bool.and_eq_false_iff, decide_eq_false_iff_not]
      omega
    rw [utf16_small hsmall, List.singleton_append, codePoints_cons hhigh]
    unfold single
    rw [hhigh, hlow, hnat, Char.ofNat_toNat]
    rfl
  · obtain ⟨u, v, hunits, hu, hv, hpair⟩ := utf16_large (Nat.le_of_not_lt hsmall)
    rw [hunits, List.cons_append, List.singleton_append, codePoints, hu, hv, hpair]
    rfl

/-- The code points of a text are its characters. -/
theorem codePoints_units (text : String) :
    codePoints (units text) = text.toList.map CodePoint.char := by
  unfold units
  induction text.toList with
  | nil => rfl
  | cons c cs ih => rw [List.flatMap_cons, codePoints_utf16, ih, List.map_cons]

/-- Decoding is inverse to encoding. -/
theorem decode_units (text : String) : decode (units text) = text := by
  unfold decode
  rw [codePoints_units, List.map_map]
  exact (congrArg String.ofList (List.map_id _)).trans String.ofList_toList

/-- A text has no lone halves. -/
theorem wellFormed_units (text : String) : WellFormed (units text) := by
  intro u hu
  rw [codePoints_units] at hu
  obtain ⟨c, -, hc⟩ := List.mem_map.mp hu
  cases hc

/-- A sequence survives decoding and encoding exactly if it is well-formed. -/
theorem units_decode (us : List UInt16) : units (decode us) = us ↔ WellFormed us := by
  constructor
  · intro h
    rw [← h]
    exact wellFormed_units _
  · intro h
    have hall : ∀ p ∈ codePoints us, utf16 p.toChar = p.units := by
      intro p hp
      cases p with
      | lone u => exact absurd hp (h u)
      | char c => rfl
    unfold units decode
    rw [String.toList_ofList, List.flatMap_map]
    calc (codePoints us).flatMap (fun p => utf16 p.toChar)
        = (codePoints us).flatMap CodePoint.units := List.flatMap_congr hall
      _ = us := flatMap_units us

instance (us : List UInt16) : Decidable (WellFormed us) := decidable_of_iff _ (units_decode us)

/-- Nothing but the empty sequence is decoded to the empty text. -/
theorem decode_eq_empty {us : List UInt16} (h : decode us = "") : us = [] := by
  have hnil : (codePoints us).map CodePoint.toChar = [] := String.ofList_eq_empty_iff.mp h
  rw [← flatMap_units us, List.map_eq_nil_iff.mp hnil]
  rfl

end AuraWellness.Lib.CodePoints
