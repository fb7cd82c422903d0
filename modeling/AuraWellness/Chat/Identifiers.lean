import Mathlib.Tactic.IntervalCases
import AuraWellness.Chat.Publishing

/-!
# The canonical text of a UUID

An identifier travels as the text that `uuid.UUID.String` writes. Reading the five
groups of hexadecimal digits back gives the identifier again.
-/

namespace AuraWellness.Chat.Identifiers

open AuraWellness.Chat.Entities AuraWellness.Chat.Publishing

/-- The value of a hexadecimal digit. -/
def hexValue? (c : Char) : Option ℕ :=
  if 48 ≤ c.toNat ∧ c.toNat ≤ 57 then some (c.toNat - 48)
  else if 97 ≤ c.toNat ∧ c.toNat ≤ 102 then some (c.toNat - 87)
  else if 65 ≤ c.toNat ∧ c.toNat ≤ 70 then some (c.toNat - 55)
  else none

/-- Read one more digit of a number. -/
def hexNumber? : ℕ → List Char → Option ℕ
  | n, [] => some n
  | n, c :: cs => (hexValue? c).bind fun d => hexNumber? (16 * n + d) cs

/-- Read the canonical form: 36 characters, with hyphens after 8, 4, 4 and 4 digits. -/
def readUuid (text : String) : Option Uuid :=
  let cs := text.toList
  if cs.length = 36 ∧ cs[8]? = some '-' ∧ cs[13]? = some '-' ∧ cs[18]? = some '-' ∧
      cs[23]? = some '-' then
    hexNumber? 0 (cs.take 8 ++ ((cs.drop 9).take 4 ++ ((cs.drop 14).take 4 ++
      ((cs.drop 19).take 4 ++ cs.drop 24))))
  else none

/-- A digit is read back. -/
theorem hexValue?_digitChar {d : ℕ} (h : d < 16) : hexValue? (Nat.digitChar d) = some d := by
  interval_cases d <;> rfl

/-- Digits are read in turn. -/
theorem hexNumber?_append (n : ℕ) (cs ds : List Char) :
    hexNumber? n (cs ++ ds) = (hexNumber? n cs).bind fun m => hexNumber? m ds := by
  induction cs generalizing n with
  | nil => rfl
  | cons c cs ih =>
    rw [List.cons_append, hexNumber?, hexNumber?]
    cases hexValue? c with
    | none => rfl
    | some d => exact ih (16 * n + d)

/-- Leading zeros do not count. -/
theorem hexNumber?_zeros (k : ℕ) : hexNumber? 0 (List.replicate k '0') = some 0 := by
  induction k with
  | zero => rfl
  | succ k ih => exact ih

/-- A number is read back from its digits. -/
theorem hexNumber?_toDigits (n : ℕ) : hexNumber? 0 (Nat.toDigits 16 n) = some n := by
  induction n using Nat.strong_induction_on with
  | h n ih =>
    by_cases hn : n < 16
    · rw [Nat.toDigits_of_lt_base hn, hexNumber?, hexValue?_digitChar hn]
      simp [hexNumber?]
    · have hle : 16 ≤ n := Nat.le_of_not_lt hn
      have hdigit : n % 16 < 16 := Nat.mod_lt n (by omega)
      rw [Nat.toDigits_of_base_le (by omega) hle, hexNumber?_append, ih (n / 16) (by omega)]
      have hlast : hexNumber? (n / 16) [Nat.digitChar (n % 16)] = some (16 * (n / 16) + n % 16) := by
        rw [hexNumber?, hexValue?_digitChar hdigit]
        rfl
      rw [Option.bind_some, hlast, Nat.div_add_mod]

/-- The 32 digits of an identifier. -/
theorem length_padded {id : Uuid} (h : id < 2 ^ 128) :
    (List.replicate (32 - (Nat.toDigits 16 id).length) '0' ++ Nat.toDigits 16 id).length = 32 := by
  have hlength : (Nat.toDigits 16 id).length ≤ 32 :=
    (Nat.length_toDigits_le_iff (by omega) (by omega)).mpr (by simpa using h)
  simp only [List.length_append, List.length_replicate]
  omega

/-- The groups of 32 digits are found between the hyphens. -/
theorem readUuid_groups {a b c d e : List Char} (ha : a.length = 8) (hb : b.length = 4)
    (hc : c.length = 4) (hd : d.length = 4) (he : e.length = 12) :
    readUuid (String.ofList (a ++ '-' :: (b ++ '-' :: (c ++ '-' :: (d ++ '-' :: e))))) =
      hexNumber? 0 (a ++ (b ++ (c ++ (d ++ e)))) := by
  unfold readUuid
  simp only [String.toList_ofList]
  rw [if_pos (by simp [ha, hb, hc, hd, he])]
  have hdrop : ∀ (l : List Char) (n : ℕ), l.length < n → l.drop n = [] := fun l n hl =>
    List.drop_eq_nil_of_le hl.le
  simp [List.drop_append, ha, hb, hc, hd, hdrop]

/-- The groups of a list make up the list. -/
theorem groups_eq (cs : List Char) :
    cs.take 8 ++ ((cs.drop 8).take 4 ++ ((cs.drop 12).take 4 ++ ((cs.drop 16).take 4 ++
      cs.drop 20))) = cs := by
  have hgroup : ∀ n, (cs.drop n).take 4 ++ cs.drop (n + 4) = cs.drop n := by
    intro n
    rw [← List.drop_drop]
    exact List.take_append_drop 4 (cs.drop n)
  rw [hgroup 16, hgroup 12, hgroup 8]
  exact List.take_append_drop 8 cs

/-- The canonical text of an identifier reads back as the identifier. -/
theorem readUuid_uuidText {id : Uuid} (h : id < 2 ^ 128) : readUuid (uuidText id) = some id := by
  unfold uuidText
  have hlength := length_padded h
  have hread : hexNumber? 0 (List.replicate (32 - (Nat.toDigits 16 id).length) '0' ++
      Nat.toDigits 16 id) = some id := by
    rw [hexNumber?_append, hexNumber?_zeros]
    exact hexNumber?_toDigits id
  dsimp only
  generalize List.replicate (32 - (Nat.toDigits 16 id).length) '0' ++ Nat.toDigits 16 id = padded
    at hlength hread ⊢
  rw [readUuid_groups (by simp [hlength]) (by simp [hlength]) (by simp [hlength])
    (by simp [hlength]) (by simp [hlength]), groups_eq]
  exact hread

end AuraWellness.Chat.Identifiers
