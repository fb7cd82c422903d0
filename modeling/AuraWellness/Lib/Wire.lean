import AuraWellness.Lib.CodePoints
import AuraWellness.Lib.Stringify

/-!
# Writing trees of objects and strings as JSON

A party writes nested objects of strings with its own way of quoting them. Whatever
the quoting, `JSON.parse` reads the object back, provided it reads a quoted string
as what it means. The quotings of JavaScript, which has strings of code units, and
of Go, which also escapes the characters that HTML gives a meaning, are of this kind.
-/

namespace AuraWellness.Lib.Wire

open AuraWellness.Lib.Json AuraWellness.Lib.Stringify AuraWellness.Lib.CodePoints

/-- A way of quoting strings of some kind. -/
structure Quoting (τ : Type) where
  /-- What stands between the quotes. -/
  text : τ → List Char
  /-- The code units of the string. -/
  meaning : τ → List UInt16
  /-- The text up to the closing quote is read as these. -/
  reads : ∀ t cs, stringBody (text t ++ '\x22' :: cs) = some (meaning t, cs)

/-- Four hexadecimal digits. -/
def hex4 (n : ℕ) : List Char :=
  [hexChar (n / 0x1000), hexChar (n / 0x100 % 16), hexChar (n / 16 % 16), hexChar (n % 16)]

/-- A code unit as an escape. -/
def unicodeEscape (n : ℕ) : List Char := '\\' :: 'u' :: hex4 n

/-- A code point as `JSON.stringify` writes it: lone halves are escaped. -/
def quotedPoint : CodePoint → List Char
  | .lone u => unicodeEscape u.toNat
  | .char c => quotedChar c

/-- A character as Go writes it with `escapeHTML`. -/
def goQuotedChar (c : Char) : List Char :=
  if c = '<' ∨ c = '>' ∨ c = '&' ∨ c = '\u2028' ∨ c = '\u2029' then unicodeEscape c.toNat
  else quotedChar c

theorem hexDigit_hexChar {n : ℕ} (h : n < 16) : hexDigit (hexChar n) = some n := by
  have hall : ∀ m < 16, hexDigit (hexChar m) = some m := by decide
  exact hall n h

/-- Four digits are read as the code unit. -/
theorem hexUnit_hex4 {n : ℕ} (h : n < 0x10000) :
    hexUnit (hexChar (n / 0x1000)) (hexChar (n / 0x100 % 16)) (hexChar (n / 16 % 16))
      (hexChar (n % 16)) = some n.toUInt16 := by
  unfold hexUnit
  rw [hexDigit_hexChar (by omega), hexDigit_hexChar (by omega), hexDigit_hexChar (by omega),
    hexDigit_hexChar (by omega)]
  have hnat : ((n / 0x1000 * 16 + n / 0x100 % 16) * 16 + n / 16 % 16) * 16 + n % 16 = n := by
    omega
  exact congrArg (fun m : ℕ => some m.toUInt16) hnat

/-- An escape is read as the code unit. -/
theorem stringBody_unicodeEscape {n : ℕ} (h : n < 0x10000) (cs : List Char) :
    stringBody (unicodeEscape n ++ cs) =
      (stringBody cs).map fun p => (n.toUInt16 :: p.1, p.2) := by
  simp only [unicodeEscape, hex4, List.cons_append, List.nil_append, stringBody, hexUnit_hex4 h,
    Option.bind_some]

/-- A code point that is written is read. -/
theorem stringBody_quotedPoint (p : CodePoint) (cs : List Char) :
    stringBody (quotedPoint p ++ cs) = (stringBody cs).map fun q => (p.units ++ q.1, q.2) := by
  cases p with
  | lone u =>
    rw [quotedPoint, stringBody_unicodeEscape u.toNat_lt, toUInt16_eq rfl]
    rfl
  | char c => exact stringBody_quotedChar c cs

/-- A character that Go writes is read. -/
theorem stringBody_goQuotedChar (c : Char) (cs : List Char) :
    stringBody (goQuotedChar c ++ cs) = (stringBody cs).map fun q => (utf16 c ++ q.1, q.2) := by
  unfold goQuotedChar
  split
  · next h =>
    have hsmall : c.toNat < 0x10000 := by
      obtain rfl | rfl | rfl | rfl | rfl := h <;> decide
    rw [stringBody_unicodeEscape hsmall, utf16_small hsmall]
    rfl
  · exact stringBody_quotedChar c cs

/-- What is read piece by piece is read as a whole. -/
theorem stringBody_flatMap {α : Type} {write : α → List Char} {units : α → List UInt16}
    (hread : ∀ a cs, stringBody (write a ++ cs) =
      (stringBody cs).map fun q => (units a ++ q.1, q.2)) (as : List α) (cs : List Char) :
    stringBody (as.flatMap write ++ '\x22' :: cs) = some (as.flatMap units, cs) := by
  induction as with
  | nil => rfl
  | cons a as ih =>
    rw [List.flatMap_cons, List.append_assoc, hread, ih]
    rfl

/-- `JSON.stringify`. -/
def javaScript : Quoting (List UInt16) where
  text us := (codePoints us).flatMap quotedPoint
  meaning us := us
  reads us cs := by
    rw [stringBody_flatMap stringBody_quotedPoint, flatMap_units]

/-- `JSON.stringify` of strings without lone halves. -/
def plain : Quoting String where
  text s := s.toList.flatMap quotedChar
  meaning := units
  reads s cs := stringBody_flatMap stringBody_quotedChar s.toList cs

/-- `json.Marshal`, and `Encode` with its default settings. -/
def go : Quoting String where
  text s := s.toList.flatMap goQuotedChar
  meaning := units
  reads s cs := stringBody_flatMap stringBody_goQuotedChar s.toList cs

mutual

/-- A string, or an object. -/
inductive Tree (τ : Type)
  | text (t : τ)
  | record (ms : Members τ)

/-- The members of an object. -/
inductive Members (τ : Type)
  | nil
  | cons (name : τ) (value : Tree τ) (rest : Members τ)

end

/-- An object of strings. -/
def texts {τ : Type} : List (τ × τ) → Members τ
  | [] => .nil
  | m :: ms => .cons m.1 (.text m.2) (texts ms)

/-- A comma, if members follow. -/
def Members.comma {τ : Type} : Members τ → List Char
  | .nil => []
  | .cons _ _ _ => [',']

section Quoted

variable {τ : Type} (q : Quoting τ)

/-- A string between quotes. -/
def quoted (t : τ) : List Char := '\x22' :: (q.text t ++ ['\x22'])

mutual

/-- The text of a tree. -/
def Tree.write : Tree τ → List Char
  | .text t => quoted q t
  | .record ms => '\x7b' :: ms.write

/-- The text of the members with the closing brace. -/
def Members.write : Members τ → List Char
  | .nil => ['\x7d']
  | .cons name value rest => quoted q name ++ ':' :: (value.write ++ (rest.comma ++ rest.write))

end

mutual

/-- The value that a tree stands for. -/
def Tree.meaning : Tree τ → Value
  | .text t => .string (q.meaning t)
  | .record ms => .object ms.meaning

/-- The members that they stand for. -/
def Members.meaning : Members τ → List (List UInt16 × Value)
  | .nil => []
  | .cons name value rest => (q.meaning name, value.meaning) :: rest.meaning

end

/-- With enough fuel the value is read, whatever follows it. -/
def Tree.Reads (t : Tree τ) : Prop :=
  ∃ least, ∀ fuel, least ≤ fuel → ∀ cs, value fuel (t.write q ++ cs) = some (t.meaning q, cs)

/-- With enough fuel the members are read up to the closing brace. -/
def Members.Reads (ms : Members τ) : Prop :=
  ∃ least, ∀ fuel, least ≤ fuel → ∀ cs,
    bracketed '\x7d' (members fuel) (ms.write q ++ cs) = some (ms.meaning q, cs)

/-- A member is read if its value is. -/
theorem member_write {name : τ} {t : Tree τ} {fuel : ℕ} {cs : List Char}
    (h : value fuel (t.write q ++ cs) = some (t.meaning q, cs))
    (hskip : skip (t.write q ++ cs) = t.write q ++ cs) :
    member (fuel + 1) (quoted q name ++ ':' :: (t.write q ++ cs)) =
      some ((q.meaning name, t.meaning q), cs) := by
  have hcolon : ∀ rest, skip (':' :: rest) = ':' :: rest := skip_of_not_space rfl
  unfold quoted
  simp only [List.cons_append, List.append_assoc, List.nil_append, member, q.reads,
    Option.bind_some, hcolon, hskip, h, Option.map_some]

/-- The text of a tree starts with a quote or a brace. -/
theorem skip_write (t : Tree τ) (cs : List Char) : skip (t.write q ++ cs) = t.write q ++ cs := by
  cases t with
  | text t => exact skip_of_not_space rfl _
  | record ms => exact skip_of_not_space rfl _

/-- So does the text of a member. -/
theorem skip_quoted (t : τ) (cs : List Char) : skip (quoted q t ++ cs) = quoted q t ++ cs :=
  skip_of_not_space rfl _

/-- Members behind an opening brace are read as they are in the middle of an object. -/
theorem bracketed_cons (name : τ) (fuel : ℕ) (cs : List Char) :
    bracketed '\x7d' (members fuel) (quoted q name ++ cs) = members fuel (quoted q name ++ cs) := by
  unfold bracketed
  rw [skip_quoted]
  exact if_neg (by decide)

/-- One more member in front is read. -/
theorem reads_cons {name : τ} {t : Tree τ} {rest : Members τ} (ht : t.Reads q)
    (hrest : rest.Reads q) : (Members.cons name t rest).Reads q := by
  obtain ⟨least, ht⟩ := ht
  obtain ⟨least', hrest⟩ := hrest
  refine ⟨least + least' + 2, fun fuel hfuel cs => ?_⟩
  obtain ⟨fuel, rfl⟩ := Nat.exists_eq_add_of_le' (show 2 ≤ fuel by omega)
  have hmember : ∀ cs, member (fuel + 1) (quoted q name ++ ':' :: (t.write q ++ cs)) =
      some ((q.meaning name, t.meaning q), cs) := fun cs =>
    member_write q (ht fuel (by omega) cs) (skip_write q t cs)
  simp only [Members.write, List.append_assoc, List.cons_append]
  rw [bracketed_cons]
  cases rest with
  | nil => exact listed_last (hmember ('\x7d' :: cs))
  | cons next t' rest =>
    have hothers := hrest (fuel + 1) (by omega) cs
    simp only [Members.write, Members.comma, List.append_assoc, List.cons_append,
      List.nil_append] at hothers ⊢
    rw [bracketed_cons] at hothers
    refine (listed_more (hmember _)).trans ?_
    rw [skip_quoted, hothers]
    rfl

mutual

/-- Every tree is read. -/
theorem Tree.reads : ∀ t : Tree τ, t.Reads q
  | .text t => by
    refine ⟨1, fun fuel hfuel cs => ?_⟩
    obtain ⟨fuel, rfl⟩ := Nat.exists_eq_add_of_le' hfuel
    have hbody := q.reads t cs
    simp only [Tree.write, quoted, List.cons_append, List.append_assoc, List.nil_append, value,
      hbody, Option.map_some, Tree.meaning]
  | .record ms => by
    obtain ⟨least, hms⟩ := Members.reads ms
    refine ⟨least + 1, fun fuel hfuel cs => ?_⟩
    obtain ⟨fuel, rfl⟩ := Nat.exists_eq_add_of_le' (show 1 ≤ fuel by omega)
    simp only [Tree.write, List.cons_append, value, hms fuel (by omega) cs, Option.map_some,
      Tree.meaning]

/-- All members are read. -/
theorem Members.reads : ∀ ms : Members τ, ms.Reads q
  | .nil => ⟨0, fun _ _ _ => rfl⟩
  | .cons _ t rest => reads_cons q (Tree.reads t) (Members.reads rest)

end

/-- `JSON.parse` reads back every tree that is written, white space behind it or not. -/
theorem parse_write (t : Tree τ) (space : List Char) (h : skip space = []) :
    parse (String.ofList (t.write q ++ space)) = some (t.meaning q) := by
  obtain ⟨least, ht⟩ := Tree.reads q t
  refine parse_of_value (f := least) ?_ h
  rw [String.toList_ofList, skip_write]
  exact ht least (Nat.le_refl _) space

end Quoted

/-- An object of strings is written as its tree, -/
theorem writeMembers_eq (m : String × String) (ms : List (String × String)) :
    writeMembers m ms = (texts (m :: ms)).write plain := by
  have hquoted : ∀ text : String, '\x22' :: quotedRest text = quoted plain text := fun _ => rfl
  induction ms generalizing m with
  | nil =>
    simp only [writeMembers, writeMember, texts, Members.write, Members.comma, Tree.write,
      ← hquoted, List.cons_append, List.append_assoc, List.nil_append]
  | cons next ms ih =>
    rw [writeMembers, ih]
    simp only [writeMember, texts, Members.write, Members.comma, Tree.write, ← hquoted,
      List.cons_append, List.append_assoc, List.nil_append]

theorem stringify_eq (ms : List (String × String)) :
    stringify ms = String.ofList ((Tree.record (texts ms)).write plain) := by
  cases ms with
  | nil => rfl
  | cons m ms => rw [stringify, writeMembers_eq, Tree.write]

/-- and stands for the same members. -/
theorem meaning_texts (ms : List (String × String)) :
    (texts ms).meaning plain = ms.map fun m => (units m.1, .string (units m.2)) := by
  induction ms with
  | nil => rfl
  | cons m ms ih => exact congrArg _ ih

/-- `JSON.parse` reads back what `JSON.stringify` writes. -/
theorem parse_stringify (ms : List (String × String)) :
    parse (stringify ms) = some (record ms) := by
  have h := parse_write plain (.record (texts ms)) [] rfl
  rw [List.append_nil, Tree.meaning, meaning_texts] at h
  rw [stringify_eq]
  exact h

end AuraWellness.Lib.Wire
