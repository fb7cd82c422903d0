import AuraWellness.Lib.Json

/-!
# Writing JSON objects of strings

`JSON.stringify` for an object all of whose members are strings, and how `JSON.parse`
reads the characters of a string and the elements of a list.
-/

namespace AuraWellness.Lib.Stringify

open AuraWellness.Lib.Json

/-- The letter of a two-character escape that `JSON.stringify` writes. -/
def shortEscape : Char → Option Char
  | '\x08' => some 'b'
  | '\t' => some 't'
  | '\n' => some 'n'
  | '\x0c' => some 'f'
  | '\r' => some 'r'
  | '\x22' => some '\x22'
  | '\\' => some '\\'
  | _ => none

/-- A hexadecimal digit in lower case. -/
def hexChar (n : ℕ) : Char :=
  if n < 10 then Char.ofNat ('0'.toNat + n) else Char.ofNat ('a'.toNat + (n - 10))

/-- A character as it stands in a quoted string. -/
def quotedChar (c : Char) : List Char :=
  match shortEscape c with
  | some e => ['\\', e]
  | none =>
    if c.toNat < 0x20 then ['\\', 'u', '0', '0', hexChar (c.toNat / 16), hexChar (c.toNat % 16)]
    else [c]

/-- A string up to its closing quote. -/
def quotedRest (text : String) : List Char := text.toList.flatMap quotedChar ++ ['\x22']

/-- A member of an object. -/
def writeMember (m : String × String) : List Char :=
  '\x22' :: quotedRest m.1 ++ ':' :: '\x22' :: quotedRest m.2

/-- One member or more, up to the closing brace. -/
def writeMembers (m : String × String) : List (String × String) → List Char
  | [] => writeMember m ++ ['\x7d']
  | next :: ms => writeMember m ++ ',' :: writeMembers next ms

/-- `JSON.stringify` of an object whose members are strings. -/
def stringify : List (String × String) → String
  | [] => String.ofList ['\x7b', '\x7d']
  | m :: ms => String.ofList ('\x7b' :: writeMembers m ms)

/-- The object that is written. -/
def record (ms : List (String × String)) : Value :=
  .object (ms.map fun m => (units m.1, .string (units m.2)))

/-- The escapes that are written are read as what they stand for. -/
theorem stringBody_shortEscape {c e : Char} (h : shortEscape c = some e) (cs : List Char) :
    stringBody ('\\' :: e :: cs) = (stringBody cs).map fun p => (utf16 c ++ p.1, p.2) := by
  unfold shortEscape at h
  split at h
  case h_8 => cases h
  all_goals
    cases h
    rfl

theorem hexUnit_hexChar {n : ℕ} (h : n < 0x20) :
    hexUnit '0' '0' (hexChar (n / 16)) (hexChar (n % 16)) = some n.toUInt16 := by
  have hall : ∀ m < 0x20, hexUnit '0' '0' (hexChar (m / 16)) (hexChar (m % 16)) =
      some m.toUInt16 := by decide +kernel
  exact hall n h

/-- A character that neither ends a string nor begins an escape. -/
theorem stringBody_plain {c : Char} (hquote : c ≠ '\x22') (hslash : c ≠ '\\') (cs : List Char) :
    stringBody (c :: cs) =
      if c.toNat < 0x20 then none else (stringBody cs).map fun p => (utf16 c ++ p.1, p.2) := by
  rw [stringBody.eq_def]
  split
  · next heq => cases heq
  · next heq => exact absurd (List.cons.inj heq).1 hquote
  · next heq => exact absurd (List.cons.inj heq).1 hslash
  · next heq => exact absurd (List.cons.inj heq).1 hslash
  · next heq =>
    cases heq
    rfl

/-- A character that is written is read. -/
theorem stringBody_quotedChar (c : Char) (cs : List Char) :
    stringBody (quotedChar c ++ cs) = (stringBody cs).map fun p => (utf16 c ++ p.1, p.2) := by
  unfold quotedChar
  split
  · next e he => exact stringBody_shortEscape he cs
  · next hnone =>
    split
    · next hlow =>
      have hunits : utf16 c = [c.toNat.toUInt16] := if_pos (by omega)
      rw [hunits]
      simp only [List.cons_append, List.nil_append, stringBody, hexUnit_hexChar hlow,
        Option.bind_some]
    · next hlow =>
      have hquote : c ≠ '\x22' := by
        rintro rfl
        cases hnone
      have hslash : c ≠ '\\' := by
        rintro rfl
        cases hnone
      exact (stringBody_plain hquote hslash cs).trans (if_neg hlow)

theorem skip_of_not_space {c : Char} (h : isSpace c = false) (cs : List Char) :
    skip (c :: cs) = c :: cs := by
  rw [skip, List.dropWhile_cons_of_neg (by rw [h]; exact Bool.false_ne_true)]

theorem listed_more {β : Type} {close : Char} {element : List Char → Option (β × List Char)}
    {others : List Char → Option (List β × List Char)} {cs rest : List Char} {a : β}
    (h : element cs = some (a, ',' :: rest)) : listed close element others cs =
      (others (skip rest)).map fun q => (a :: q.1, q.2) := by
  have hcomma : skip (',' :: rest) = ',' :: rest := skip_of_not_space rfl rest
  rw [listed, h, Option.bind_some, hcomma]
  exact if_pos rfl

theorem listed_last {β : Type} {element : List Char → Option (β × List Char)}
    {others : List Char → Option (List β × List Char)} {cs rest : List Char} {a : β}
    (h : element cs = some (a, '\x7d' :: rest)) :
    listed '\x7d' element others cs = some ([a], rest) := by
  have hbrace : skip ('\x7d' :: rest) = '\x7d' :: rest := skip_of_not_space rfl rest
  rw [listed, h, Option.bind_some, hbrace]
  rfl

end AuraWellness.Lib.Stringify
