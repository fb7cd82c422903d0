import Mathlib.Data.List.Basic
import Mathlib.Algebra.GroupWithZero.Nat
import Mathlib.Data.Int.Order.Basic

/-!
# JSON texts as JavaScript reads and writes them

`JSON.parse` by recursive descent, what a parsed value is worth as a condition,
and `JSON.stringify` for an object whose members are strings. Strings are
sequences of UTF-16 code units, so that an escape may denote half of a surrogate
pair. A number keeps its decimal notation; the double that it denotes is zero
when it is no more than half of the least positive one.
-/

namespace AuraWellness.Lib.Json

/-- A number as it is written, `±digits · 10 ^ exponent`. -/
structure Decimal where
  /-- It has a minus sign. -/
  negative : Bool
  /-- All its digits, read without the point. -/
  digits : ℕ
  /-- The power of ten that the point and the exponent part make up. -/
  exponent : ℤ
  deriving DecidableEq, Repr

/-- The nearest double is zero, ties going to the even zero. -/
def Decimal.RoundsToZero (n : Decimal) : Prop :=
  n.digits * 10 ^ n.exponent.toNat * 2 ^ 1075 ≤ 10 ^ (-n.exponent).toNat

instance (n : Decimal) : Decidable n.RoundsToZero :=
  inferInstanceAs (Decidable (n.digits * 10 ^ n.exponent.toNat * 2 ^ 1075 ≤
    10 ^ (-n.exponent).toNat))

/-- A parsed value. Of several members with one name JavaScript keeps the last. -/
inductive Value
  | null
  | bool (b : Bool)
  | number (n : Decimal)
  | string (units : List UInt16)
  | array (items : List Value)
  | object (members : List (List UInt16 × Value))

/-- What the value is worth as a condition. -/
def Value.truthy : Value → Bool
  | .null => false
  | .bool b => b
  | .number n => !decide n.RoundsToZero
  | .string units => !units.isEmpty
  | .array _ => true
  | .object _ => true

mutual

/-- How deep arrays and objects are nested in the value. -/
def Value.depth : Value → ℕ
  | .array items => depthItems items + 1
  | .object members => depthMembers members + 1
  | _ => 0

/-- How deep they are in the items of an array. -/
def depthItems : List Value → ℕ
  | [] => 0
  | v :: vs => max v.depth (depthItems vs)

/-- How deep they are in a member of an object. -/
def depthMember : List UInt16 × Value → ℕ
  | (_, v) => v.depth

/-- How deep they are in the members of an object. -/
def depthMembers : List (List UInt16 × Value) → ℕ
  | [] => 0
  | m :: ms => max (depthMember m) (depthMembers ms)

end

/-- Whitespace between tokens. -/
def isSpace (c : Char) : Bool := c = ' ' || c = '\t' || c = '\n' || c = '\r'

/-- Leave out leading whitespace. -/
def skip (cs : List Char) : List Char := cs.dropWhile isSpace

/-- The UTF-16 code units of a character. -/
def utf16 (c : Char) : List UInt16 :=
  if c.toNat < 0x10000 then [c.toNat.toUInt16]
  else [(0xD800 + (c.toNat - 0x10000) / 0x400).toUInt16,
    (0xDC00 + (c.toNat - 0x10000) % 0x400).toUInt16]

/-- The code units of a string. -/
def units (text : String) : List UInt16 := text.toList.flatMap utf16

/-- A hexadecimal digit of either case. -/
def hexDigit (c : Char) : Option ℕ :=
  if '0' ≤ c ∧ c ≤ '9' then some (c.toNat - '0'.toNat)
  else if 'a' ≤ c ∧ c ≤ 'f' then some (c.toNat - 'a'.toNat + 10)
  else if 'A' ≤ c ∧ c ≤ 'F' then some (c.toNat - 'A'.toNat + 10)
  else none

/-- The code unit of four hexadecimal digits. -/
def hexUnit (a b c d : Char) : Option UInt16 := do
  let a ← hexDigit a
  let b ← hexDigit b
  let c ← hexDigit c
  let d ← hexDigit d
  some (((a * 16 + b) * 16 + c) * 16 + d).toUInt16

/-- The character that a two-character escape denotes. -/
def escaped : Char → Option Char
  | '\x22' => some '\x22'
  | '\\' => some '\\'
  | '/' => some '/'
  | 'b' => some '\x08'
  | 'f' => some '\x0c'
  | 'n' => some '\n'
  | 'r' => some '\r'
  | 't' => some '\t'
  | _ => none

/-- The rest of a string after its opening quote. -/
def stringBody : List Char → Option (List UInt16 × List Char)
  | [] => none
  | '\x22' :: cs => some ([], cs)
  | '\\' :: 'u' :: a :: b :: c :: d :: cs =>
    (hexUnit a b c d).bind fun unit => (stringBody cs).map fun p => (unit :: p.1, p.2)
  | '\\' :: c :: cs =>
    (escaped c).bind fun e => (stringBody cs).map fun p => (utf16 e ++ p.1, p.2)
  | c :: cs =>
    if c.toNat < 0x20 then none else (stringBody cs).map fun p => (utf16 c ++ p.1, p.2)

/-- The number that digits denote. -/
def ofDigits (ds : List Char) : ℕ := ds.foldl (fun n c => 10 * n + (c.toNat - '0'.toNat)) 0

/-- One digit or more. -/
def digits (cs : List Char) : Option (List Char × List Char) :=
  match cs.takeWhile Char.isDigit with
  | [] => none
  | ds => some (ds, cs.dropWhile Char.isDigit)

/-- The digits before the point, without a leading zero. -/
def whole (cs : List Char) : Option (List Char × List Char) :=
  match cs with
  | '0' :: cs => some (['0'], cs)
  | cs => digits cs

/-- The digits after the point, if there is one. -/
def fraction (cs : List Char) : Option (List Char × List Char) :=
  match cs with
  | '.' :: cs => digits cs
  | cs => some ([], cs)

/-- The digits of an exponent with its sign. -/
def signed (cs : List Char) : Option (ℤ × List Char) :=
  match cs with
  | '-' :: cs => (digits cs).map fun p => (-(ofDigits p.1 : ℤ), p.2)
  | '+' :: cs => (digits cs).map fun p => ((ofDigits p.1 : ℤ), p.2)
  | cs => (digits cs).map fun p => ((ofDigits p.1 : ℤ), p.2)

/-- The exponent part, if there is one. -/
def exponent (cs : List Char) : Option (ℤ × List Char) :=
  match cs with
  | 'e' :: cs => signed cs
  | 'E' :: cs => signed cs
  | cs => some (0, cs)

/-- A number after its sign. -/
def unsigned (negative : Bool) (cs : List Char) : Option (Decimal × List Char) := do
  let (before, cs) ← whole cs
  let (after, cs) ← fraction cs
  let (power, cs) ← exponent cs
  some (⟨negative, ofDigits (before ++ after), power - after.length⟩, cs)

/-- A number. -/
def number (cs : List Char) : Option (Decimal × List Char) :=
  match cs with
  | '-' :: cs => unsigned true cs
  | cs => unsigned false cs

/-- An empty list, or what the reader finds up to the closing bracket. -/
def bracketed {β : Type} (close : Char) (reader : List Char → Option (List β × List Char))
    (cs : List Char) : Option (List β × List Char) :=
  match skip cs with
  | [] => none
  | c :: rest => if c = close then some ([], rest) else reader (c :: rest)

/-- One element, and after a comma the rest of the list up to the closing bracket. -/
def listed {β : Type} (close : Char) (element : List Char → Option (β × List Char))
    (others : List Char → Option (List β × List Char)) (cs : List Char) :
    Option (List β × List Char) :=
  (element cs).bind fun p =>
    match skip p.2 with
    | [] => none
    | c :: rest =>
      if c = ',' then (others (skip rest)).map fun q => (p.1 :: q.1, q.2)
      else if c = close then some ([p.1], rest)
      else none

mutual

/-- A value at the front of the text. -/
def value : ℕ → List Char → Option (Value × List Char)
  | 0, _ => none
  | fuel + 1, cs =>
    match cs with
    | 'n' :: 'u' :: 'l' :: 'l' :: cs => some (.null, cs)
    | 't' :: 'r' :: 'u' :: 'e' :: cs => some (.bool true, cs)
    | 'f' :: 'a' :: 'l' :: 's' :: 'e' :: cs => some (.bool false, cs)
    | '\x22' :: cs => (stringBody cs).map fun p => (.string p.1, p.2)
    | '[' :: cs => (bracketed ']' (items fuel) cs).map fun p => (.array p.1, p.2)
    | '\x7b' :: cs =>
      (bracketed '\x7d' (members fuel) cs).map fun p => (.object p.1, p.2)
    | cs => (number cs).map fun p => (.number p.1, p.2)

/-- The items of an array up to its closing bracket. -/
def items : ℕ → List Char → Option (List Value × List Char)
  | 0, _ => none
  | fuel + 1, cs => listed ']' (value fuel) (items fuel) cs

/-- A name, a colon and a value. -/
def member : ℕ → List Char → Option ((List UInt16 × Value) × List Char)
  | 0, _ => none
  | fuel + 1, cs =>
    match cs with
    | '\x22' :: cs =>
      (stringBody cs).bind fun name =>
        match skip name.2 with
        | ':' :: cs => (value fuel (skip cs)).map fun p => ((name.1, p.1), p.2)
        | _ => none
    | _ => none

/-- The members of an object up to its closing brace. -/
def members : ℕ → List Char → Option (List (List UInt16 × Value) × List Char)
  | 0, _ => none
  | fuel + 1, cs => listed '\x7d' (member fuel) (members fuel) cs

end

/-- `JSON.parse`: one value with whitespace around it. -/
def parse (text : String) : Option Value :=
  match value (2 * text.toList.length + 1) (skip text.toList) with
  | some (v, rest) => if skip rest = [] then some v else none
  | none => none

theorem length_skip_le (cs : List Char) : (skip cs).length ≤ cs.length :=
  (List.dropWhile_suffix isSpace).length_le

/-! What a reader leaves over is shorter than what it was given. -/

theorem stringBody_shorter {cs : List Char} {r : List UInt16 × List Char}
    (h : stringBody cs = some r) : r.2.length < cs.length := by
  fun_induction stringBody cs generalizing r with
  | case1 => cases h
  | case2 cs =>
    cases h
    simp
  | case3 a b c d cs ih =>
    obtain ⟨unit, -, h⟩ := Option.bind_eq_some_iff.mp h
    obtain ⟨p, hp, rfl⟩ := Option.map_eq_some_iff.mp h
    have hlt := ih hp
    simp only [List.length_cons]
    omega
  | case4 c cs _ ih =>
    obtain ⟨e, -, h⟩ := Option.bind_eq_some_iff.mp h
    obtain ⟨p, hp, rfl⟩ := Option.map_eq_some_iff.mp h
    have hlt := ih hp
    simp only [List.length_cons]
    omega
  | case5 c cs _ _ _ hlt => cases h
  | case6 c cs _ _ _ _ ih =>
    obtain ⟨p, hp, rfl⟩ := Option.map_eq_some_iff.mp h
    have hlt := ih hp
    simp only [List.length_cons]
    omega

theorem digits_shorter {cs : List Char} {r : List Char × List Char} (h : digits cs = some r) :
    r.2.length < cs.length := by
  unfold digits at h
  split at h
  · cases h
  · next hds =>
    cases h
    have hsplit := congrArg List.length
      (List.takeWhile_append_dropWhile (p := Char.isDigit) (l := cs))
    have hpos : 0 < (cs.takeWhile Char.isDigit).length := List.length_pos_of_ne_nil hds
    rw [List.length_append] at hsplit
    dsimp only
    omega

theorem whole_shorter {cs : List Char} {r : List Char × List Char} (h : whole cs = some r) :
    r.2.length < cs.length := by
  unfold whole at h
  split at h
  · cases h
    simp
  · exact digits_shorter h

theorem fraction_le {cs : List Char} {r : List Char × List Char} (h : fraction cs = some r) :
    r.2.length ≤ cs.length := by
  unfold fraction at h
  split at h
  · have hlt := digits_shorter h
    rw [List.length_cons]
    omega
  · cases h
    exact Nat.le_refl _

theorem signed_shorter {cs : List Char} {r : ℤ × List Char} (h : signed cs = some r) :
    r.2.length < cs.length := by
  unfold signed at h
  split at h
  all_goals
    obtain ⟨p, hp, rfl⟩ := Option.map_eq_some_iff.mp h
    have hlt := digits_shorter hp
    simp only [List.length_cons]
    omega

theorem exponent_le {cs : List Char} {r : ℤ × List Char} (h : exponent cs = some r) :
    r.2.length ≤ cs.length := by
  unfold exponent at h
  split at h
  · have hlt := signed_shorter h
    rw [List.length_cons]
    omega
  · have hlt := signed_shorter h
    rw [List.length_cons]
    omega
  · cases h
    exact Nat.le_refl _

theorem unsigned_shorter {negative : Bool} {cs : List Char} {r : Decimal × List Char}
    (h : unsigned negative cs = some r) : r.2.length < cs.length := by
  obtain ⟨⟨before, cs₁⟩, hwhole, h⟩ := Option.bind_eq_some_iff.mp h
  obtain ⟨⟨after, cs₂⟩, hfraction, h⟩ := Option.bind_eq_some_iff.mp h
  obtain ⟨⟨power, cs₃⟩, hexponent, h⟩ := Option.bind_eq_some_iff.mp h
  cases h
  have h₁ := whole_shorter hwhole
  have h₂ := fraction_le hfraction
  have h₃ := exponent_le hexponent
  dsimp only at *
  omega

theorem number_shorter {cs : List Char} {r : Decimal × List Char} (h : number cs = some r) :
    r.2.length < cs.length := by
  unfold number at h
  split at h
  · have hlt := unsigned_shorter h
    rw [List.length_cons]
    omega
  · exact unsigned_shorter h

/-- What the reader finds with this fuel leaves over less than the text, and with every
fuel that the length of the text calls for it finds the same. -/
def Settles {β : Type} (reader : ℕ → List Char → Option (β × List Char)) (extra fuel : ℕ) : Prop :=
  ∀ cs r, reader fuel cs = some r →
    r.2.length < cs.length ∧ ∀ g, 2 * cs.length + extra ≤ g → reader g cs = some r

theorem exists_fuel {n g : ℕ} (h : n < g) : ∃ g', g = g' + 1 ∧ n ≤ g' :=
  ⟨g - 1, by omega, by omega⟩

theorem settles_bracketed {β : Type} {close : Char}
    {reader : ℕ → List Char → Option (List β × List Char)} {extra f : ℕ}
    (hreader : Settles reader extra f) {cs : List Char} {r : List β × List Char}
    (h : bracketed close (reader f) cs = some r) :
    r.2.length < cs.length ∧
      ∀ g, 2 * cs.length + extra ≤ g → bracketed close (reader g) cs = some r := by
  have hskip := length_skip_le cs
  unfold bracketed at h ⊢
  split at h
  · cases h
  · next c rest heq =>
    rw [heq, List.length_cons] at hskip
    split at h
    · next hclose =>
      cases h
      exact ⟨hskip, fun g _ => if_pos hclose⟩
    · next hclose =>
      obtain ⟨hlt, hall⟩ := hreader _ _ h
      rw [List.length_cons] at hlt hall
      exact ⟨by omega, fun g hg => (if_neg hclose).trans (hall g (by omega))⟩

theorem settles_listed {β : Type} {close : Char}
    {element : ℕ → List Char → Option (β × List Char)}
    {others : ℕ → List Char → Option (List β × List Char)} {extra f : ℕ}
    (helement : Settles element extra f) (hothers : Settles others (extra + 1) f)
    {cs : List Char} {r : List β × List Char}
    (h : listed close (element f) (others f) cs = some r) :
    r.2.length < cs.length ∧
      ∀ g, 2 * cs.length + extra ≤ g → listed close (element g) (others g) cs = some r := by
  unfold listed at h ⊢
  obtain ⟨p, hp, h⟩ := Option.bind_eq_some_iff.mp h
  obtain ⟨hlt, hall⟩ := helement _ _ hp
  have hskip := length_skip_le p.2
  split at h
  · cases h
  · next c rest heq =>
    rw [heq, List.length_cons] at hskip
    split at h
    · next hcomma =>
      obtain ⟨q, hq, rfl⟩ := Option.map_eq_some_iff.mp h
      obtain ⟨hlt', hall'⟩ := hothers _ _ hq
      have hskip' := length_skip_le rest
      refine ⟨by dsimp only; omega, fun g hg => ?_⟩
      rw [hall g hg, Option.bind_some, heq]
      dsimp only
      rw [if_pos hcomma, hall' g (by omega)]
      rfl
    · next hcomma =>
      split at h
      · next hclose =>
        cases h
        refine ⟨by dsimp only; omega, fun g hg => ?_⟩
        rw [hall g hg, Option.bind_some, heq]
        exact (if_neg hcomma).trans (if_pos hclose)
      · cases h

theorem settles_value {f : ℕ} (hitems : Settles items 2 f) (hmembers : Settles members 2 f) :
    Settles value 1 (f + 1) := by
  intro cs r h
  refine ⟨?_, fun g hg => ?_⟩
  · unfold value at h
    split at h
    case h_4 =>
      obtain ⟨p, hp, rfl⟩ := Option.map_eq_some_iff.mp h
      exact Nat.lt_succ_of_lt (stringBody_shorter hp)
    case h_5 =>
      obtain ⟨p, hp, rfl⟩ := Option.map_eq_some_iff.mp h
      exact Nat.lt_succ_of_lt (settles_bracketed hitems hp).1
    case h_6 =>
      obtain ⟨p, hp, rfl⟩ := Option.map_eq_some_iff.mp h
      exact Nat.lt_succ_of_lt (settles_bracketed hmembers hp).1
    case h_7 =>
      obtain ⟨p, hp, rfl⟩ := Option.map_eq_some_iff.mp h
      exact number_shorter hp
    all_goals
      cases h
      simp only [List.length_cons]
      omega
  · obtain ⟨g, rfl, hg⟩ := exists_fuel hg
    unfold value at h ⊢
    split at h
    case h_5 =>
      obtain ⟨p, hp, rfl⟩ := Option.map_eq_some_iff.mp h
      rw [List.length_cons] at hg
      exact congrArg (Option.map _) ((settles_bracketed hitems hp).2 g (by omega))
    case h_6 =>
      obtain ⟨p, hp, rfl⟩ := Option.map_eq_some_iff.mp h
      rw [List.length_cons] at hg
      exact congrArg (Option.map _) ((settles_bracketed hmembers hp).2 g (by omega))
    all_goals exact h

theorem settles_items {f : ℕ} (hvalue : Settles value 1 f) (hitems : Settles items 2 f) :
    Settles items 2 (f + 1) := by
  intro cs r h
  obtain ⟨hlt, hall⟩ := settles_listed hvalue hitems h
  refine ⟨hlt, fun g hg => ?_⟩
  obtain ⟨g, rfl, hg⟩ := exists_fuel hg
  exact hall g (by omega)

theorem settles_member {f : ℕ} (hvalue : Settles value 1 f) : Settles member 1 (f + 1) := by
  intro cs r h
  unfold member at h
  split at h
  · next cs =>
    obtain ⟨name, hname, h⟩ := Option.bind_eq_some_iff.mp h
    have hlt := stringBody_shorter hname
    have hskip := length_skip_le name.2
    split at h
    · next rest heq =>
      obtain ⟨p, hp, rfl⟩ := Option.map_eq_some_iff.mp h
      obtain ⟨hlt', hall⟩ := hvalue _ _ hp
      have hskip' := length_skip_le rest
      rw [heq, List.length_cons] at hskip
      rw [List.length_cons]
      refine ⟨by dsimp only; omega, fun g hg => ?_⟩
      obtain ⟨g, rfl, hg⟩ := exists_fuel hg
      have hfound := hall g (by omega)
      simp only [member, hname, Option.bind_some, heq, hfound, Option.map_some]
    · cases h
  · cases h

theorem settles_members {f : ℕ} (hmember : Settles member 1 f) (hmembers : Settles members 2 f) :
    Settles members 2 (f + 1) := by
  intro cs r h
  obtain ⟨hlt, hall⟩ := settles_listed hmember hmembers h
  refine ⟨hlt, fun g hg => ?_⟩
  obtain ⟨g, rfl, hg⟩ := exists_fuel hg
  exact hall g (by omega)

/-- A reader without fuel finds nothing. -/
theorem settles_zero {β : Type} {reader : ℕ → List Char → Option (β × List Char)} {extra : ℕ}
    (h : ∀ cs, reader 0 cs = none) : Settles reader extra 0 := fun cs r hr => by
  rw [h] at hr
  cases hr

/-- What is found with some fuel is found with every fuel that the length calls for. -/
theorem settles (f : ℕ) :
    Settles value 1 f ∧ Settles items 2 f ∧ Settles member 1 f ∧ Settles members 2 f := by
  induction f with
  | zero =>
    exact ⟨settles_zero fun _ => rfl, settles_zero fun _ => rfl, settles_zero fun _ => rfl,
      settles_zero fun _ => rfl⟩
  | succ f ih =>
    obtain ⟨hvalue, hitems, hmember, hmembers⟩ := ih
    exact ⟨settles_value hitems hmembers, settles_items hvalue hitems, settles_member hvalue,
      settles_members hmember hmembers⟩

/-- `parse` finds what any fuel finds, so it never gives up for want of fuel. -/
theorem parse_of_value {text : String} {f : ℕ} {v : Value} {rest : List Char}
    (h : value f (skip text.toList) = some (v, rest)) (hrest : skip rest = []) :
    parse text = some v := by
  have hlen := length_skip_le text.toList
  unfold parse
  rw [((settles f).1 _ _ h).2 _ (by omega)]
  exact if_pos hrest

example : (parse " [1, \x7b\"a\" : null\x7d] ").map Value.truthy = some true := by decide +kernel

example : (parse "2e-324").map Value.truthy = some false := by decide +kernel

example : (parse "[1,]").isNone = true := by decide +kernel

end AuraWellness.Lib.Json
