import AuraWellness.Lib.Wire

/-!
# Reading JSON objects into fields

JavaScript takes the last member of a name. Go decodes every member whose name it
takes for that of a field, without regard to case, into the field, one after the
other; `null` leaves the field as it is. Both find the members of an object that
has been written with different names.
-/

namespace AuraWellness.Lib.Fields

open AuraWellness.Lib.Json AuraWellness.Lib.CodePoints AuraWellness.Lib.Wire

/-- A property of an object; a missing one is undefined. -/
def property (name : String) (ms : List (List UInt16 × Value)) : Option Value :=
  (ms.reverse.find? fun m => m.1 = units name).map Prod.snd

/-- The letter that Go compares, as far as the letters of ASCII are concerned: two
other characters fold to one of them. -/
def foldRune (c : Char) : Char :=
  if 'a' ≤ c ∧ c ≤ 'z' then c.toUpper
  else if c = '\u017F' then 'S'
  else if c = '\u212A' then 'K'
  else c

/-- The name that Go compares. -/
def foldName (name : String) : List Char := name.toList.map foldRune

/-- Decode the members that Go takes for a field into it. -/
def field {α : Type} (name : String) (into : α → Value → Option α) (old : α)
    (ms : List (List UInt16 × Value)) : Option α :=
  (ms.filter fun m => foldName (decode m.1) = foldName name).foldlM (fun a m => into a m.2) old

/-- Decode a string into a field by a parser. -/
def scalar {α : Type} (read : String → Option α) (old : α) : Value → Option α
  | .null => some old
  | .string us => read (decode us)
  | _ => none

/-- Decode an object into a struct by its fields. -/
def struct {α : Type} (fields : α → List (List UInt16 × Value) → Option α) (old : α) :
    Value → Option α
  | .null => some old
  | .object ms => fields old ms
  | _ => none

/-- The members of an object of strings. -/
theorem meaning_texts {τ : Type} (q : Quoting τ) (ms : List (τ × τ)) :
    (texts ms).meaning q = ms.map fun m => (q.meaning m.1, Value.string (q.meaning m.2)) := by
  induction ms with
  | nil => rfl
  | cons m ms ih => rw [texts, Members.meaning, ih, Tree.meaning, List.map_cons]

/-- Among entries with different keys one is alone with its key. -/
theorem filter_key {α κ : Type} [DecidableEq κ] {key : α → κ} {as : List α}
    (h : (as.map key).Nodup) {a : α} (ha : a ∈ as) : as.filter (fun b => key b = key a) = [a] := by
  induction as with
  | nil => cases ha
  | cons b as ih =>
    rw [List.map_cons, List.nodup_cons] at h
    obtain ⟨hnew, hnodup⟩ := h
    obtain rfl | hmem := List.mem_cons.mp ha
    · have hnone : as.filter (fun c => key c = key a) = [] := by
        refine List.filter_eq_nil_iff.mpr fun c hc => ?_
        rw [decide_eq_true_eq]
        exact fun heq => hnew (heq ▸ List.mem_map_of_mem hc)
      rw [List.filter_cons_of_pos (p := fun b => key b = key a) (decide_eq_true rfl), hnone]
    · have hother : key b ≠ key a := fun heq => hnew (heq ▸ List.mem_map_of_mem hmem)
      rw [List.filter_cons_of_neg (by rw [decide_eq_true_eq]; exact hother)]
      exact ih hnodup hmem

/-- Two texts with the same code units are one. -/
theorem units_inj {s t : String} (h : units s = units t) : s = t := by
  rw [← decode_units s, h, decode_units]

/-- The members with a name, when they are given as texts. -/
theorem filter_name (name : String) (ms : List (String × Value)) :
    (ms.map fun m => (units m.1, m.2)).filter (fun m => foldName (decode m.1) = foldName name) =
      (ms.filter fun m => foldName m.1 = foldName name).map fun m => (units m.1, m.2) := by
  rw [List.filter_map]
  refine congrArg (List.map _) (List.filter_congr fun m _ => ?_)
  simp only [Function.comp_apply, decode_units]

/-- A field gets the member that has its name, if no other is taken for it. -/
theorem field_eq {α : Type} {ms : List (String × Value)}
    (h : (ms.map fun m => foldName m.1).Nodup) {m : String × Value} (hm : m ∈ ms)
    (into : α → Value → Option α) (old : α) :
    field m.1 into old (ms.map fun m => (units m.1, m.2)) = into old m.2 := by
  unfold field
  rw [filter_name, filter_key h hm]
  exact bind_pure _

/-- A property is the member that has its name, if no other has. -/
theorem property_eq {ms : List (String × Value)} (h : (ms.map Prod.fst).Nodup)
    {m : String × Value} (hm : m ∈ ms) :
    property m.1 (ms.map fun m => (units m.1, m.2)) = some m.2 := by
  have hname : (ms.map fun m => (units m.1, m.2)).filter (fun x => x.1 = units m.1) =
      (ms.filter fun x => x.1 = m.1).map fun m => (units m.1, m.2) := by
    rw [List.filter_map]
    refine congrArg (List.map _) (List.filter_congr fun x _ => ?_)
    exact decide_eq_decide.mpr ⟨units_inj, congrArg units⟩
  unfold property
  rw [← List.head?_filter, List.filter_reverse, hname, filter_key h hm]
  rfl

/-- The members of an object of strings that Go writes. -/
theorem go_members (ms : List (String × String)) : (texts ms).meaning go =
    (ms.map fun m => (m.1, Value.string (units m.2))).map fun m => (units m.1, m.2) := by
  rw [meaning_texts, List.map_map]
  rfl

/-- The members of an object of strings that JavaScript writes. -/
theorem javaScript_members (ms : List (String × List UInt16)) :
    (texts (ms.map fun m => (units m.1, m.2))).meaning javaScript =
      (ms.map fun m => (m.1, Value.string m.2)).map fun m => (units m.1, m.2) := by
  rw [meaning_texts, List.map_map, List.map_map]
  rfl

/-- Go parses the string that Go has written for a field. -/
theorem field_go {α : Type} {ms : List (String × String)}
    (h : (ms.map fun m => foldName m.1).Nodup) {m : String × String} (hm : m ∈ ms)
    (read : String → Option α) (old : α) :
    field m.1 (scalar read) old ((texts ms).meaning go) = read m.2 := by
  rw [go_members]
  refine (field_eq (by rw [List.map_map]; exact h)
    (List.mem_map_of_mem (f := fun m => (m.1, Value.string (units m.2))) hm) _ old).trans ?_
  exact congrArg read (decode_units m.2)

/-- Go parses the decoded string that JavaScript has written for a field. -/
theorem field_javaScript {α : Type} {ms : List (String × List UInt16)}
    (h : (ms.map fun m => foldName m.1).Nodup) {m : String × List UInt16} (hm : m ∈ ms)
    (read : String → Option α) (old : α) :
    field m.1 (scalar read) old ((texts (ms.map fun m => (units m.1, m.2))).meaning javaScript) =
      read (decode m.2) := by
  rw [javaScript_members]
  exact field_eq (by rw [List.map_map]; exact h)
    (List.mem_map_of_mem (f := fun m => (m.1, Value.string m.2)) hm) _ old

/-- JavaScript finds the string that Go has written for a property. -/
theorem property_go {ms : List (String × String)} (h : (ms.map Prod.fst).Nodup)
    {m : String × String} (hm : m ∈ ms) :
    property m.1 ((texts ms).meaning go) = some (.string (units m.2)) := by
  rw [go_members]
  exact property_eq (by rw [List.map_map]; exact h)
    (List.mem_map_of_mem (f := fun m => (m.1, Value.string (units m.2))) hm)

end AuraWellness.Lib.Fields
