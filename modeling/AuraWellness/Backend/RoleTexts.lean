import AuraWellness.Backend.Services

/-!
# The texts of a role

`Enum.TryParse` takes a decimal integer or a list of declared names, and the
services refuse the value of Owner afterwards. What is left are the two words of
the error message and two kinds of text with a value that no name declares.
-/

namespace AuraWellness.Backend.RoleTexts

open AuraWellness.Chat.Entities
open AuraWellness.Backend.Entities AuraWellness.Backend.Services

/-- The role is one of the three declared ones. -/
def Declared (role : StaffRole) : Prop :=
  role = StaffRole.owner ∨ role = StaffRole.admin ∨ role = StaffRole.staff

instance (role : StaffRole) : Decidable (Declared role) := by
  unfold Declared
  infer_instance

/-- The text without the white space that it starts with. -/
def started (text : String) : List Char := text.toList.dropWhile isWhiteSpace

/-- A digit or a sign. -/
def StartsNumber (c : Char) : Prop := c.isDigit ∨ c = '-' ∨ c = '+'

instance (c : Char) : Decidable (StartsNumber c) := by
  unfold StartsNumber
  infer_instance

/-- The integer that the text writes. -/
def writtenNumber (text : String) : Option ℤ :=
  match started text with
  | [] => none
  | c :: cs => if StartsNumber c then integer? (dropTrailing (c :: cs)) else none

/-- The names that the text lists, in lower case. -/
def listedNames (text : String) : List (List Char) :=
  (splitCommas (started text)).map fun part => (trim part).map Char.toLower

/-- The text is an integer of the underlying type that no role has. -/
def WritesUndeclared (text : String) : Prop :=
  ∃ n ∈ writtenNumber text, -2147483648 ≤ n ∧ n ≤ 2147483647 ∧ ¬Declared n

/-- The text lists declared names, Admin and Staff among them. -/
def CombinesRoles (text : String) : Prop :=
  (∀ name ∈ listedNames text, name = "owner".toList ∨ name = "admin".toList ∨
      name = "staff".toList) ∧
    "admin".toList ∈ listedNames text ∧ "staff".toList ∈ listedNames text

/-- The kinds of text whose value no role has. -/
def Undeclared (text : String) : Prop := WritesUndeclared text ∨ CombinesRoles text

/-- A name has the value of its declaration. -/
theorem roleNamed?_eq_some {cs : List Char} {role : StaffRole} :
    roleNamed? cs = some role ↔
      (cs.map Char.toLower = "owner".toList ∧ role = StaffRole.owner) ∨
      (cs.map Char.toLower = "admin".toList ∧ role = StaffRole.admin) ∨
      (cs.map Char.toLower = "staff".toList ∧ role = StaffRole.staff) := by
  have howner : "Owner".toList.map Char.toLower = "owner".toList := by decide
  have hadmin : "Admin".toList.map Char.toLower = "admin".toList := by decide
  have hstaff : "Staff".toList.map Char.toLower = "staff".toList := by decide
  unfold roleNamed? StaffRole.names
  generalize cs.map Char.toLower = name
  simp only [List.find?_cons, howner, hadmin, hstaff, List.find?_nil, eq_comm (b := name)]
  by_cases h₁ : name = "owner".toList
  · rw [h₁]
    simp [eq_comm]
  by_cases h₂ : name = "admin".toList
  · rw [h₂]
    simp [eq_comm]
  by_cases h₃ : name = "staff".toList
  · rw [h₃]
    simp [eq_comm]
  · simp only [h₁, h₂, h₃, decide_false, Option.map_none, false_and, or_false, reduceCtorEq]

/-- A bit of combined values is a bit of one of them. -/
theorem testBit_combined (values : List StaffRole) (acc i : ℕ) :
    (values.foldl (fun acc v => acc ||| v.toNat) acc).testBit i =
      (acc.testBit i || values.any fun v => v.toNat.testBit i) := by
  induction values generalizing acc with
  | nil => simp
  | cons v values ih => rw [List.foldl_cons, ih, Nat.testBit_or, List.any_cons, Bool.or_assoc]

/-- Combined roles have a value that no role has exactly if Admin and Staff are
among them. -/
theorem combined_undeclared_iff {values : List StaffRole} (h : ∀ v ∈ values, Declared v) :
    ¬Declared ((values.foldl (fun acc v => acc ||| v.toNat) 0 : ℕ) : ℤ) ↔
      StaffRole.admin ∈ values ∧ StaffRole.staff ∈ values := by
  have hbit := testBit_combined values 0
  generalize values.foldl (fun acc v => acc ||| v.toNat) 0 = n at hbit ⊢
  have hsmall : n < 4 := by
    refine Nat.lt_pow_two_of_testBit (n := 2) n fun i hi => ?_
    rw [hbit, Nat.zero_testBit, Bool.false_or]
    refine List.any_eq_false.mpr fun v hv => ?_
    have hv : v.toNat < 4 := by
      obtain rfl | rfl | rfl := h v hv <;> decide
    have hpow : 4 ≤ 2 ^ i := Nat.pow_le_pow_right Nat.two_pos hi
    rw [Nat.testBit_lt_two_pow (hv.trans_le hpow)]
    exact Bool.false_ne_true
  have hadmin : n.testBit 0 = true ↔ StaffRole.admin ∈ values := by
    rw [hbit, Nat.zero_testBit, Bool.false_or, List.any_eq_true]
    constructor
    · rintro ⟨v, hv, hone⟩
      obtain rfl | rfl | rfl := h v hv
      · cases hone
      · exact hv
      · cases hone
    · intro hv
      exact ⟨_, hv, rfl⟩
  have hstaff : n.testBit 1 = true ↔ StaffRole.staff ∈ values := by
    rw [hbit, Nat.zero_testBit, Bool.false_or, List.any_eq_true]
    constructor
    · rintro ⟨v, hv, htwo⟩
      obtain rfl | rfl | rfl := h v hv
      · cases htwo
      · cases htwo
      · exact hv
    · intro hv
      exact ⟨_, hv, rfl⟩
  rw [← hadmin, ← hstaff]
  obtain rfl | rfl | rfl | rfl : n = 0 ∨ n = 1 ∨ n = 2 ∨ n = 3 := by omega
  all_goals decide

/-- All replies of a list of lookups. -/
theorem mapM_eq_some {α β : Type} {f : α → Option β} {l : List α} {values : List β} :
    l.mapM f = some values ↔ l.map f = values.map some := by
  induction l generalizing values with
  | nil => cases values <;> simp
  | cons a l ih =>
    rw [List.mapM_cons]
    cases ha : f a with
    | none => cases values <;> simp [ha]
    | some b =>
      cases values with
      | nil => simp [Option.bind_eq_some_iff]
      | cons v values => simp [ha, Option.bind_eq_some_iff, ih, and_comm]

theorem roleNamed?_admin {cs : List Char} :
    roleNamed? cs = some StaffRole.admin ↔ cs.map Char.toLower = "admin".toList := by
  have howner : StaffRole.admin ≠ StaffRole.owner := by decide
  have hstaff : StaffRole.admin ≠ StaffRole.staff := by decide
  simp only [roleNamed?_eq_some, howner, hstaff, and_false, false_or, or_false, and_true]

theorem roleNamed?_staff {cs : List Char} :
    roleNamed? cs = some StaffRole.staff ↔ cs.map Char.toLower = "staff".toList := by
  have howner : StaffRole.staff ≠ StaffRole.owner := by decide
  have hadmin : StaffRole.staff ≠ StaffRole.admin := by decide
  simp only [roleNamed?_eq_some, howner, hadmin, and_false, false_or, and_true]

/-- A named value is a declared one. -/
theorem roleNamed?_declared {cs : List Char} {role : StaffRole} (h : roleNamed? cs = some role) :
    Declared role := by
  obtain ⟨-, rfl⟩ | ⟨-, rfl⟩ | ⟨-, rfl⟩ := roleNamed?_eq_some.mp h
  · exact Or.inl rfl
  · exact Or.inr (Or.inl rfl)
  · exact Or.inr (Or.inr rfl)

/-- A list of names has a value that no role has exactly if all names are
declared and Admin and Staff are among them. -/
theorem rolesNamed?_undeclared_iff {parts : List (List Char)} :
    (∃ role, rolesNamed? parts = some role ∧ ¬Declared role) ↔
      (∀ part ∈ parts, ∃ role, roleNamed? (trim part) = some role) ∧
      (∃ part ∈ parts, roleNamed? (trim part) = some StaffRole.admin) ∧
      ∃ part ∈ parts, roleNamed? (trim part) = some StaffRole.staff := by
  unfold rolesNamed?
  have hmem : ∀ values : List StaffRole,
      (parts.mapM fun part => roleNamed? (trim part)) = some values →
        ∀ v, v ∈ values ↔ ∃ part ∈ parts, roleNamed? (trim part) = some v := by
    intro values hvalues v
    rw [← List.mem_map, mapM_eq_some.mp hvalues]
    simp
  constructor
  · rintro ⟨role, hrole, hundeclared⟩
    obtain ⟨values, hvalues, rfl⟩ := Option.map_eq_some_iff.mp hrole
    have hdeclared : ∀ v ∈ values, Declared v := by
      intro v hv
      obtain ⟨part, -, hpart⟩ := (hmem values hvalues v).mp hv
      exact roleNamed?_declared hpart
    obtain ⟨hadmin, hstaff⟩ := (combined_undeclared_iff hdeclared).mp hundeclared
    refine ⟨fun part hpart => ?_, (hmem values hvalues _).mp hadmin,
      (hmem values hvalues _).mp hstaff⟩
    have hsome : roleNamed? (trim part) ∈ values.map some := by
      rw [← mapM_eq_some.mp hvalues]
      exact List.mem_map_of_mem hpart
    obtain ⟨v, -, hv⟩ := List.mem_map.mp hsome
    exact ⟨v, hv.symm⟩
  · rintro ⟨hall, hadmin, hstaff⟩
    have hvalues : (parts.mapM fun part => roleNamed? (trim part)) =
        some (parts.map fun part => (roleNamed? (trim part)).getD StaffRole.owner) := by
      rw [mapM_eq_some, List.map_map]
      refine List.map_congr_left fun part hpart => ?_
      obtain ⟨role, hrole⟩ := hall part hpart
      simp [hrole]
    refine ⟨_, Option.map_eq_some_iff.mpr ⟨_, hvalues, rfl⟩, ?_⟩
    refine (combined_undeclared_iff fun v hv => ?_).mpr
      ⟨(hmem _ hvalues _).mpr hadmin, (hmem _ hvalues _).mpr hstaff⟩
    obtain ⟨part, -, hpart⟩ := (hmem _ hvalues v).mp hv
    exact roleNamed?_declared hpart

/-- The names of a text combine roles exactly if their value is one that no role
has. -/
theorem combinesRoles_iff {text : String} :
    CombinesRoles text ↔
      ∃ role, rolesNamed? (splitCommas (started text)) = some role ∧ ¬Declared role := by
  have hnamed : ∀ part, (∃ role, roleNamed? (trim part) = some role) ↔
      (trim part).map Char.toLower = "owner".toList ∨
        (trim part).map Char.toLower = "admin".toList ∨
        (trim part).map Char.toLower = "staff".toList := by
    intro part
    simp only [roleNamed?_eq_some, exists_or, exists_and_left, exists_eq, and_true]
  rw [rolesNamed?_undeclared_iff]
  simp only [CombinesRoles, listedNames, List.forall_mem_map]
  simp only [List.mem_map, roleNamed?_admin, roleNamed?_staff, hnamed]

/-- What is left of a list after white space has a last member that is none. -/
theorem dropWhile_concat {p : Char → Bool} {c : Char} (h : p c = false) (cs : List Char) :
    ∃ kept, (cs ++ [c]).dropWhile p = kept ++ [c] := by
  induction cs with
  | nil => exact ⟨[], by simp [h]⟩
  | cons d cs ih =>
    by_cases hd : p d = true
    · obtain ⟨kept, hkept⟩ := ih
      exact ⟨kept, by rw [List.cons_append, List.dropWhile_cons_of_pos hd, hkept]⟩
    · exact ⟨d :: cs, by rw [List.cons_append, List.dropWhile_cons_of_neg hd]⟩

/-- Trimming keeps a first character that is not white space. -/
theorem trim_cons {c : Char} (h : isWhiteSpace c = false) (cs : List Char) :
    ∃ rest, trim (c :: cs) = c :: rest := by
  obtain ⟨kept, hkept⟩ := dropWhile_concat h cs.reverse
  refine ⟨kept.reverse, ?_⟩
  unfold trim
  rw [List.dropWhile_cons_of_neg (by simp [h]), List.reverse_cons, hkept]
  simp

/-- The first part of a text that starts like a number starts so, too. -/
theorem splitCommas_cons {c : Char} (h : c ≠ ',') (cs : List Char) :
    ∃ part parts, splitCommas (c :: cs) = (c :: part) :: parts := by
  rw [splitCommas, if_neg h]
  split
  · exact ⟨[], [], rfl⟩
  · exact ⟨_, _, rfl⟩

/-- Where the digits and the signs are. -/
theorem StartsNumber.bounds {c : Char} (h : StartsNumber c) : 43 ≤ c.toNat ∧ c.toNat ≤ 57 := by
  obtain h | rfl | rfl := h
  · simp only [Char.isDigit, Bool.and_eq_true, decide_eq_true_eq, ge_iff_le, UInt32.le_iff_toNat_le]
      at h
    obtain ⟨hlow, hhigh⟩ := h
    have hlow : 48 ≤ c.toNat := hlow
    have hhigh : c.toNat ≤ 57 := hhigh
    omega
  · decide
  · decide

/-- A text that starts like a number lists no declared names. -/
theorem not_combinesRoles_of_startsNumber {text : String} {c : Char} {cs : List Char}
    (hstarted : started text = c :: cs) (h : StartsNumber c) : ¬CombinesRoles text := by
  rintro ⟨hall, -⟩
  have hcomma : c ≠ ',' := by
    rintro rfl
    exact absurd h (by decide)
  obtain ⟨hlow, hhigh⟩ := h.bounds
  have hspace : isWhiteSpace c = false := by
    simp only [isWhiteSpace, Bool.or_eq_false_iff, Bool.and_eq_false_iff, decide_eq_false_iff_not]
    omega
  have hlower : c.toLower = c := by
    unfold Char.toLower
    rw [dif_neg]
    rintro ⟨hupper, -⟩
    have hupper : 65 ≤ c.toNat := UInt32.le_iff_toNat_le.mp hupper
    omega
  obtain ⟨part, parts, hsplit⟩ := splitCommas_cons hcomma cs
  obtain ⟨rest, htrim⟩ := trim_cons hspace part
  have hname : (c :: rest).map Char.toLower ∈ listedNames text := by
    unfold listedNames
    rw [hstarted, hsplit, List.map_cons, htrim]
    exact List.mem_cons_self
  rw [List.map_cons, hlower] at hname
  obtain he | he | he := hall _ hname
  all_goals
    obtain ⟨rfl, -⟩ := List.cons.inj he
    exact absurd h (by decide)

/-- How a text is read, by its first character. -/
theorem tryParseRole_cons {text : String} {c : Char} {cs : List Char}
    (h : started text = c :: cs) :
    tryParseRole text =
      match writtenNumber text with
      | some n => if -2147483648 ≤ n ∧ n ≤ 2147483647 then some n else none
      | none => rolesNamed? (splitCommas (started text)) := by
  unfold tryParseRole writtenNumber
  unfold started at h ⊢
  rw [h]
  dsimp only
  by_cases hc : StartsNumber c
  · have hnumber : c.isDigit ∨ c = '-' ∨ c = '+' := hc
    rw [if_pos hc]
    cases integer? (dropTrailing (c :: cs)) with
    | some n => exact if_pos hnumber
    | none => exact if_pos hnumber
  · have hnames : ¬(c.isDigit ∨ c = '-' ∨ c = '+') := hc
    rw [if_neg hc]
    exact if_neg hnames

/-- The value of a text is one that no role has exactly for the two kinds. -/
theorem tryParseRole_undeclared_iff {text : String} :
    (∃ role, tryParseRole text = some role ∧ ¬Declared role) ↔ Undeclared text := by
  unfold Undeclared WritesUndeclared
  cases hstarted : started text with
  | nil =>
    have hparse : tryParseRole text = none := by
      unfold tryParseRole
      unfold started at hstarted
      rw [hstarted]
    have hnumber : writtenNumber text = none := by
      unfold writtenNumber
      rw [hstarted]
    have hnames : rolesNamed? (splitCommas []) = none := by decide
    rw [combinesRoles_iff, hparse, hnumber, hstarted, hnames]
    simp
  | cons c cs =>
    rw [tryParseRole_cons hstarted]
    cases hnumber : writtenNumber text with
    | none =>
      rw [combinesRoles_iff]
      simp
    | some n =>
      have hstarts : StartsNumber c := by
        unfold writtenNumber at hnumber
        rw [hstarted] at hnumber
        dsimp only at hnumber
        obtain ⟨h, -⟩ := Option.ite_none_right_eq_some.mp hnumber
        exact h
      have hnames := not_combinesRoles_of_startsNumber hstarted hstarts
      by_cases hrange : -2147483648 ≤ n ∧ n ≤ 2147483647
      · simp [hrange, hnames]
      · rw [or_iff_left hnames]
        dsimp only
        rw [if_neg hrange]
        refine iff_of_false (fun ⟨_, h, _⟩ => by cases h) ?_
        rintro ⟨n', hn', hlow, hhigh, -⟩
        cases hn'
        exact hrange ⟨hlow, hhigh⟩

/-- An assignable role is one of the two that the message allows exactly if its
text is not of the two kinds. -/
theorem assignableRole_declared_iff {text : String} {role : StaffRole}
    (h : assignableRole text = some role) :
    (role = StaffRole.admin ∨ role = StaffRole.staff) ↔ ¬Undeclared text := by
  unfold assignableRole at h
  split at h
  · cases h
  rename_i parsed hparse
  split at h
  · cases h
  rename_i hne
  cases h
  rw [← tryParseRole_undeclared_iff]
  constructor
  · rintro hrole ⟨role', hparse', hundeclared⟩
    cases hparse.symm.trans hparse'
    exact hundeclared (Or.inr hrole)
  · intro hno
    by_contra hrole
    refine hno ⟨role, hparse, fun hdeclared => ?_⟩
    exact hdeclared.elim hne hrole

end AuraWellness.Backend.RoleTexts
