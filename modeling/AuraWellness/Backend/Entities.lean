import AuraWellness.Chat.Entities

/-!
# Entities of the backend

Companies, business units, persons and staff profiles with their factory
functions, and the staff role with the parsing of its text. A role is a value
of the underlying integer type of the enumeration, which also has values
without a name.
-/

namespace AuraWellness.Backend.Entities

open AuraWellness.Chat.Entities

/-- A tenant. -/
structure Company where
  /-- Primary key. -/
  id : Uuid
  /-- Name, at most 255 characters. -/
  name : String
  /-- Address. -/
  address : String
  /-- Contact number, at most 50 characters. -/
  contactNumber : String
  /-- Time of creation. -/
  createdAt : Time
  deriving DecidableEq, Repr

/-- A business unit of a company. -/
structure BusinessUnit where
  /-- Primary key. -/
  id : Uuid
  /-- The company. -/
  companyId : Uuid
  /-- Name, at most 255 characters. -/
  name : String
  /-- Time of creation. -/
  createdAt : Time
  deriving DecidableEq, Repr

/-- A person of a company. -/
structure Person where
  /-- Primary key. -/
  id : Uuid
  /-- The company. -/
  companyId : Uuid
  /-- First name, at most 100 characters. -/
  firstName : String
  /-- Last name, at most 100 characters. -/
  lastName : String
  /-- Time of creation. -/
  createdAt : Time
  deriving DecidableEq, Repr

/-- A value of the enumeration's underlying type. -/
abbrev StaffRole := ℤ

/-- `StaffRole.Owner`. -/
abbrev StaffRole.owner : StaffRole := 0

/-- `StaffRole.Admin`. -/
abbrev StaffRole.admin : StaffRole := 1

/-- `StaffRole.Staff`. -/
abbrev StaffRole.staff : StaffRole := 2

/-- A person's account in a business unit. -/
structure BuStaffProfile where
  /-- Primary key. -/
  id : Uuid
  /-- The person. -/
  personId : Uuid
  /-- The business unit. -/
  buId : Uuid
  /-- Login name, at most 255 characters. -/
  email : String
  /-- The stored hash. -/
  passwordHash : String
  /-- The role. -/
  role : StaffRole
  /-- Time of creation. -/
  createdAt : Time
  deriving DecidableEq, Repr

/-- `Company.Create`. -/
def Company.create (stamp : Stamp) (name address contactNumber : String) : Company where
  id := stamp.id
  name := name
  address := address
  contactNumber := contactNumber
  createdAt := stamp.now

/-- `BusinessUnit.Create`. -/
def BusinessUnit.create (stamp : Stamp) (companyId : Uuid) (name : String) : BusinessUnit where
  id := stamp.id
  companyId := companyId
  name := name
  createdAt := stamp.now

/-- `Person.Create`. -/
def Person.create (stamp : Stamp) (companyId : Uuid) (firstName lastName : String) : Person where
  id := stamp.id
  companyId := companyId
  firstName := firstName
  lastName := lastName
  createdAt := stamp.now

/-- `BuStaffProfile.Create`. -/
def BuStaffProfile.create (stamp : Stamp) (personId buId : Uuid) (email passwordHash : String)
    (role : StaffRole) : BuStaffProfile where
  id := stamp.id
  personId := personId
  buId := buId
  email := email
  passwordHash := passwordHash
  role := role
  createdAt := stamp.now

/-- The declared names of the roles with their values. -/
def StaffRole.names : List (String × StaffRole) :=
  [("Owner", StaffRole.owner), ("Admin", StaffRole.admin), ("Staff", StaffRole.staff)]

/-- `Role.ToString()`: the declared name, or the number of a value without one. -/
def StaffRole.text (role : StaffRole) : String :=
  match StaffRole.names.find? (fun n => n.2 = role) with
  | some n => n.1
  | none => toString role

/-- `char.IsWhiteSpace`. -/
def isWhiteSpace (c : Char) : Bool :=
  let n := c.toNat
  (9 ≤ n && n ≤ 13) || n = 0x20 || n = 0x85 || n = 0xA0 || n = 0x1680 ||
    (0x2000 ≤ n && n ≤ 0x200A) || n = 0x2028 || n = 0x2029 || n = 0x202F || n = 0x205F || n = 0x3000

/-- `Trim()`. -/
def trim (cs : List Char) : List Char :=
  ((cs.dropWhile isWhiteSpace).reverse.dropWhile isWhiteSpace).reverse

/-- Drop what may follow a number: white space, then null characters. -/
def dropTrailing (cs : List Char) : List Char :=
  ((cs.reverse.dropWhile fun c => c.toNat = 0).dropWhile
    fun c => (9 ≤ c.toNat && c.toNat ≤ 13) || c.toNat = 32).reverse

/-- The value of decimal digits, if there is at least one and nothing else. -/
def digits? (cs : List Char) : Option ℕ :=
  if cs ≠ [] ∧ cs.all Char.isDigit then
    some (cs.foldl (fun n c => 10 * n + (c.toNat - '0'.toNat)) 0)
  else none

/-- A decimal integer with an optional sign. -/
def integer? : List Char → Option ℤ
  | '-' :: cs => (digits? cs).map fun n => -(n : ℤ)
  | '+' :: cs => (digits? cs).map fun n => (n : ℤ)
  | cs => (digits? cs).map fun n => (n : ℤ)

/-- Split at every comma. -/
def splitCommas : List Char → List (List Char)
  | [] => [[]]
  | c :: cs =>
    if c = ',' then [] :: splitCommas cs
    else
      match splitCommas cs with
      | [] => [[c]]
      | part :: parts => (c :: part) :: parts

/-- The value of one declared name, in any case. -/
def roleNamed? (cs : List Char) : Option StaffRole :=
  (StaffRole.names.find? fun n => n.1.toList.map Char.toLower = cs.map Char.toLower).map (·.2)

/-- The values of comma separated names, combined bit by bit. -/
def rolesNamed? (parts : List (List Char)) : Option StaffRole :=
  (parts.mapM fun part => roleNamed? (trim part)).map fun values =>
    ((values.foldl (fun acc v => acc ||| v.toNat) 0 : ℕ) : ℤ)

/-- `Enum.TryParse<StaffRole>(text, true, out _)`: a number of the underlying
type, or declared names in any case. -/
def tryParseRole (text : String) : Option StaffRole :=
  let cs := text.toList.dropWhile isWhiteSpace
  match cs with
  | [] => none
  | c :: _ =>
    if c.isDigit ∨ c = '-' ∨ c = '+' then
      match integer? (dropTrailing cs) with
      | some n => if -2147483648 ≤ n ∧ n ≤ 2147483647 then some n else none
      | none => rolesNamed? (splitCommas cs)
    else rolesNamed? (splitCommas cs)

example : tryParseRole " sTaFf" = some StaffRole.staff := by decide
example : tryParseRole "Owner, Admin" = some StaffRole.admin := by decide

end AuraWellness.Backend.Entities
