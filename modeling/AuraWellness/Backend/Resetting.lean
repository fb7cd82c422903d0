import AuraWellness.Lib.Statements
import AuraWellness.Backend.Repositories

/-!
# Resetting the databases

`ResetToSeedAsync` deletes all companies, with everything that the foreign keys cascade
to, inserts the four rows of the seed, and deletes the messages of the chat database. It
opens no transaction, so a failure leaves what the statements before it have done.
-/

namespace AuraWellness.Backend.Resetting

open AuraWellness.Lib.Calls AuraWellness.Lib.Keyed
open AuraWellness.Chat.Entities AuraWellness.Chat.Schema AuraWellness.Chat.Repositories
open AuraWellness.Backend.Entities AuraWellness.Backend.Schema AuraWellness.Backend.Repositories

/-- `InitialDataSeed.CompanyId`. -/
def InitialDataSeed.companyId : Uuid := 0x10000000000000000000000000000001

/-- `InitialDataSeed.BuId`. -/
def InitialDataSeed.buId : Uuid := 0x20000000000000000000000000000001

/-- `InitialDataSeed.PersonId`. -/
def InitialDataSeed.personId : Uuid := 0x30000000000000000000000000000001

/-- `InitialDataSeed.ProfileId`. -/
def InitialDataSeed.profileId : Uuid := 0x40000000000000000000000000000001

/-- `SeedDate`. -/
def seedDate : Time := 1772223433000000

/-- `DemoPasswordHash`. -/
def demoPasswordHash : String := "$2b$11$qxivdApojomdiQv8sthJDOsUS0GcQigEDmhF1ObImcOozUX14LeGq"

/-- The rows that are left without the companies and what the foreign keys cascade to:
their business units and persons, and the profiles of these. -/
def withoutCompanies (t : MainTables) : MainTables where
  companies := []
  businessUnits := t.businessUnits.filter fun b => ∀ c ∈ t.companies, c.id ≠ b.companyId
  persons := t.persons.filter fun p => ∀ c ∈ t.companies, c.id ≠ p.companyId
  profiles := t.profiles.filter fun f =>
    (∀ p ∈ t.persons, p.id = f.personId → ∀ c ∈ t.companies, c.id ≠ p.companyId) ∧
      ∀ b ∈ t.businessUnits, b.id = f.buId → ∀ c ∈ t.companies, c.id ≠ b.companyId

/-- Every row belongs to a company, so nothing is left. -/
theorem withoutCompanies_eq {t : MainTables} (h : t.Valid) :
    withoutCompanies t = MainDb.empty.toMainTables := by
  unfold withoutCompanies MainDb.empty
  congr 1
  · refine List.filter_eq_nil_iff.mpr fun b hb hkept => ?_
    obtain ⟨c, hc, hid⟩ := h.businessUnits_company b hb
    exact of_decide_eq_true hkept c hc hid
  · refine List.filter_eq_nil_iff.mpr fun p hp hkept => ?_
    obtain ⟨c, hc, hid⟩ := h.persons_company p hp
    exact of_decide_eq_true hkept c hc hid
  · refine List.filter_eq_nil_iff.mpr fun f hf hkept => ?_
    obtain ⟨p, hp, hperson⟩ := h.profiles_person f hf
    obtain ⟨c, hc, hid⟩ := h.persons_company p hp
    exact (of_decide_eq_true hkept).1 p hp hperson c hc hid

/-- `DELETE FROM companies`. -/
def deleteCompanies (d : MainDb) : MainDb where
  toMainTables := withoutCompanies d.toMainTables
  valid := by
    rw [withoutCompanies_eq d.valid]
    exact MainDb.empty.valid

/-- It leaves an empty database. -/
theorem deleteCompanies_eq (d : MainDb) : deleteCompanies d = MainDb.empty := by
  unfold deleteCompanies
  simp only [withoutCompanies_eq d.valid]

/-- `DELETE FROM chat_messages`. -/
def deleteChatMessages (d : ChatDb) : ChatDb :=
  { d with
    messages := []
    valid := { d.valid with
      messages_id := List.nodup_nil
      messages_workspace := by simp
      messages_conversation := by simp } }

/-- A statement of the reset. -/
inductive ResetCall
  /-- `DELETE FROM companies`. -/
  | deleteCompanies
  /-- An `INSERT` into the main database. -/
  | insert (row : Insert)
  /-- `conn.OpenAsync`. -/
  | openChat
  /-- `DELETE FROM chat_messages`. -/
  | deleteChatMessages
  deriving DecidableEq, Repr

/-- The signature of the reset: no statement returns anything. -/
abbrev resetSignature : Signature := ⟨ResetCall, fun _ => Unit⟩

/-- The effect of a statement, which commits at once. -/
def ResetCall.exec : ResetCall → Unit → World → Except Exn Unit × World
  | .deleteCompanies, _, s => (.ok (), { s with main := Resetting.deleteCompanies s.main })
  | .insert row, _, s => storeMain s (s.main.insert row)
  | .openChat, _, s => (.ok (), s)
  | .deleteChatMessages, _, s =>
    (.ok (), { s with chat := { s.chat with db := Resetting.deleteChatMessages s.chat.db } })

/-- The machine that answers the statements; a failure and a cancellation drop one, or let
it take effect and lose its reply. -/
abbrev resetMachine : Machine resetSignature World Unit Exn := ⟨ResetCall.exec, fun _ => true⟩

/-- A program of the reset. -/
abbrev ResetProgram (α : Type) := Program resetSignature Exn α

/-- `ExecuteSqlRawAsync` and `ExecuteNonQueryAsync`. -/
abbrev execute (op : ResetCall) : ResetProgram Unit := Program.perform (S := resetSignature) op

/-- `DatabaseResetter.ResetToSeedAsync`, with the configured connection string. -/
def DatabaseResetter.resetToSeed (chatConnection : Option String) : ResetProgram Unit := do
  execute .deleteCompanies
  execute (.insert (.company ⟨InitialDataSeed.companyId, "Aura Wellness Demo", "1 Wellness Way",
    "555-0100", seedDate⟩))
  execute (.insert (.businessUnit ⟨InitialDataSeed.buId, InitialDataSeed.companyId,
    "Aura Wellness Demo HQ", seedDate⟩))
  execute (.insert (.person ⟨InitialDataSeed.personId, InitialDataSeed.companyId, "Demo", "Owner",
    seedDate⟩))
  execute (.insert (.profile ⟨InitialDataSeed.profileId, InitialDataSeed.personId,
    InitialDataSeed.buId, "Welcome@example.com", demoPasswordHash, .owner, seedDate⟩))
  if chatConnection.getD "" ≠ "" then
    execute .openChat
    execute .deleteChatMessages

/-- `AdminService.ResetDatabaseAsync`. -/
def AdminService.resetDatabase (chatConnection : Option String) : ResetProgram Unit :=
  DatabaseResetter.resetToSeed chatConnection

/-- The statements on the main database. -/
def mainStatements : List ResetCall :=
  [.deleteCompanies,
    .insert (.company ⟨InitialDataSeed.companyId, "Aura Wellness Demo", "1 Wellness Way",
      "555-0100", seedDate⟩),
    .insert (.businessUnit ⟨InitialDataSeed.buId, InitialDataSeed.companyId,
      "Aura Wellness Demo HQ", seedDate⟩),
    .insert (.person ⟨InitialDataSeed.personId, InitialDataSeed.companyId, "Demo", "Owner",
      seedDate⟩),
    .insert (.profile ⟨InitialDataSeed.profileId, InitialDataSeed.personId, InitialDataSeed.buId,
      "Welcome@example.com", demoPasswordHash, .owner, seedDate⟩)]

/-- All statements: those on the chat database only if a connection to it is configured. -/
def statements (chatConnection : Option String) : List ResetCall :=
  mainStatements ++
    if chatConnection.getD "" ≠ "" then [.openChat, .deleteChatMessages] else []

/-- A last statement. -/
theorem execute_bind_pure (op : ResetCall) : (execute op >>= fun _ => pure ()) = execute op := by
  refine congrArg (Program.call (S := resetSignature) op) (funext fun r => ?_)
  cases r <;> rfl

/-- The reset makes its statements one after the other. -/
theorem resetDatabase_eq (chatConnection : Option String) :
    AdminService.resetDatabase chatConnection = Program.sequence (statements chatConnection) := by
  unfold AdminService.resetDatabase DatabaseResetter.resetToSeed statements
  split
  · rw [← execute_bind_pure .deleteChatMessages]
    rfl
  · rfl

/-- The first rows of the seed, in the order in which they are inserted. -/
def seedRows (n : ℕ) : MainTables where
  companies := if 1 ≤ n then MainDb.seed.companies else []
  businessUnits := if 2 ≤ n then MainDb.seed.businessUnits else []
  persons := if 3 ≤ n then MainDb.seed.persons else []
  profiles := if 4 ≤ n then MainDb.seed.profiles else []

/-- The main database with the first rows of the seed. -/
def seedPrefix (n : ℕ) : MainDb where
  toMainTables := seedRows n
  valid := by
    unfold seedRows
    rcases n with _ | _ | _ | _ | n <;> constructor <;> simp [UniqueColumn, MainDb.seed]

/-- Four rows and more are the seed. -/
theorem seedPrefix_four {n : ℕ} (h : 4 ≤ n) : seedPrefix n = MainDb.seed := by
  have h₁ : 1 ≤ n := by omega
  have h₂ : 2 ≤ n := by omega
  have h₃ : 3 ≤ n := by omega
  simp only [seedPrefix, seedRows, if_pos h, if_pos h₁, if_pos h₂, if_pos h₃]

/-- Fewer are not. -/
theorem seedPrefix_ne_seed {n : ℕ} (h : n < 4) : seedPrefix n ≠ MainDb.seed := by
  intro he
  have hprofiles := congrArg (fun d => d.profiles.length) he
  simp [seedPrefix, seedRows, show ¬4 ≤ n by omega, MainDb.seed] at hprofiles

/-- The world when so many statements have taken effect. -/
def after (s : World) : ℕ → World
  | 0 => s
  | n + 1 =>
    { main := seedPrefix n
      chat := if 6 ≤ n then { s.chat with db := deleteChatMessages s.chat.db } else s.chat }

/-- The company of the seed is accepted. -/
theorem insertCompany_seed : (seedPrefix 0).insertCompany ⟨InitialDataSeed.companyId,
    "Aura Wellness Demo", "1 Wellness Way", "555-0100", seedDate⟩ = .ok (seedPrefix 1) := by
  unfold MainDb.insertCompany
  rw [if_neg (by decide), if_neg (by decide), dif_neg (by decide)]
  rfl

/-- So is its business unit. -/
theorem insertBusinessUnit_seed : (seedPrefix 1).insertBusinessUnit ⟨InitialDataSeed.buId,
    InitialDataSeed.companyId, "Aura Wellness Demo HQ", seedDate⟩ = .ok (seedPrefix 2) := by
  unfold MainDb.insertBusinessUnit
  rw [if_neg (by decide), dif_neg (by decide), dif_pos (by decide)]
  rfl

/-- So is its person. -/
theorem insertPerson_seed : (seedPrefix 2).insertPerson ⟨InitialDataSeed.personId,
    InitialDataSeed.companyId, "Demo", "Owner", seedDate⟩ = .ok (seedPrefix 3) := by
  unfold MainDb.insertPerson
  rw [if_neg (by decide), dif_neg (by decide), dif_pos (by decide)]
  rfl

/-- So is its profile. -/
theorem insertProfile_seed : (seedPrefix 3).insertProfile ⟨InitialDataSeed.profileId,
    InitialDataSeed.personId, InitialDataSeed.buId, "Welcome@example.com", demoPasswordHash,
    .owner, seedDate⟩ = .ok (seedPrefix 4) := by
  unfold MainDb.insertProfile
  rw [if_neg (by decide), dif_neg (by decide), dif_neg (by decide), dif_pos (by decide),
    dif_pos (by decide)]
  rfl

/-- An insert that is accepted is stored. -/
theorem exec_insert {s : World} {row : Insert} {d : MainDb} (h : s.main.insert row = .ok d) :
    resetMachine.exec (.insert row) () s = (.ok (), { s with main := d }) := by
  change storeMain s (s.main.insert row) = _
  rw [h]
  rfl

/-- Every statement succeeds when it is made, and leads to the next one of these states. -/
theorem leads_statements (chatConnection : Option String) (s : World) :
    Leads resetMachine (statements chatConnection) (after s) := by
  have hmain : ∀ rest, Leads resetMachine rest (fun i => after s (i + 5)) →
      Leads resetMachine (mainStatements ++ rest) (after s) := by
    intro rest hrest
    refine ⟨fun _ => ⟨(), ?_⟩, fun _ => ⟨(), exec_insert insertCompany_seed⟩,
      fun _ => ⟨(), exec_insert insertBusinessUnit_seed⟩,
      fun _ => ⟨(), exec_insert insertPerson_seed⟩, fun _ => ⟨(), exec_insert insertProfile_seed⟩,
      hrest⟩
    change (Except.ok (), ({ s with main := deleteCompanies s.main } : World)) = _
    rw [deleteCompanies_eq]
    rfl
  unfold statements
  split
  · exact hmain _ ⟨fun _ => ⟨(), rfl⟩, fun _ => ⟨(), rfl⟩, trivial⟩
  · exact hmain _ trivial

/-- The main database afterwards is as before or the seed, and a failure deletes no message
of the chat database. -/
def ResetsAtomically (chatConnection : Option String) (env : ℕ → Turn Unit Exn) (s : World) :
    Prop :=
  let outcome := (AdminService.resetDatabase chatConnection).run resetMachine env s
  (outcome.2.main = s.main ∨ outcome.2.main = MainDb.seed) ∧
    (outcome.1 ≠ .ok () → outcome.2.chat.db.messages = s.chat.db.messages)

/-- The failure, if there is one, comes where it does no harm: the deletion has not taken
effect, or all inserts have, or the rows that are inserted were the only ones before; and
the messages are not deleted by a statement whose reply is lost, unless there are none. -/
def FailsHarmlessly (chatConnection : Option String) (env : ℕ → Turn Unit Exn) (s : World) :
    Prop :=
  (inEffect env (statements chatConnection).length = 0 ∨
    5 ≤ inEffect env (statements chatConnection).length ∨
      s.main = seedPrefix (inEffect env (statements chatConnection).length - 1)) ∧
    (inEffect env (statements chatConnection).length = 7 →
      AllServed env (statements chatConnection).length ∨ s.chat.db.messages = [])

/-- The state of the main database after so many statements is one of the two that are
allowed exactly if none or all of them are in effect, or nothing has changed. -/
theorem after_main_iff (s : World) (n : ℕ) :
    (after s n).main = s.main ∨ (after s n).main = MainDb.seed ↔
      n = 0 ∨ 5 ≤ n ∨ s.main = seedPrefix (n - 1) := by
  cases n with
  | zero => simp [after]
  | succ n =>
    change seedPrefix n = s.main ∨ seedPrefix n = MainDb.seed ↔ _
    by_cases hn : 4 ≤ n
    · exact iff_of_true (.inr (seedPrefix_four hn)) (.inr (.inl (by omega)))
    · have hother := seedPrefix_ne_seed (Nat.lt_of_not_le hn)
      have hfew : ¬(n + 1 = 0 ∨ 5 ≤ n + 1) := by omega
      simp only [or_assoc.symm, hfew, false_or, hother, or_false, Nat.add_sub_cancel]
      exact eq_comm

/-- The messages are there after so many statements exactly if the last one is not in
effect, or there were none. -/
theorem after_messages_iff (s : World) {n : ℕ} (hn : n ≤ 7) :
    (after s n).chat.db.messages = s.chat.db.messages ↔ (n = 7 → s.chat.db.messages = []) := by
  cases n with
  | zero => simp [after]
  | succ n =>
    unfold after
    dsimp only
    split
    · have hseven : n + 1 = 7 := by omega
      exact ⟨fun h _ => h.symm, fun h => (h hseven).symm⟩
    · exact iff_of_true rfl fun hseven => by omega

/-- For every state of the two databases and every failure or cancellation at any statement:
a reset is atomic exactly if the failure comes where it does no harm. -/
theorem resetsAtomically_iff (chatConnection : Option String) (env : ℕ → Turn Unit Exn)
    (s : World) :
    ResetsAtomically chatConnection env s ↔ FailsHarmlessly chatConnection env s := by
  obtain ⟨hstate, hok⟩ := run_sequence (leads_statements chatConnection s) env
  have hseven : (statements chatConnection).length ≤ 7 := by
    unfold statements
    split <;> decide
  have hle := (inEffect_le env (statements chatConnection).length).trans hseven
  unfold ResetsAtomically FailsHarmlessly
  rw [resetDatabase_eq]
  change (((Program.sequence (statements chatConnection)).run resetMachine env (after s 0)).2.main =
    s.main ∨ ((Program.sequence (statements chatConnection)).run resetMachine env
      (after s 0)).2.main = MainDb.seed) ∧
    (¬((Program.sequence (statements chatConnection)).run resetMachine env (after s 0)).1 = .ok () →
      ((Program.sequence (statements chatConnection)).run resetMachine env
        (after s 0)).2.chat.db.messages = s.chat.db.messages) ↔ _
  rw [hstate, hok, after_main_iff, after_messages_iff s hle]
  refine and_congr_right fun _ => ?_
  constructor
  · intro h hall
    by_contra hharm
    exact hharm (.inr (h (fun hserved => hharm (.inl hserved)) hall))
  · exact fun h hfails hall => (h hall).resolve_left hfails

/-- The connection to the main database fails after the deletion. -/
def failsAfterDelete : ℕ → Turn Unit Exn
  | 0 => .serve ()
  | _ => .drop (.database .connection)

/-- A failure after the deletion leaves the main database of a new installation empty. -/
theorem not_resetsAtomically : ¬ResetsAtomically (some "Host=postgres-chat") failsAfterDelete
    World.seeded := by
  intro h
  have hmain : ((AdminService.resetDatabase (some "Host=postgres-chat")).run resetMachine
      failsAfterDelete World.seeded).2.main.companies = [] := rfl
  obtain hsame | hseed := h.1
  · rw [hsame] at hmain
    cases hmain
  · rw [hseed] at hmain
    cases hmain

end AuraWellness.Backend.Resetting
