import AuraWellness.Lib.Upsert
import AuraWellness.Chat.Growth

/-!
# Member rows and their write history

Two statements write the row of a member. `AddMember` sets the role and
`UpdateMemberAccess` the access flag, and whichever comes first inserts the row
with a default for the other column. What is left after a history of writes is
the last value of each column.
-/

namespace AuraWellness.Chat.MemberHistory

open AuraWellness.Lib.Calls AuraWellness.Lib.Keyed AuraWellness.Lib.Upsert
open AuraWellness.Chat.Entities AuraWellness.Chat.Schema AuraWellness.Chat.Repositories
open AuraWellness.Chat.Services AuraWellness.Chat.Growth

/-- The two calls that write a member row. -/
inductive MemberCall
  | addMember (workspaceID personID : Uuid) (role : String)
  | updateMemberAccess (workspaceID personID : Uuid) (hasAccess : Bool)
  deriving DecidableEq, Repr

/-- The pair that the call is about. -/
def MemberCall.key : MemberCall → Uuid × Uuid
  | addMember w p _ => (w, p)
  | updateMemberAccess w p _ => (w, p)

/-- The service function behind the call. -/
def MemberCall.program (stamps : ℕ → Stamp) : MemberCall → ServiceProgram ChatWorkspaceMember
  | addMember w p role => WorkspaceService.addMember stamps w p role
  | updateMemberAccess w p hasAccess => WorkspaceService.updateMemberAccess w p hasAccess

/-- A call together with what its constructor draws and what becomes of its
statement. -/
structure MemberWrite where
  /-- The call. -/
  call : MemberCall
  /-- The values of `uuid.New()` and `time.Now()`. -/
  stamps : ℕ → Stamp
  /-- The database executes the statement and the reply arrives, or the statement does not reach
  the database. A statement that is executed while its reply is lost is left out: such a call
  fails and has an effect all the same. -/
  fate : Except GoError Choice

/-- The turn that the statement gets. -/
def MemberWrite.turn (write : MemberWrite) : Turn Choice GoError :=
  match write.fate with
  | .ok choice => .serve choice
  | .error e => .drop e

/-- Make the call. -/
def MemberWrite.run (write : MemberWrite) (s : ChatState) :
    Except GoError ChatWorkspaceMember × ChatState :=
  (write.call.program write.stamps).run chatMachine (fun _ => write.turn) s

/-- Make the calls one after another. -/
def runAll (history : List MemberWrite) (s : ChatState) : ChatState :=
  history.foldl (fun s write => (write.run s).2) s

/-- The calls of the history that succeed, in their order. -/
def succeeded : List MemberWrite → ChatState → List MemberCall
  | [], _ => []
  | write :: rest, s =>
    match write.run s with
    | (.ok _, s') => write.call :: succeeded rest s'
    | (.error _, s') => succeeded rest s'

/-- The role that the call gives. -/
def MemberCall.role? : MemberCall → Option String
  | addMember _ _ role => some role
  | updateMemberAccess _ _ _ => none

/-- The flag that the call sets. -/
def MemberCall.access? : MemberCall → Option Bool
  | addMember _ _ _ => none
  | updateMemberAccess _ _ hasAccess => some hasAccess

/-- What a member row says about the person. -/
structure Standing where
  /-- The role. -/
  role : String
  /-- Whether the person may use the chat. -/
  hasAccess : Bool
  deriving DecidableEq, Repr

/-- What the calls on a pair leave: the last role, or Member, and the last flag,
or whether the first role was Admin. -/
def lastStanding (calls : List MemberCall) : Standing where
  role := (calls.filterMap MemberCall.role?).getLast?.getD "Member"
  hasAccess := (calls.filterMap MemberCall.access?).getLast?.getD
    ((calls.filterMap MemberCall.role?).head? == some "Admin")

/-- The row that the call inserts when the pair has none. -/
def MemberCall.inserted (id : Uuid) (now : Time) : MemberCall → ChatWorkspaceMember
  | addMember w p role => ⟨id, w, p, role, role == "Admin", now⟩
  | updateMemberAccess w p hasAccess => ⟨id, w, p, "Member", hasAccess, now⟩

/-- What the call makes of the row that the pair has. -/
def MemberCall.rewrite : MemberCall → ChatWorkspaceMember → ChatWorkspaceMember
  | addMember _ _ role, m => { m with role }
  | updateMemberAccess _ _ hasAccess, m => { m with hasAccess }

/-- What the call asks of its arguments. -/
def MemberCall.WellFormed : MemberCall → Prop
  | addMember w p role => w ≠ Uuid.nil ∧ p ≠ Uuid.nil ∧ (role = "Admin" ∨ role = "Member")
  | updateMemberAccess _ _ _ => True

instance (call : MemberCall) : Decidable call.WellFormed := by
  cases call <;> (unfold MemberCall.WellFormed; infer_instance)

@[simp] theorem MemberCall.key_inserted (call : MemberCall) (id : Uuid) (now : Time) :
    memberKey (call.inserted id now) = call.key := by
  cases call <;> rfl

@[simp] theorem MemberCall.key_rewrite (call : MemberCall) (m : ChatWorkspaceMember) :
    memberKey (call.rewrite m) = memberKey m := by
  cases call <;> rfl

/-- The members after the database has executed the call. -/
def MemberCall.written (call : MemberCall) (choice : Choice) (d : ChatDb) :
    List ChatWorkspaceMember :=
  upsertRow memberKey call.key call.rewrite (call.inserted choice.uuid choice.now) d.members

theorem MemberCall.written_new (call : MemberCall) (choice : Choice) (d : ChatDb)
    (h : ¬∃ m ∈ d.members, memberKey m = call.key) :
    call.written choice d = d.members ++ [call.inserted choice.uuid choice.now] := if_neg h

theorem MemberCall.written_there (call : MemberCall) (choice : Choice) (d : ChatDb)
    (h : ∃ m ∈ d.members, memberKey m = call.key) :
    call.written choice d = rewriteAt memberKey call.key call.rewrite d.members := if_pos h

/-- The database can execute the call: the pair has a row, or the workspace
exists and the generated identifier is new. -/
def MemberCall.Executable (call : MemberCall) (choice : Choice) (d : ChatDb) : Prop :=
  call.WellFormed ∧ ((∃ m ∈ d.members, memberKey m = call.key) ∨
    (¬∃ m ∈ d.members, m.id = choice.uuid) ∧ ∃ w ∈ d.workspaces, w.id = call.key.1)

/-- A row that has been appended has an identifier of its own. -/
theorem fresh_of_appended {d d' : ChatDb} {row : ChatWorkspaceMember}
    (h : d'.toTables = { d.toTables with members := d.members ++ [row] }) :
    ¬∃ m ∈ d.members, m.id = row.id := by
  have hids : UniqueColumn ChatWorkspaceMember.id (d.members ++ [row]) := by
    have hvalid := d'.valid.members_id
    rw [h] at hvalid
    exact hvalid
  rintro ⟨m, hm, he⟩
  have hsame := hids.eq (List.mem_append_left _ hm)
    (List.mem_append_right _ (List.mem_singleton_self row)) he
  rw [hsame] at hm
  exact (List.nodup_append.mp hids.nodup).2.2 row hm row (List.mem_singleton_self row) rfl

/-- The database with these members. -/
abbrev withMembers (d : ChatDb) (members : List ChatWorkspaceMember) : Tables :=
  { d.toTables with members }

/-- The result of a statement that executes the call if the database can. -/
def Executes (call : MemberCall) (choice : Choice) (d : ChatDb)
    (result : Except GoError (ChatWorkspaceMember × ChatDb)) : Prop :=
  (∃ row d', result = .ok (row, d') ∧ call.Executable choice d ∧
      d'.toTables = withMembers d (call.written choice d)) ∨
    ∃ e, result = .error e ∧ ¬call.Executable choice d

/-- A statement that appended the row of the call, or rewrote the row of the pair, has executed
the call. -/
theorem executes_of_written {call : MemberCall} {choice : Choice} {d d' : ChatDb}
    {row : ChatWorkspaceMember} (hwell : call.WellFormed)
    (h : ((¬∃ m ∈ d.members, memberKey m = call.key) ∧
        row = call.inserted choice.uuid choice.now ∧ (∃ w ∈ d.workspaces, w.id = call.key.1) ∧
        d'.toTables = withMembers d (d.members ++ [row])) ∨
      ((∃ m ∈ d.members, memberKey m = call.key) ∧
        d'.toTables = withMembers d (rewriteAt memberKey call.key call.rewrite d.members))) :
    Executes call choice d (.ok (row, d')) := by
  obtain ⟨hnew, rfl, hworkspace, hd⟩ | ⟨hthere, hd⟩ := h
  · have hfresh := fresh_of_appended hd
    have hid : (call.inserted choice.uuid choice.now).id = choice.uuid := by cases call <;> rfl
    rw [hid] at hfresh
    refine Or.inl ⟨_, d', rfl, ⟨hwell, Or.inr ⟨hfresh, hworkspace⟩⟩, hd.trans ?_⟩
    exact congrArg (withMembers d) (call.written_new choice d hnew).symm
  · refine Or.inl ⟨row, d', rfl, ⟨hwell, Or.inl hthere⟩, hd.trans ?_⟩
    exact congrArg (withMembers d) (call.written_there choice d hthere).symm

/-- A row that was rewritten is found again. -/
theorem find?_rewritten_ne_none (call : MemberCall) {d : ChatDb}
    (hthere : ∃ m ∈ d.members, memberKey m = call.key) :
    (rewriteAt memberKey call.key call.rewrite d.members).find?
      (fun m => memberKey m = call.key) ≠ none := by
  intro hnone
  obtain ⟨m, hm, hkey⟩ := hthere
  refine find?_eq_none_iff.mp hnone ⟨_, List.mem_map_of_mem hm, ?_⟩
  rw [if_pos hkey, MemberCall.key_rewrite, hkey]

/-- The upsert is executed under the conditions of the call, and only then. -/
theorem upsert_executable (d : ChatDb) (choice : Choice) (stamp : Stamp) {w p : Uuid}
    (role : String) (hw : w ≠ Uuid.nil) (hp : p ≠ Uuid.nil) :
    Executes (.addMember w p role) choice d
      (MemberRepo.upsert d choice ⟨stamp.id, w, p, role, role == "Admin", stamp.now⟩) := by
  cases h : MemberRepo.upsert d choice ⟨stamp.id, w, p, role, role == "Admin", stamp.now⟩ with
  | ok written =>
    obtain ⟨hrole, hwritten⟩ := upsert_ok h
    exact executes_of_written ⟨hw, hp, hrole⟩ hwritten
  | error e =>
    refine Or.inr ⟨e, rfl, fun hexec => ?_⟩
    obtain ⟨⟨-, -, hrole⟩, hrest⟩ := hexec
    have hlength : ¬20 < role.length := by
      obtain rfl | rfl := hrole <;> decide
    unfold MemberRepo.upsert at h
    rw [if_neg hlength, dif_pos hrole] at h
    split at h
    · rename_i hthere
      dsimp only at h
      split at h
      · cases h
      · rename_i hnone
        exact find?_rewritten_ne_none (.addMember w p role) hthere hnone
    · rename_i hnew
      obtain ⟨hfresh, hworkspace⟩ := hrest.resolve_left hnew
      obtain ⟨row, d', hok⟩ := insertMember_accepts
        (m := ⟨stamp.id, w, p, role, role == "Admin", stamp.now⟩) hfresh hworkspace
      cases h.symm.trans hok

/-- The access update is executed under the conditions of the call, and only
then. -/
theorem updateAccess_executable (d : ChatDb) (choice : Choice) (w p : Uuid) (hasAccess : Bool) :
    Executes (.updateMemberAccess w p hasAccess) choice d
      (MemberRepo.updateAccess d choice w p hasAccess) := by
  cases h : MemberRepo.updateAccess d choice w p hasAccess with
  | ok written => exact executes_of_written trivial (updateAccess_ok h)
  | error e =>
    refine Or.inr ⟨e, rfl, fun hexec => ?_⟩
    unfold MemberRepo.updateAccess at h
    dsimp only at h
    split at h
    · rename_i hthere
      split at h
      · cases h
      · rename_i hnone
        exact find?_rewritten_ne_none (.updateMemberAccess w p hasAccess) hthere hnone
    · rename_i hnew
      obtain ⟨hfresh, hworkspace⟩ := hexec.2.resolve_left hnew
      obtain ⟨row, d', hok⟩ := insertMember_accepts
        (m := ⟨choice.uuid, w, p, "Member", hasAccess, choice.now⟩) hfresh hworkspace
      cases h.symm.trans hok

/-- A write commits what its statement executes. -/
theorem Executes.commit {call : MemberCall} {choice : Choice} {s : ChatState}
    {result : Except GoError (ChatWorkspaceMember × ChatDb)} (label : String)
    (h : Executes call choice s.db result) :
    (∃ row d', commitWrite label s result = (.ok row, { s with db := d' }) ∧
        call.Executable choice s.db ∧ d'.toTables = withMembers s.db (call.written choice s.db)) ∨
      ∃ e, commitWrite label s result = (.error e, s) ∧ ¬call.Executable choice s.db := by
  obtain ⟨row, d', rfl, hexec, hd⟩ | ⟨e, rfl, hexec⟩ := h
  · exact Or.inl ⟨row, d', rfl, hexec, hd⟩
  · exact Or.inr ⟨errorf label e, rfl, hexec⟩

/-- `AddMember` makes one upsert, or refuses its arguments. -/
theorem run_addMember (stamps : ℕ → Stamp) (w p : Uuid) (role : String) (t : Turn Choice GoError)
    (s : ChatState) :
    (w ≠ Uuid.nil ∧ p ≠ Uuid.nil ∧
      (WorkspaceService.addMember stamps w p role).run chatMachine (fun _ => t) s =
        chatMachine.answer (.memberUpsert ⟨(stamps 0).id, w, p, role, role == "Admin",
          (stamps 0).now⟩) t s) ∨
    ∃ e, (WorkspaceService.addMember stamps w p role).run chatMachine (fun _ => t) s =
      (.error e, s) ∧ ¬(w ≠ Uuid.nil ∧ p ≠ Uuid.nil ∧ role ≠ "") := by
  unfold WorkspaceService.addMember
  cases hm : newMember (stamps 0) w p role with
  | ok m =>
    obtain ⟨hw, hp, -, rfl⟩ := newMember_ok.mp hm
    exact Or.inl ⟨hw, hp, rfl⟩
  | error e =>
    refine Or.inr ⟨e, rfl, fun hvalid => ?_⟩
    cases hm.symm.trans (newMember_ok.mpr ⟨hvalid.1, hvalid.2.1, hvalid.2.2, rfl⟩)

/-- A call succeeds when the database can execute it, and changes nothing
otherwise. -/
theorem run_cases (write : MemberWrite) (s : ChatState) :
    (∃ choice row d', write.fate = .ok choice ∧ write.run s = (.ok row, { s with db := d' }) ∧
        write.call.Executable choice s.db ∧
        d'.toTables = withMembers s.db (write.call.written choice s.db)) ∨
      ∃ e, write.run s = (.error e, s) ∧
        ∀ choice, write.fate = .ok choice → ¬write.call.Executable choice s.db := by
  obtain ⟨call, stamps, fate⟩ := write
  cases call with
  | addMember w p role =>
    obtain ⟨hw, hp, hrun⟩ | ⟨e, hrun, hinvalid⟩ :=
      run_addMember stamps w p role (MemberWrite.turn ⟨.addMember w p role, stamps, fate⟩) s
    · cases fate with
      | ok choice =>
        obtain ⟨row, d', hcommit, hexec, hd⟩ | ⟨e, hcommit, hexec⟩ :=
          (upsert_executable s.db choice (stamps 0) role hw hp).commit "upsert member"
        · exact Or.inl ⟨choice, row, d', rfl, hrun.trans hcommit, hexec, hd⟩
        · exact Or.inr ⟨e, hrun.trans hcommit, fun _ h => by cases h; exact hexec⟩
      | error e => exact Or.inr ⟨e, hrun, fun _ h => by cases h⟩
    · refine Or.inr ⟨e, hrun, fun choice _ hexec => hinvalid ?_⟩
      obtain ⟨⟨hw, hp, hrole⟩, -⟩ := hexec
      refine ⟨hw, hp, fun hempty => ?_⟩
      rw [hempty] at hrole
      exact absurd hrole (by decide)
  | updateMemberAccess w p hasAccess =>
    cases fate with
    | ok choice =>
      obtain ⟨row, d', hcommit, hexec, hd⟩ | ⟨e, hcommit, hexec⟩ :=
        (updateAccess_executable s.db choice w p hasAccess).commit "update access"
      · exact Or.inl ⟨choice, row, d', rfl, hcommit, hexec, hd⟩
      · exact Or.inr ⟨e, hcommit, fun _ h => by cases h; exact hexec⟩
    | error e => exact Or.inr ⟨e, rfl, fun _ h => by cases h⟩

/-- What the rows of a table say about a pair. -/
def standing (d : ChatDb) (k : Uuid × Uuid) : Option Standing :=
  (d.members.find? fun m => memberKey m = k).map fun m => ⟨m.role, m.hasAccess⟩

/-- The call on a pair of its own. -/
def MemberCall.apply : MemberCall → Option Standing → Standing
  | addMember _ _ role, none => ⟨role, role == "Admin"⟩
  | addMember _ _ role, some before => { before with role }
  | updateMemberAccess _ _ hasAccess, none => ⟨"Member", hasAccess⟩
  | updateMemberAccess _ _ hasAccess, some before => { before with hasAccess }

/-- A successful call applies itself to its pair. -/
theorem standing_key {call : MemberCall} {choice : Choice} {d d' : ChatDb}
    (h : d'.toTables = withMembers d (call.written choice d)) :
    standing d' call.key = some (call.apply (standing d call.key)) := by
  unfold standing
  rw [h]
  dsimp only [MemberCall.written]
  rw [find?_upsertRow call.key_rewrite (call.key_inserted _ _)]
  cases d.members.find? fun m => memberKey m = call.key with
  | none => cases call <;> rfl
  | some m => cases call <;> rfl

/-- The rows of another pair stay as they are. -/
theorem filter_other {call : MemberCall} {choice : Choice} {d d' : ChatDb}
    (h : d'.toTables = withMembers d (call.written choice d)) {k : Uuid × Uuid}
    (hk : call.key ≠ k) :
    (d'.members.filter fun m => memberKey m = k) = d.members.filter fun m => memberKey m = k := by
  rw [h]
  exact filter_upsertRow_of_ne call.key_rewrite (call.key_inserted _ _) (Ne.symm hk) d.members

theorem standing_other {call : MemberCall} {choice : Choice} {d d' : ChatDb}
    (h : d'.toTables = withMembers d (call.written choice d)) {k : Uuid × Uuid}
    (hk : call.key ≠ k) :
    standing d' k = standing d k := by
  unfold standing
  rw [← List.head?_filter, ← List.head?_filter, filter_other h hk]

/-- The succeeded calls on a pair, applied in their order. -/
def replay (calls : List MemberCall) (before : Option Standing) : Option Standing :=
  calls.foldl (fun standing call => some (call.apply standing)) before

/-- The rows after a history are those that its succeeded calls leave. -/
theorem standing_runAll (history : List MemberWrite) (s : ChatState) (k : Uuid × Uuid) :
    standing (runAll history s).db k =
      replay ((succeeded history s).filter fun call => call.key = k) (standing s.db k) := by
  induction history generalizing s with
  | nil => rfl
  | cons write rest ih =>
    refine (ih (write.run s).2).trans ?_
    obtain ⟨choice, row, d', -, hrun, -, hd⟩ | ⟨e, hrun, -⟩ := run_cases write s
    · simp only [succeeded, hrun, List.filter_cons]
      by_cases hk : write.call.key = k
      · subst hk
        rw [if_pos (decide_eq_true rfl), standing_key hd]
        rfl
      · rw [if_neg (by simpa using hk), standing_other hd hk]
    · simp only [succeeded, hrun]

/-- Every call gives a role or sets the flag. -/
theorem roles_ne_nil {calls : List MemberCall} (h : calls ≠ [])
    (hflags : calls.filterMap MemberCall.access? = []) : calls.filterMap MemberCall.role? ≠ [] := by
  obtain ⟨call, rest, rfl⟩ := List.exists_cons_of_ne_nil h
  cases call with
  | addMember w p role => simp [MemberCall.role?]
  | updateMemberAccess w p hasAccess => simp [MemberCall.access?] at hflags

/-- One more call moves the last role or the last flag. -/
theorem lastStanding_concat {calls : List MemberCall} (call : MemberCall) (h : calls ≠ []) :
    lastStanding (calls ++ [call]) = call.apply (some (lastStanding calls)) := by
  cases call with
  | addMember w p role =>
    simp only [lastStanding, MemberCall.apply, List.filterMap_append, List.filterMap_cons,
      List.filterMap_nil, MemberCall.role?, MemberCall.access?, List.append_nil,
      List.getLast?_concat, Option.getD_some, Standing.mk.injEq, true_and]
    -- without a flag there has been a role, which stays the first one
    cases hflags : (calls.filterMap MemberCall.access?).getLast? with
    | some flag => rfl
    | none =>
      have hroles := roles_ne_nil h (List.getLast?_eq_none_iff.mp hflags)
      rw [List.head?_append_of_ne_nil _ hroles]
  | updateMemberAccess w p hasAccess =>
    simp [lastStanding, MemberCall.apply, MemberCall.role?, MemberCall.access?]

/-- The first succeeded call decides the default of the other column, and each
later one moves its own. -/
theorem replay_none (calls : List MemberCall) (h : calls ≠ []) :
    replay calls none = some (lastStanding calls) := by
  induction calls using List.reverseRecOn with
  | nil => exact absurd rfl h
  | append_singleton calls call ih =>
    unfold replay at ih ⊢
    rw [List.foldl_append, List.foldl_cons, List.foldl_nil]
    by_cases hfirst : calls = []
    · rw [hfirst]
      cases call with
      | addMember w p role => rfl
      | updateMemberAccess w p hasAccess => rfl
    · rw [ih hfirst, lastStanding_concat call hfirst]

/-- The row without what the database generates, if it is the row of the pair. -/
def forget (k : Uuid × Uuid) (m : ChatWorkspaceMember) : ChatWorkspaceMember :=
  if memberKey m = k then { m with id := Uuid.nil, createdAt := 0 } else m

/-- Two states are the same up to the generated identifier and timestamp of the
row of the pair. -/
def SameUpToGenerated (k : Uuid × Uuid) (s s' : ChatState) : Prop :=
  s.publishing = s'.publishing ∧ withMembers s.db [] = withMembers s'.db [] ∧
    s.db.members.map (forget k) = s'.db.members.map (forget k)

/-- From this state the order of the two calls on a pair makes no difference,
when each statement is executed with a new identifier. -/
def OrderIrrelevant (s : ChatState) : Prop :=
  ∀ (w p : Uuid) (role : String) (hasAccess : Bool) (stamps stamps' : ℕ → Stamp)
    (c₁ c₂ c₃ c₄ : Choice),
    (∀ c ∈ [c₁, c₂, c₃, c₄], ¬∃ m ∈ s.db.members, m.id = c.uuid) →
    SameUpToGenerated (w, p)
      (runAll [⟨.addMember w p role, stamps, .ok c₁⟩,
        ⟨.updateMemberAccess w p hasAccess, stamps, .ok c₂⟩] s)
      (runAll [⟨.updateMemberAccess w p hasAccess, stamps', .ok c₃⟩,
        ⟨.addMember w p role, stamps', .ok c₄⟩] s)

theorem SameUpToGenerated.refl (k : Uuid × Uuid) (s : ChatState) : SameUpToGenerated k s s :=
  ⟨rfl, rfl, rfl⟩

/-- An executed call leaves its tables. -/
theorem run_executable {call : MemberCall} (stamps : ℕ → Stamp) {choice : Choice} {s : ChatState}
    (h : call.Executable choice s.db) :
    ∃ d', (MemberWrite.run ⟨call, stamps, .ok choice⟩ s).2 = { s with db := d' } ∧
      d'.toTables = withMembers s.db (call.written choice s.db) := by
  obtain ⟨choice', row, d', hfate, hrun, -, hd⟩ | ⟨e, -, hnot⟩ :=
    run_cases ⟨call, stamps, .ok choice⟩ s
  · cases hfate
    exact ⟨d', by rw [hrun], hd⟩
  · exact absurd h (hnot choice rfl)

/-- A call that the database cannot execute changes nothing. -/
theorem run_not_executable {call : MemberCall} (stamps : ℕ → Stamp) {choice : Choice}
    {s : ChatState} (h : ¬call.Executable choice s.db) :
    (MemberWrite.run ⟨call, stamps, .ok choice⟩ s).2 = s := by
  obtain ⟨choice', row, d', hfate, -, hexec, -⟩ | ⟨e, hrun, -⟩ :=
    run_cases ⟨call, stamps, .ok choice⟩ s
  · cases hfate
    exact absurd hexec h
  · rw [hrun]

/-- A row that is written with another identifier or timestamp is the same up to
them. -/
theorem map_forget_upsertRow {k : Uuid × Uuid} {f : ChatWorkspaceMember → ChatWorkspaceMember}
    {a b : ChatWorkspaceMember} (h : forget k a = forget k b) (rows : List ChatWorkspaceMember) :
    (upsertRow memberKey k f a rows).map (forget k) =
      (upsertRow memberKey k f b rows).map (forget k) := by
  unfold upsertRow
  split
  · rfl
  · rw [List.map_append, List.map_append, List.map_singleton, List.map_singleton, h]

/-- The pair has a row after an executed call. -/
theorem exists_written {call : MemberCall} {choice : Choice} {d d' : ChatDb}
    (h : d'.toTables = withMembers d (call.written choice d)) :
    ∃ m ∈ d'.members, memberKey m = call.key := by
  have hstanding := standing_key h
  obtain ⟨m, hm, -⟩ := Option.map_eq_some_iff.mp hstanding
  exact ⟨m, List.mem_of_find?_eq_some hm, by simpa using List.find?_some hm⟩

/-- Two executed calls on a pair: the second one rewrites what the first one
left. -/
theorem runAll_pair {first second : MemberCall} (stamps : ℕ → Stamp) {c₁ c₂ : Choice}
    {s : ChatState} (hkey : second.key = first.key) (hfirst : first.Executable c₁ s.db)
    (hsecond : second.WellFormed) :
    (runAll [⟨first, stamps, .ok c₁⟩, ⟨second, stamps, .ok c₂⟩] s).publishing = s.publishing ∧
      (runAll [⟨first, stamps, .ok c₁⟩, ⟨second, stamps, .ok c₂⟩] s).db.toTables =
        withMembers s.db (upsertRow memberKey first.key (second.rewrite ∘ first.rewrite)
          (second.rewrite (first.inserted c₁.uuid c₁.now)) s.db.members) := by
  obtain ⟨d', hrun, hd⟩ := run_executable stamps hfirst
  have hthere : ∃ m ∈ d'.members, memberKey m = second.key := by
    rw [hkey]
    exact exists_written hd
  have hexec : second.Executable c₂ ({ s with db := d' } : ChatState).db :=
    ⟨hsecond, Or.inl hthere⟩
  obtain ⟨d'', hrun', hd'⟩ := run_executable stamps hexec
  unfold runAll
  rw [List.foldl_cons, List.foldl_cons, List.foldl_nil, hrun, hrun']
  refine ⟨rfl, ?_⟩
  have hmembers : d'.members = first.written c₁ s.db := congrArg Tables.members hd
  have hwritten : second.written c₂ d' = upsertRow memberKey first.key
      (second.rewrite ∘ first.rewrite) (second.rewrite (first.inserted c₁.uuid c₁.now))
      s.db.members := by
    unfold MemberCall.written
    rw [hmembers, hkey]
    exact upsertRow_upsertRow _ first.key_rewrite (first.key_inserted _ _) s.db.members
  refine hd'.trans ?_
  rw [← hwritten]
  exact congrArg (fun t : Tables => { t with members := second.written c₂ d' }) hd

/-- A state that a call leaves differs in the members only. -/
theorem sameUpToGenerated_of {k : Uuid × Uuid} {s s₁ s₂ : ChatState}
    {f f' : ChatWorkspaceMember → ChatWorkspaceMember} {a b : ChatWorkspaceMember}
    (h₁ : s₁.publishing = s.publishing ∧
      s₁.db.toTables = withMembers s.db (upsertRow memberKey k f a s.db.members))
    (h₂ : s₂.publishing = s.publishing ∧
      s₂.db.toTables = withMembers s.db (upsertRow memberKey k f' b s.db.members))
    (hf : f = f') (hab : forget k a = forget k b) : SameUpToGenerated k s₁ s₂ := by
  refine ⟨h₁.1.trans h₂.1.symm, ?_, ?_⟩
  · unfold withMembers
    rw [h₁.2, h₂.2]
  · rw [h₁.2, h₂.2, hf]
    exact map_forget_upsertRow hab s.db.members

/-- A refused call before another one. -/
theorem runAll_refused_first {first second : MemberCall} (stamps : ℕ → Stamp) {c₁ c₂ : Choice}
    {s : ChatState} (h : ¬first.Executable c₁ s.db) :
    runAll [⟨first, stamps, .ok c₁⟩, ⟨second, stamps, .ok c₂⟩] s =
      (MemberWrite.run ⟨second, stamps, .ok c₂⟩ s).2 := by
  unfold runAll
  rw [List.foldl_cons, List.foldl_cons, List.foldl_nil, run_not_executable stamps h]

/-- A refused call after another one. -/
theorem runAll_refused_second {first second : MemberCall} (stamps : ℕ → Stamp) {c₁ c₂ : Choice}
    {s : ChatState}
    (h : ¬second.Executable c₂ (MemberWrite.run ⟨first, stamps, .ok c₁⟩ s).2.db) :
    runAll [⟨first, stamps, .ok c₁⟩, ⟨second, stamps, .ok c₂⟩] s =
      (MemberWrite.run ⟨first, stamps, .ok c₁⟩ s).2 := run_not_executable stamps h

/-- `AddMember` and `UpdateMemberAccess` on one pair commute. -/
theorem orderIrrelevant (s : ChatState) : OrderIrrelevant s := by
  intro w p role hasAccess stamps stamps' c₁ c₂ c₃ c₄ hfresh
  by_cases hplace : (∃ m ∈ s.db.members, memberKey m = (w, p)) ∨ ∃ v ∈ s.db.workspaces, v.id = w
  · have haccess : ∀ c ∈ [c₁, c₂, c₃, c₄],
        (MemberCall.updateMemberAccess w p hasAccess).Executable c s.db :=
      fun c hc => ⟨trivial, hplace.imp id fun hv => ⟨hfresh c hc, hv⟩⟩
    by_cases hadd : (MemberCall.addMember w p role).WellFormed
    · refine sameUpToGenerated_of
        (runAll_pair stamps rfl ⟨hadd, hplace.imp id fun hv => ⟨hfresh c₁ (by simp), hv⟩⟩ trivial)
        (runAll_pair stamps' rfl (haccess c₃ (by simp)) hadd) rfl ?_
      simp [forget, MemberCall.rewrite, MemberCall.inserted]
    · -- a refused `AddMember` changes nothing, first or second
      rw [runAll_refused_first stamps fun h => hadd h.1,
        runAll_refused_second stamps' fun h => hadd h.1]
      obtain ⟨d₁, hrun₁, hd₁⟩ := run_executable stamps (haccess c₂ (by simp))
      obtain ⟨d₂, hrun₂, hd₂⟩ := run_executable stamps' (haccess c₃ (by simp))
      rw [hrun₁, hrun₂]
      refine sameUpToGenerated_of (s := s) ⟨rfl, hd₁⟩ ⟨rfl, hd₂⟩ rfl ?_
      simp [forget, MemberCall.inserted]
  · -- without the workspace the database refuses both
    have hrefused : ∀ (call : MemberCall) (c : Choice), call.key = (w, p) →
        ¬call.Executable c s.db := by
      rintro call c hkey ⟨-, hthere | ⟨-, hworkspace⟩⟩
      · rw [hkey] at hthere
        exact hplace (Or.inl hthere)
      · rw [hkey] at hworkspace
        exact hplace (Or.inr hworkspace)
    have hsame : ∀ (call : MemberCall) (stamps : ℕ → Stamp) (c : Choice), call.key = (w, p) →
        (MemberWrite.run ⟨call, stamps, .ok c⟩ s).2 = s :=
      fun call stamps c hkey => run_not_executable stamps (hrefused call c hkey)
    rw [runAll_refused_first stamps (hrefused (.addMember w p role) c₁ rfl),
      runAll_refused_first stamps' (hrefused (.updateMemberAccess w p hasAccess) c₃ rfl),
      hsame (.updateMemberAccess w p hasAccess) stamps c₂ rfl,
      hsame (.addMember w p role) stamps' c₄ rfl]
    exact SameUpToGenerated.refl (w, p) s

/-- The member rows follow from the history of the writes: a pair has one row at
most, its columns are those of the last successful calls on the pair, a failed
call changes nothing, a call changes nothing for another pair, and the order of
the two calls on a pair is irrelevant. -/
structure FollowsHistory (s : ChatState) (history : List MemberWrite) : Prop where
  atMostOne : ∀ k,
    ((runAll history s).db.members.filter fun m => memberKey m = k).length ≤ 1
  last : ∀ k, (¬∃ m ∈ s.db.members, memberKey m = k) →
    let calls := (succeeded history s).filter fun call => call.key = k
    calls ≠ [] → ∃ m ∈ (runAll history s).db.members, memberKey m = k ∧
      m.role = (calls.filterMap MemberCall.role?).getLast?.getD "Member" ∧
      m.hasAccess = (calls.filterMap MemberCall.access?).getLast?.getD
        ((calls.filterMap MemberCall.role?).head? == some "Admin")
  failed : ∀ write e, (write.run (runAll history s)).1 = .error e →
    runAll (history ++ [write]) s = runAll history s
  others : ∀ write k, write.call.key ≠ k →
    ((runAll (history ++ [write]) s).db.members.filter fun m => memberKey m = k) =
      (runAll history s).db.members.filter fun m => memberKey m = k
  order : OrderIrrelevant (runAll history s)

theorem runAll_concat (history : List MemberWrite) (write : MemberWrite) (s : ChatState) :
    runAll (history ++ [write]) s = (write.run (runAll history s)).2 := by
  unfold runAll
  rw [List.foldl_append, List.foldl_cons, List.foldl_nil]

/-- After every sequence of calls the member rows are those of its history. -/
theorem members_followHistory (s : ChatState) (history : List MemberWrite) :
    FollowsHistory s history where
  atMostOne k := (runAll history s).db.valid.members_key.length_filter_le_one k
  last k hnone := by
    intro calls hcalls
    have hstanding := standing_runAll history s k
    have hstart : standing s.db k = none := by
      unfold standing
      rw [find?_eq_none_iff.mpr hnone]
      rfl
    rw [hstart, replay_none _ hcalls] at hstanding
    obtain ⟨m, hm, hsame⟩ := Option.map_eq_some_iff.mp hstanding
    refine ⟨m, List.mem_of_find?_eq_some hm, by simpa using List.find?_some hm, ?_, ?_⟩
    · exact congrArg Standing.role hsame
    · exact congrArg Standing.hasAccess hsame
  failed write e he := by
    rw [runAll_concat]
    obtain ⟨choice, row, d', -, hrun, -, -⟩ | ⟨e', hrun, -⟩ := run_cases write (runAll history s)
    · rw [hrun] at he
      cases he
    · rw [hrun]
  others write k hk := by
    rw [runAll_concat]
    obtain ⟨choice, row, d', -, hrun, -, hd⟩ | ⟨e', hrun, -⟩ := run_cases write (runAll history s)
    · rw [hrun]
      exact filter_other hd hk
    · rw [hrun]
  order := orderIrrelevant _

-- The flag comes first, an unknown role is refused, the second role replaces the
-- first and keeps the flag.
example : standing (runAll
    [⟨.updateMemberAccess 10 1 false, fun _ => ⟨1, 0⟩, .ok (Choice.generating 20 1)⟩,
     ⟨.addMember 10 1 "Admin", fun _ => ⟨1, 0⟩, .ok (Choice.generating 21 2)⟩,
     ⟨.addMember 10 1 "Boss", fun _ => ⟨1, 0⟩, .ok (Choice.generating 22 3)⟩]
    (ServiceCall.exec (.workspaceCreate ⟨1, 9, 3, "HQ", 0⟩) (Choice.generating 10 0)
      ChatState.initial).2).db (10, 1) = some ⟨"Admin", false⟩ := by
  decide

end AuraWellness.Chat.MemberHistory
