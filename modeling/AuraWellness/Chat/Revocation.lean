import AuraWellness.Chat.Membership
import AuraWellness.Chat.DeliveryOrder

/-!
# What a revocation stops

`SendMessage` checks the access of its person once, before it saves. From a
state without the access on, and as long as no step gives it, the sends that
were past their check may still save their one message; every other send of
the person in the workspace is refused.
-/

namespace AuraWellness.Chat.Revocation

open AuraWellness.Lib.Calls AuraWellness.Lib.Transition AuraWellness.Lib.Keyed
open AuraWellness.Lib.Attribution
open AuraWellness.Chat.Entities AuraWellness.Chat.Schema AuraWellness.Chat.Repositories
open AuraWellness.Chat.Services AuraWellness.Chat.Growth AuraWellness.Chat.Membership
open AuraWellness.Chat.Publishing AuraWellness.Chat.DeliveryOrder

/-- The step does not give the person access to the workspace. -/
def GrantsNothing (w p : Uuid) (s : Exchange) (l : ExchangeLabel) : Prop :=
  ∀ s' ∈ Exchange.step s l, HasAccess s'.db w p → HasAccess s.db w p

instance (w p : Uuid) (s : Exchange) (l : ExchangeLabel) : Decidable (GrantsNothing w p s l) := by
  unfold GrantsNothing
  infer_instance

/-- The request is a send of the person in the workspace. -/
def SendsAs (w p : Uuid) (r : Request) : Prop :=
  ∃ c name content, r.call = .sendMessage w c p name content

/-- The call is past its access check and has not saved yet. -/
def pastCheck (w p : Uuid) (s : Exchange) (i : ℕ) : Bool :=
  match s.service.threads[i]? with
  | some ⟨⟨.sendMessage w' _ p' _ _, _⟩, .call (.messageSave _) _⟩ => w' = w ∧ p' = p
  | _ => false

/-- The messages of the person in the workspace. -/
def messagesOf (w p : Uuid) (d : ChatDb) : List ChatMessage :=
  d.messages.filter fun m => m.workspaceID = w ∧ m.personID = p

/-- From the one state to the other, only sends past their check have saved. -/
structure StopsSends (w p : Uuid) (s s' : Exchange) : Prop where
  /-- A message that the person has got into the workspace is the one of a send
  that was past its check. -/
  saved : ∀ i row, (i, row) ∈ s'.added → (i, row) ∉ s.added → row.workspaceID = w →
    row.personID = p → pastCheck w p s i = true
  /-- There are at most as many of them as there were such sends. -/
  count : (messagesOf w p s'.db).length ≤ (messagesOf w p s.db).length +
    ((List.range s.service.threads.length).filter (pastCheck w p s)).length
  /-- Every send that has arrived since and has ended was refused. -/
  refused : ∀ i r result, s.service.threads.length ≤ i →
    s'.service.threads[i]? = some ⟨r, .ret result⟩ → SendsAs w p r → ∃ e, result = .error e

/-- A lookup finds a member without access while the person has none. -/
theorem lookup_without_access {t : Turn Choice GoError} {s : ChatState} {w p : Uuid}
    {member : ChatWorkspaceMember} (h : ¬HasAccess s.db w p)
    (hm : (chatMachine.answer (.memberGetByWorkspaceAndPerson w p) t s).1 = .ok member) :
    member.hasAccess = false := by
  obtain ⟨choice, -, hanswer⟩ := Machine.answer_ok hm
  rw [hanswer] at hm
  have hget : MemberRepo.getByWorkspaceAndPerson s.db w p = .ok member := hm
  unfold MemberRepo.getByWorkspaceAndPerson at hget
  split at hget
  · rename_i m hfound
    cases hget
    have hkey : memberKey member = (w, p) := by simpa using List.find?_some hfound
    exact Bool.eq_false_iff.mpr fun haccess =>
      h ⟨member, List.mem_of_find?_eq_some hfound, hkey, haccess⟩
  · cases hget

/-- The send of the person cannot get past its check any more. -/
theorem afterLookup_without_access (stamps : ℕ → Stamp) (c : Uuid) (name content : String)
    {t : Turn Choice GoError} {s : ChatState} {w p : Uuid} (h : ¬HasAccess s.db w p) :
    ∃ e, afterLookup stamps w c p name content
      (chatMachine.answer (.memberGetByWorkspaceAndPerson w p) t s).1 = .ret (.error e) := by
  cases hm : (chatMachine.answer (.memberGetByWorkspaceAndPerson w p) t s).1 with
  | error e => exact ⟨e, rfl⟩
  | ok member =>
    refine ⟨errChatAccessDenied, ?_⟩
    unfold afterLookup
    exact if_pos (lookup_without_access h hm)

/-- The call has got past its beginning without a failure. -/
def Passed (s : Exchange) (i : ℕ) : Prop :=
  ∃ r q, s.service.threads[i]? = some ⟨r, q⟩ ∧ q ≠ body r ∧ ∀ e, q ≠ .ret (.error e)

/-- The person has no access, and since a state none of its sends has got past
its check. -/
structure Barred (w p : Uuid) (s x : Exchange) : Prop where
  access : ¬HasAccess x.db w p
  sends : ∀ i r q, x.service.threads[i]? = some ⟨r, q⟩ → SendsAs w p r →
    q = body r ∨ (∃ e, q = .ret (.error e)) ∨ Passed s i

theorem Barred.refl {w p : Uuid} {s : Exchange} (h : ¬HasAccess s.db w p) : Barred w p s s where
  access := h
  sends i r q hi _ := by
    by_cases hbody : q = body r
    · exact Or.inl hbody
    · by_cases herror : ∃ e, q = .ret (.error e)
      · exact Or.inr (Or.inl herror)
      · exact Or.inr (Or.inr ⟨r, q, hi, hbody, fun e he => herror ⟨e, he⟩⟩)

/-- A turn of a call that gives no access lets no send of the person pass. -/
theorem Barred.turn {w p : Uuid} {s x x' : Exchange} {i : ℕ} {t : Turn Choice GoError}
    (h : Barred w p s x) (hstep : x.turn i t = some x') (haccess : ¬HasAccess x'.db w p) :
    Barred w p s x' := by
  obtain ⟨service, hservice, rfl⟩ := Option.map_eq_some_iff.mp hstep
  obtain ⟨r, op, next, hi, -, rfl⟩ := Pool.step_turn hservice
  refine ⟨haccess, fun j r' q hj hsend => ?_⟩
  dsimp only at hj
  obtain ⟨rfl, hthread⟩ | ⟨-, hj⟩ := getElem?_set_cases hj
  · cases hthread
    obtain hbody | ⟨e, he⟩ | hpassed := h.sends j r _ hi hsend
    · -- the send was before its check, so this call is the check
      obtain ⟨call, stamps⟩ := r
      obtain ⟨c, name, content, hcall⟩ := hsend
      dsimp only at hcall
      subst hcall
      rw [body_sendMessage] at hbody
      cases hbody
      exact Or.inr (Or.inl (afterLookup_without_access stamps c name content h.access))
    · cases he
    · exact Or.inr (Or.inr hpassed)
  · exact h.sends j r' q hj hsend

/-- A step that grants nothing lets no send of the person pass. -/
theorem Barred.step {w p : Uuid} {s x x' : Exchange} {l : ExchangeLabel} (h : Barred w p s x)
    (hl : GrantsNothing w p x l) (hstep : Exchange.step x l = some x') : Barred w p s x' := by
  have haccess : ¬HasAccess x'.db w p := fun hgiven => h.access (hl x' hstep hgiven)
  cases Exchange.stepped hstep with
  | @started r =>
    refine ⟨h.access, fun i r' q hi hsend => ?_⟩
    obtain ⟨-, hthread⟩ | hi := getElem?_concat_cases hi
    · cases hthread
      exact Or.inl rfl
    · exact h.sends i r' q hi hsend
  | served ht => exact h.turn ht haccess
  | failed ht => exact h.turn ht haccess
  | published hk => exact ⟨h.access, h.sends⟩
  | subscribed => exact ⟨h.access, h.sends⟩
  | delivered hj => exact ⟨h.access, h.sends⟩
  | discarded hj => exact ⟨h.access, h.sends⟩

/-- Where a send of the person stands that has added a row since a state. -/
theorem Passed.pastCheck {db : ChatDb} {s : Exchange} (h : Accounted db s) {i : ℕ}
    {w p : Uuid} {r : Request} (hpassed : Passed s i) (hsend : SendsAs w p r)
    (hreq : ∀ r' q, s.service.threads[i]? = some ⟨r', q⟩ → r' = r)
    (hnone : entriesOf i s.added = []) : pastCheck w p s i = true := by
  obtain ⟨r', q, hi, hbody, herror⟩ := hpassed
  obtain rfl := hreq r' q hi
  obtain ⟨c, name, content, hcall⟩ := hsend
  have hstands := h.stands i _ hi
  rw [hnone] at hstands
  generalize entriesOf i s.lookups = members, entriesOf i s.started = ps at hstands
  generalize hrows : ([] : List ChatMessage) = rows at hstands
  dsimp only at hstands
  cases hstands with
  | other hr hq => exact absurd hcall (hr w c p name content)
  | looking => exact absurd rfl hbody
  | saving haccess hmsg =>
    cases hcall
    unfold Revocation.pastCheck
    rw [hi]
    exact decide_eq_true ⟨rfl, rfl⟩
  | announcing haccess hmsg hrow => cases hrows
  | returned haccess hmsg hrow => cases hrows
  | failed => exact absurd rfl (herror _)

/-- Every call keeps its request. -/
theorem request_step {s s' : Exchange} {l : ExchangeLabel} {i : ℕ} {r : Request}
    (hi : (s.service.threads[i]?).map Thread.req = some r)
    (hstep : Exchange.step s l = some s') : (s'.service.threads[i]?).map Thread.req = some r := by
  have turn : ∀ {j t}, s.turn j t = some s' →
      (s'.service.threads[i]?).map Thread.req = some r := by
    intro j t ht
    obtain ⟨service, hservice, rfl⟩ := Option.map_eq_some_iff.mp ht
    exact Pool.step_request hi hservice
  cases Exchange.stepped hstep with
  | @started r' =>
    have hstart : Service.step s.service (.start r') =
        some ⟨s.service.state, s.service.threads ++ [⟨r', body r'⟩]⟩ := rfl
    exact Pool.step_request hi hstart
  | served ht => exact turn ht
  | failed ht => exact turn ht
  | _ => exact hi

/-- A call has added one row at most. -/
theorem added_le_one {r : Request} {q : ServiceProgram Response}
    {members : List ChatWorkspaceMember} {rows : List ChatMessage} {ps : List Publication}
    (h : Stands r q members rows ps) : rows = [] ∨ ∃ row, rows = [row] := by
  cases h with
  | announcing haccess hmsg hrow => exact Or.inr ⟨_, rfl⟩
  | returned haccess hmsg hrow => exact Or.inr ⟨_, rfl⟩
  | _ => exact Or.inl rfl

/-- A send that is at its beginning or has failed has added no row. -/
theorem not_added {db : ChatDb} {s : Exchange} (h : Accounted db s) {i : ℕ} {r : Request}
    {q : ServiceProgram Response} (hi : s.service.threads[i]? = some ⟨r, q⟩)
    (hq : q = body r ∨ ∃ e, q = .ret (.error e)) : entriesOf i s.added = [] := by
  have hstands := h.stands i _ hi
  generalize entriesOf i s.lookups = members, entriesOf i s.added = rows,
    entriesOf i s.started = ps at hstands
  dsimp only at hstands
  cases hstands with
  | announcing haccess hmsg hrow =>
    rw [body_sendMessage] at hq
    obtain hq | ⟨e, hq⟩ := hq <;> cases hq
  | returned haccess hmsg hrow =>
    rw [body_sendMessage] at hq
    obtain hq | ⟨e, hq⟩ := hq <;> cases hq
  | _ => rfl

/-- While the person has no access and nothing grants it, a message that the
person gets into the workspace is the one of a send that was past its check. -/
theorem saved_pastCheck {db : ChatDb} {s s' : Exchange} {w p : Uuid} (h : Accounted db s)
    (h' : Accounted db s') (hbarred : Barred w p s s')
    (hreq : ∀ (i : ℕ) r, (s.service.threads[i]?).map Thread.req = some r →
      (s'.service.threads[i]?).map Thread.req = some r)
    (hext : Extends s s') (i : ℕ) (row : ChatMessage) (hrow : (i, row) ∈ s'.added)
    (hnew : (i, row) ∉ s.added) (hw : row.workspaceID = w) (hp : row.personID = p) :
    pastCheck w p s i = true := by
  obtain ⟨w', c, p', content, name, stamps, prog, hi, -, -, -, -, -, hrowW, -, hrowP, -, -⟩ :=
    h'.publishedIffSaved.checked i row hrow
  rw [hw] at hrowW
  rw [hp] at hrowP
  subst hrowW hrowP
  have hmine : row ∈ entriesOf i s'.added := mem_entriesOf.mpr hrow
  have hsend : SendsAs w p ⟨.sendMessage w c p content name, stamps⟩ := ⟨c, content, name, rfl⟩
  obtain hbody | herror | hpassed := hbarred.sends i _ _ hi hsend
  · rw [not_added h' hi (Or.inl hbody)] at hmine
    cases hmine
  · rw [not_added h' hi (Or.inr herror)] at hmine
    cases hmine
  · refine hpassed.pastCheck h hsend (fun r' q hi' => ?_) ?_
    · have hkept := hreq i r' (by rw [hi']; rfl)
      rw [hi] at hkept
      exact (Option.some.inj hkept).symm
    · -- a call adds one row at most, so it had added none before
      obtain ⟨new, hsplit⟩ := hext.added
      rw [← hsplit, entriesOf_append] at hmine
      obtain hold | hlater := List.mem_append.mp hmine
      · exact absurd (mem_entriesOf.mp hold) hnew
      · obtain hnone | ⟨row', hone⟩ := added_le_one (h'.stands i _ hi)
        · rw [← hsplit, entriesOf_append] at hnone
          exact (List.append_eq_nil_iff.mp hnone).1
        · rw [← hsplit, entriesOf_append] at hone
          obtain ⟨hnone, -⟩ | ⟨-, hnone⟩ := List.append_eq_singleton_iff.mp hone
          · exact hnone
          · rw [hnone] at hlater
            cases hlater

/-- As many of the person's messages are new as there were sends past their check. -/
theorem count_saved {db : ChatDb} {s s' : Exchange} {w p : Uuid} (h : Accounted db s)
    (h' : Accounted db s') (hext : Extends s s')
    (hsaved : ∀ i row, (i, row) ∈ s'.added → (i, row) ∉ s.added → row.workspaceID = w →
      row.personID = p → pastCheck w p s i = true) :
    (messagesOf w p s'.db).length ≤ (messagesOf w p s.db).length +
      ((List.range s.service.threads.length).filter (pastCheck w p s)).length := by
  obtain ⟨new, hsplit⟩ := hext.added
  have hnodup : ((s.added ++ new).map Prod.fst).Nodup := by
    rw [hsplit]
    refine nodup_map_fst fun i => ?_
    by_cases hlt : i < s'.service.threads.length
    · obtain hnone | ⟨row, hone⟩ := added_le_one (h'.stands i _ (List.getElem?_eq_getElem hlt))
      · rw [hnone]
        exact Nat.zero_le 1
      · rw [hone]
        exact le_refl 1
    · rw [(h'.known i (by omega)).2.1]
      exact Nat.zero_le 1
  have hrows : messagesOf w p s'.db = messagesOf w p s.db ++
      ((new.filter fun e => e.2.workspaceID = w ∧ e.2.personID = p).map Prod.snd) := by
    unfold messagesOf
    rw [h'.rows, h.rows, ← hsplit, List.map_append, ← List.append_assoc, List.filter_append,
      List.filter_map]
    rfl
  have hsub : ((new.filter fun e => e.2.workspaceID = w ∧ e.2.personID = p).map Prod.fst) ⊆
      (List.range s.service.threads.length).filter (pastCheck w p s) := by
    intro i hi
    obtain ⟨⟨j, row⟩, hmem, rfl⟩ := List.mem_map.mp hi
    obtain ⟨hmem, hmine⟩ := List.mem_filter.mp hmem
    obtain ⟨hw, hp⟩ := of_decide_eq_true hmine
    have hrow : (j, row) ∈ s'.added := by
      rw [← hsplit]
      exact List.mem_append_right _ hmem
    have hnew : (j, row) ∉ s.added := by
      intro hold
      rw [List.map_append] at hnodup
      exact (List.nodup_append.mp hnodup).2.2 j (List.mem_map.mpr ⟨_, hold, rfl⟩) j
        (List.mem_map.mpr ⟨_, hmem, rfl⟩) rfl
    have hpast := hsaved j row hrow hnew hw hp
    refine List.mem_filter.mpr ⟨List.mem_range.mpr ?_, hpast⟩
    unfold pastCheck at hpast
    split at hpast
    · rename_i hj
      exact (List.getElem?_eq_some_iff.mp hj).1
    · cases hpast
  have hfirsts : ((new.filter fun e => e.2.workspaceID = w ∧ e.2.personID = p).map
      Prod.fst).Nodup := by
    rw [List.map_append] at hnodup
    exact (List.nodup_append.mp hnodup).2.1.sublist (List.filter_sublist.map Prod.fst)
  have hle := (List.subperm_of_subset hfirsts hsub).length_le
  rw [List.length_map] at hle
  rw [hrows, List.length_append, List.length_map]
  omega

/-- From a state without the access on, in every interleaving whose steps do not give
it, only the sends that were past their check save their message. -/
theorem revocation_stops_sends {db : ChatDb} {before after : List ExchangeLabel} {s s' : Exchange}
    {w p : Uuid} (hs : run Exchange.step (Exchange.initial db) before = some s)
    (hno : ¬HasAccess s.db w p) (hgrants : EachStep Exchange.step (GrantsNothing w p) s after)
    (hr : run Exchange.step s after = some s') : StopsSends w p s s' := by
  have h : Accounted db s :=
    run_invariant (fun _ _ _ h hstep => h.step hstep) (Accounted.initial db) hs
  have h' : Accounted db s' := run_invariant (fun _ _ _ h hstep => h.step hstep) h hr
  have hbarred : Barred w p s s' :=
    run_guarded (fun _ _ _ hx hl hstep => hx.step hl hstep) (Barred.refl hno) hgrants hr
  have hreq : ∀ (i : ℕ) r, (s.service.threads[i]?).map Thread.req = some r →
      (s'.service.threads[i]?).map Thread.req = some r := fun i r hi =>
    run_invariant (I := fun x => (x.service.threads[i]?).map Thread.req = some r)
      (fun _ _ _ hx hstep => request_step hx hstep) hi hr
  have hsaved := saved_pastCheck h h' hbarred hreq (extends_run hr)
  refine ⟨hsaved, count_saved h h' (extends_run hr) hsaved, ?_⟩
  intro i r result hi hthread hsend
  obtain hbody | ⟨e, he⟩ | ⟨r', q, hs', -, -⟩ := hbarred.sends i r _ hthread hsend
  · obtain ⟨call, stamps⟩ := r
    obtain ⟨c, name, content, rfl⟩ := hsend
    rw [body_sendMessage] at hbody
    cases hbody
  · cases he
    exact ⟨e, rfl⟩
  · have hlt := (List.getElem?_eq_some_iff.mp hs').1
    omega

/-- Person 5 is past the check of a first send when the access is revoked. -/
def revokedMidway : List ExchangeLabel :=
  [.start (Call.request (.createWorkspace 1 1 "Spa")), .serve 0 (chosen 10),
    .start (Call.request (.addMember 10 5 "Admin")), .serve 1 (chosen 11),
    .start (Call.request (.getOrCreateGroupConversation 10)), .serve 2 (chosen 30),
    .serve 2 (chosen 30), annSends "one", .serve 3 (chosen 1),
    .start (Call.request (.updateMemberAccess 10 5 false)), .serve 4 (chosen 1)]

/-- The first send ends, the person is made Admin once more, and a second send
arrives. -/
def afterRevocation : List ExchangeLabel :=
  [.serve 3 (chosen 40), .serve 3 (chosen 1), .start (Call.request (.addMember 10 5 "Admin")),
    .serve 5 (chosen 12), annSends "two", .serve 6 (chosen 1)]

/-- One message is still saved after the revocation, and not the second one. -/
theorem revocation_stops_sends_midway : ∃ s s',
    run Exchange.step (Exchange.initial ChatDb.empty) revokedMidway = some s ∧
      run Exchange.step s afterRevocation = some s' ∧
      messagesOf 10 5 s'.db = [annSent 40 "one"] ∧ StopsSends 10 5 s s' := by
  have hall : (run Exchange.step (Exchange.initial ChatDb.empty) revokedMidway).any (fun s =>
      decide (¬HasAccess s.db 10 5) &&
        decide (EachStep Exchange.step (GrantsNothing 10 5) s afterRevocation) &&
        (run Exchange.step s afterRevocation).any fun s' =>
          decide (messagesOf 10 5 s'.db = [annSent 40 "one"])) = true := by decide
  obtain ⟨s, hs, hrest⟩ := (Option.any_eq_true _ _).mp hall
  obtain ⟨hguards, hrest⟩ := (Bool.and_eq_true _ _).mp hrest
  obtain ⟨hno, hgrants⟩ := (Bool.and_eq_true _ _).mp hguards
  obtain ⟨s', hs', hmessages⟩ := (Option.any_eq_true _ _).mp hrest
  exact ⟨s, s', hs, hs', of_decide_eq_true hmessages,
    revocation_stops_sends hs (of_decide_eq_true hno) (of_decide_eq_true hgrants) hs'⟩

end AuraWellness.Chat.Revocation
