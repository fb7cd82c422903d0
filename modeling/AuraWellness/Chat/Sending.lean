import AuraWellness.Lib.Results
import AuraWellness.Chat.Handlers
import AuraWellness.Chat.LiveFrames

/-!
# What a call sends

`SendMessage` looks up the member first, saves the message as it is asked to, and
publishes what it has saved. No other call saves or publishes. A call guarantees this
beside any other calls, so it holds of a procedure that runs alone and of the threads
of the service alike.
-/

namespace AuraWellness.Chat.Sending

open AuraWellness.Lib.Calls AuraWellness.Lib.RelyGuarantee
open AuraWellness.Chat.Entities AuraWellness.Chat.Schema AuraWellness.Chat.Repositories
open AuraWellness.Chat.Services AuraWellness.Chat.Growth AuraWellness.Chat.Membership
open AuraWellness.Chat.Handlers AuraWellness.Chat.Publishing AuraWellness.Chat.Live
open AuraWellness.Chat.LiveAccess AuraWellness.Chat.LiveFrames

/-- The message is the one that the call sends. -/
def Sends (call : Call) (m : ChatMessage) : Prop :=
  call = .sendMessage m.workspaceID m.conversationID m.personID m.senderName m.content

/-- What the calls rely on: rows stay. -/
def growing : Rely ChatState where
  inv _ := True
  steps s s' := Grows s.db s'.db
  refl s := Grows.refl s.db
  trans _ _ _ h h' := h.trans h'

/-- The guarantee of a call: it makes the repository calls of its kind, saves only its own
message, of a member, and starts to publish only what is stored. -/
def SendGuarantee (call : Call) (op : ServiceCall) (_ : Turn Choice GoError) (s : ChatState) :
    Prop :=
  Makes call op ∧ match op with
    | .messageSave m => Sends call m ∧ IsMember s.db m.workspaceID m.personID
    | .goPublish c event => PublishesStored s.db ⟨c, event⟩
    | _ => True

/-- A lookup of a member finds one. -/
theorem lookup_member {w p : Uuid} {t : Turn Choice GoError} {s : ChatState}
    {member : ChatWorkspaceMember}
    (h : (chatMachine.answer (.memberGetByWorkspaceAndPerson w p) t s).1 = .ok member) :
    IsMember s.db w p := by
  obtain ⟨choice, -, hanswer⟩ := Machine.answer_ok h
  rw [hanswer] at h
  have hget : MemberRepo.getByWorkspaceAndPerson s.db w p = .ok member := h
  unfold MemberRepo.getByWorkspaceAndPerson at hget
  split at hget
  · rename_i m hfound
    exact ⟨m, List.mem_of_find?_eq_some hfound, by simpa using List.find?_some hfound⟩
  · cases hget

/-- The row that a save returns is stored in the conversation of its message. -/
theorem saved_storedIn {m saved : ChatMessage} {t : Turn Choice GoError} {s : ChatState}
    (h : (chatMachine.answer (.messageSave m) t s).1 = .ok saved) :
    StoredIn (chatMachine.answer (.messageSave m) t s).2.db m.conversationID saved := by
  obtain ⟨choice, -, hanswer⟩ := Machine.answer_ok h
  rw [hanswer] at h ⊢
  obtain ⟨row, hrow, hok, happends⟩ | ⟨e, herror, -⟩ := exec_messageSave m choice s
  · cases hok.symm.trans h
    refine ⟨?_, by rw [hrow]⟩
    change saved ∈ (ServiceCall.exec (.messageSave m) choice s).2.db.messages
    rw [happends.messages]
    exact List.mem_append_right _ (List.mem_singleton_self saved)
  · cases herror.symm.trans h

/-- `SendMessage` is under its guarantee: the member is looked up before the save, and the
publish is started after it. -/
theorem sendMessage_guarantees (stamps : ℕ → Stamp) (w c p : Uuid) (name content : String)
    (s : ChatState) :
    Guarantees chatMachine growing (fun op _ s => match op with
        | .messageSave m => Sends (.sendMessage w c p name content) m ∧
            IsMember s.db m.workspaceID m.personID
        | .goPublish c event => PublishesStored s.db ⟨c, event⟩
        | _ => True)
      (MessagingService.sendMessage stamps w c p name content) s := by
  unfold MessagingService.sendMessage
  refine Guarantees.perform_bind (fun _ _ _ _ => ⟨trivial, trivial⟩)
    fun s₁ t₁ member _ _ hlookup => ?_
  have hmember := lookup_member hlookup
  split
  · trivial
  cases hnew : newMessage (stamps 0) w c p name content with
  | error e => trivial
  | ok m =>
    obtain ⟨-, -, -, -, hm⟩ := newMessage_ok.mp hnew
    refine Guarantees.perform_bind (fun s₂ t₂ hs₂ _ => ⟨trivial, ?_, ?_⟩)
      fun s₂ t₂ saved _ _ hsaved => ?_
    · rw [hm]
      rfl
    · rw [hm]
      exact (hmember.grows (answer_grows _ t₁ s₁)).grows hs₂
    · refine Guarantees.perform_bind (fun s₃ t₃ hs₃ _ => ⟨trivial, ?_⟩) fun _ _ _ _ _ _ => trivial
      have hconversation : m.conversationID = c := by rw [hm]
      have hstored := saved_storedIn hsaved
      rw [hconversation] at hstored
      exact hstored.grows hs₃

/-- A call of another kind neither saves a message nor publishes one. -/
theorem makes_silent {call : Call} {op : ServiceCall} (h : Makes call op)
    (hcall : ∀ w c p name content, call ≠ .sendMessage w c p name content) : Silent op := by
  constructor
  · rintro m rfl
    cases h
    exact hcall _ _ _ _ _ rfl
  · rintro c event rfl
    cases h
    exact hcall _ _ _ _ _ rfl

/-- Every call is under its guarantee. -/
theorem program_guarantees (stamps : ℕ → Stamp) (call : Call) (s : ChatState) :
    Guarantees chatMachine growing (SendGuarantee call) (call.program stamps) s := by
  have hmakes : (call.program stamps).AllOps (Makes call) := body_makes ⟨call, stamps⟩
  by_cases hsend : ∃ w c p name content, call = .sendMessage w c p name content
  · obtain ⟨w, c, p, name, content, rfl⟩ := hsend
    exact guarantees_strengthen ((sendMessage_guarantees stamps w c p name content s).map _) hmakes
      fun op t s' hop hguarantee => ⟨hop, hguarantee⟩
  · refine Guarantees.of_allOps hmakes (fun op t s' hop _ => ⟨trivial, hop, ?_⟩) s
    obtain ⟨hsave, hpublish⟩ := makes_silent hop fun w c p name content he =>
      hsend ⟨w, c, p, name, content, he⟩
    split
    · rename_i m
      exact absurd rfl (hsave m)
    · rename_i c event
      exact absurd rfl (hpublish c event)
    · trivial

/-- What a call leaves behind: new messages are its own, of a member, and what is to be
published is stored; a send leaves the members and workspaces as they are. -/
structure Sent (call : Call) (s s' : ChatState) : Prop where
  grows : Grows s.db s'.db
  messages : ∀ m ∈ s'.db.messages, m ∈ s.db.messages ∨
    Sends call m ∧ IsMember s'.db m.workspaceID m.personID
  publishing : ∀ p ∈ s'.publishing, p ∈ s.publishing ∨ PublishesStored s'.db p
  members : ∀ {w c p name content}, call = .sendMessage w c p name content →
    s'.db.members = s.db.members

theorem Sent.refl (call : Call) (s : ChatState) : Sent call s s :=
  ⟨Grows.refl s.db, fun _ h => Or.inl h, fun _ h => Or.inl h, fun _ => rfl⟩

theorem Sent.trans {call : Call} {s s' s'' : ChatState} (h : Sent call s s')
    (h' : Sent call s' s'') : Sent call s s'' where
  grows := h.grows.trans h'.grows
  messages m hm := by
    obtain hold | hnew := h'.messages m hm
    · exact (h.messages m hold).imp_right fun hown => ⟨hown.1, hown.2.grows h'.grows⟩
    · exact Or.inr hnew
  publishing p hp := by
    obtain hold | hnew := h'.publishing p hp
    · exact (h.publishing p hold).imp_right fun hstored => StoredIn.grows h'.grows hstored
    · exact Or.inr hnew
  members hcall := (h'.members hcall).trans (h.members hcall)

/-- What is to be published after a call was so before, or the call starts it. -/
theorem exec_publishing {op : ServiceCall} {choice : Choice} {s : ChatState} {p : Publication}
    (hp : p ∈ (op.exec choice s).2.publishing) :
    p ∈ s.publishing ∨ op = .goPublish p.conversationID p.event := by
  by_cases hsilent : Silent op
  · rw [(exec_silent hsilent choice s).publishing, List.append_nil] at hp
    exact Or.inl hp
  · cases op with
    | messageSave m =>
      obtain ⟨row, -, -, happends⟩ | ⟨e, -, happends⟩ := exec_messageSave m choice s <;>
        rw [happends.publishing, List.append_nil] at hp <;> exact Or.inl hp
    | goPublish c event =>
      refine (List.mem_append.mp hp).imp_right fun hlast => ?_
      rw [List.mem_singleton.mp hlast]
    | _ => exact absurd ⟨fun _ h => (by cases h), fun _ _ h => (by cases h)⟩ hsilent

/-- A send writes no members. -/
theorem exec_sendMembers {w c p : Uuid} {name content : String} {op : ServiceCall}
    (h : Makes (.sendMessage w c p name content) op) (choice : Choice) (s : ChatState) :
    (op.exec choice s).2.db.members = s.db.members := by
  cases h with
  | sendLookup => rfl
  | sendPublish => rfl
  | @sendSave _ _ _ _ _ m =>
    have heffect := exec_effect (.messageSave m) choice s
    generalize (ServiceCall.exec (.messageSave m) choice s).2.db = d at heffect
    cases heffect with
    | same => rfl
    | messageSave hinsert =>
      obtain ⟨-, -, -, -, hd⟩ := insertMessage_ok_iff.mp hinsert
      rw [hd]

/-- A call that is made as the guarantee says leaves this behind. -/
theorem SendGuarantee.sent {call : Call} {op : ServiceCall} {t : Turn Choice GoError}
    {s : ChatState} (h : SendGuarantee call op t s) :
    Sent call s (chatMachine.answer op t s).2 := by
  obtain ⟨hmakes, hop⟩ := h
  obtain he | ⟨choice, he⟩ := chatMachine.answer_state op t s
  · rw [he]
    exact Sent.refl call s
  rw [he]
  change Sent call s (op.exec choice s).2
  have heffect := exec_effect op choice s
  refine ⟨heffect.grows, fun m hm => ?_, fun p hp => ?_, fun hcall => ?_⟩
  · obtain hold | ⟨m₀, rfl, rfl⟩ := heffect.message_new hm
    · exact Or.inl hold
    · exact Or.inr ⟨hop.1, hop.2.grows heffect.grows⟩
  · obtain hold | rfl := exec_publishing hp
    · exact Or.inl hold
    · exact Or.inr (StoredIn.grows heffect.grows hop)
  · subst hcall
    exact exec_sendMembers hmakes choice s

/-- So does a procedure that is served to its end. -/
theorem serve_sent (rpc : Rpc) (env : RpcEnv) (s : ChatState) :
    Sent (rpc.call env.now) s (rpc.serve env s).2 := by
  have hrun : (rpc.serve env s).2 =
      (((rpc.call env.now).program env.stamps).run chatMachine env.turns s).2 := by
    rw [← Rpc.program_call, Program.run_map]
    rfl
  rw [hrun]
  exact (program_guarantees env.stamps (rpc.call env.now) s).run
    (fun op t s' _ hguarantee hsent => hsent.trans hguarantee.sent) env.turns trivial
    (Sent.refl _ s)

/-- The threads of the service are under their guarantees. -/
abbrev Guarded (q : Service) : Prop :=
  Governed chatMachine growing (fun r : Request => SendGuarantee r.call) q

/-- Every step of the service keeps them so, and leaves the state, or is the turn of a call
and leaves what the call leaves. -/
theorem Guarded.step {q q' : Service} {l : ServiceLabel} (h : Guarded q)
    (hstep : Service.step q l = some q') :
    Guarded q' ∧ (q'.state = q.state ∨ ∃ i t r, l = .turn i t ∧
      (q.threads.map Thread.req)[i]? = some r ∧ Sent r.call q.state q'.state) := by
  obtain ⟨hguarded, -⟩ := Governed.step h (fun r s _ => program_guarantees r.stamps r.call s)
    (fun _ _ _ _ _ hguarantee => hguarantee.sent.grows) hstep
  refine ⟨hguarded, ?_⟩
  cases l with
  | start r =>
    cases hstep
    exact Or.inl rfl
  | turn i t =>
    obtain ⟨r, op, next, hi, -, rfl⟩ := Pool.step_turn hstep
    refine Or.inr ⟨i, t, r, rfl, ?_, (h.call hi t).sent⟩
    rw [List.getElem?_map, hi]
    rfl
  | crash i e =>
    obtain ⟨r, op, next, hi, rfl⟩ := Pool.step_crash hstep
    exact Or.inl rfl

/-- So does every step of the service with its connections. -/
theorem Guarded.liveStep {s s' : LiveState} {l : LiveLabel} (h : Guarded s.service)
    (hstep : LiveState.step s l = some s') :
    Guarded s'.service ∧ (s'.db = s.db ∨ ∃ i t r, l = .service (.turn i t) ∧
      (s.service.threads.map Thread.req)[i]? = some r ∧
      Sent r.call s.service.state s'.service.state) := by
  obtain ⟨sl, hsl, hservice⟩ | ⟨k, succeeds, p, -, -, he, -⟩ | he := live_step_service hstep
  · obtain ⟨hguarded, he | ⟨i, t, r, rfl, hi, hsent⟩⟩ := h.step hservice
    · exact ⟨hguarded, Or.inl (congrArg ChatState.db he)⟩
    · obtain rfl | ⟨r', hr'⟩ := hsl
      · exact ⟨hguarded, Or.inr ⟨i, t, r, rfl, hi, hsent⟩⟩
      · cases hr'
  · have hdb : s'.service.state.db = s.service.state.db := by rw [he]
    rw [he]
    exact ⟨h.stable trivial (Grows.refl _), Or.inl hdb⟩
  · have hdb : s'.service.state.db = s.service.state.db := by rw [he]
    rw [he]
    exact ⟨h, Or.inl hdb⟩

/-- The identities that a step lets in. -/
def letsIn : LiveLabel → List UserClaims
  | .accept claims buID => if claims.buID = buID then [claims] else []
  | _ => []

/-- A step adds the identities that it lets in to those of all connections. -/
theorem claims_step {s s' : LiveState} {l : LiveLabel} (h : LiveState.step s l = some s') :
    s'.sockets.map Socket.claims = s.sockets.map Socket.claims ++ letsIn l := by
  have moved : ∀ {i : ℕ} {claims : UserClaims} {stage stage' : SocketStage},
      s.sockets[i]? = some ⟨claims, stage⟩ →
        (s.sockets.set i ⟨claims, stage'⟩).map Socket.claims =
          s.sockets.map Socket.claims ++ [] := by
    intro i claims stage stage' hi
    rw [List.append_nil, List.map_set]
    refine List.ext_getElem? fun j => ?_
    rw [List.getElem?_set]
    split
    · rename_i he
      rw [← he, List.getElem?_map, hi]
      simp [(List.getElem?_eq_some_iff.mp hi).1]
    · rfl
  have same : s.sockets.map Socket.claims = s.sockets.map Socket.claims ++ [] :=
    (List.append_nil _).symm
  cases LiveState.stepped h with
  | service hstep => exact same
  | @accepted claims buID hbu =>
    have hlets : letsIn (.accept claims buID) = [claims] := if_pos hbu
    rw [hlets, List.map_append, List.map_singleton]
  | @refused claims buID hbu =>
    have hlets : letsIn (.accept claims buID) = [] := if_neg hbu
    rw [hlets]
    exact same
  | resolved hi => exact moved hi
  | listed hi => exact moved hi
  | upgraded hi => exact moved hi
  | subscribed hi hwaiting => exact moved (stream?_eq_some.mp hi)
  | confirmed hi hj => exact moved (stream?_eq_some.mp hi)
  | @published k succeeds p hp =>
    cases succeeds with
    | false => exact same
    | true =>
      refine Eq.trans ?_ same
      dsimp only
      rw [if_pos rfl, List.map_map]
      refine List.map_congr_left fun socket _ => ?_
      unfold Function.comp Socket.deliver
      split <;> rfl
  | written hi hj => exact moved (stream?_eq_some.mp hi)
  | received hi hidle hstep => exact moved (stream?_eq_some.mp hi)
  | disconnected hi => exact moved (stream?_eq_some.mp hi)

/-- The connection that receives a send in a step. -/
def receivesAt : LiveLabel → List ℕ
  | .receive k _ _ _ => [k]
  | _ => []

/-- The call is a send in the name of the connection. -/
def SpeaksFor (claims : UserClaims) (call : Call) : Prop :=
  ∃ w c content, call = .sendMessage w c claims.personID claims.senderName content

/-- A step adds the request that it starts at the service, or a send in the name of the
connection that receives it. -/
theorem live_requests_step {s s' : LiveState} {l : LiveLabel} (h : LiveState.step s l = some s')
    (hstart : ∀ r, l ≠ .service (.start r)) :
    (receivesAt l = [] ∧ s'.service.threads.map Thread.req = s.service.threads.map Thread.req) ∨
      ∃ k socket r, receivesAt l = [k] ∧ s.sockets[k]? = some socket ∧
        SpeaksFor socket.claims r.call ∧
        s'.service.threads.map Thread.req = s.service.threads.map Thread.req ++ [r] := by
  cases LiveState.stepped h with
  | @service sl service hstep =>
    refine Or.inl ⟨rfl, ?_⟩
    have hrequests := Pool.requests_step hstep
    cases sl with
    | start r => exact absurd rfl (hstart r)
    | turn i t => exact hrequests.trans (List.append_nil _)
    | crash i e => exact hrequests.trans (List.append_nil _)
  | received hi hidle hstep =>
    exact Or.inr ⟨_, _, _, rfl, stream?_eq_some.mp hi, ⟨_, _, _, rfl⟩, Pool.requests_step hstep⟩
  | _ => exact Or.inl ⟨rfl, rfl⟩

end AuraWellness.Chat.Sending
