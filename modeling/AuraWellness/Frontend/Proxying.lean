import AuraWellness.Frontend.Server

/-!
# What the proxy passes on

While a proxied connection is undisturbed, every frame of the browser is passed
on in order or still unread, unless one is received before the socket to the chat
service is open. The two sockets close together unless that of the browser closes
while the other is connecting.
-/

namespace AuraWellness.Frontend.Proxying

open AuraWellness.Lib.Transition AuraWellness.Frontend.Server

/-- Neither side has closed or failed. -/
def Undisturbed (s : Proxy) : Prop :=
  s.browserWs = .opened ∧ (s.backendWs = .connecting ∨ s.backendWs = .opened)

/-- While nothing is disturbed, what the browser has sent is forwarded in order or unread. -/
def KeepsFrames (s : Proxy) : Prop := Undisturbed s → s.sent = s.forwarded ++ s.unread

/-- If one of the sockets is closed, the other is closed or closing. -/
def ClosesTogether (s : Proxy) : Prop :=
  (s.browserWs = .closed → s.backendWs = .closed ∨ s.backendWs = .closing) ∧
    (s.backendWs = .closed → s.browserWs = .closed ∨ s.browserWs = .closing)

/-- How the listeners go with the states of the sockets. -/
structure Wired (s : Proxy) : Prop where
  /-- The browser's request is upgraded. -/
  upgraded : s.browserWs ≠ .connecting
  /-- The listeners are registered when the second socket opens. -/
  listening : s.listening = true → s.backendWs ≠ .connecting
  /-- It opens with them only. -/
  opened : s.listening = false → s.backendWs ≠ .opened
  /-- A second socket that fails before closes the first. -/
  failed : s.listening = false → s.backendWs ≠ .connecting → s.browserWs ≠ .opened

/-- After `close` a socket is closing or closed. -/
theorem afterClose_down (r : ReadyState) : r.afterClose = .closed ∨ r.afterClose = .closing := by
  cases r <;> simp [ReadyState.afterClose]

/-- Once the listeners are there, `close` of the second socket keeps them going. -/
theorem wired_closeBackend {s : Proxy} (frame : CloseFrame) (hbrowser : s.browserWs ≠ .connecting)
    (hbrowser' : s.browserWs ≠ .opened) : Wired (s.closeBackend frame) := by
  have hdown := afterClose_down s.backendWs
  refine ⟨hbrowser, fun _ => ?_, fun _ => ?_, fun _ _ => hbrowser'⟩
  · unfold Proxy.closeBackend
    obtain h | h := hdown <;> simp [h]
  · unfold Proxy.closeBackend
    obtain h | h := hdown <;> simp [h]

/-- A closing browser's socket keeps the listeners going with a second socket that is down. -/
theorem wired_closeBrowser {s : Proxy} (frame : CloseFrame)
    (hbackend : s.backendWs = .closed ∨ s.backendWs = .closing) : Wired (s.closeBrowser frame) := by
  unfold Proxy.closeBrowser
  obtain h | h := hbackend <;> exact ⟨by simp, by simp [h], by simp [h], by simp⟩

/-- Every event keeps the listeners going with the states of the sockets. -/
theorem wired_step {s s' : Proxy} {l : ProxyLabel} (hs : Wired s) (h : s.step l = some s') :
    Wired s' := by
  obtain ⟨hupgraded, hlistening, hopened, hfailed⟩ := hs
  cases Proxy.stepped h with
  | browserSends data hclosed => exact ⟨hupgraded, hlistening, hopened, hfailed⟩
  | forwards data unread hclosed hunread hheard hopen =>
    exact ⟨hupgraded, hlistening, hopened, hfailed⟩
  | drops data unread hclosed hunread hdeaf => exact ⟨hupgraded, hlistening, hopened, hfailed⟩
  | returns data hlive hopen => exact ⟨hupgraded, hlistening, hopened, hfailed⟩
  | returnDrops data hlive => exact ⟨hupgraded, hlistening, hopened, hfailed⟩
  | browserClosing hopen => exact ⟨by simp, hlistening, hopened, fun _ _ => by simp⟩
  | browserCloseUnheard hclosed hdeaf => exact ⟨by simp, hlistening, hopened, fun _ _ => by simp⟩
  | browserErrorIgnored hclosed hopen => exact ⟨by simp, hlistening, hopened, fun _ _ => by simp⟩
  | browserClose hclosed hheard => exact wired_closeBackend _ (by simp) (by simp)
  | browserError hclosed hopen => exact wired_closeBackend _ (by simp) (by simp)
  | backendOpen hconnecting => exact ⟨hupgraded, by simp, by simp, by simp⟩
  | backendClosing hopen =>
    exact ⟨hupgraded, by simp, by simp, fun hdeaf => absurd hopen (hopened hdeaf)⟩
  | backendClose code hlive hheard hopen => exact wired_closeBrowser _ (Or.inl rfl)
  | backendCloseIgnored code hlive hdeaf =>
    refine ⟨hupgraded, by simp, by simp, fun hunheard _ => ?_⟩
    obtain hopen | hclosing := hlive
    · exact absurd hopen (hopened hunheard)
    · exact hfailed hunheard (by rw [hclosing]; simp)
  | backendError hclosed hopen => exact wired_closeBrowser _ (Or.inr rfl)
  | backendErrorIgnored hclosed hopen => exact ⟨hupgraded, by simp, by simp, fun _ _ => hopen⟩

theorem wired_initial : Wired Proxy.initial :=
  ⟨by decide, fun h => absurd h Bool.false_ne_true, fun _ => by decide, fun _ h => absurd rfl h⟩

/-- The event receives a frame of the browser while the socket to the chat service
is still connecting. -/
def ReceivesEarly (s : Proxy) (l : ProxyLabel) : Prop :=
  l = .browserMessage ∧ s.browserWs = .opened ∧ s.backendWs = .connecting

/-- The socket of the browser closes while that to the chat service is still connecting. -/
def ClosesEarly (s : Proxy) (l : ProxyLabel) : Prop :=
  l = .browserClose ∧ s.backendWs = .connecting

/-- The socket to the chat service opens after that of the browser has closed. -/
def OpensLate (s : Proxy) (l : ProxyLabel) : Prop :=
  l = .backendOpen ∧ s.browserWs = .closed

instance (s : Proxy) (l : ProxyLabel) : Decidable (ReceivesEarly s l) := by
  unfold ReceivesEarly
  infer_instance

instance (s : Proxy) (l : ProxyLabel) : Decidable (ClosesEarly s l) := by
  unfold ClosesEarly
  infer_instance

/-- A side that is closing or closed releases the proxy from keeping frames. -/
theorem keepsFrames_of_browser {s : Proxy} (h : s.browserWs ≠ .opened) : KeepsFrames s :=
  fun hs => absurd hs.1 h

theorem keepsFrames_of_backend {s : Proxy} (hconnecting : s.backendWs ≠ .connecting)
    (hopened : s.backendWs ≠ .opened) : KeepsFrames s :=
  fun hs => hs.2.elim (fun h => absurd h hconnecting) fun h => absurd h hopened

/-- A dropped frame is lost exactly if it is received too early. -/
theorem keepsFrames_drop {s : Proxy} {data : String} {unread : List String} (hwired : Wired s)
    (hs : KeepsFrames s) (hunread : s.unread = data :: unread)
    (hdeaf : ¬(s.listening = true ∧ s.backendWs = .opened)) :
    KeepsFrames { s with unread } ↔ ¬ReceivesEarly s .browserMessage := by
  constructor
  · intro hkept hearly
    obtain ⟨-, hopen, hconnecting⟩ := hearly
    have hundisturbed : Undisturbed s := ⟨hopen, Or.inl hconnecting⟩
    have hbefore : s.sent = s.forwarded ++ s.unread := hs hundisturbed
    have hafter : s.sent = s.forwarded ++ unread := hkept hundisturbed
    rw [hunread] at hbefore
    have hlength := congrArg List.length (hbefore.symm.trans hafter)
    simp only [List.length_append, List.length_cons] at hlength
    omega
  · intro hearly hundisturbed
    obtain ⟨hopen, hconnecting | hopened⟩ := hundisturbed
    · exact absurd ⟨rfl, hopen, hconnecting⟩ hearly
    · have hheard : s.listening = true := by
        by_contra hunheard
        exact hwired.opened (Bool.eq_false_iff.mpr hunheard) hopened
      exact absurd ⟨hheard, hopened⟩ hdeaf

/-- An event keeps the frames exactly if it receives none too early. -/
theorem keepsFrames_step {s s' : Proxy} {l : ProxyLabel} (hwired : Wired s) (hs : KeepsFrames s)
    (h : s.step l = some s') : KeepsFrames s' ↔ ¬ReceivesEarly s l := by
  -- only `message` of the browser's socket receives a frame
  have other : l ≠ .browserMessage → KeepsFrames s' → (KeepsFrames s' ↔ ¬ReceivesEarly s l) :=
    fun hl hkept => iff_of_true hkept fun hearly => hl hearly.1
  cases Proxy.stepped h with
  | browserSends data hclosed =>
    refine other (by simp) fun hundisturbed => ?_
    have hbefore : s.sent = s.forwarded ++ s.unread := hs hundisturbed
    dsimp only
    rw [hbefore, List.append_assoc]
  | forwards data unread hclosed hunread hheard hopen =>
    refine iff_of_true (fun hundisturbed => ?_) fun hearly => ?_
    · have hbefore : s.sent = s.forwarded ++ s.unread := hs hundisturbed
      dsimp only
      rw [hbefore, hunread, List.append_assoc]
      rfl
    · cases hopen.symm.trans hearly.2.2
  | drops data unread hclosed hunread hdeaf => exact keepsFrames_drop hwired hs hunread hdeaf
  | returns data hlive hopen => exact other (by simp) hs
  | returnDrops data hlive => exact other (by simp) hs
  | backendOpen hconnecting =>
    exact other (by simp) fun hundisturbed => hs ⟨hundisturbed.1, Or.inl hconnecting⟩
  | browserClosing hopen => exact other (by simp) (keepsFrames_of_browser (by simp))
  | browserClose hclosed hheard =>
    exact other (by simp) (keepsFrames_of_browser (by simp [Proxy.closeBackend]))
  | browserCloseUnheard hclosed hdeaf => exact other (by simp) (keepsFrames_of_browser (by simp))
  | browserError hclosed hopen =>
    exact other (by simp) (keepsFrames_of_browser (by simp [Proxy.closeBackend]))
  | browserErrorIgnored hclosed hopen => exact other (by simp) (keepsFrames_of_browser (by simp))
  | backendClosing hopen => exact other (by simp) (keepsFrames_of_backend (by simp) (by simp))
  | backendClose code hlive hheard hopen =>
    exact other (by simp) (keepsFrames_of_browser (by simp [Proxy.closeBrowser]))
  | backendCloseIgnored code hlive hdeaf =>
    exact other (by simp) (keepsFrames_of_backend (by simp) (by simp))
  | backendError hclosed hopen =>
    exact other (by simp) (keepsFrames_of_browser (by simp [Proxy.closeBrowser]))
  | backendErrorIgnored hclosed hopen =>
    exact other (by simp) (keepsFrames_of_backend (by simp) (by simp))

/-- In every run of a proxied connection, all frames that the browser has sent are
forwarded in order or unread as long as neither side has closed or failed, exactly
if no frame is received while the socket to the chat service is connecting. -/
theorem keepsFrames_throughout_iff {ls : List ProxyLabel} {s : Proxy}
    (hrun : run Proxy.step Proxy.initial ls = some s) :
    Throughout Proxy.step KeepsFrames Proxy.initial ls ↔
      EachStep Proxy.step (fun s l => ¬ReceivesEarly s l) Proxy.initial ls :=
  throughout_iff_eachStep (fun _ _ _ hs _ h => wired_step hs h)
    (fun _ _ _ hwired hs h => keepsFrames_step hwired hs h) wired_initial (fun _ => rfl) hrun

/-- A message is sent while the chat service is open, and another one after it. -/
def sendsLate : List ProxyLabel :=
  [.browserSends "first", .backendOpen, .browserMessage, .browserSends "second", .browserMessage]

/-- The frames of a client that is received only after the second handshake are kept. -/
theorem keepsFrames_sendsLate : Throughout Proxy.step KeepsFrames Proxy.initial sendsLate ↔
    EachStep Proxy.step (fun s l => ¬ReceivesEarly s l) Proxy.initial sendsLate :=
  keepsFrames_throughout_iff (s := ⟨.opened, .opened, true, ["first", "second"], [],
    ["first", "second"], [], none, none⟩) (by decide)

/-- A frame that is received between the two handshakes is discarded. -/
theorem keepsFrames_not_invariant : ¬∀ (ls : List ProxyLabel) (s : Proxy),
    run Proxy.step Proxy.initial ls = some s → KeepsFrames s := by
  intro h
  have hkept := h [.browserSends "hello", .browserMessage, .backendOpen]
    ⟨.opened, .opened, true, ["hello"], [], [], [], none, none⟩ (by decide)
  exact absurd (hkept ⟨rfl, Or.inr rfl⟩) (by decide)

/-- A browser's socket that closes unheard leaves the other one connecting, or it is
closing or closed already. -/
theorem closesTogether_unheard {s : Proxy} (hwired : Wired s) (hdeaf : s.listening = false) :
    ClosesTogether { s with browserWs := .closed } ↔ ¬ClosesEarly s .browserClose := by
  constructor
  · intro htogether hearly
    obtain hclosed | hclosing := htogether.1 rfl
    · cases hclosed.symm.trans hearly.2
    · cases hclosing.symm.trans hearly.2
  · intro hearly
    refine ⟨fun _ => ?_, fun _ => Or.inl rfl⟩
    cases hbackend : s.backendWs with
    | connecting => exact absurd ⟨rfl, hbackend⟩ hearly
    | opened => exact absurd hbackend (hwired.opened hdeaf)
    | closing => exact Or.inr rfl
    | closed => exact Or.inl rfl

/-- A socket to the chat service that closes with nobody to tell leaves the browser's
closing or closed. -/
theorem closesTogether_ignored {s : Proxy} (hwired : Wired s)
    (hlive : s.backendWs = .opened ∨ s.backendWs = .closing)
    (hdeaf : ¬(s.listening = true ∧ s.browserWs = .opened)) :
    ClosesTogether { s with backendWs := .closed } := by
  have hconnecting : s.backendWs ≠ .connecting := by
    obtain h | h := hlive <;> simp [h]
  refine ⟨fun _ => Or.inl rfl, fun _ => ?_⟩
  cases hbrowser : s.browserWs with
  | connecting => exact absurd hbrowser hwired.upgraded
  | opened =>
    have hunheard : s.listening = false := Bool.eq_false_iff.mpr fun hheard => hdeaf ⟨hheard, hbrowser⟩
    exact absurd hbrowser (hwired.failed hunheard hconnecting)
  | closing => exact Or.inr rfl
  | closed => exact Or.inl rfl

/-- An event closes the sockets together exactly if the browser's does not close too early. -/
theorem closesTogether_step {s s' : Proxy} {l : ProxyLabel} (hwired : Wired s)
    (hs : ClosesTogether s) (h : s.step l = some s') : ClosesTogether s' ↔ ¬ClosesEarly s l := by
  have other : l ≠ .browserClose → ClosesTogether s' → (ClosesTogether s' ↔ ¬ClosesEarly s l) :=
    fun hl htogether => iff_of_true htogether fun hearly => hl hearly.1
  obtain ⟨hbrowser, hbackend⟩ := hs
  cases Proxy.stepped h with
  | browserSends data hclosed => exact other (by simp) ⟨hbrowser, hbackend⟩
  | forwards data unread hclosed hunread hheard hopen =>
    exact other (by simp) ⟨hbrowser, hbackend⟩
  | drops data unread hclosed hunread hdeaf => exact other (by simp) ⟨hbrowser, hbackend⟩
  | returns data hlive hopen => exact other (by simp) ⟨hbrowser, hbackend⟩
  | returnDrops data hlive => exact other (by simp) ⟨hbrowser, hbackend⟩
  | browserClosing hopen => exact other (by simp) ⟨by simp, fun _ => Or.inr rfl⟩
  | browserClose hclosed hheard =>
    refine iff_of_true ⟨fun _ => afterClose_down _, fun _ => Or.inl rfl⟩ fun hearly => ?_
    exact hwired.listening hheard hearly.2
  | browserCloseUnheard hclosed hdeaf => exact closesTogether_unheard hwired hdeaf
  | browserError hclosed hopen =>
    exact other (by simp) ⟨by simp [Proxy.closeBackend], fun _ => Or.inr rfl⟩
  | browserErrorIgnored hclosed hopen => exact other (by simp) ⟨by simp, fun _ => Or.inr rfl⟩
  | backendOpen hconnecting =>
    refine other (by simp) ⟨fun hclosed => ?_, by simp⟩
    have hdown := hbrowser hclosed
    rw [hconnecting] at hdown
    simp at hdown
  | backendClosing hopen => exact other (by simp) ⟨fun _ => Or.inr rfl, by simp⟩
  | backendClose code hlive hheard hopen =>
    exact other (by simp) ⟨by simp [Proxy.closeBrowser], fun _ => Or.inr rfl⟩
  | backendCloseIgnored code hlive hdeaf =>
    exact other (by simp) (closesTogether_ignored hwired hlive hdeaf)
  | backendError hclosed hopen =>
    exact other (by simp) ⟨by simp [Proxy.closeBrowser], fun _ => Or.inr rfl⟩
  | backendErrorIgnored hclosed hopen => exact other (by simp) ⟨fun _ => Or.inr rfl, by simp⟩

/-- Once the second handshake is over, the sockets close together. -/
def ClosesTogetherAfter (s : Proxy) : Prop := s.backendWs ≠ .connecting → ClosesTogether s

/-- After an event the sockets close together, once the second handshake is over,
exactly if the event does not open the second socket too late. -/
theorem closesTogetherAfter_step {s s' : Proxy} {l : ProxyLabel} (hwired : Wired s)
    (hs : ClosesTogetherAfter s) (h : s.step l = some s') :
    ClosesTogetherAfter s' ↔ ¬OpensLate s l := by
  by_cases hconnecting : s.backendWs = .connecting
  · -- the handshake ends with `open` or with `error`
    have other : l ≠ .backendOpen → ClosesTogetherAfter s' → (ClosesTogetherAfter s' ↔ ¬OpensLate s l) :=
      fun hl hafter => iff_of_true hafter fun hlate => hl hlate.1
    have hopened : s.backendWs ≠ .opened := by simp [hconnecting]
    have hdead : ¬(s.backendWs = .opened ∨ s.backendWs = .closing) := by simp [hconnecting]
    cases Proxy.stepped h with
    | backendOpen hopens =>
      constructor
      · intro hafter hlate
        obtain hclosed | hclosing := (hafter (by simp)).1 hlate.2
        · cases hclosed
        · cases hclosing
      · intro hlate _
        exact ⟨fun hclosed => absurd ⟨rfl, hclosed⟩ hlate, by simp⟩
    | backendError hclosed hopen =>
      exact other (by simp) fun _ => ⟨by simp [Proxy.closeBrowser], fun _ => Or.inr rfl⟩
    | backendErrorIgnored hclosed hopen =>
      exact other (by simp) fun _ => ⟨fun _ => Or.inr rfl, by simp⟩
    | browserClose hclosed hheard => exact absurd hconnecting (hwired.listening hheard)
    | browserError hclosed hopen => exact absurd hopen hopened
    | forwards data unread hclosed hunread hheard hopen => exact absurd hopen hopened
    | backendClosing hopen => exact absurd hopen hopened
    | backendClose code hlive hheard hopen => exact absurd hlive hdead
    | backendCloseIgnored code hlive hdeaf => exact absurd hlive hdead
    | returns data hlive hopen => exact absurd hlive hdead
    | returnDrops data hlive => exact absurd hlive hdead
    | browserSends data hclosed => exact other (by simp) fun hover => absurd hconnecting hover
    | drops data unread hclosed hunread hdeaf =>
      exact other (by simp) fun hover => absurd hconnecting hover
    | browserClosing hopen => exact other (by simp) fun hover => absurd hconnecting hover
    | browserCloseUnheard hclosed hdeaf =>
      exact other (by simp) fun hover => absurd hconnecting hover
    | browserErrorIgnored hclosed hopen =>
      exact other (by simp) fun hover => absurd hconnecting hover
  · have htogether := (closesTogether_step hwired (hs hconnecting) h).mpr
      fun hearly => hconnecting hearly.2
    refine iff_of_true (fun _ => htogether) fun hlate => ?_
    obtain ⟨rfl, -⟩ := hlate
    cases Proxy.stepped h with
    | backendOpen hopens => exact hconnecting hopens

/-- In every run of a proxied connection, a closed socket has the other one closed or
closing in every state exactly if the browser's socket does not close while that to
the chat service is connecting, and in every state without a handshake under way
exactly if the latter does not open after the browser's has closed. -/
theorem closesTogether_throughout_iff {ls : List ProxyLabel} {s : Proxy}
    (hrun : run Proxy.step Proxy.initial ls = some s) :
    (Throughout Proxy.step ClosesTogether Proxy.initial ls ↔
      EachStep Proxy.step (fun s l => ¬ClosesEarly s l) Proxy.initial ls) ∧
    (Throughout Proxy.step ClosesTogetherAfter Proxy.initial ls ↔
      EachStep Proxy.step (fun s l => ¬OpensLate s l) Proxy.initial ls) := by
  have hinitial : ClosesTogether Proxy.initial :=
    ⟨fun h => by simp [Proxy.initial] at h, fun h => by simp [Proxy.initial] at h⟩
  constructor
  · exact throughout_iff_eachStep (fun _ _ _ hs _ h => wired_step hs h)
      (fun _ _ _ hwired hs h => closesTogether_step hwired hs h) wired_initial hinitial hrun
  · exact throughout_iff_eachStep (fun _ _ _ hs _ h => wired_step hs h)
      (fun _ _ _ hwired hs h => closesTogetherAfter_step hwired hs h) wired_initial
      (fun _ => hinitial) hrun

/-- A second handshake that fails. -/
def backendFails : List ProxyLabel := [.backendError, .backendClose 1006, .browserClose]

/-- A handshake that fails closes both sockets. -/
theorem closesTogether_backendFails :
    (Throughout Proxy.step ClosesTogether Proxy.initial backendFails ↔
      EachStep Proxy.step (fun s l => ¬ClosesEarly s l) Proxy.initial backendFails) ∧
    (Throughout Proxy.step ClosesTogetherAfter Proxy.initial backendFails ↔
      EachStep Proxy.step (fun s l => ¬OpensLate s l) Proxy.initial backendFails) :=
  closesTogether_throughout_iff (s := ⟨.closed, .closed, false, [], [], [], [],
    some ⟨1011, "Backend error"⟩, none⟩) (by decide)

/-- A browser that leaves between the two handshakes leaves an open socket to the chat
service behind. -/
theorem closesTogether_not_invariant : ∃ (ls : List ProxyLabel) (s : Proxy),
    run Proxy.step Proxy.initial ls = some s ∧ s.browserWs = .closed ∧ s.backendWs = .opened ∧
      ¬ClosesTogether s := by
  refine ⟨[.browserClosing, .browserClose, .backendOpen],
    ⟨.closed, .opened, true, [], [], [], [], none, none⟩, by decide, rfl, rfl, fun htogether => ?_⟩
  exact absurd (htogether.1 rfl) (by decide)

end AuraWellness.Frontend.Proxying
