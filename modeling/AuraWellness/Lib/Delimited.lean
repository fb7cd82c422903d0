import Mathlib.Data.List.Induction
import Mathlib.Data.List.TakeWhile
import AuraWellness.Lib.Stringify

/-!
# How far a JSON text reaches

What a reader takes off the front of a text ends in a character that is no white space, and
the reader takes the same off in front of anything that does not go on with it. So white
space around a text changes nothing, and an object ends where it ends, whatever follows.
-/

namespace AuraWellness.Lib.Delimited

open AuraWellness.Lib.Json AuraWellness.Lib.Stringify

variable {β : Type}

/-- The text ends in a character below 0x80 that is no white space. -/
def Firm (text : List Char) : Prop :=
  ∃ init c, text = init ++ [c] ∧ isSpace c = false ∧ c.toNat < 0x80

theorem Firm.append (start : List Char) {text : List Char} (h : Firm text) :
    Firm (start ++ text) := by
  obtain ⟨init, c, rfl, hc⟩ := h
  exact ⟨start ++ init, c, (List.append_assoc _ _ _).symm, hc⟩

theorem firm_singleton {c : Char} (h : isSpace c = false) (hc : c.toNat < 0x80) : Firm [c] :=
  ⟨[], c, rfl, h, hc⟩

theorem Firm.ne_nil {text : List Char} (h : Firm text) : text ≠ [] := by
  obtain ⟨init, c, rfl, -⟩ := h
  exact List.append_ne_nil_of_right_ne_nil _ (List.cons_ne_nil _ _)

/-- White space only. -/
def Blank (text : List Char) : Prop := ∀ c ∈ text, isSpace c = true

theorem skip_blank {space : List Char} (h : Blank space) (rest : List Char) :
    skip (space ++ rest) = skip rest := by
  induction space with
  | nil => rfl
  | cons c space ih =>
    rw [List.cons_append, skip, List.dropWhile_cons_of_pos (h c List.mem_cons_self)]
    exact ih fun d hd => h d (List.mem_cons_of_mem c hd)

/-- A text is white space and what is left without it. -/
theorem exists_blank (cs : List Char) : ∃ space, Blank space ∧ cs = space ++ skip cs :=
  ⟨cs.takeWhile isSpace, fun _ hc => List.mem_takeWhile_imp hc,
    (List.takeWhile_append_dropWhile (p := isSpace)).symm⟩

theorem skip_eq_nil {cs : List Char} : skip cs = [] ↔ Blank cs := List.dropWhile_eq_nil_iff

/-- What is left begins with no white space. -/
theorem not_space_of_skip {cs rest : List Char} {c : Char} (h : skip cs = c :: rest) :
    isSpace c = false := by
  have hhead := List.head?_dropWhile_not isSpace cs
  rw [← skip, h] at hhead
  simpa using hhead

/-- White space behind a text stays behind it. -/
theorem skip_append {cs c rest} (h : skip cs = c :: rest) (x : List Char) :
    skip (cs ++ x) = c :: rest ++ x := by
  obtain ⟨space, hspace, hcs⟩ := exists_blank cs
  rw [hcs, h, List.append_assoc, skip_blank hspace]
  exact skip_of_not_space (not_space_of_skip h) _

/-- No number goes on with this. -/
def Stops (rest : List Char) : Prop :=
  ∀ c ∈ rest.head?, c.isDigit = false ∧ c ≠ '.' ∧ c ≠ 'e' ∧ c ≠ 'E'

/-- White space, a comma and the closing brackets stop a number. -/
theorem stops_cons {c : Char} (h : isSpace c = true ∨ c = ',' ∨ c = ']' ∨ c = '\x7d')
    (rest : List Char) : Stops (c :: rest) := by
  intro d hd
  cases hd
  have hspace : isSpace c = true → c = ' ' ∨ c = '\t' ∨ c = '\n' ∨ c = '\r' := by
    simp [isSpace, or_assoc]
  obtain h | rfl | rfl | rfl := h
  · obtain rfl | rfl | rfl | rfl := hspace h <;> decide
  all_goals decide

theorem stops_blank {space : List Char} (h : Blank space) : Stops space := by
  cases space with
  | nil => exact fun c hc => by cases hc
  | cons c space => exact stops_cons (Or.inl (h c List.mem_cons_self)) space

theorem stops_pad {space : List Char} (h : Blank space) {c : Char}
    (hc : c = ',' ∨ c = ']' ∨ c = '\x7d') (rest : List Char) : Stops (space ++ c :: rest) := by
  cases space with
  | nil => exact stops_cons (Or.inr hc) rest
  | cons d space => exact stops_cons (Or.inl (h d List.mem_cons_self)) _

/-- The reader takes this text off the front, and does so in front of everything else that
meets the condition. -/
def TakesOff (reader : List Char → Option (β × List Char)) (Before : List Char → Prop)
    (text : List Char) (a : β) (cs rest : List Char) : Prop :=
  cs = text ++ rest ∧ ∀ rest', Before rest' → reader (text ++ rest') = some (a, rest')

/-- What the reader finds is a firm text that it takes off. -/
def Takes (reader : List Char → Option (β × List Char)) (Before : List Char → Prop) : Prop :=
  ∀ cs a rest, reader cs = some (a, rest) →
    ∃ text, Firm text ∧ TakesOff reader Before text a cs rest

/-- No digit comes first. -/
def NoDigit (rest : List Char) : Prop := ∀ c ∈ rest.head?, c.isDigit = false

theorem isDigit_firm {c : Char} (h : c.isDigit = true) : isSpace c = false ∧ c.toNat < 0x80 := by
  have hrange : 48 ≤ c.val ∧ c.val ≤ 57 := by simpa [Char.isDigit] using h
  have hle : c.toNat ≤ 57 := hrange.2
  have hge : 48 ≤ c.toNat := hrange.1
  refine ⟨?_, by omega⟩
  rw [Bool.eq_false_iff]
  intro hspace
  have hcases : c = ' ' ∨ c = '\t' ∨ c = '\n' ∨ c = '\r' := by
    simpa [isSpace, or_assoc] using hspace
  obtain rfl | rfl | rfl | rfl := hcases <;> exact absurd hge (by decide)

theorem takes_digits : Takes digits NoDigit := by
  intro cs ds rest h
  unfold digits at h
  split at h
  · cases h
  · next hne =>
    cases h
    have hall : ∀ c ∈ cs.takeWhile Char.isDigit, c.isDigit = true := fun c hc =>
      List.mem_takeWhile_imp hc
    refine ⟨cs.takeWhile Char.isDigit, ?_,
      (List.takeWhile_append_dropWhile (p := Char.isDigit)).symm, fun rest' hrest' => ?_⟩
    · obtain hnil | ⟨init, c, hlast⟩ := List.eq_nil_or_concat (cs.takeWhile Char.isDigit)
      · exact absurd hnil hne
      · have hc : c.isDigit = true := hall c (by rw [hlast]; simp)
        exact ⟨init, c, by rw [hlast, List.concat_eq_append], isDigit_firm hc⟩
    · have hstop : rest'.takeWhile Char.isDigit = [] ∧ rest'.dropWhile Char.isDigit = rest' := by
        cases rest' with
        | nil => exact ⟨rfl, rfl⟩
        | cons c rest' =>
          have hc : ¬c.isDigit = true := Bool.eq_false_iff.mp (hrest' c rfl)
          exact ⟨List.takeWhile_cons_of_neg hc, List.dropWhile_cons_of_neg hc⟩
      unfold digits
      rw [List.takeWhile_append_of_pos hall, List.dropWhile_append_of_pos hall, hstop.1, hstop.2,
        List.append_nil]
      split
      · next hnil => exact absurd hnil hne
      · rfl

theorem takes_whole : Takes whole NoDigit := by
  intro cs ds rest h
  unfold whole at h
  split at h
  · next cs =>
    cases h
    exact ⟨['0'], firm_singleton rfl (by decide), rfl, fun rest' _ => rfl⟩
  · next hzero =>
    obtain ⟨text, hfirm, hcs, hreads⟩ := takes_digits cs ds rest h
    refine ⟨text, hfirm, hcs, fun rest' hrest' => ?_⟩
    have hread := hreads rest' hrest'
    cases text with
    | nil => exact absurd rfl hfirm.ne_nil
    | cons c text =>
      unfold whole
      split
      · next heq =>
        cases (List.cons.inj heq).1
        exact absurd hcs (hzero _)
      · exact hread

/-- The optional parts of a number: nothing, or a firm text that begins so. -/
def TakesPart (reader : List Char → Option (β × List Char)) (Start : Char → Prop) : Prop :=
  ∀ cs a rest, reader cs = some (a, rest) → ∃ text,
    (text = [] ∨ Firm text ∧ ∃ c cs', text = c :: cs' ∧ Start c) ∧
      TakesOff reader (fun rest' => NoDigit rest' ∧ ∀ c ∈ rest'.head?, ¬Start c) text a cs rest

theorem takesPart_fraction : TakesPart fraction (fun c => c = '.') := by
  intro cs ds rest h
  unfold fraction at h
  split at h
  · next cs =>
    obtain ⟨text, hfirm, hcs, hreads⟩ := takes_digits cs ds rest h
    refine ⟨'.' :: text, Or.inr ⟨hfirm.append ['.'], '.', text, rfl, rfl⟩, ?_,
      fun rest' hrest' => ?_⟩
    · rw [hcs]
      rfl
    · exact hreads rest' hrest'.1
  · cases h
    refine ⟨[], Or.inl rfl, rfl, fun rest' hrest' => ?_⟩
    rw [List.nil_append]
    unfold fraction
    split
    · exact absurd rfl (hrest'.2 '.' rfl)
    · rfl

theorem takes_signed : Takes signed NoDigit := by
  intro cs n rest h
  unfold signed at h
  split at h
  · next cs =>
    obtain ⟨p, hp, hn⟩ := Option.map_eq_some_iff.mp h
    obtain ⟨text, hfirm, hcs, hreads⟩ := takes_digits cs p.1 p.2 hp
    cases hn
    refine ⟨'-' :: text, hfirm.append ['-'], by rw [hcs]; rfl, fun rest' hrest' => ?_⟩
    have hread := hreads rest' hrest'
    rw [List.cons_append, signed, hread]
    rfl
  · next cs =>
    obtain ⟨p, hp, hn⟩ := Option.map_eq_some_iff.mp h
    obtain ⟨text, hfirm, hcs, hreads⟩ := takes_digits cs p.1 p.2 hp
    cases hn
    refine ⟨'+' :: text, hfirm.append ['+'], by rw [hcs]; rfl, fun rest' hrest' => ?_⟩
    have hread := hreads rest' hrest'
    rw [List.cons_append, signed, hread]
    rfl
  · next hminus hplus =>
    obtain ⟨p, hp, hn⟩ := Option.map_eq_some_iff.mp h
    obtain ⟨text, hfirm, hcs, hreads⟩ := takes_digits cs p.1 p.2 hp
    cases hn
    refine ⟨text, hfirm, hcs, fun rest' hrest' => ?_⟩
    have hread := hreads rest' hrest'
    cases text with
    | nil => exact absurd rfl hfirm.ne_nil
    | cons c text =>
      unfold signed
      split
      · next heq =>
        cases (List.cons.inj heq).1
        exact absurd hcs (hminus _)
      · next heq =>
        cases (List.cons.inj heq).1
        exact absurd hcs (hplus _)
      · rw [hread]
        rfl

theorem takesPart_exponent : TakesPart exponent (fun c => c = 'e' ∨ c = 'E') := by
  intro cs n rest h
  unfold exponent at h
  split at h
  · next cs =>
    obtain ⟨text, hfirm, hcs, hreads⟩ := takes_signed cs n rest h
    exact ⟨'e' :: text, Or.inr ⟨hfirm.append ['e'], 'e', text, rfl, Or.inl rfl⟩, by rw [hcs]; rfl,
      fun rest' hrest' => hreads rest' hrest'.1⟩
  · next cs =>
    obtain ⟨text, hfirm, hcs, hreads⟩ := takes_signed cs n rest h
    exact ⟨'E' :: text, Or.inr ⟨hfirm.append ['E'], 'E', text, rfl, Or.inr rfl⟩, by rw [hcs]; rfl,
      fun rest' hrest' => hreads rest' hrest'.1⟩
  · cases h
    refine ⟨[], Or.inl rfl, rfl, fun rest' hrest' => ?_⟩
    rw [List.nil_append]
    unfold exponent
    split
    · exact absurd (Or.inl rfl) (hrest'.2 'e' rfl)
    · exact absurd (Or.inr rfl) (hrest'.2 'E' rfl)
    · rfl

/-- The head of what is taken off an unsigned number is the head of its whole part. -/
theorem takes_unsigned (negative : Bool) : Takes (unsigned negative) Stops := by
  intro cs a rest h
  obtain ⟨⟨before, cs₁⟩, hwhole, h⟩ := Option.bind_eq_some_iff.mp h
  obtain ⟨⟨behind, cs₂⟩, hfraction, h⟩ := Option.bind_eq_some_iff.mp h
  obtain ⟨⟨power, cs₃⟩, hexponent, h⟩ := Option.bind_eq_some_iff.mp h
  cases h
  obtain ⟨text₁, hfirm₁, hcs₁, hreads₁⟩ := takes_whole _ _ _ hwhole
  obtain ⟨text₂, hpart₂, hcs₂, hreads₂⟩ := takesPart_fraction _ _ _ hfraction
  obtain ⟨text₃, hpart₃, hcs₃, hreads₃⟩ := takesPart_exponent _ _ _ hexponent
  refine ⟨text₁ ++ (text₂ ++ text₃), ?_, ?_, fun rest' hrest' => ?_⟩
  · obtain rfl | ⟨hfirm₃, -⟩ := hpart₃
    · obtain rfl | ⟨hfirm₂, -⟩ := hpart₂
      · rw [List.append_nil, List.append_nil]
        exact hfirm₁
      · rw [List.append_nil]
        exact hfirm₂.append _
    · exact (hfirm₃.append _).append _
  · rw [hcs₁, hcs₂, hcs₃]
    simp only [List.append_assoc]
  · -- an exponent begins with neither a digit nor a point, and a fraction with no digit
    have hbehind : NoDigit (text₃ ++ rest') ∧ ∀ c ∈ (text₃ ++ rest').head?, c ≠ '.' := by
      obtain rfl | ⟨-, c, cs', rfl, hc⟩ := hpart₃
      · exact ⟨fun c hc => (hrest' c hc).1, fun c hc => (hrest' c hc).2.1⟩
      · refine ⟨fun d hd => ?_, fun d hd => ?_⟩
        all_goals
          cases hd
          obtain rfl | rfl := hc <;> decide
    have hdigit : NoDigit (text₂ ++ (text₃ ++ rest')) := by
      obtain rfl | ⟨-, c, cs', rfl, rfl⟩ := hpart₂
      · exact hbehind.1
      · intro d hd
        cases hd
        decide
    have hread₃ := hreads₃ rest' ⟨fun c hc => (hrest' c hc).1, fun c hc he =>
      he.elim (hrest' c hc).2.2.1 (hrest' c hc).2.2.2⟩
    simp only [List.append_assoc, unsigned]
    rw [hreads₁ _ hdigit]
    simp only [Option.bind_eq_bind, Option.bind_some]
    rw [hreads₂ _ hbehind]
    simp only [Option.bind_some]
    rw [hread₃]
    rfl

/-- A number begins with a digit or a minus sign. -/
theorem number_head {cs : List Char} {r : Decimal × List Char} (h : number cs = some r) :
    ∃ c cs', cs = c :: cs' ∧ (c = '-' ∨ c.isDigit = true) := by
  have hunsigned : ∀ {negative cs r}, unsigned negative cs = some r →
      ∃ c cs', cs = c :: cs' ∧ c.isDigit = true := by
    intro negative cs r h
    obtain ⟨p, hwhole, -⟩ := Option.bind_eq_some_iff.mp h
    unfold whole at hwhole
    split at hwhole
    · exact ⟨_, _, rfl, rfl⟩
    · unfold digits at hwhole
      split at hwhole
      · cases hwhole
      · next hne =>
        cases cs with
        | nil => exact absurd rfl hne
        | cons c cs' =>
          refine ⟨c, cs', rfl, ?_⟩
          by_contra hc
          exact hne (List.takeWhile_cons_of_neg hc)
  unfold number at h
  split at h
  · exact ⟨_, _, rfl, Or.inl rfl⟩
  · obtain ⟨c, cs', hcs, hc⟩ := hunsigned h
    exact ⟨c, cs', hcs, Or.inr hc⟩

theorem takes_number : Takes number Stops := by
  intro cs a rest h
  unfold number at h
  split at h
  · next cs =>
    obtain ⟨text, hfirm, hcs, hreads⟩ := takes_unsigned true cs a rest h
    exact ⟨'-' :: text, hfirm.append ['-'], by rw [hcs]; rfl, hreads⟩
  · next hminus =>
    obtain ⟨text, hfirm, hcs, hreads⟩ := takes_unsigned false cs a rest h
    refine ⟨text, hfirm, hcs, fun rest' hrest' => ?_⟩
    have hread := hreads rest' hrest'
    cases text with
    | nil => exact absurd rfl hfirm.ne_nil
    | cons c text =>
      unfold number
      split
      · next heq =>
        cases (List.cons.inj heq).1
        exact absurd hcs (hminus _)
      · exact hread

/-- An escape other than a code unit. -/
theorem stringBody_escape {c : Char} (hc : c ≠ 'u') (cs : List Char) :
    stringBody ('\\' :: c :: cs) =
      (escaped c).bind fun e => (stringBody cs).map fun p => (utf16 e ++ p.1, p.2) := by
  rw [stringBody.eq_def]
  split
  · next heq => cases heq
  · next heq => cases (List.cons.inj heq).1
  · next heq => exact absurd (List.cons.inj (List.cons.inj heq).2).1 hc
  · next heq =>
    cases heq
    rfl
  · next hnot heq => exact (hnot _ _ (List.cons.inj heq).1.symm (List.cons.inj heq).2.symm).elim

theorem takes_stringBody : Takes stringBody fun _ => True := by
  intro cs a rest h
  fun_induction stringBody cs generalizing a rest with
  | case1 => cases h
  | case2 cs =>
    cases h
    exact ⟨['\x22'], firm_singleton rfl (by decide), rfl, fun rest' _ => rfl⟩
  | case3 a b c d cs ih =>
    obtain ⟨unit, hunit, h⟩ := Option.bind_eq_some_iff.mp h
    obtain ⟨p, hp, hr⟩ := Option.map_eq_some_iff.mp h
    obtain ⟨text, hfirm, hcs, hreads⟩ := ih p.1 p.2 hp
    cases hr
    refine ⟨'\\' :: 'u' :: a :: b :: c :: d :: text, hfirm.append ['\\', 'u', a, b, c, d],
      by rw [hcs]; rfl, fun rest' _ => ?_⟩
    simp only [List.cons_append, stringBody, hunit, Option.bind_some, hreads rest' trivial,
      Option.map_some]
  | case4 c cs hnot ih =>
    obtain ⟨e, he, h⟩ := Option.bind_eq_some_iff.mp h
    obtain ⟨p, hp, hr⟩ := Option.map_eq_some_iff.mp h
    obtain ⟨text, hfirm, hcs, hreads⟩ := ih p.1 p.2 hp
    cases hr
    have hc : c ≠ 'u' := by
      rintro rfl
      cases he
    refine ⟨'\\' :: c :: text, hfirm.append ['\\', c], by rw [hcs]; rfl, fun rest' _ => ?_⟩
    rw [List.cons_append, List.cons_append, stringBody_escape hc, he, hreads rest' trivial]
    rfl
  | case5 c cs _ _ _ hlt => cases h
  | case6 c cs hquote hunit hslash hge ih =>
    obtain ⟨p, hp, hr⟩ := Option.map_eq_some_iff.mp h
    obtain ⟨text, hfirm, hcs, hreads⟩ := ih p.1 p.2 hp
    cases hr
    refine ⟨c :: text, hfirm.append [c], by rw [hcs]; rfl, fun rest' _ => ?_⟩
    have hslash' : c ≠ '\\' := by
      rintro rfl
      cases cs with
      | nil => cases hp
      | cons d cs => exact hslash d cs rfl rfl
    rw [List.cons_append, stringBody_plain hquote hslash', if_neg hge, hreads rest' trivial]
    rfl

/-- A firm text that some text has at its front without white space has none at its own. -/
theorem skip_firm {cs text more : List Char} (h : skip cs = text ++ more) (hfirm : Firm text)
    (x : List Char) : skip (text ++ x) = text ++ x := by
  cases text with
  | nil => exact absurd rfl hfirm.ne_nil
  | cons c text => exact skip_of_not_space (not_space_of_skip h) _

theorem takes_bracketed {close : Char} {reader : List Char → Option (List β × List Char)}
    (hspace : isSpace close = false) (hclose : close.toNat < 0x80)
    (hreader : Takes reader fun _ => True) : Takes (bracketed close reader) fun _ => True := by
  intro cs a rest h
  obtain ⟨space, hblank, hcs⟩ := exists_blank cs
  unfold bracketed at h
  split at h
  · cases h
  · next c more hskip =>
    split at h
    · next hc =>
      cases h
      subst hc
      refine ⟨space ++ [c], (firm_singleton hspace hclose).append space, ?_, fun rest' _ => ?_⟩
      · rw [hcs, hskip, List.append_assoc]
        rfl
      · have hread : skip (space ++ [c] ++ rest') = c :: rest' := by
          rw [List.append_assoc, skip_blank hblank]
          exact skip_of_not_space hspace rest'
        rw [bracketed, hread]
        exact if_pos rfl
    · next hc =>
      obtain ⟨text, hfirm, htext, hreads⟩ := hreader _ _ _ h
      refine ⟨space ++ text, hfirm.append space, ?_, fun rest' _ => ?_⟩
      · rw [hcs, hskip, htext, List.append_assoc]
      · have hread : skip (space ++ text ++ rest') = text ++ rest' := by
          rw [List.append_assoc, skip_blank hblank]
          exact skip_firm (hskip.trans htext) hfirm rest'
        rw [bracketed, hread]
        cases text with
        | nil => exact absurd rfl hfirm.ne_nil
        | cons d text =>
          cases (List.cons.inj htext).1
          exact (if_neg hc).trans (hreads rest' trivial)

theorem takes_listed {close : Char} {element : List Char → Option (β × List Char)}
    {others : List Char → Option (List β × List Char)}
    (hclose : close = ']' ∨ close = '\x7d') (helement : Takes element Stops)
    (hothers : Takes others fun _ => True) : Takes (listed close element others) fun _ => True := by
  have hspace : isSpace close = false ∧ close.toNat < 0x80 ∧ close ≠ ',' := by
    obtain rfl | rfl := hclose <;> decide
  intro cs a rest h
  unfold listed at h
  obtain ⟨p, hp, h⟩ := Option.bind_eq_some_iff.mp h
  obtain ⟨text, hfirm, htext, hreads⟩ := helement _ _ _ hp
  obtain ⟨space, hblank, hp₂⟩ := exists_blank p.2
  split at h
  · cases h
  · next c more hskip =>
    have hc := not_space_of_skip hskip
    split at h
    · next hcomma =>
      subst hcomma
      obtain ⟨q, hq, hr⟩ := Option.map_eq_some_iff.mp h
      obtain ⟨space', hblank', hmore⟩ := exists_blank more
      obtain ⟨text', hfirm', htext', hreads'⟩ := hothers _ _ _ hq
      cases hr
      refine ⟨text ++ (space ++ ',' :: (space' ++ text')), ?_, ?_, fun rest' _ => ?_⟩
      · have hlist : space ++ ',' :: (space' ++ text') = (space ++ [','] ++ space') ++ text' := by
          simp only [List.append_assoc, List.cons_append, List.nil_append]
        rw [hlist]
        exact (hfirm'.append _).append text
      · rw [htext, hp₂, hskip, hmore, htext']
        simp only [List.append_assoc, List.cons_append]
      · have hread := hreads (space ++ ',' :: (space' ++ (text' ++ rest')))
          (stops_pad hblank (Or.inl rfl) _)
        have hrest : skip (space ++ ',' :: (space' ++ (text' ++ rest'))) =
            ',' :: (space' ++ (text' ++ rest')) := by
          rw [skip_blank hblank]
          exact skip_of_not_space rfl _
        have hmore' : skip (space' ++ (text' ++ rest')) = text' ++ rest' := by
          rw [skip_blank hblank']
          exact skip_firm htext' hfirm' rest'
        simp only [List.append_assoc, List.cons_append, listed]
        rw [hread, Option.bind_some]
        dsimp only
        rw [hrest]
        dsimp only
        rw [if_pos rfl, hmore', hreads' rest' trivial]
        rfl
    · next hcomma =>
      split at h
      · next hcl =>
        cases h
        subst hcl
        refine ⟨text ++ (space ++ [c]), ((firm_singleton hc hspace.2.1).append space).append text,
          ?_, fun rest' _ => ?_⟩
        · rw [htext, hp₂, hskip]
          simp only [List.append_assoc, List.cons_append, List.nil_append]
        · have hread := hreads (space ++ c :: rest') (stops_pad hblank (Or.inr hclose) _)
          have hrest : skip (space ++ c :: rest') = c :: rest' := by
            rw [skip_blank hblank]
            exact skip_of_not_space hc _
          simp only [List.append_assoc, List.cons_append, List.nil_append, listed]
          rw [hread, Option.bind_some]
          dsimp only
          rw [hrest]
          exact (if_neg hcomma).trans (if_pos rfl)
      · cases h

/-- In front of a digit or a minus sign a value is a number. -/
theorem value_number (f : ℕ) {c : Char} (h : c = '-' ∨ c.isDigit = true) (cs : List Char) :
    value (f + 1) (c :: cs) = (number (c :: cs)).map fun p => (.number p.1, p.2) := by
  unfold value
  split
  case h_7 => rfl
  all_goals
    next heq =>
      cases (List.cons.inj heq).1
      exact absurd h (by decide)

/-- An object is taken off in front of anything. -/
theorem takes_object {f : ℕ} (hmembers : Takes (members f) fun _ => True) {cs rest : List Char}
    {v : Value} (h : value (f + 1) ('\x7b' :: cs) = some (v, rest)) :
    ∃ text, Firm text ∧ TakesOff (value (f + 1)) (fun _ => True) text v ('\x7b' :: cs) rest := by
  obtain ⟨p, hp, hr⟩ := Option.map_eq_some_iff.mp
    (show (bracketed '\x7d' (members f) cs).map (fun p => (Value.object p.1, p.2)) = some (v, rest)
      from h)
  obtain ⟨text, hfirm, htext, hreads⟩ := takes_bracketed rfl (by decide) hmembers _ _ _ hp
  cases hr
  refine ⟨'\x7b' :: text, hfirm.append ['\x7b'], by rw [htext]; rfl, fun rest' _ => ?_⟩
  exact congrArg (Option.map fun p => (Value.object p.1, p.2)) (hreads rest' trivial)

theorem takes_value {f : ℕ} (hitems : Takes (items f) fun _ => True)
    (hmembers : Takes (members f) fun _ => True) : Takes (value (f + 1)) Stops := by
  intro cs v rest h
  have hvalue := h
  unfold value at h
  split at h
  case h_1 =>
    cases h
    exact ⟨['n', 'u', 'l', 'l'], (firm_singleton rfl (by decide)).append ['n', 'u', 'l'], rfl,
      fun rest' _ => rfl⟩
  case h_2 =>
    cases h
    exact ⟨['t', 'r', 'u', 'e'], (firm_singleton rfl (by decide)).append ['t', 'r', 'u'], rfl,
      fun rest' _ => rfl⟩
  case h_3 =>
    cases h
    exact ⟨['f', 'a', 'l', 's', 'e'], (firm_singleton rfl (by decide)).append ['f', 'a', 'l', 's'],
      rfl, fun rest' _ => rfl⟩
  case h_4 cs =>
    obtain ⟨p, hp, hr⟩ := Option.map_eq_some_iff.mp h
    obtain ⟨text, hfirm, htext, hreads⟩ := takes_stringBody _ _ _ hp
    cases hr
    refine ⟨'\x22' :: text, hfirm.append ['\x22'], by rw [htext]; rfl, fun rest' _ => ?_⟩
    exact congrArg (Option.map fun p => (Value.string p.1, p.2)) (hreads rest' trivial)
  case h_5 cs =>
    obtain ⟨p, hp, hr⟩ := Option.map_eq_some_iff.mp h
    obtain ⟨text, hfirm, htext, hreads⟩ := takes_bracketed rfl (by decide) hitems _ _ _ hp
    cases hr
    refine ⟨'[' :: text, hfirm.append ['['], by rw [htext]; rfl, fun rest' _ => ?_⟩
    exact congrArg (Option.map fun p => (Value.array p.1, p.2)) (hreads rest' trivial)
  case h_6 cs =>
    obtain ⟨text, hfirm, htext, hreads⟩ := takes_object hmembers hvalue
    exact ⟨text, hfirm, htext, fun rest' _ => hreads rest' trivial⟩
  case h_7 =>
    obtain ⟨p, hp, hr⟩ := Option.map_eq_some_iff.mp h
    obtain ⟨c, cs', hcs, hc⟩ := number_head hp
    obtain ⟨text, hfirm, htext, hreads⟩ := takes_number _ _ _ hp
    cases hr
    refine ⟨text, hfirm, htext, fun rest' hrest' => ?_⟩
    have hread := hreads rest' hrest'
    cases text with
    | nil => exact absurd rfl hfirm.ne_nil
    | cons d text =>
      cases (List.cons.inj (hcs.symm.trans htext)).1
      exact (value_number f hc _).trans (congrArg (Option.map _) hread)

theorem takes_member {f : ℕ} (hvalue : Takes (value f) Stops) : Takes (member (f + 1)) Stops := by
  intro cs a rest h
  unfold member at h
  split at h
  · next cs =>
    obtain ⟨name, hname, h⟩ := Option.bind_eq_some_iff.mp h
    obtain ⟨text, hfirm, htext, hreads⟩ := takes_stringBody _ _ _ hname
    obtain ⟨space, hblank, hspace⟩ := exists_blank name.2
    split at h
    · next more hskip =>
      obtain ⟨p, hp, hr⟩ := Option.map_eq_some_iff.mp h
      obtain ⟨space', hblank', hmore⟩ := exists_blank more
      obtain ⟨text', hfirm', htext', hreads'⟩ := hvalue _ _ _ hp
      cases hr
      refine ⟨'\x22' :: (text ++ (space ++ ':' :: (space' ++ text'))), ?_, ?_,
        fun rest' hrest' => ?_⟩
      · have hlist : '\x22' :: (text ++ (space ++ ':' :: (space' ++ text'))) =
            ('\x22' :: (text ++ (space ++ ':' :: space'))) ++ text' := by
          simp only [List.append_assoc, List.cons_append]
        rw [hlist]
        exact hfirm'.append _
      · rw [htext, hspace, hskip, hmore, htext']
        simp only [List.append_assoc, List.cons_append]
      · have hread := hreads (space ++ ':' :: (space' ++ (text' ++ rest'))) trivial
        have hrest : skip (space ++ ':' :: (space' ++ (text' ++ rest'))) =
            ':' :: (space' ++ (text' ++ rest')) := by
          rw [skip_blank hblank]
          exact skip_of_not_space rfl _
        have hmore' : skip (space' ++ (text' ++ rest')) = text' ++ rest' := by
          rw [skip_blank hblank']
          exact skip_firm htext' hfirm' rest'
        simp only [List.append_assoc, List.cons_append, member, hread, Option.bind_some, hrest,
          hmore', hreads' rest' hrest', Option.map_some]
    · cases h
  · cases h

/-- A reader without fuel takes nothing. -/
theorem takes_zero {reader : List Char → Option (β × List Char)} {Before : List Char → Prop}
    (h : ∀ cs, reader cs = none) : Takes reader Before := fun cs a rest hr => by
  rw [h] at hr
  cases hr

/-- Every reader takes off what it finds. -/
theorem takes (f : ℕ) : Takes (value f) Stops ∧ Takes (items f) (fun _ => True) ∧
    Takes (member f) Stops ∧ Takes (members f) fun _ => True := by
  induction f with
  | zero =>
    exact ⟨takes_zero fun _ => rfl, takes_zero fun _ => rfl, takes_zero fun _ => rfl,
      takes_zero fun _ => rfl⟩
  | succ f ih =>
    obtain ⟨hvalue, hitems, hmember, hmembers⟩ := ih
    exact ⟨takes_value hitems hmembers, takes_listed (Or.inl rfl) hvalue hitems,
      takes_member hvalue, takes_listed (Or.inr rfl) hmember hmembers⟩

/-- What `parse` finds is what some reader finds, with white space behind it. -/
theorem parse_iff {cs : List Char} {v : Value} : parse (String.ofList cs) = some v ↔
    ∃ f rest, value f (skip cs) = some (v, rest) ∧ Blank rest := by
  constructor
  · intro h
    unfold parse at h
    rw [String.toList_ofList] at h
    split at h
    · next v' rest hread =>
      obtain ⟨hrest, hv⟩ := Option.ite_none_right_eq_some.mp h
      cases hv
      exact ⟨_, rest, hread, skip_eq_nil.mp hrest⟩
    · cases h
  · rintro ⟨f, rest, hread, hrest⟩
    refine parse_of_value (f := f) ?_ (skip_eq_nil.mpr hrest)
    rw [String.toList_ofList]
    exact hread

/-- There is no value in white space. -/
theorem value_nil (f : ℕ) : value f [] = none := by
  cases f <;> rfl

/-- Only a brace begins an object. -/
theorem object_head {cs : List Char} {ms : List (List UInt16 × Value)}
    (h : parse (String.ofList cs) = some (.object ms)) : ∃ more, skip cs = '\x7b' :: more := by
  obtain ⟨f, rest, hread, -⟩ := parse_iff.mp h
  cases f with
  | zero => cases hread
  | succ f =>
    unfold value at hread
    split at hread
    case h_6 hskip => exact ⟨_, hskip⟩
    case h_1 => cases hread
    case h_2 => cases hread
    case h_3 => cases hread
    all_goals
      obtain ⟨p, -, hp⟩ := Option.map_eq_some_iff.mp hread
      cases hp

/-- White space around a text changes nothing. -/
theorem parse_pad {start rear : List Char} (hstart : Blank start) (hrear : Blank rear)
    (cs : List Char) :
    parse (String.ofList (start ++ (cs ++ rear))) = parse (String.ofList cs) := by
  refine Option.ext fun v => ?_
  rw [parse_iff, parse_iff, skip_blank hstart]
  cases hskip : skip cs with
  | nil =>
    have hall : skip (cs ++ rear) = [] := skip_eq_nil.mpr fun c hc =>
      (List.mem_append.mp hc).elim (skip_eq_nil.mp hskip c) (hrear c)
    rw [hall]
  | cons c more =>
    rw [skip_append hskip]
    constructor
    · rintro ⟨f, rest, hread, hrest⟩
      obtain ⟨text, ⟨init, d, hfirm, hd, -⟩, htext, hreads⟩ := (takes f).1 _ _ _ hread
      -- the text that is read does not reach into the white space behind
      obtain ⟨more', hmore, hsplit⟩ :
          ∃ rest', c :: more = text ++ rest' ∧ rest = rest' ++ rear := by
        obtain ⟨tail, htail, hrest'⟩ | ⟨tail, htail, hrest'⟩ := List.append_eq_append_iff.mp htext
        · cases tail using List.reverseRecOn with
          | nil =>
            rw [List.append_nil] at htail
            exact ⟨[], by rw [List.append_nil, htail], by rw [hrest']; rfl⟩
          | append_singleton tail x _ =>
            rw [hfirm, ← List.append_assoc] at htail
            have hx : d = x := (List.append_inj' htail rfl).2 |> List.singleton_inj.mp
            have hspace : isSpace d = true := hrear d (by rw [hrest', hx]; simp)
            rw [hd] at hspace
            cases hspace
        · exact ⟨tail, htail, hrest'⟩
      have hblank : Blank more' := fun x hx =>
        hrest x (by rw [hsplit]; exact List.mem_append_left _ hx)
      refine ⟨f, more', ?_, hblank⟩
      rw [hmore]
      exact hreads more' (stops_blank hblank)
    · rintro ⟨f, rest, hread, hrest⟩
      obtain ⟨text, -, htext, hreads⟩ := (takes f).1 _ _ _ hread
      have hblank : Blank (rest ++ rear) := fun x hx =>
        (List.mem_append.mp hx).elim (hrest x) (hrear x)
      refine ⟨f, rest ++ rear, ?_, hblank⟩
      rw [htext, List.append_assoc]
      exact hreads _ (stops_blank hblank)

/-- An object ends where it ends: a text that goes on behind it is a value only if it goes on
with white space. And the object's text does not end in a character from 0x80 on. -/
theorem parse_object {cs more : List Char} {v : Value} (hskip : skip cs = '\x7b' :: more)
    (h : parse (String.ofList cs) = some v) :
    (∃ init c, cs = init ++ [c] ∧ c.toNat < 0x80) ∧
      ∀ start x v', Blank start → parse (String.ofList (start ++ (cs ++ x))) = some v' →
        Blank x := by
  obtain ⟨f, rest, hread, hrest⟩ := parse_iff.mp h
  rw [hskip] at hread
  cases f with
  | zero => cases hread
  | succ f =>
    obtain ⟨text, ⟨init, c, hfirm, -, hc⟩, htext, hreads⟩ := takes_object (takes f).2.2.2 hread
    constructor
    · obtain ⟨space, -, hcs⟩ := exists_blank cs
      rw [hskip, htext] at hcs
      cases rest using List.reverseRecOn with
      | nil => exact ⟨space ++ init, c, by rw [hcs, hfirm]; simp, hc⟩
      | append_singleton rest x _ =>
        refine ⟨space ++ text ++ rest, x, by rw [hcs]; simp, ?_⟩
        have hspace : x = ' ' ∨ x = '\t' ∨ x = '\n' ∨ x = '\r' := by
          simpa [isSpace, or_assoc] using hrest x (by simp)
        obtain rfl | rfl | rfl | rfl := hspace <;> decide
    · intro start x v' hstart h'
      obtain ⟨g, rest', hread', hrest'⟩ := parse_iff.mp h'
      rw [skip_blank hstart, skip_append hskip, htext, List.append_assoc] at hread'
      have hboth := hreads (rest ++ x) trivial
      -- with the fuel that the length calls for both read the same
      have hsame : some (v, rest ++ x) = some (v', rest') := by
        have hfirst := ((settles (f + 1)).1 _ _ hboth).2 _ (Nat.le_refl _)
        exact hfirst.symm.trans (((settles g).1 _ _ hread').2 _ (Nat.le_refl _))
      cases hsame
      exact fun d hd => hrest' d (List.mem_append_right _ hd)

end AuraWellness.Lib.Delimited
