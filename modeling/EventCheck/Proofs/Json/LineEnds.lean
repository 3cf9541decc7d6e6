import EventCheck.Proofs.Json.Inversion
import EventCheck.Text.Lines

/-! # JSON texts and the ends of their lines

    A text writes the same value however its lines end (`read?_unify`): outside of
    strings the ends of lines are blanks, and inside of strings none may stand.

    - `SameLines`: two texts that are the same once all lines end with line feeds.
    - `Spells.unbroken`: no line ends in what stands for the characters of a string.
    - `SteadyBelow`: the items and fields of texts with the same lines are the same, as
      long as the texts are shorter than this.
-/

namespace EventCheck

namespace Json

/-! ## Section 1: Texts with the same lines -/

/-- **The texts are the same** but for how their lines end. -/
def SameLines (cs cs' : List Char) : Prop := Lines.unifyChars cs = Lines.unifyChars cs'

/-- Does the character end a line or belong to the end of one? -/
def isBreak (c : Char) : Bool := c == '\n' || c == '\r'

theorem unifyChars_cons {c : Char} (hc : isBreak c = false) (r : List Char) :
    Lines.unifyChars (c :: r) = c :: Lines.unifyChars r := by
  have hne : c ≠ '\r' := by
    rintro rfl
    cases hc
  rw [Lines.unifyChars]
  · exact fun _ h => absurd h hne
  · exact hne

theorem unifyChars_break {c : Char} (hc : isBreak c = true) (r : List Char) :
    ∃ r', Lines.unifyChars (c :: r) = '\n' :: r' := by
  simp only [isBreak, Bool.or_eq_true, beq_iff_eq] at hc
  rcases hc with rfl | rfl
  · exact ⟨_, by rw [Lines.unifyChars] <;> simp⟩
  · unfold Lines.unifyChars
    split
    · exact ⟨_, rfl⟩
    · exact ⟨_, rfl⟩
    · next hne heq =>
      cases heq
      exact absurd rfl hne
    · next heq => cases heq

/-- How two texts with the same lines begin: with the same character and the same lines behind it,
    or both at the end of a line. -/
inductive SameFront : List Char → List Char → Prop where
  | nil : SameFront [] []
  | cons {c : Char} {r r' : List Char} (hc : isBreak c = false) (h : SameLines r r') :
      SameFront (c :: r) (c :: r')
  | breaks {b b' : Char} {r r' : List Char} (hb : isBreak b = true) (hb' : isBreak b' = true) :
      SameFront (b :: r) (b' :: r')

/-- Blanks are left out before or after the ends of lines are unified. -/
theorem unifyChars_skipBlanks (cs : List Char) :
    Lines.unifyChars (skipBlanks cs) = skipBlanks (Lines.unifyChars cs) := by
  have hdrop {c : Char} (hc : isBlank c = true) (r : List Char) :
      skipBlanks (c :: r) = skipBlanks r := List.dropWhile_cons_of_pos hc
  have hkeep {c : Char} (hc : ¬ isBlank c = true) (r : List Char) :
      skipBlanks (c :: r) = c :: r := List.dropWhile_cons_of_neg hc
  fun_induction Lines.unifyChars cs with
  | case1 rest ih => rw [hdrop (by decide), hdrop (by decide), hdrop (by decide), ih]
  | case2 rest hne ih => rw [hdrop (by decide), hdrop (by decide), ih]
  | case3 c rest hreturn hne ih =>
    by_cases hc : isBlank c = true
    · rw [hdrop hc, hdrop hc, ih]
    · rw [hkeep hc, hkeep hc, Lines.unifyChars]
      · exact fun rest => hreturn rest
      · exact hne
  | case4 => rfl

/-- So are characters of which none ends a line. -/
theorem unifyChars_span {p : Char → Bool} (hp : ∀ c, isBreak c = true → p c = false)
    (cs : List Char) :
    (Lines.unifyChars cs).takeWhile p = cs.takeWhile p ∧
      (Lines.unifyChars cs).dropWhile p = Lines.unifyChars (cs.dropWhile p) := by
  induction cs with
  | nil => exact ⟨rfl, rfl⟩
  | cons c r ih =>
    cases hc : isBreak c with
    | true =>
      have hnot : ¬ p c = true := by simp [hp c hc]
      have hnot' : ¬ p '\n' = true := by simp [hp '\n' rfl]
      obtain ⟨r', hunify⟩ := unifyChars_break hc r
      rw [List.takeWhile_cons_of_neg hnot, List.dropWhile_cons_of_neg hnot, hunify]
      exact ⟨List.takeWhile_cons_of_neg hnot', List.dropWhile_cons_of_neg hnot'⟩
    | false =>
      rw [unifyChars_cons hc]
      by_cases hpc : p c = true
      · rw [List.takeWhile_cons_of_pos hpc, List.takeWhile_cons_of_pos hpc,
          List.dropWhile_cons_of_pos hpc, List.dropWhile_cons_of_pos hpc, ih.1]
        exact ⟨rfl, ih.2⟩
      · rw [List.takeWhile_cons_of_neg hpc, List.takeWhile_cons_of_neg hpc,
          List.dropWhile_cons_of_neg hpc, List.dropWhile_cons_of_neg hpc, unifyChars_cons hc]
        exact ⟨rfl, rfl⟩

/-- Text without carriage returns stays as it is. -/
theorem unifyChars_unify (cs : List Char) :
    Lines.unifyChars (Lines.unifyChars cs) = Lines.unifyChars cs := by
  have hfeed (r : List Char) : Lines.unifyChars ('\n' :: r) = '\n' :: Lines.unifyChars r := by
    rw [Lines.unifyChars] <;> simp
  fun_induction Lines.unifyChars cs with
  | case1 rest ih => rw [hfeed, ih]
  | case2 rest hne ih => rw [hfeed, ih]
  | case3 c rest hreturn hne ih =>
    rw [Lines.unifyChars, ih]
    · exact fun _ heq => absurd heq hne
    · exact hne
  | case4 => rfl

namespace SameLines

variable {cs cs' : List Char}

theorem symm (h : SameLines cs cs') : SameLines cs' cs := Eq.symm h

theorem unify (cs : List Char) : SameLines cs (Lines.unifyChars cs) := (unifyChars_unify cs).symm

theorem front (h : SameLines cs cs') : SameFront cs cs' := by
  unfold SameLines at h
  have hnil (c : Char) (r : List Char) : Lines.unifyChars (c :: r) ≠ [] := by
    cases hc : isBreak c with
    | true => obtain ⟨r', hunify⟩ := unifyChars_break hc r; simp [hunify]
    | false => simp [unifyChars_cons hc r]
  have hbreak {c c' : Char} {r r' : List Char} (hc : isBreak c = true) (hc' : isBreak c' = false)
      (h : Lines.unifyChars (c :: r) = Lines.unifyChars (c' :: r')) : False := by
    obtain ⟨rest, hunify⟩ := unifyChars_break hc r
    rw [hunify, unifyChars_cons hc'] at h
    rw [← (List.cons.inj h).1] at hc'
    cases hc'
  rcases cs with _ | ⟨c, r⟩ <;> rcases cs' with _ | ⟨c', r'⟩
  · exact .nil
  · exact absurd h.symm (hnil c' r')
  · exact absurd h (hnil c r)
  · cases hc : isBreak c <;> cases hc' : isBreak c'
    · rw [unifyChars_cons hc, unifyChars_cons hc'] at h
      obtain ⟨rfl, hrest⟩ := List.cons.inj h
      exact .cons hc hrest
    · exact absurd h.symm (hbreak hc' hc)
    · exact absurd h (hbreak hc hc')
    · exact .breaks hc hc'

theorem skipBlanks (h : SameLines cs cs') : SameLines (skipBlanks cs) (skipBlanks cs') := by
  unfold SameLines at *
  rw [unifyChars_skipBlanks, unifyChars_skipBlanks, h]

theorem takeWhile (h : SameLines cs cs') {p : Char → Bool}
    (hp : ∀ c, isBreak c = true → p c = false) : cs.takeWhile p = cs'.takeWhile p := by
  rw [← (unifyChars_span hp cs).1, ← (unifyChars_span hp cs').1, h]

theorem dropWhile (h : SameLines cs cs') {p : Char → Bool}
    (hp : ∀ c, isBreak c = true → p c = false) :
    SameLines (cs.dropWhile p) (cs'.dropWhile p) := by
  unfold SameLines at *
  rw [← (unifyChars_span hp cs).2, ← (unifyChars_span hp cs').2, h]

/-- Behind the same character, of which no line ends, the lines are the same. -/
theorem tail {c : Char} {r : List Char} (hc : isBreak c = false) (h : SameLines (c :: r) cs') :
    ∃ r', cs' = c :: r' ∧ SameLines r r' := by
  cases h.front with
  | cons _ hrest => exact ⟨_, rfl, hrest⟩
  | breaks hb _ =>
    rw [hc] at hb
    cases hb

/-- So they are behind several such characters. -/
theorem behind {used rest : List Char} (hused : ∀ c ∈ used, isBreak c = false)
    (h : SameLines (used ++ rest) cs') : ∃ rest', cs' = used ++ rest' ∧ SameLines rest rest' := by
  induction used generalizing cs' with
  | nil => exact ⟨cs', rfl, h⟩
  | cons c used ih =>
    obtain ⟨r', rfl, hr⟩ := h.tail (hused c List.mem_cons_self)
    obtain ⟨rest', rfl, hrest⟩ := ih (fun c hin => hused c (List.mem_cons_of_mem _ hin)) hr
    exact ⟨rest', rfl, hrest⟩

end SameLines

/-! ## Section 2: Strings -/

theorem isBreak_of_hexDigit? {c : Char} {n : Nat} (h : hexDigit? c = some n) :
    isBreak c = false := by
  cases hc : isBreak c with
  | false => rfl
  | true =>
    simp only [isBreak, Bool.or_eq_true, beq_iff_eq] at hc
    rcases hc with rfl | rfl <;> cases h

/-- The digits of a unit end no line. -/
theorem isBreak_of_hexUnit? {a b c d : Char} {u : Nat} (h : hexUnit? a b c d = some u) :
    ∀ x ∈ [a, b, c, d], isBreak x = false := by
  simp only [hexUnit?, Option.bind_eq_bind, Option.bind_eq_some_iff] at h
  obtain ⟨na, ha, nb, hb, nc, hc, nd, hd, -⟩ := h
  simp [isBreak_of_hexDigit? ha, isBreak_of_hexDigit? hb, isBreak_of_hexDigit? hc,
    isBreak_of_hexDigit? hd]

theorem isBreak_of_simpleEscape? {letter c : Char} (h : simpleEscape? letter = some c) :
    isBreak letter = false := by
  cases hl : isBreak letter with
  | false => rfl
  | true =>
    simp only [isBreak, Bool.or_eq_true, beq_iff_eq] at hl
    rcases hl with rfl | rfl <;> cases h

theorem isBreak_of_isPlain {c : Char} (h : isPlain c = true) : isBreak c = false := by
  cases hc : isBreak c with
  | false => rfl
  | true =>
    simp only [isBreak, Bool.or_eq_true, beq_iff_eq] at hc
    rcases hc with rfl | rfl <;> cases h

/-- **No line ends in a string.** -/
theorem Spells.unbroken {used s : List Char} (h : Spells used s) :
    ∀ c ∈ used, isBreak c = false := by
  have hslash : isBreak '\\' = false := rfl
  have hu : isBreak 'u' = false := rfl
  induction h with
  | quote =>
    intro c hin
    rw [List.mem_singleton.mp hin]
    rfl
  | plain hc _ ih => exact List.forall_mem_cons.mpr ⟨isBreak_of_isPlain hc, ih⟩
  | letter hletter _ ih =>
    refine List.forall_mem_cons.mpr ⟨hslash, List.forall_mem_cons.mpr ⟨?_, ih⟩⟩
    exact isBreak_of_simpleEscape? hletter
  | unit hunit _ _ ih =>
    have hdigits := isBreak_of_hexUnit? hunit
    simp only [List.forall_mem_cons] at hdigits ⊢
    exact ⟨hslash, hu, hdigits.1, hdigits.2.1, hdigits.2.2.1, hdigits.2.2.2.1, ih⟩
  | pair hunit _ hunit' _ _ ih =>
    have hdigits := isBreak_of_hexUnit? hunit
    have hdigits' := isBreak_of_hexUnit? hunit'
    simp only [List.forall_mem_cons] at hdigits hdigits' ⊢
    exact ⟨hslash, hu, hdigits.1, hdigits.2.1, hdigits.2.2.1, hdigits.2.2.2.1, hslash, hu,
      hdigits'.1, hdigits'.2.1, hdigits'.2.2.1, hdigits'.2.2.2.1, ih⟩

/-! ## Section 3: Words and numbers -/

/-- A word is taken the same, whatever follows, and no line ends in it. -/
theorem takeWord?_cases {cs r : List Char} {v : Json} (h : takeWord? cs = some (v, r)) :
    ∃ word, cs = word ++ r ∧ (∀ c ∈ word, isBreak c = false) ∧
      ∀ r', takeWord? (word ++ r') = some (v, r') := by
  unfold takeWord? at h
  split at h <;> cases h
  · exact ⟨['n', 'u', 'l', 'l'], rfl, by simp [isBreak], fun _ => rfl⟩
  · exact ⟨['t', 'r', 'u', 'e'], rfl, by simp [isBreak], fun _ => rfl⟩
  · exact ⟨['f', 'a', 'l', 's', 'e'], rfl, by simp [isBreak], fun _ => rfl⟩
  · exact ⟨['N', 'a', 'N'], rfl, by simp [isBreak], fun _ => rfl⟩
  · exact ⟨['I', 'n', 'f', 'i', 'n', 'i', 't', 'y'], rfl, by simp [isBreak], fun _ => rfl⟩
  · exact ⟨['-', 'I', 'n', 'f', 'i', 'n', 'i', 't', 'y'], rfl, by simp [isBreak], fun _ => rfl⟩

theorem isDigit_of_isBreak {c : Char} (h : isBreak c = true) : isDigit c = false := by
  simp only [isBreak, Bool.or_eq_true, beq_iff_eq] at h
  rcases h with rfl | rfl <;> rfl

namespace SameLines

variable {cs cs' r : List Char}

theorem takeWord? {v : Json} (h : SameLines cs cs') (hword : takeWord? cs = some (v, r)) :
    ∃ r', Json.takeWord? cs' = some (v, r') ∧ SameLines r r' := by
  obtain ⟨word, rfl, hunbroken, htake⟩ := takeWord?_cases hword
  obtain ⟨r', rfl, hr⟩ := h.behind hunbroken
  exact ⟨r', htake r', hr⟩

theorem takeFraction (h : SameLines cs cs') :
    (takeFraction cs).1 = (takeFraction cs').1 ∧
      SameLines (Json.takeFraction cs).2 (Json.takeFraction cs').2 := by
  cases h.front with
  | nil => exact ⟨rfl, rfl⟩
  | @breaks b b' r r' hb hb' =>
    have hne {b : Char} (hb : isBreak b = true) : b ≠ '.' := by
      rintro rfl
      cases hb
    rw [takeFraction_of_ne (hne hb), takeFraction_of_ne (hne hb')]
    exact ⟨rfl, h⟩
  | @cons c r r' hc hr =>
    by_cases hpoint : c = '.'
    · subst hpoint
      have hdigits := hr.takeWhile (p := isDigit) fun _ => isDigit_of_isBreak
      rw [takeFraction_point, takeFraction_point, hdigits]
      split
      · exact ⟨rfl, h⟩
      · exact ⟨rfl, hr.dropWhile fun _ => isDigit_of_isBreak⟩
    · rw [takeFraction_of_ne hpoint, takeFraction_of_ne hpoint]
      exact ⟨rfl, h⟩

theorem takeMinus (h : SameLines cs cs') :
    (takeMinus cs).1 = (takeMinus cs').1 ∧
      SameLines (Json.takeMinus cs).2 (Json.takeMinus cs').2 := by
  cases h.front with
  | nil => exact ⟨rfl, rfl⟩
  | @breaks b b' r r' hb hb' =>
    have hne {b : Char} (hb : isBreak b = true) : b ≠ '-' := by
      rintro rfl
      cases hb
    rw [takeMinus_of_ne (hne hb), takeMinus_of_ne (hne hb')]
    exact ⟨rfl, h⟩
  | @cons c r r' hc hr =>
    by_cases hminus : c = '-'
    · subst hminus
      exact ⟨rfl, hr⟩
    · rw [takeMinus_of_ne hminus, takeMinus_of_ne hminus]
      exact ⟨rfl, h⟩

theorem takeSign (h : SameLines cs cs') :
    (takeSign cs).1 = (takeSign cs').1 ∧ SameLines (Json.takeSign cs).2 (Json.takeSign cs').2 := by
  cases h.front with
  | nil => exact ⟨rfl, rfl⟩
  | @breaks b b' r r' hb hb' =>
    have hne {b : Char} (hb : isBreak b = true) : b ≠ '+' ∧ b ≠ '-' := by
      constructor <;> rintro rfl <;> cases hb
    rw [takeSign_of_ne (hne hb).1 (hne hb).2, takeSign_of_ne (hne hb').1 (hne hb').2]
    exact ⟨rfl, h⟩
  | @cons c r r' hc hr =>
    by_cases hplus : c = '+'
    · subst hplus
      exact ⟨rfl, hr⟩
    by_cases hminus : c = '-'
    · subst hminus
      exact ⟨rfl, hr⟩
    · rw [takeSign_of_ne hplus hminus, takeSign_of_ne hplus hminus]
      exact ⟨rfl, h⟩

theorem takeWhole? {whole : List Char} (h : SameLines cs cs')
    (hwhole : takeWhole? cs = some (whole, r)) :
    ∃ r', Json.takeWhole? cs' = some (whole, r') ∧ SameLines r r' := by
  cases h.front with
  | nil => cases hwhole
  | @breaks b b' r r' hb hb' =>
    have hne : b ≠ '0' := by
      rintro rfl
      cases hb
    rw [takeWhole?_of_ne hne, if_neg (by simp [isDigit_of_isBreak hb])] at hwhole
    cases hwhole
  | @cons c r r' hc hr =>
    by_cases hzero : c = '0'
    · subst hzero
      cases hwhole
      exact ⟨r', rfl, hr⟩
    · rw [takeWhole?_of_ne hzero] at hwhole ⊢
      split at hwhole
      · next hdigit =>
        cases hwhole
        rw [if_pos hdigit, h.takeWhile fun _ => isDigit_of_isBreak]
        exact ⟨_, rfl, h.dropWhile fun _ => isDigit_of_isBreak⟩
      · cases hwhole

theorem takeExponent (h : SameLines cs cs') :
    (takeExponent cs).1 = (takeExponent cs').1 ∧
      SameLines (Json.takeExponent cs).2 (Json.takeExponent cs').2 := by
  cases h.front with
  | nil => exact ⟨rfl, rfl⟩
  | @breaks b b' r r' hb hb' =>
    have hne {b : Char} (hb : isBreak b = true) : ¬ (b == 'e' || b == 'E') = true := by
      simp only [isBreak, Bool.or_eq_true, beq_iff_eq] at hb
      rcases hb with rfl | rfl <;> decide
    rw [takeExponent_of_ne (hne hb), takeExponent_of_ne (hne hb')]
    exact ⟨rfl, h⟩
  | @cons c r r' hc hr =>
    by_cases hletter : (c == 'e' || c == 'E') = true
    · have hsign := hr.takeSign
      have hdigits := hsign.2.takeWhile (p := isDigit) fun _ => isDigit_of_isBreak
      rw [takeExponent_letter hletter, takeExponent_letter hletter, hsign.1, hdigits]
      split
      · exact ⟨rfl, h⟩
      · exact ⟨rfl, hsign.2.dropWhile fun _ => isDigit_of_isBreak⟩
    · rw [takeExponent_of_ne hletter, takeExponent_of_ne hletter]
      exact ⟨rfl, h⟩

theorem takeNumber? {t : NumberText} (h : SameLines cs cs')
    (hnumber : takeNumber? cs = some (t, r)) :
    ∃ r', Json.takeNumber? cs' = some (t, r') ∧ SameLines r r' := by
  rw [takeNumber?_eq, Option.map_eq_some_iff] at hnumber
  obtain ⟨⟨whole, behind⟩, hwhole, heq⟩ := hnumber
  simp only [Prod.mk.injEq] at heq
  obtain ⟨rfl, rfl⟩ := heq
  have hminus := h.takeMinus
  obtain ⟨behind', hwhole', hbehind⟩ := hminus.2.takeWhole? hwhole
  have hfraction := hbehind.takeFraction
  have hexponent := hfraction.2.takeExponent
  rw [takeNumber?_eq, hwhole', Option.map_some]
  refine ⟨_, ?_, hexponent.2⟩
  rw [hminus.1, hfraction.1, hexponent.1]

end SameLines

theorem SameLines.readsPlain {cs cs' rest : List Char} {v : Json} (h : SameLines cs cs')
    (hread : ReadsPlain cs v rest) : ∃ rest', ReadsPlain cs' v rest' ∧ SameLines rest rest' := by
  rcases readsPlain_iff.mp hread with hword | ⟨hnone, t, hnumber, hvalue⟩
  · obtain ⟨rest', hword', hrest⟩ := h.takeWord? hword
    exact ⟨rest', readsPlain_iff.mpr (.inl hword'), hrest⟩
  · -- what is no word on one side is none on the other
    have hnone' : Json.takeWord? cs' = none := by
      cases hword : Json.takeWord? cs' with
      | none => rfl
      | some p =>
        obtain ⟨r, hsome, -⟩ := h.symm.takeWord? hword
        rw [hnone] at hsome
        cases hsome
    obtain ⟨rest', hnumber', hrest⟩ := h.takeNumber? hnumber
    exact ⟨rest', readsPlain_iff.mpr (.inr ⟨hnone', t, hnumber', hvalue⟩), hrest⟩

/-! ## Section 4: The same lines, the same value -/

namespace SameLines

variable {cs cs' rest : List Char}

theorem readsChars (h : SameLines cs cs') {opening : Nat} {s : List Char}
    (hread : ReadsChars opening cs s rest) :
    ∃ rest', (∀ opening, ReadsChars opening cs' s rest') ∧ SameLines rest rest' := by
  obtain ⟨used, rfl, hspells⟩ := spells_of_readsChars hread
  obtain ⟨rest', rfl, hrest⟩ := h.behind hspells.unbroken
  exact ⟨rest', fun opening => hspells.reads opening rest', hrest⟩

theorem closing?_some (h : SameLines cs cs') {close : Char} {first : Bool}
    (hclose : isBreak close = false) (hclosing : closing? close first cs = some rest) :
    ∃ rest', closing? close first cs' = some rest' ∧ SameLines rest rest' := by
  obtain ⟨rfl, rfl⟩ := closing?_cases hclosing
  obtain ⟨rest', rfl, hrest⟩ := h.tail hclose
  exact ⟨rest', by simp [closing?], hrest⟩

theorem closing?_none (h : SameLines cs cs') {close : Char} {first : Bool}
    (hclose : isBreak close = false) (hopen : closing? close first cs = none) :
    closing? close first cs' = none := by
  cases hclosing : closing? close first cs' with
  | none => rfl
  | some r =>
    obtain ⟨r', hsome, -⟩ := h.symm.closing?_some hclose hclosing
    rw [hopen] at hsome
    cases hsome

theorem delimiter_closed (h : SameLines cs cs') {close : Char} (hclose : isBreak close = false)
    (hd : delimiter close cs = .ok (.closed rest)) :
    ∃ rest', delimiter close cs' = .ok (.closed rest') ∧ SameLines rest rest' := by
  rw [delimiter_closed_iff] at hd
  subst hd
  obtain ⟨rest', rfl, hrest⟩ := h.tail hclose
  exact ⟨rest', delimiter_closed_iff.mpr rfl, hrest⟩

theorem delimiter_more (h : SameLines cs cs') {close : Char} (hclose : close ≠ ',')
    (hd : delimiter close cs = .ok (.more rest)) :
    ∃ rest', delimiter close cs' = .ok (.more rest') ∧ SameLines rest rest' := by
  rw [delimiter_more_iff hclose] at hd
  subst hd
  obtain ⟨rest', rfl, hrest⟩ := h.tail rfl
  exact ⟨rest', (delimiter_more_iff hclose).mpr rfl, hrest⟩

theorem readsKey (h : SameLines cs cs') {key : String} (hread : ReadsKey cs key rest) :
    ∃ rest', ReadsKey cs' key rest' ∧ SameLines rest rest' := by
  obtain ⟨r, s, after, next, rfl, hchars, hcolon, rfl, rfl⟩ := readsKey_cases hread
  obtain ⟨r', rfl, hr⟩ := h.tail rfl
  obtain ⟨after', hchars', hafter⟩ := hr.readsChars hchars
  have hblanks := hafter.skipBlanks
  rw [hcolon] at hblanks
  obtain ⟨next', hcolon', hnext⟩ := hblanks.tail rfl
  exact ⟨Json.skipBlanks next', readsKey_blanks hchars' hcolon', hnext.skipBlanks⟩

end SameLines

/-- **The items and fields of texts with the same lines are the same**, as long as one of the texts
    is shorter than this. -/
structure SteadyBelow (n : Nat) : Prop where
  items : ∀ {depth : Nat} {first : Bool} {cs cs' rest : List Char} {items : List Json},
    cs.length < n → SameLines cs cs' → ReadsItems depth first cs items rest →
    ∃ rest', ReadsItems depth first cs' items rest' ∧ SameLines rest rest'
  fields : ∀ {depth : Nat} {first : Bool} {cs cs' rest : List Char} {pairs : List (String × Json)},
    cs.length < n → SameLines cs cs' → ReadsFields depth first cs pairs rest →
    ∃ rest', ReadsFields depth first cs' pairs rest' ∧ SameLines rest rest'

namespace SteadyBelow

theorem mono {m n : Nat} (h : SteadyBelow n) (hle : m ≤ n) : SteadyBelow m where
  items hlt := h.items (Nat.lt_of_lt_of_le hlt hle)
  fields hlt := h.fields (Nat.lt_of_lt_of_le hlt hle)

variable {depth : Nat} {first : Bool} {cs cs' rest : List Char}

/-- A value is the same if what stands inside it is. -/
theorem value (hbelow : SteadyBelow cs.length) {v : Json} (h : SameLines cs cs')
    (hread : Reads depth cs v rest) : ∃ rest', Reads depth cs' v rest' ∧ SameLines rest rest' := by
  rcases reads_cases hread with
    ⟨r, s, rfl, hchars, rfl⟩ | ⟨r, d, items, rfl, rfl, hitems, rfl⟩ |
    ⟨r, d, pairs, rfl, rfl, hfields, rfl⟩ | ⟨hno, hplain⟩
  · obtain ⟨r', rfl, hr⟩ := h.tail rfl
    obtain ⟨rest', hchars', hrest⟩ := hr.readsChars hchars
    exact ⟨rest', reads_chars hchars' depth, hrest⟩
  · obtain ⟨r', rfl, hr⟩ := h.tail rfl
    have hless := Nat.lt_succ_of_le (length_skipBlanks_le r)
    obtain ⟨rest', hitems', hrest⟩ := hbelow.items hless hr.skipBlanks hitems
    exact ⟨rest', reads_arr hitems' rfl, hrest⟩
  · obtain ⟨r', rfl, hr⟩ := h.tail rfl
    have hless := Nat.lt_succ_of_le (length_skipBlanks_le r)
    obtain ⟨rest', hfields', hrest⟩ := hbelow.fields hless hr.skipBlanks hfields
    exact ⟨rest', reads_obj hfields' rfl rfl, hrest⟩
  · -- the other text begins neither a string nor a container either
    have hno' : BeginsNoOther cs' := by
      intro r
      refine ⟨?_, ?_, ?_⟩
      · rintro rfl
        obtain ⟨r', rfl, -⟩ := h.symm.tail rfl
        exact (hno r').1 rfl
      · rintro rfl
        obtain ⟨r', rfl, -⟩ := h.symm.tail rfl
        exact (hno r').2.1 rfl
      · rintro rfl
        obtain ⟨r', rfl, -⟩ := h.symm.tail rfl
        exact (hno r').2.2 rfl
    obtain ⟨rest', hplain', hrest⟩ := h.readsPlain hplain
    exact ⟨rest', reads_plain hno' hplain', hrest⟩

theorem next_items (hbelow : SteadyBelow cs.length) {items : List Json} (h : SameLines cs cs')
    (hread : ReadsItems depth first cs items rest) :
    ∃ rest', ReadsItems depth first cs' items rest' ∧ SameLines rest rest' := by
  rcases readsItems_cases hread with ⟨hclosing, rfl⟩ | ⟨hopen, v, after, hv, hend⟩
  · obtain ⟨rfl, rfl⟩ := closing?_cases hclosing
    obtain ⟨rest', rfl, hrest⟩ := h.tail rfl
    exact ⟨rest', readsItems_none depth rest', hrest⟩
  have hopen' := h.closing?_none rfl hopen
  obtain ⟨after', hv', hafter⟩ := hbelow.value h hv
  rcases hend with ⟨hd, rfl⟩ | ⟨next, others, hless, hd, hothers, rfl⟩
  · obtain ⟨rest', hd', hrest⟩ := hafter.skipBlanks.delimiter_closed rfl hd
    exact ⟨rest', readsItems_last hopen' hv' hd', hrest⟩
  · obtain ⟨next', hd', hnext⟩ := hafter.skipBlanks.delimiter_more (by decide) hd
    obtain ⟨rest', hothers', hrest⟩ := hbelow.items hless hnext.skipBlanks hothers
    exact ⟨rest', readsItems_more hopen' hv' hd' hothers', hrest⟩

theorem next_fields (hbelow : SteadyBelow cs.length) {pairs : List (String × Json)}
    (h : SameLines cs cs') (hread : ReadsFields depth first cs pairs rest) :
    ∃ rest', ReadsFields depth first cs' pairs rest' ∧ SameLines rest rest' := by
  rcases readsFields_cases hread with
    ⟨hclosing, rfl⟩ | ⟨hopen, key, r, v, after, hrless, hkey, hv, hend⟩
  · obtain ⟨rfl, rfl⟩ := closing?_cases hclosing
    obtain ⟨rest', rfl, hrest⟩ := h.tail rfl
    exact ⟨rest', readsFields_none depth rest', hrest⟩
  have hopen' := h.closing?_none rfl hopen
  obtain ⟨r', hkey', hr⟩ := h.readsKey hkey
  obtain ⟨after', hv', hafter⟩ := (hbelow.mono (Nat.le_of_lt hrless)).value hr hv
  rcases hend with ⟨hd, rfl⟩ | ⟨next, others, hless, hd, hothers, rfl⟩
  · obtain ⟨rest', hd', hrest⟩ := hafter.skipBlanks.delimiter_closed rfl hd
    exact ⟨rest', readsFields_last hopen' hkey' hv' hd', hrest⟩
  · obtain ⟨next', hd', hnext⟩ := hafter.skipBlanks.delimiter_more (by decide) hd
    obtain ⟨rest', hothers', hrest⟩ := hbelow.fields hless hnext.skipBlanks hothers
    exact ⟨rest', readsFields_more hopen' hkey' hv' hd' hothers', hrest⟩

end SteadyBelow

theorem steadyBelow (n : Nat) : SteadyBelow n := by
  induction n with
  | zero => exact ⟨nofun, nofun⟩
  | succ n ih =>
    constructor
    case items => exact fun hlt => (ih.mono (Nat.le_of_lt_succ hlt)).next_items
    case fields => exact fun hlt => (ih.mono (Nat.le_of_lt_succ hlt)).next_fields

/-- A text whose lines are those of another one writes what that one writes. -/
theorem read?_of_sameLines {text text' : String} (h : SameLines text.toList text'.toList) {v : Json}
    (hread : read? text = some v) : read? text' = some v := by
  obtain ⟨hmark, rest, hvalue, hblank⟩ := read?_iff.mp hread
  obtain ⟨rest', hvalue', hrest⟩ := (steadyBelow _).value h.skipBlanks hvalue
  have hmark' : text'.toList.head? ≠ some '\ufeff' := by
    intro hhead
    obtain ⟨r, hr⟩ := List.head?_eq_some_iff.mp hhead
    rw [hr] at h
    obtain ⟨r', hr', -⟩ := h.symm.tail rfl
    exact hmark (by rw [hr', List.head?_cons])
  have hblank' : skipBlanks rest' = [] := by
    have hsame := hrest.skipBlanks
    rw [hblank] at hsame
    cases hblanks : skipBlanks rest' with
    | nil => rfl
    | cons c r =>
      rw [hblanks] at hsame
      cases hsame.front
  exact read?_iff.mpr ⟨hmark', rest', hvalue', hblank'⟩

/-- **How lines end makes no difference to what a text writes.** -/
theorem read?_unify (text : String) : read? (Lines.unify text) = read? text := by
  have hsame : SameLines text.toList (Lines.unify text).toList := by
    rw [Lines.unify, String.toList_ofList]
    exact SameLines.unify text.toList
  cases hread : read? text with
  | some v => exact read?_of_sameLines hsame hread
  | none =>
    cases hread' : read? (Lines.unify text) with
    | none => rfl
    | some v =>
      rw [read?_of_sameLines hsame.symm hread'] at hread
      cases hread

end Json

end EventCheck
