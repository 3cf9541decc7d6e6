import EventCheck.Json.Writer
import EventCheck.Proofs.Json.Contents
import EventCheck.Proofs.Json.Texts

/-! # Numbers that are written and read

    - `NumberText.written`: the characters of a number that is split at its point and at
      its exponent.
    - `takeNumber?_written`: where such a number is proper and nothing behind it goes on
      with it, it is taken as what it is.
    - `reads_int`: a whole number is read as what was written, up to the number of digits
      that texts may have.
-/

namespace EventCheck

namespace Json

/-! ## Section 1: Runs of digits -/

/-- **No number goes on with this**: neither digits nor a point nor an exponent. -/
def EndsNumber (rest : List Char) : Prop :=
  ∀ c r, rest = c :: r → isDigit c = false ∧ c ≠ '.' ∧ c ≠ 'e' ∧ c ≠ 'E'

/-- No digit stands at the front. -/
def EndsDigits (rest : List Char) : Prop := ∀ c r, rest = c :: r → isDigit c = false

theorem endsDigits_cons {c : Char} {r : List Char} (hc : isDigit c = false) :
    EndsDigits (c :: r) := by
  intro c' r' heq
  cases heq
  exact hc

theorem EndsNumber.digits {rest : List Char} (h : EndsNumber rest) : EndsDigits rest :=
  fun c r heq => (h c r heq).1

/-- A run of digits ends where the digits end. -/
theorem takeWhile_digits {ds rest : List Char} (hds : ∀ c ∈ ds, isDigit c = true)
    (hrest : EndsDigits rest) : (ds ++ rest).takeWhile isDigit = ds := by
  rw [List.takeWhile_append_of_pos hds]
  cases rest with
  | nil => rw [List.takeWhile_nil, List.append_nil]
  | cons c r => rw [List.takeWhile_cons_of_neg (by simp [hrest c r rfl]), List.append_nil]

theorem dropWhile_digits {ds rest : List Char} (hds : ∀ c ∈ ds, isDigit c = true)
    (hrest : EndsDigits rest) : (ds ++ rest).dropWhile isDigit = rest := by
  rw [List.dropWhile_append_of_pos hds]
  cases rest with
  | nil => rfl
  | cons c r => exact List.dropWhile_cons_of_neg (by simp [hrest c r rfl])

/-! ## Section 2: Numbers -/

/-- The characters behind the whole part: a point and the places. -/
def fractionText : Option (List Char) → List Char
  | none => []
  | some ds => '.' :: ds

/-- The letter of the exponent, its sign, which is always written, and its digits. -/
def exponentText : Option (Bool × List Char) → List Char
  | none => []
  | some (negative, ds) => 'e' :: (if negative then '-' else '+') :: ds

namespace NumberText

/-- The characters of a number. -/
def written (t : NumberText) : List Char :=
  (if t.negative then "-" else "").toList ++
    (t.whole ++ (fractionText t.fraction ++ exponentText t.exponent))

/-- **The number is proper**: every part that is there has digits and nothing else, and no zero
    stands in front of the digits of a whole part. -/
structure Proper (t : NumberText) : Prop where
  whole : t.whole = ['0'] ∨ ∃ c r, t.whole = c :: r ∧ c ≠ '0'
  digits : ∀ c ∈ t.whole, isDigit c = true
  fraction : ∀ ds, t.fraction = some ds → ds ≠ [] ∧ ∀ c ∈ ds, isDigit c = true
  exponent : ∀ negative ds, t.exponent = some (negative, ds) →
    ds ≠ [] ∧ ∀ c ∈ ds, isDigit c = true

end NumberText

theorem takeFraction_written {fraction : Option (List Char)} {rest : List Char}
    (h : ∀ ds, fraction = some ds → ds ≠ [] ∧ ∀ c ∈ ds, isDigit c = true)
    (hrest : ∀ c r, rest = c :: r → isDigit c = false ∧ c ≠ '.') :
    takeFraction (fractionText fraction ++ rest) = (fraction, rest) := by
  cases fraction with
  | none =>
    -- what follows the whole part is no point
    show takeFraction rest = (none, rest)
    unfold takeFraction
    split
    · next r => exact absurd rfl (hrest '.' r rfl).2
    · rfl
  | some ds =>
    obtain ⟨hds, hdigits⟩ := h ds rfl
    have hends : EndsDigits rest := fun c r heq => (hrest c r heq).1
    show takeFraction ('.' :: (ds ++ rest)) = (some ds, rest)
    simp only [takeFraction, takeWhile_digits hdigits hends, dropWhile_digits hdigits hends]
    simp [hds]

theorem takeExponent_written {exponent : Option (Bool × List Char)} {rest : List Char}
    (h : ∀ negative ds, exponent = some (negative, ds) → ds ≠ [] ∧ ∀ c ∈ ds, isDigit c = true)
    (hrest : EndsNumber rest) :
    takeExponent (exponentText exponent ++ rest) = (exponent, rest) := by
  cases exponent with
  | none =>
    -- what follows is no letter of an exponent
    show takeExponent rest = (none, rest)
    cases rest with
    | nil => rfl
    | cons c r =>
      obtain ⟨-, -, hlower, hupper⟩ := hrest c r rfl
      unfold takeExponent
      dsimp only
      rw [if_neg (by simp [hlower, hupper])]
  | some signed =>
    obtain ⟨negative, ds⟩ := signed
    obtain ⟨hds, hdigits⟩ := h negative ds rfl
    cases negative with
    | true =>
      show takeExponent ('e' :: '-' :: (ds ++ rest)) = (some (true, ds), rest)
      simp only [takeExponent, takeWhile_digits hdigits hrest.digits,
        dropWhile_digits hdigits hrest.digits]
      simp [hds]
    | false =>
      show takeExponent ('e' :: '+' :: (ds ++ rest)) = (some (false, ds), rest)
      simp only [takeExponent, takeWhile_digits hdigits hrest.digits,
        dropWhile_digits hdigits hrest.digits]
      simp [hds]

/-- What follows the whole part of a number begins with a point or an exponent, or nothing of the
    number follows. -/
theorem endsDigits_written (fraction : Option (List Char)) (exponent : Option (Bool × List Char))
    {rest : List Char} (hrest : EndsNumber rest) :
    EndsDigits (fractionText fraction ++ (exponentText exponent ++ rest)) := by
  cases fraction with
  | some ds => exact endsDigits_cons (by decide)
  | none =>
    cases exponent with
    | some signed => exact endsDigits_cons (by decide)
    | none => exact hrest.digits

/-- **A proper number is taken as what it is**, if nothing behind it goes on with it. -/
theorem takeNumber?_written {t : NumberText} (ht : t.Proper) {rest : List Char}
    (hrest : EndsNumber rest) : takeNumber? (t.written ++ rest) = some (t, rest) := by
  obtain ⟨negative, whole, fraction, exponent⟩ := t
  have hdigits : ∀ c ∈ whole, isDigit c = true := ht.digits
  have htail := endsDigits_written fraction exponent hrest
  have hfraction : takeFraction (fractionText fraction ++ (exponentText exponent ++ rest)) =
      (fraction, exponentText exponent ++ rest) := by
    refine takeFraction_written ht.fraction ?_
    intro c r heq
    cases exponent with
    | some signed =>
      cases heq
      decide
    | none => exact ⟨(hrest c r heq).1, (hrest c r heq).2.1⟩
  have hexponent := takeExponent_written ht.exponent hrest
  have htext : NumberText.written ⟨negative, whole, fraction, exponent⟩ ++ rest =
      (if negative then "-" else "").toList ++
        (whole ++ (fractionText fraction ++ (exponentText exponent ++ rest))) := by
    simp only [NumberText.written, List.append_assoc]
  rw [htext]
  -- a zero is taken on its own, other digits as a run
  rcases ht.whole with hzero | ⟨c, r, hcons, hc⟩
  · subst hzero
    cases negative with
    | true => simp [takeNumber?, hfraction, hexponent]
    | false => simp [takeNumber?, hfraction, hexponent]
  · subst hcons
    have hdigit : isDigit c = true := hdigits c List.mem_cons_self
    have hminus : c ≠ '-' := by
      rintro rfl
      exact absurd hdigit (by decide)
    have htake := takeWhile_digits hdigits htail
    have hdrop := dropWhile_digits hdigits htail
    rw [List.cons_append] at htake hdrop
    cases negative with
    | true => simp [takeNumber?, hdigit, htake, hdrop, hfraction, hexponent]
    | false => simp [takeNumber?, hminus, hdigit, htake, hdrop, hfraction, hexponent]

/-- Nothing that begins with a digit, behind a sign or not, is a word. -/
theorem takeWord?_of_digit {c : Char} (hc : isDigit c = true) (negative : Bool) (r : List Char) :
    takeWord? ((if negative then "-" else "").toList ++ c :: r) = none := by
  cases negative with
  | true =>
    show takeWord? ('-' :: c :: r) = none
    unfold takeWord?
    split
    case h_6 heq =>
      cases heq
      exact absurd hc (by decide)
    case h_7 => rfl
    all_goals
      next heq => cases heq
  | false =>
    show takeWord? (c :: r) = none
    unfold takeWord?
    split
    case h_7 => rfl
    all_goals
      next heq =>
        cases heq
        exact absurd hc (by decide)

/-- A proper number begins with a digit, behind its sign. -/
theorem NumberText.Proper.written_eq {t : NumberText} (ht : t.Proper) :
    ∃ c r, isDigit c = true ∧ t.written = (if t.negative then "-" else "").toList ++ c :: r := by
  have hwhole : ∃ c r, t.whole = c :: r := by
    rcases ht.whole with hzero | ⟨c, r, hcons, -⟩
    · exact ⟨'0', [], hzero⟩
    · exact ⟨c, r, hcons⟩
  obtain ⟨c, r, hcons⟩ := hwhole
  refine ⟨c, r ++ (fractionText t.fraction ++ exponentText t.exponent), ?_, ?_⟩
  · exact ht.digits c (hcons ▸ List.mem_cons_self)
  · rw [NumberText.written, hcons, List.cons_append]

/-- **A proper number is read as its value.** -/
theorem reads_number {t : NumberText} (ht : t.Proper) {v : Json} (hv : t.value = .ok v)
    (depth : Nat) {rest : List Char} (hrest : EndsNumber rest) :
    Reads depth (t.written ++ rest) v rest := by
  have htake := takeNumber?_written ht hrest
  obtain ⟨c, r, hc, hwritten⟩ := ht.written_eq
  have hword : takeWord? (t.written ++ rest) = none := by
    rw [hwritten, List.append_assoc, List.cons_append]
    exact takeWord?_of_digit hc t.negative (r ++ rest)
  have hbegins : BeginsPlain (t.written ++ rest) := by
    have hplain : BeginsPlain (c :: r) := ⟨c, r, rfl, by simp [beginsPlain, hc]⟩
    rw [hwritten]
    exact (hplain.signed t.negative).append rest
  unfold Reads
  rw [readValue_of_beginsPlain hbegins]
  unfold readPlain
  -- words are tried first, but none begins with a digit
  split
  · next hw =>
    rw [hword] at hw
    cases hw
  · split
    · next hn =>
      rw [htake] at hn
      cases hn
    · next hn =>
      rw [htake] at hn
      cases hn
      split
      · next hvalue =>
        rw [hv] at hvalue
        cases hvalue
      · next hvalue =>
        rw [hv] at hvalue
        cases hvalue
        exact ⟨_, rfl, rfl⟩

/-- **A word is read as the value that it stands for.** -/
theorem reads_word {cs rest : List Char} {v : Json} (hbegins : BeginsPlain cs)
    (h : takeWord? cs = some (v, rest)) (depth : Nat) : Reads depth cs v rest := by
  unfold Reads
  rw [readValue_of_beginsPlain hbegins]
  unfold readPlain
  split
  · next hw =>
    rw [h] at hw
    cases hw
    exact ⟨_, rfl, rfl⟩
  · next hw =>
    rw [h] at hw
    cases hw

/-! ## Section 3: Whole numbers -/

theorem digitsValue_eq (ds : List Char) : digitsValue ds = Nat.ofDigitChars 10 ds 0 := by
  unfold digitsValue Nat.ofDigitChars
  congr
  funext n c
  rw [Nat.mul_comm]
  rfl

theorem digitsValue_toDigits (n : Nat) : digitsValue (Nat.toDigits 10 n) = n := by
  rw [digitsValue_eq]
  exact Nat.ofDigitChars_toDigits (by decide) (by decide)

/-- No zero stands in front of the digits of a number other than zero. -/
theorem toDigits_eq_cons {n : Nat} (hn : 0 < n) :
    ∃ c r, Nat.toDigits 10 n = c :: r ∧ c ≠ '0' := by
  induction n using Nat.strongRecOn with
  | ind n ih =>
    by_cases hsmall : n < 10
    · have hdigit : ∀ d < 10, 0 < d → d.digitChar ≠ '0' := by decide
      exact ⟨n.digitChar, [], Nat.toDigits_of_lt_base hsmall, hdigit n hsmall hn⟩
    · have hdiv : 0 < n / 10 := by omega
      obtain ⟨c, r, hcons, hc⟩ := ih (n / 10) (by omega) hdiv
      have hlast : n % 10 < 10 := Nat.mod_lt n (by decide)
      refine ⟨c, r ++ Nat.toDigits 10 (n % 10), ?_, hc⟩
      have happend := Nat.toDigits_append_toDigits (by decide) hdiv hlast
      rw [Nat.div_add_mod, hcons] at happend
      exact happend.symm

/-- A sign and a size are the number that they come from. -/
theorem signed_natAbs (n : Int) :
    (if decide (n < 0) = true then -(n.natAbs : Int) else n.natAbs) = n := by
  split
  · next hneg =>
    rw [decide_eq_true_eq] at hneg
    omega
  · next hpos =>
    rw [decide_eq_true_eq] at hpos
    omega

/-- The text of a whole number. -/
def NumberText.ofInt (n : Int) : NumberText :=
  ⟨decide (n < 0), Nat.toDigits 10 n.natAbs, none, none⟩

theorem NumberText.proper_ofInt (n : Int) : (NumberText.ofInt n).Proper where
  whole := by
    by_cases hn : n.natAbs = 0
    · left
      show Nat.toDigits 10 n.natAbs = ['0']
      rw [hn]
      rfl
    · exact .inr (toDigits_eq_cons (Nat.pos_of_ne_zero hn))
  digits := isDigit_toDigits
  fraction := nofun
  exponent := nofun

/-- **A whole number is read as what was written**, if texts may have as many digits. -/
theorem reads_int {n : Int} (hn : (Nat.toDigits 10 n.natAbs).length ≤ maxDigits) (depth : Nat)
    {rest : List Char} (hrest : EndsNumber rest) :
    Reads depth ((toString n).toList ++ rest) (.int n) rest := by
  have hvalue : (NumberText.ofInt n).value = .ok (.int n) := by
    show (if maxDigits < (Nat.toDigits 10 n.natAbs).length then _ else _) = _
    rw [if_neg (Nat.not_lt.mpr hn)]
    show Except.ok (Json.int (if decide (n < 0) = true then
      -(digitsValue (Nat.toDigits 10 n.natAbs) : Int) else digitsValue (Nat.toDigits 10 n.natAbs))) = _
    rw [digitsValue_toDigits, signed_natAbs]
  have hwritten : (toString n).toList = (NumberText.ofInt n).written := by
    rw [toList_int, NumberText.written]
    show _ = _ ++ (Nat.toDigits 10 n.natAbs ++ ([] ++ []))
    rw [List.append_nil, List.append_nil]
    rfl
  rw [hwritten]
  exact reads_number (NumberText.proper_ofInt n) hvalue depth hrest

end Json

end EventCheck
