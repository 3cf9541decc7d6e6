import EventCheck.Proofs.Json.Numerals
import EventCheck.Proofs.Number.Shortest

/-! # Doubles that are written and read

    The text of a double is read as that double, whatever its size and its sign, and so
    are the words for infinities and for what is not a number.

    - `NumberText.Shows`: a number split at its point and at its exponent writes the text
      of a decimal number and is that number.
    - `exists_shows`: the text of each decimal number is one of those, in four shapes: less
      than one, whole, with places, and with a power of ten.
    - `reads_float`: so a double is read as what was written, if it is finite by its digits
      and else by its word.
-/

namespace EventCheck

open Shortest Binary64

namespace Shortest

/-! ## Section 1: Texts of decimal numbers -/

namespace Decimal

/-- The digits as characters. -/
def figures (d : Decimal) : List Char := Nat.toDigits 10 d.digits

/-- How many digits stand in front of the point; zeros between the point and the digits count
    below zero. -/
def point (d : Decimal) : Int := d.figures.length + d.exponent

variable {d : Decimal}

theorem isDigit_figures : ∀ c ∈ d.figures, Json.isDigit c = true := Json.isDigit_toDigits

theorem figures_ne_nil : d.figures ≠ [] := Nat.toDigits_ne_nil

theorem digitsValue_figures : Json.digitsValue d.figures = d.digits := Json.digitsValue_toDigits _

/-- The text of a number less than one. -/
theorem text_small (h : positional (d.point - 1) = true) (hpoint : d.point ≤ 0) :
    d.text = "0." ++ String.ofList (List.replicate (-d.point).toNat '0' ++ d.figures) := by
  unfold Decimal.text
  exact (if_pos h).trans (if_pos hpoint)

/-- The text of any other number that is written without a power of ten. -/
theorem text_positional (h : positional (d.point - 1) = true) (hpoint : 0 < d.point) :
    d.text = String.ofList (d.figures.take d.point.toNat ++
      List.replicate (d.point.toNat - d.figures.length) '0') ++ "." ++
      (if (d.figures.drop d.point.toNat).isEmpty then "0"
        else String.ofList (d.figures.drop d.point.toNat)) := by
  unfold Decimal.text
  exact (if_pos h).trans (if_neg (not_le.mpr hpoint))

/-- The digits of an exponent: at least two. -/
def exponentFigures (power : Int) : List Char :=
  if power.natAbs < 10 then '0' :: Nat.toDigits 10 power.natAbs else Nat.toDigits 10 power.natAbs

/-- The text of a number that is written with a power of ten. -/
theorem text_power (h : positional (d.point - 1) = false) {c : Char} {r : List Char}
    (hfigures : d.figures = c :: r) :
    d.text.toList = c :: ((if r.isEmpty then [] else '.' :: r) ++
      'e' :: (if d.point - 1 < 0 then '-' else '+') :: exponentFigures (d.point - 1)) := by
  have hsize : (if (d.point - 1).natAbs < 10 then "0" ++ toString (d.point - 1).natAbs
      else toString (d.point - 1).natAbs).toList = exponentFigures (d.point - 1) := by
    unfold exponentFigures
    split <;> simp [Nat.repr_eq_ofList_toDigits]
  have htext : d.text = String.ofList (d.figures.take 1) ++
      (if (String.ofList (d.figures.drop 1)).isEmpty then ""
        else "." ++ String.ofList (d.figures.drop 1)) ++
      "e" ++ (if d.point - 1 < 0 then "-" else "+") ++
      (if (d.point - 1).natAbs < 10 then "0" ++ toString (d.point - 1).natAbs
        else toString (d.point - 1).natAbs) := by
    unfold Decimal.text
    exact if_neg (Bool.not_eq_true _ ▸ h)
  have hsign : (if d.point - 1 < 0 then "-" else "+").toList =
      [if d.point - 1 < 0 then '-' else '+'] := by
    split <;> rfl
  rw [htext, hfigures]
  simp only [String.toList_append, hsize, hsign]
  -- without places there is no point
  cases r with
  | nil => simp
  | cons c' r => simp

end Decimal

end Shortest

namespace Json

/-! ## Section 2: Numbers and their texts -/

theorem digitsValue_zeros (count : Nat) (ds : List Char) :
    digitsValue (List.replicate count '0' ++ ds) = digitsValue ds := by
  rw [digitsValue_eq, digitsValue_eq, Nat.ofDigitChars_append, Nat.ofDigitChars_replicate_zero,
    Nat.mul_zero]

theorem digitsValue_append_zeros (ds : List Char) (count : Nat) :
    digitsValue (ds ++ List.replicate count '0') = 10 ^ count * digitsValue ds := by
  rw [digitsValue_eq, digitsValue_eq, Nat.ofDigitChars_append, Nat.ofDigitChars_replicate_zero]

theorem isDigit_zeros (count : Nat) : ∀ c ∈ List.replicate count '0', isDigit c = true := by
  intro c hc
  rw [List.eq_of_mem_replicate hc]
  decide

theorem isDigit_append {cs ds : List Char} (hcs : ∀ c ∈ cs, isDigit c = true)
    (hds : ∀ c ∈ ds, isDigit c = true) : ∀ c ∈ cs ++ ds, isDigit c = true := by
  intro c hc
  rcases List.mem_append.mp hc with hc | hc
  · exact hcs c hc
  · exact hds c hc

namespace NumberText

/-- The exponent that is written, or none. -/
def power (t : NumberText) : Int :=
  match t.exponent with
  | none => 0
  | some (negative, ds) => if negative then -(digitsValue ds : Int) else digitsValue ds

/-- The number without its sign. -/
def decimal (t : NumberText) : Decimal :=
  ⟨digitsValue (t.whole ++ t.fraction.getD []), t.power - (t.fraction.getD []).length⟩

/-- A number with places or an exponent is the double nearest to it. -/
theorem value_eq_float {t : NumberText} (h : t.fraction ≠ none ∨ t.exponent ≠ none) :
    t.value = .ok (.float (ofDecimal t.negative t.decimal.digits t.decimal.exponent)) := by
  unfold value
  split
  · next hfraction hexponent =>
    rcases h with h | h
    · exact absurd hfraction h
    · exact absurd hexponent h
  · rfl

/-- **The number writes a decimal number and is that number**, behind its own sign. -/
structure Shows (t : NumberText) (d : Decimal) : Prop where
  proper : t.Proper
  written : t.written = (if t.negative then "-" else "").toList ++ d.text.toList
  float : t.fraction ≠ none ∨ t.exponent ≠ none
  size : t.decimal.size = d.size

/-- The number is the same with some of the power of ten in its digits. -/
theorem size_eq {t : NumberText} {d : Decimal} (zeros : Nat)
    (hdigits : t.decimal.digits = 10 ^ zeros * d.digits)
    (hexponent : t.decimal.exponent = d.exponent - zeros) : t.decimal.size = d.size := by
  have hpow : (10 : ℚ) ^ zeros ≠ 0 := by positivity
  rw [Decimal.size, Decimal.size, hdigits, hexponent, zpow_sub₀ (by norm_num), zpow_natCast]
  push_cast
  field_simp

end NumberText

/-! ## Section 3: The four shapes -/

variable {d : Decimal} (negative : Bool)

/-- A number less than one: zeros stand between the point and the digits. -/
theorem shows_small (hpositional : positional (d.point - 1) = true) (hpoint : d.point ≤ 0) :
    (NumberText.mk negative ['0'] (some (List.replicate (-d.point).toNat '0' ++ d.figures))
      none).Shows d where
  proper :=
    { whole := .inl rfl
      digits := by simp [isDigit]
      fraction := by
        rintro ds ⟨⟩
        exact ⟨by simp [Decimal.figures_ne_nil],
          isDigit_append (isDigit_zeros _) Decimal.isDigit_figures⟩
      exponent := by simp }
  written := by
    rw [Decimal.text_small hpositional hpoint, NumberText.written, String.toList_append,
      String.toList_ofList]
    simp [fractionText, exponentText]
  float := by simp
  size := by
    -- the zeros on either side of the point add nothing
    apply NumberText.size_eq 0
    · show digitsValue (List.replicate 1 '0' ++
        (List.replicate (-d.point).toNat '0' ++ d.figures)) = _
      rw [digitsValue_zeros, digitsValue_zeros, Decimal.digitsValue_figures, pow_zero, one_mul]
    · show (0 : Int) - (List.replicate (-d.point).toNat '0' ++ d.figures).length = _
      rw [List.length_append, List.length_replicate]
      unfold Decimal.point at hpoint ⊢
      omega

/-- A whole number: zeros may stand behind the digits. -/
theorem shows_whole (hd : 0 < d.digits) (hpositional : positional (d.point - 1) = true)
    (hpoint : 0 < d.point) (hwhole : 0 ≤ d.exponent) :
    (NumberText.mk negative (d.figures ++ List.replicate d.exponent.toNat '0') (some ['0'])
      none).Shows d where
  proper :=
    { whole := by
        obtain ⟨c, r, hcons, hc⟩ := toDigits_eq_cons hd
        refine .inr ⟨c, r ++ List.replicate d.exponent.toNat '0', ?_, hc⟩
        rw [← List.cons_append, ← hcons]
        rfl
      digits := isDigit_append Decimal.isDigit_figures (isDigit_zeros _)
      fraction := by
        rintro ds ⟨⟩
        exact ⟨by simp, isDigit_zeros 1⟩
      exponent := by simp }
  written := by
    have hlong : d.figures.length ≤ d.point.toNat := by
      unfold Decimal.point
      omega
    have hzeros : d.point.toNat - d.figures.length = d.exponent.toNat := by
      unfold Decimal.point
      omega
    rw [Decimal.text_positional hpositional hpoint, List.take_of_length_le hlong,
      List.drop_of_length_le hlong, hzeros, NumberText.written]
    simp [fractionText, exponentText]
  float := by simp
  size := by
    -- one zero more than the exponent asks for, since one stands behind the point
    apply NumberText.size_eq (d.exponent.toNat + 1)
    · show digitsValue (d.figures ++ List.replicate d.exponent.toNat '0' ++
        List.replicate 1 '0') = _
      rw [List.append_assoc, List.replicate_append_replicate, digitsValue_append_zeros,
        Decimal.digitsValue_figures]
    · show (0 : Int) - 1 = _
      omega

/-- A number with places behind the point. -/
theorem shows_placed (hd : 0 < d.digits) (hpositional : positional (d.point - 1) = true)
    (hpoint : 0 < d.point) (hplaces : d.exponent < 0) :
    (NumberText.mk negative (d.figures.take d.point.toNat) (some (d.figures.drop d.point.toNat))
      none).Shows d := by
  have hshort : d.point.toNat < d.figures.length := by
    unfold Decimal.point at hpoint ⊢
    omega
  have hdrop : d.figures.drop d.point.toNat ≠ [] := by
    rw [ne_eq, List.drop_eq_nil_iff]
    omega
  constructor
  case proper =>
    constructor
    case whole =>
      obtain ⟨c, r, hcons, hc⟩ := toDigits_eq_cons hd
      obtain ⟨k, hk⟩ : ∃ k, d.point.toNat = k + 1 := ⟨d.point.toNat - 1, by omega⟩
      refine .inr ⟨c, r.take k, ?_, hc⟩
      rw [hk, ← List.take_succ_cons, ← hcons]
      rfl
    case digits => exact fun c hc => Decimal.isDigit_figures c (List.mem_of_mem_take hc)
    case fraction =>
      rintro ds ⟨⟩
      exact ⟨hdrop, fun c hc => Decimal.isDigit_figures c (List.mem_of_mem_drop hc)⟩
    case exponent => simp
  case written =>
    have hsome : ¬ (d.figures.drop d.point.toNat).isEmpty = true := by
      rw [List.isEmpty_iff]
      exact hdrop
    rw [Decimal.text_positional hpositional hpoint, Nat.sub_eq_zero_of_le hshort.le,
      if_neg hsome, NumberText.written]
    simp [fractionText, exponentText]
  case float => simp
  case size =>
    apply NumberText.size_eq 0
    · show digitsValue (d.figures.take d.point.toNat ++ d.figures.drop d.point.toNat) = _
      rw [List.take_append_drop, Decimal.digitsValue_figures, pow_zero, one_mul]
    · show (0 : Int) - (d.figures.drop d.point.toNat).length = _
      rw [List.length_drop]
      unfold Decimal.point at hpoint hshort ⊢
      omega

theorem digitsValue_exponentFigures (power : Int) :
    digitsValue (Decimal.exponentFigures power) = power.natAbs := by
  unfold Decimal.exponentFigures
  split
  · exact (digitsValue_zeros 1 _).trans (digitsValue_toDigits _)
  · exact digitsValue_toDigits _

/-- A number with a power of ten: one digit, the places if there are any, and the exponent. -/
theorem shows_power (hpositional : positional (d.point - 1) = false) {c : Char} {r : List Char}
    (hfigures : d.figures = c :: r) (hc : c ≠ '0') :
    (NumberText.mk negative [c] (if r.isEmpty then none else some r)
      (some (decide (d.point - 1 < 0), Decimal.exponentFigures (d.point - 1)))).Shows d := by
  have hdigits : ∀ x ∈ c :: r, isDigit x = true := hfigures ▸ Decimal.isDigit_figures
  have hplaces : (if r.isEmpty then none else some r).getD [] = r := by
    cases r <;> rfl
  constructor
  case proper =>
    constructor
    case whole => exact .inr ⟨c, [], rfl, hc⟩
    case digits =>
      intro x hx
      rw [List.mem_singleton.mp hx]
      exact hdigits c List.mem_cons_self
    case fraction =>
      -- a point is written only in front of places
      intro ds hds
      cases r with
      | nil => cases hds
      | cons c' r =>
        cases hds
        exact ⟨by simp, fun x hx => hdigits x (List.mem_cons_of_mem _ hx)⟩
    case exponent =>
      rintro negative' ds ⟨⟩
      unfold Decimal.exponentFigures
      split
      · exact ⟨by simp, isDigit_append (isDigit_zeros 1) isDigit_toDigits⟩
      · exact ⟨Nat.toDigits_ne_nil, isDigit_toDigits⟩
  case written =>
    rw [Decimal.text_power hpositional hfigures, NumberText.written]
    cases r with
    | nil => simp [fractionText, exponentText]
    | cons c' r => simp [fractionText, exponentText]
  case float => simp
  case size =>
    apply NumberText.size_eq 0
    · show digitsValue ([c] ++ (if r.isEmpty then none else some r).getD []) = _
      rw [hplaces, List.singleton_append, ← hfigures, Decimal.digitsValue_figures, pow_zero, one_mul]
    · show (if decide (d.point - 1 < 0) = true
          then -(digitsValue (Decimal.exponentFigures (d.point - 1)) : Int)
          else digitsValue (Decimal.exponentFigures (d.point - 1))) -
        ((if r.isEmpty then none else some r).getD []).length = _
      have hpoint : d.point = (c :: r).length + d.exponent := by rw [Decimal.point, hfigures]
      rw [hplaces, digitsValue_exponentFigures, signed_natAbs, hpoint, List.length_cons]
      omega

/-- **The text of a decimal number is one of a number that is the same.** -/
theorem exists_shows (hd : 0 < d.digits) : ∃ t : NumberText, t.negative = negative ∧ t.Shows d := by
  cases hpositional : positional (d.point - 1) with
  | false =>
    obtain ⟨c, r, hfigures, hc⟩ := toDigits_eq_cons hd
    exact ⟨_, rfl, shows_power negative hpositional hfigures hc⟩
  | true =>
    by_cases hpoint : d.point ≤ 0
    · exact ⟨_, rfl, shows_small negative hpositional hpoint⟩
    · by_cases hwhole : 0 ≤ d.exponent
      · exact ⟨_, rfl, shows_whole negative hd hpositional (not_le.mp hpoint) hwhole⟩
      · exact ⟨_, rfl,
          shows_placed negative hd hpositional (not_le.mp hpoint) (not_le.mp hwhole)⟩

/-! ## Section 4: Doubles -/

/-- A zero of either sign. -/
def NumberText.zero : NumberText := ⟨negative, ['0'], some ['0'], none⟩

theorem NumberText.proper_zero : (NumberText.zero negative).Proper where
  whole := .inl rfl
  digits := isDigit_zeros 1
  fraction := by
    rintro ds ⟨⟩
    exact ⟨by simp, isDigit_zeros 1⟩
  exponent := by simp [NumberText.zero]

/-- **The text of a finite double is that of a number whose value is the double.** -/
theorem exists_number {x : Float} {p : Parts} (h : parts x = some p) :
    ∃ t : NumberText, t.Proper ∧ t.written = (Shortest.text numberSpelling x).toList ∧
      t.value = .ok (.float x) := by
  have htext : Shortest.text numberSpelling x = (if p.negative then "-" else "") ++
      (if p.mantissa = 0 then "0.0" else (digits p.mantissa p.exponent).text) := by
    unfold Shortest.text
    rw [h]
  rw [htext]
  rcases regular_of_parts h with ⟨hzero, -⟩ | hregular
  · rw [if_pos hzero]
    refine ⟨.zero p.negative, NumberText.proper_zero p.negative, ?_, ?_⟩
    · rw [String.toList_append]
      rfl
    · have hfloat : (NumberText.zero p.negative).fraction ≠ none := by simp [NumberText.zero]
      rw [NumberText.value_eq_float (.inl hfloat)]
      exact congrArg (fun y => Except.ok (Json.float y)) (ofDecimal_zero h hzero (-1))
  · rw [if_neg hregular.pos.ne']
    have hrounds := digits_roundsTo hregular
    obtain ⟨t, hnegative, ht⟩ := exists_shows p.negative (pos_of_roundsTo hregular hrounds)
    refine ⟨t, ht.proper, ?_, ?_⟩
    · rw [ht.written, hnegative, String.toList_append]
    · rw [← ht.size] at hrounds
      rw [NumberText.value_eq_float ht.float, hnegative]
      exact congrArg (fun y => Except.ok (Json.float y)) (ofDecimal_eq h hregular.pos hrounds)

/-- **A double is read as what was written.** -/
theorem reads_float (x : Float) (depth : Nat) {rest : List Char} (hrest : EndsNumber rest) :
    Reads depth ((Shortest.text numberSpelling x).toList ++ rest) (.float x) rest := by
  cases h : parts x with
  | some p =>
    obtain ⟨t, hproper, hwritten, hvalue⟩ := exists_number h
    rw [← hwritten]
    exact reads_number hproper hvalue depth hrest
  | none =>
    have hbegins := (Shortest.begins_text x).append rest
    -- the text is a word, and the word stands for the double
    rcases eq_of_parts_none h with rfl | rfl | rfl
    · have htext : Shortest.text numberSpelling (0.0 / 0.0) = "NaN" := by decide
      rw [htext] at hbegins ⊢
      exact reads_word hbegins rfl depth
    · have htext : Shortest.text numberSpelling (1.0 / 0.0) = "Infinity" := by decide
      rw [htext] at hbegins ⊢
      exact reads_word hbegins rfl depth
    · have htext : Shortest.text numberSpelling (-1.0 / 0.0) = "-Infinity" := by decide
      rw [htext] at hbegins ⊢
      exact reads_word hbegins rfl depth

end Json

end EventCheck
