import EventCheck.Number.Shortest
import EventCheck.Proofs.Number.Rounding

/-! # Shortest decimal numbers

    The decimal number that is shown for a double is rounded to that double.

    - `digitCount_bounds`: a number lies between the powers of ten that its digits say.
    - `Target.Spans`: what a target says of the interval of a mantissa and an exponent.
    - `Target.Spans.withDigits?_roundsTo`: what is found on a decimal grid lies in the
      interval.
    - `Target.Spans.withDigits?_isSome`: on the grid of seventeen digits something is found,
      since half its unit is less than the interval reaches to either side.
    - `digits_roundsTo`: so the number that is shown lies in the interval.
    - `ofDecimal_eq`: a decimal number in the interval of a double is read as that double.
-/

namespace EventCheck

namespace Binary64

/-! ## Section 1: Counting digits -/

theorem digitCount_pos (n : Nat) : 0 < digitCount n := Nat.length_toDigits_pos

/-- **A number lies between two powers of ten**, the lesser with as many digits as itself. -/
theorem digitCount_bounds {n : Nat} (hn : 0 < n) :
    (10 : ℚ) ^ ((digitCount n : Int) - 1) ≤ n ∧ (n : ℚ) < 10 ^ (digitCount n : Int) := by
  have hpos := digitCount_pos n
  have hlt : n < 10 ^ digitCount n :=
    (Nat.length_toDigits_le_iff (by decide) hpos).mp (Nat.le_refl _)
  have hle : 10 ^ (digitCount n - 1) ≤ n := by
    rcases Nat.eq_zero_or_pos (digitCount n - 1) with hone | hmore
    · rw [hone]
      exact hn
    · rw [← Nat.not_lt]
      intro hless
      have hfewer : digitCount n ≤ digitCount n - 1 :=
        (Nat.length_toDigits_le_iff (by decide) hmore).mpr hless
      omega
  constructor
  · rw [show (digitCount n : Int) - 1 = ((digitCount n - 1 : Nat) : Int) by omega, zpow_natCast]
    exact_mod_cast hle
  · rw [zpow_natCast]
    exact_mod_cast hlt

end Binary64

namespace Shortest

open Binary64

/-- The number that digits and a power of ten make. -/
def Decimal.size (d : Decimal) : ℚ := d.digits * 10 ^ d.exponent

/-! ## Section 2: Targets -/

/-- **The target is that of a mantissa and an exponent**: its numbers, over the denominator, are
    the double and the ends of its interval. -/
structure Target.Spans (t : Target) (m : Nat) (q : Int) : Prop where
  den : 0 < t.den
  value : (t.value : ℚ) / t.den = m * 2 ^ q
  low : (t.low : ℚ) / t.den = (m - gapBelow m q) * 2 ^ q
  high : (t.high : ℚ) / t.den = (m + 1 / 2) * 2 ^ q
  closed : t.closed = true ↔ m % 2 = 0

/-- Scaling changes the denominator alike for all numerators. -/
theorem scale_snd (num num' den : Nat) (e : Int) :
    (scale num den e).2 = (scale num' den e).2 := by
  unfold scale
  split <;> rfl

theorem Target.spans_of {m : Nat} (hm : 0 < m) (q : Int) : (Target.of m q).Spans m q := by
  have hquarter : (2 : ℚ) ^ q = 4 * 2 ^ (q - 2) := by
    rw [zpow_sub₀ two_ne_zero]
    norm_num
    ring
  -- the numbers are counted in quarters of the last place
  have hgrow : ∀ n : Nat,
      ((scale n 1 (q - 2)).1 : ℚ) / (scale 1 1 (q - 2)).2 = n * 2 ^ (q - 2) := by
    intro n
    have hdiv := scale_div n 1 (q - 2)
    rw [scale_snd n 1, Nat.cast_one, div_one] at hdiv
    exact hdiv
  constructor
  case den => exact scale_pos 1 (by decide) _
  case value =>
    show ((scale (4 * m) 1 (q - 2)).1 : ℚ) / (scale 1 1 (q - 2)).2 = _
    rw [hgrow, hquarter]
    push_cast
    ring
  case low =>
    show ((scale (4 * m - if (decide (m = Nat.pow 2 52) && decide (q ≠ -1074)) = true then 1 else 2)
      1 (q - 2)).1 : ℚ) / (scale 1 1 (q - 2)).2 = _
    rw [hgrow, hquarter, gapBelow]
    by_cases hpower : m = 2 ^ 52 ∧ q ≠ -1074
    · rw [if_pos (by simpa using hpower), if_pos hpower, Nat.cast_sub (by omega)]
      push_cast
      ring
    · rw [if_neg (by simpa using hpower), if_neg hpower, Nat.cast_sub (by omega)]
      push_cast
      ring
  case high =>
    show ((scale (4 * m + 2) 1 (q - 2)).1 : ℚ) / (scale 1 1 (q - 2)).2 = _
    rw [hgrow, hquarter]
    push_cast
    ring
  case closed => exact decide_eq_true_iff

variable {t : Target} {m : Nat} {q : Int}

theorem Target.Spans.value_pos (h : t.Spans m q) (hm : 0 < m) : 0 < t.value := by
  have hden : (0 : ℚ) < t.den := by exact_mod_cast h.den
  have hmQ : (0 : ℚ) < m := by exact_mod_cast hm
  have hpos : (0 : ℚ) < (t.value : ℚ) / t.den := by
    rw [h.value]
    positivity
  exact_mod_cast (div_pos_iff_of_pos_right hden).mp hpos

/-- Quotients of whole numbers are compared across. -/
theorem cast_div_le_iff {a b c d : Nat} (hb : 0 < b) (hd : 0 < d) :
    (a : ℚ) / b ≤ c / d ↔ a * d ≤ c * b := by
  rw [div_le_div_iff₀ (by exact_mod_cast hb) (by exact_mod_cast hd)]
  exact_mod_cast Iff.rfl

theorem cast_div_lt_iff {a b c d : Nat} (hb : 0 < b) (hd : 0 < d) :
    (a : ℚ) / b < c / d ↔ a * d < c * b := by
  rw [div_lt_div_iff₀ (by exact_mod_cast hb) (by exact_mod_cast hd)]
  exact_mod_cast Iff.rfl

/-- **A multiple of a unit holds where it lies in the interval.** -/
theorem Target.Spans.holds_iff (h : t.Spans m q) (count unitNum : Nat) {unitDen : Nat}
    (hunit : 0 < unitDen) :
    t.holds count unitNum unitDen = true ↔ RoundsTo (count * (unitNum / unitDen)) m q := by
  have hcount : ((count * unitNum : Nat) : ℚ) / unitDen = count * (unitNum / unitDen) := by
    rw [Nat.cast_mul, mul_div_assoc]
  unfold Target.holds
  dsimp only
  -- the ends belong to the interval of an even mantissa only
  split
  · next hclosed =>
    have heven := h.closed.mp hclosed
    rw [Bool.and_eq_true, decide_eq_true_iff, decide_eq_true_iff, ← cast_div_le_iff h.den hunit,
      ← cast_div_le_iff hunit h.den, h.low, h.high, hcount]
    exact ⟨fun ⟨hl, hh⟩ => ⟨hl, hh, fun hodd => by omega⟩, fun hr => ⟨hr.low, hr.high⟩⟩
  · next hopen =>
    have hodd : m % 2 = 1 := by
      have heven := mt h.closed.mpr hopen
      omega
    rw [Bool.and_eq_true, decide_eq_true_iff, decide_eq_true_iff, ← cast_div_lt_iff h.den hunit,
      ← cast_div_lt_iff hunit h.den, h.low, h.high, hcount]
    exact ⟨fun ⟨hl, hh⟩ => ⟨hl.le, hh.le, fun _ => ⟨hl, hh⟩⟩, fun hr => hr.odd hodd⟩

/-! ## Section 3: Grids -/

/-- What stands over the denominator is the power of ten. -/
theorem unit_eq (e : Int) :
    (((if 0 ≤ e then Nat.pow 10 e.toNat else 1 : Nat) : ℚ) /
      (if 0 ≤ e then 1 else Nat.pow 10 (-e).toNat : Nat)) = 10 ^ e := by
  by_cases he : 0 ≤ e
  · obtain ⟨k, rfl⟩ := Int.eq_ofNat_of_zero_le he
    rw [if_pos he, if_pos he, Int.toNat_natCast, zpow_natCast, Nat.cast_one, div_one]
    exact_mod_cast rfl
  · obtain ⟨k, rfl⟩ : ∃ k : Nat, e = -(k : Int) := ⟨(-e).toNat, by omega⟩
    rw [if_neg he, if_neg he, neg_neg, Int.toNat_natCast, zpow_neg, zpow_natCast, Nat.cast_one,
      one_div]
    exact_mod_cast rfl

theorem unitNum_pos (e : Int) : 0 < (if 0 ≤ e then Nat.pow 10 e.toNat else 1 : Nat) := by
  split
  · exact Nat.pow_pos (by decide)
  · decide

theorem unitDen_pos (e : Int) : 0 < (if 0 ≤ e then 1 else Nat.pow 10 (-e).toNat : Nat) := by
  split
  · decide
  · exact Nat.pow_pos (by decide)

/-- A quotient is rounded to the whole number below it or to the next one. -/
theorem roundHalfEven_cases (n d : Nat) :
    roundHalfEven n d = n / d ∨ roundHalfEven n d = n / d + 1 := by
  unfold roundHalfEven
  dsimp only
  split
  · exact .inl rfl
  · split
    · exact .inr rfl
    · omega

/-- **What is found on a grid lies in the interval.** -/
theorem Target.Spans.withDigits?_roundsTo (h : t.Spans m q) {count : Nat} {d : Decimal}
    (hd : t.withDigits? count = some d) : RoundsTo d.size m q := by
  unfold Target.withDigits? at hd
  dsimp only at hd
  generalize t.magnitude - count = e at hd
  have hholds := fun n => h.holds_iff n (if 0 ≤ e then Nat.pow 10 e.toNat else 1) (unitDen_pos e)
  rw [unit_eq] at hholds
  split at hd
  · next hbelow _ =>
    cases hd
    exact (hholds _).mp hbelow
  · next _ habove =>
    cases hd
    exact (hholds _).mp habove
  · next hbelow habove =>
    -- the nearer one is taken, but both lie in the interval
    cases hd
    rcases roundHalfEven_cases (t.value * if 0 ≤ e then 1 else Nat.pow 10 (-e).toNat)
      (t.den * if 0 ≤ e then Nat.pow 10 e.toNat else 1) with heq | heq
    · rw [heq]
      exact (hholds _).mp hbelow
    · rw [heq]
      exact (hholds _).mp habove
  · cases hd

/-! ## Section 4: Seventeen digits -/

/-- The target is at least the power of ten below its magnitude. -/
theorem Target.pow_magnitude_le (hden : 0 < t.den) (hvalue : 0 < t.value) :
    (10 : ℚ) ^ (t.magnitude - 1) ≤ (t.value : ℚ) / t.den := by
  have hdenQ : (0 : ℚ) < t.den := by exact_mod_cast hden
  have hvalueQ : (0 : ℚ) < t.value := by exact_mod_cast hvalue
  unfold Target.magnitude
  split
  · next hle =>
    -- at least one: the digits in front of the point are counted
    have hfloor : 0 < t.value / t.den := Nat.div_pos hle hden
    exact (digitCount_bounds hfloor).1.trans Nat.cast_div_le
  · next hlt =>
    -- less than one: the digits of the inverse are counted
    have hfloor : 0 < t.den / t.value := Nat.div_pos (Nat.le_of_not_le hlt) hvalue
    have hpos := digitCount_pos (t.den / t.value)
    have hless : t.den / t.value < 10 ^ digitCount (t.den / t.value) := by
      exact_mod_cast (digitCount_bounds hfloor).2
    generalize digitCount (t.den / t.value) = n at hpos hless
    dsimp only
    split
    · next hpower =>
      -- the value is a power of ten itself
      have hpowerQ : (t.den : ℚ) = t.value * 10 ^ (n - 1) := by exact_mod_cast hpower
      rw [show (2 : Int) - n - 1 = -((n - 1 : Nat) : Int) by omega, zpow_neg, zpow_natCast, hpowerQ,
        div_mul_cancel_left₀ hvalueQ.ne']
    · have hfar : (t.den : ℚ) < 10 ^ n * t.value := by
        exact_mod_cast (Nat.div_lt_iff_lt_mul hvalue).mp hless
      rw [show (1 : Int) - n - 1 = -(n : Int) by omega, zpow_neg, zpow_natCast,
        le_div_iff₀ hdenQ, inv_mul_le_iff₀ (by positivity)]
      exact hfar.le

/-- **Half a unit of the seventeenth digit is less than the interval reaches** to either side. -/
theorem half_unit_lt (hm : Regular m q) {unit : ℚ} (hunit : 10 ^ 16 * unit ≤ m * 2 ^ q) :
    unit / 2 < gapBelow m q * 2 ^ q := by
  have hpow : (0 : ℚ) < 2 ^ q := by positivity
  unfold gapBelow
  split
  · next hpower =>
    -- sixteen digits already do here, since the mantissa is small
    have hm52 : (m : ℚ) = 2 ^ 52 := by exact_mod_cast hpower.1
    rw [hm52] at hunit
    norm_num at hunit
    linarith
  · have hm53 : (m : ℚ) ≤ 2 ^ 53 := by exact_mod_cast hm.lt.le
    have hle : (m : ℚ) * 2 ^ q ≤ 2 ^ 53 * 2 ^ q := mul_le_mul_of_nonneg_right hm53 hpow.le
    norm_num at hunit hle
    linarith

/-- What lies between the ends lies in the interval. -/
theorem roundsTo_of_between {r : ℚ} (hlow : (m - gapBelow m q) * 2 ^ q < r)
    (hhigh : r < (m + 1 / 2) * 2 ^ q) : RoundsTo r m q :=
  ⟨hlow.le, hhigh.le, fun _ => ⟨hlow, hhigh⟩⟩

/-- **One of the two neighbours of a double on such a grid lies in its interval**, the nearer
    one. -/
theorem roundsTo_neighbour (hm : Regular m q) {unit : ℚ} (hunit : 10 ^ 16 * unit ≤ m * 2 ^ q)
    {below : Nat} (hlow : below * unit ≤ m * 2 ^ q) (hhigh : m * 2 ^ q < (below + 1 : Nat) * unit) :
    RoundsTo (below * unit) m q ∨ RoundsTo ((below + 1 : Nat) * unit) m q := by
  obtain ⟨-, hgap⟩ := half_le_gapBelow m q
  have hpow : (0 : ℚ) < 2 ^ q := by positivity
  have hreach : unit / 2 < gapBelow m q * 2 ^ q := half_unit_lt hm hunit
  have hreach' : unit / 2 < 1 / 2 * 2 ^ q :=
    hreach.trans_le (mul_le_mul_of_nonneg_right hgap hpow.le)
  push_cast at hhigh ⊢
  by_cases hnearer : (m : ℚ) * 2 ^ q - below * unit < unit / 2
  · left
    exact roundsTo_of_between (by linarith) (by linarith)
  · right
    exact roundsTo_of_between (by linarith) (by linarith)

/-- A quotient lies between the whole number below it and the next one. -/
theorem floor_bounds (n : Nat) {d : Nat} (hd : 0 < d) :
    ((n / d : Nat) : ℚ) ≤ n / d ∧ (n : ℚ) / d < (n / d + 1 : Nat) := by
  constructor
  · exact Nat.cast_div_le
  · rw [div_lt_iff₀ (by exact_mod_cast hd)]
    exact_mod_cast Nat.lt_mul_of_div_lt (Nat.lt_succ_self _) hd

/-- **On the grid of seventeen digits something is found.** -/
theorem Target.Spans.withDigits?_isSome (h : t.Spans m q) (hm : Regular m q) :
    (t.withDigits? 17).isSome = true := by
  have hmagnitude := Target.pow_magnitude_le h.den (h.value_pos hm.pos)
  unfold Target.withDigits?
  dsimp only
  generalize hexponent : t.magnitude - (17 : Nat) = e
  have hunit := unit_eq e
  have hnum := unitNum_pos e
  have hden := unitDen_pos e
  generalize (if 0 ≤ e then Nat.pow 10 e.toNat else 1 : Nat) = unitNum at hunit hnum ⊢
  generalize (if 0 ≤ e then 1 else Nat.pow 10 (-e).toNat : Nat) = unitDen at hunit hden ⊢
  have hholds := fun n => h.holds_iff n unitNum hden
  rw [hunit] at hholds
  -- the sixteen places behind the first digit
  have hfine : 10 ^ 16 * (10 : ℚ) ^ e ≤ m * 2 ^ q := by
    rw [← h.value]
    refine le_of_eq_of_le ?_ hmagnitude
    rw [show t.magnitude - 1 = ((16 : Nat) : Int) + e by omega, zpow_add₀ (by norm_num),
      zpow_natCast]
  -- the double lies between its two neighbours on the grid
  have hquotient : (m : ℚ) * 2 ^ q =
      (t.value * unitDen : Nat) / (t.den * unitNum : Nat) * 10 ^ e := by
    rw [← h.value, ← hunit]
    have hnumQ : (0 : ℚ) < unitNum := by exact_mod_cast hnum
    have hdenQ : (0 : ℚ) < unitDen := by exact_mod_cast hden
    push_cast
    field_simp
  have hgrid : (0 : ℚ) < 10 ^ e := by positivity
  obtain ⟨hlow, hhigh⟩ := floor_bounds (t.value * unitDen) (Nat.mul_pos h.den hnum)
  have hlow' := mul_le_mul_of_nonneg_right hlow hgrid.le
  have hhigh' := mul_lt_mul_of_pos_right hhigh hgrid
  rw [← hquotient] at hlow' hhigh'
  have hneighbour := roundsTo_neighbour hm hfine hlow' hhigh'
  split
  · rfl
  · rfl
  · rfl
  · next hneither hneither' =>
    rcases hneighbour with hr | hr
    · rw [(hholds _).mpr hr] at hneither
      cases hneither
    · rw [(hholds _).mpr hr] at hneither'
      cases hneither'

/-! ## Section 5: The number that is shown -/

/-- **Moving zeros into the exponent keeps the number.** -/
theorem Decimal.size_trim (d : Decimal) : d.trim.size = d.size := by
  unfold Decimal.trim
  dsimp only
  generalize hzeros : (Nat.toDigits 10 d.digits).reverse.takeWhile (· == '0') = zeros
  have hreplicate : zeros = List.replicate zeros.length '0' := by
    rw [List.eq_replicate_iff]
    refine ⟨rfl, fun c hc => ?_⟩
    rw [← hzeros] at hc
    simpa using List.mem_takeWhile_imp hc
  -- the digits are those in front and the zeros behind them
  have hsplit : ∃ front, Nat.toDigits 10 d.digits = front ++ List.replicate zeros.length '0' := by
    refine ⟨((Nat.toDigits 10 d.digits).reverse.dropWhile (· == '0')).reverse, ?_⟩
    rw [← List.reverse_replicate, ← hreplicate, ← hzeros, ← List.reverse_append,
      List.takeWhile_append_dropWhile, List.reverse_reverse]
  obtain ⟨front, hfront⟩ := hsplit
  have hdigits : d.digits = 10 ^ zeros.length * Nat.ofDigitChars 10 front 0 := by
    rw [← Nat.ofDigitChars_replicate_zero, ← Nat.ofDigitChars_append, ← hfront,
      Nat.ofDigitChars_toDigits (by decide) (by decide)]
  have hpos : 0 < Nat.pow 10 zeros.length := Nat.pow_pos (by decide)
  have hquotient : d.digits / Nat.pow 10 zeros.length * Nat.pow 10 zeros.length = d.digits :=
    Nat.div_mul_cancel ⟨_, hdigits⟩
  have hcast : (d.digits : ℚ) = (d.digits / Nat.pow 10 zeros.length : Nat) * 10 ^ zeros.length := by
    exact_mod_cast hquotient.symm
  rw [Decimal.size, Decimal.size, hcast, zpow_add₀ (by norm_num), zpow_natCast]
  ring

/-- **The number that is shown for a double lies in its interval.** -/
theorem digits_roundsTo (hm : Regular m q) : RoundsTo (digits m q).size m q := by
  have hspans := Target.spans_of hm.pos q
  unfold digits
  dsimp only
  split
  · next d hd =>
    -- whichever grid it was
    obtain ⟨n, -, hn⟩ := List.exists_of_findSome?_eq_some hd
    rw [Decimal.size_trim]
    exact hspans.withDigits?_roundsTo hn
  · next hnone =>
    have hseventeen := List.findSome?_eq_none_iff.mp hnone 16 (by decide)
    have hsome := hspans.withDigits?_isSome hm
    rw [hseventeen] at hsome
    cases hsome

end Shortest

namespace Binary64

/-! ## Section 6: Decimal numbers that are read -/

/-- What rounds to a double other than zero is no smaller than half the least double and smaller
    than the power of two beyond all doubles. -/
theorem RoundsTo.bounds {r : ℚ} {m : Nat} {q : Int} (h : RoundsTo r m q) (hm : Regular m q) :
    (2 : ℚ) ^ (-1075 : Int) ≤ r ∧ r < 2 ^ (1024 : Int) := by
  obtain ⟨-, hgap⟩ := half_le_gapBelow m q
  have hpow : (0 : ℚ) < 2 ^ q := by positivity
  have hone : (1 : ℚ) ≤ m := by exact_mod_cast hm.pos
  have htop : (m : ℚ) + 1 ≤ 2 ^ 53 := by
    have hlt := hm.lt
    exact_mod_cast hlt
  constructor
  · calc (2 : ℚ) ^ (-1075 : Int) = 1 / 2 * 2 ^ (-1074 : Int) := by
          rw [show (-1075 : Int) = -1074 - 1 by norm_num, zpow_sub_one₀ two_ne_zero]
          ring
      _ ≤ 1 / 2 * 2 ^ q :=
          mul_le_mul_of_nonneg_left (zpow_le_zpow_right₀ one_le_two hm.least) (by norm_num)
      _ ≤ (m - gapBelow m q) * 2 ^ q := mul_le_mul_of_nonneg_right (by linarith) hpow.le
      _ ≤ r := h.low
  · calc r ≤ (m + 1 / 2) * 2 ^ q := h.high
      _ < 2 ^ 53 * 2 ^ q := mul_lt_mul_of_pos_right (by linarith) hpow
      _ ≤ 2 ^ 53 * 2 ^ (971 : Int) :=
          mul_le_mul_of_nonneg_left (zpow_le_zpow_right₀ one_le_two hm.greatest) (by norm_num)
      _ = 2 ^ (1024 : Int) := by
          rw [show (1024 : Int) = ((53 : Nat) : Int) + 971 by norm_num, zpow_add₀ two_ne_zero,
            zpow_natCast]

/-- The powers of ten that settle sizes at once lie beyond those bounds. -/
theorem ten_zpow_lt : (10 : ℚ) ^ (-401 : Int) < 2 ^ (-1075 : Int) := by
  have hnat : 2 ^ 1075 < 10 ^ 401 := by decide +kernel
  rw [show (-401 : Int) = -((401 : Nat) : Int) by norm_num,
    show (-1075 : Int) = -((1075 : Nat) : Int) by norm_num, zpow_neg, zpow_neg, zpow_natCast,
    zpow_natCast, inv_lt_inv₀ (by positivity) (by positivity)]
  exact_mod_cast hnat

theorem two_zpow_lt : (2 : ℚ) ^ (1024 : Int) < 10 ^ (400 : Int) := by
  have hnat : 2 ^ 1024 < 10 ^ 400 := by decide +kernel
  rw [show (400 : Int) = ((400 : Nat) : Int) by norm_num,
    show (1024 : Int) = ((1024 : Nat) : Int) by norm_num, zpow_natCast, zpow_natCast]
  exact_mod_cast hnat

/-- Nothing that rounds to a double other than zero is zero. -/
theorem RoundsTo.pos {r : ℚ} {m : Nat} {q : Int} (h : RoundsTo r m q) (hm : Regular m q) :
    0 < r :=
  lt_of_lt_of_le (by positivity) (h.bounds hm).1

theorem pos_of_roundsTo {count : Nat} {e : Int} {m : Nat} {q : Int} (hm : Regular m q)
    (h : RoundsTo (count * 10 ^ e) m q) : 0 < count := by
  have hpos := h.pos hm
  rw [Nat.pos_iff_ne_zero]
  rintro rfl
  rw [Nat.cast_zero, zero_mul] at hpos
  exact absurd hpos (lt_irrefl _)

/-- **A decimal number in the interval of a double is read as that double.** -/
theorem ofDecimal_eq {x : Float} {p : Parts} (h : parts x = some p) (hm : 0 < p.mantissa)
    {count : Nat} {e : Int} (hrounds : RoundsTo (count * 10 ^ e) p.mantissa p.exponent) :
    ofDecimal p.negative count e = x := by
  have hregular : Regular p.mantissa p.exponent := by
    rcases regular_of_parts h with ⟨hzero, -⟩ | hregular
    · omega
    · exact hregular
  obtain ⟨hleast, hgreatest⟩ := hrounds.bounds hregular
  have hunit : (0 : ℚ) < 10 ^ e := by positivity
  have hcount := pos_of_roundsTo hregular hrounds
  obtain ⟨hlow, hhigh⟩ := digitCount_bounds hcount
  -- neither of the two sizes that are settled at once
  have hsmall : ¬ (digitCount count : Int) + e < -400 := by
    intro hsize
    have hless : (count : ℚ) * 10 ^ e < 10 ^ (-401 : Int) :=
      calc (count : ℚ) * 10 ^ e < 10 ^ (digitCount count : Int) * 10 ^ e :=
            mul_lt_mul_of_pos_right hhigh hunit
        _ = 10 ^ ((digitCount count : Int) + e) := (zpow_add₀ (by norm_num) _ _).symm
        _ ≤ 10 ^ (-401 : Int) := zpow_le_zpow_right₀ (by norm_num) (by omega)
    exact absurd (hleast.trans_lt (hless.trans ten_zpow_lt)) (lt_irrefl _)
  have hlarge : ¬ 400 < (digitCount count : Int) + e := by
    intro hsize
    have hmore : (10 : ℚ) ^ (400 : Int) ≤ count * 10 ^ e :=
      calc (10 : ℚ) ^ (400 : Int) ≤ 10 ^ ((digitCount count : Int) - 1 + e) :=
            zpow_le_zpow_right₀ (by norm_num) (by omega)
        _ = 10 ^ ((digitCount count : Int) - 1) * 10 ^ e := zpow_add₀ (by norm_num) _ _
        _ ≤ count * 10 ^ e := mul_le_mul_of_nonneg_right hlow hunit.le
    exact absurd (hmore.trans_lt (hgreatest.trans two_zpow_lt)) (lt_irrefl _)
  unfold ofDecimal
  dsimp only
  rw [if_neg (by simp [hsmall, Nat.pos_iff_ne_zero.mp hcount]), if_neg hlarge]
  split
  · next he =>
    obtain ⟨k, rfl⟩ := Int.eq_ofNat_of_zero_le he
    apply ofRatio_eq h (by decide) hm
    rw [zpow_natCast] at hrounds
    show RoundsTo ((count * 10 ^ k : Nat) / (1 : Nat)) _ _
    push_cast
    rw [div_one]
    exact hrounds
  · next he =>
    obtain ⟨k, rfl⟩ : ∃ k : Nat, e = -(k : Int) := ⟨(-e).toNat, by omega⟩
    rw [neg_neg]
    apply ofRatio_eq h (Nat.pow_pos (by decide)) hm
    rw [zpow_neg, zpow_natCast, ← div_eq_mul_inv] at hrounds
    show RoundsTo (count / (10 ^ k : Nat)) _ _
    push_cast
    exact hrounds

/-- A zero of either sign is read as that zero. -/
theorem ofDecimal_zero {x : Float} {p : Parts} (h : parts x = some p) (hm : p.mantissa = 0)
    (e : Int) : ofDecimal p.negative 0 e = x := by
  unfold ofDecimal
  dsimp only
  rw [if_pos (by simp)]
  exact ofRatio_zero h hm 1

end Binary64

end EventCheck
