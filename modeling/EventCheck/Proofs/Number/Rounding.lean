import EventCheck.Number.Binary64
import Mathlib

/-! # Rounding to doubles

    A quotient that lies nearer to a double than to its neighbours is rounded to that
    double.

    - `RoundsTo`: a rational number lies in the interval that rounds to a mantissa and an
      exponent. The ends belong to it where the mantissa is even, and below a power of two
      it is only half as wide.
    - `roundHalfEven_eq`: rounding to whole numbers.
    - `bitsOfRatio_eq`: the pattern of bits that a quotient in the interval is rounded to.
    - `ofRatio_eq`: so every quotient in the interval of a finite double is rounded to that
      double.
    - `eq_of_parts_none`: the doubles that are not finite.
-/

namespace EventCheck

/-! ## Section 1: Whole numbers -/

/-- **A quotient is rounded to a whole number** that is at most half a unit away, and less than
    that if it is odd. -/
theorem roundHalfEven_eq {n d m : Nat} (hd : 0 < d) (hlow : 2 * m * d ≤ 2 * n + d)
    (hhigh : 2 * n ≤ 2 * m * d + d)
    (hodd : m % 2 = 1 → 2 * m * d < 2 * n + d ∧ 2 * n < 2 * m * d + d) :
    roundHalfEven n d = m := by
  have hsplit : d * (n / d) + n % d = n := Nat.div_add_mod n d
  have hrest : n % d < d := Nat.mod_lt n hd
  unfold roundHalfEven
  generalize n / d = f at hsplit ⊢
  generalize n % d = r at hsplit hrest ⊢
  have hassoc : 2 * m * d = 2 * (d * m) := by ring
  rw [hassoc] at hlow hhigh hodd
  -- the floor is the number itself or the one below
  have hle : f ≤ m := by
    by_contra hlt
    have hmul : d * (m + 1) ≤ d * f := Nat.mul_le_mul_left d (by omega)
    rw [Nat.mul_add] at hmul
    omega
  have hge : m ≤ f + 1 := by
    by_contra hlt
    have hmul : d * (f + 2) ≤ d * m := Nat.mul_le_mul_left d (by omega)
    rw [Nat.mul_add] at hmul
    omega
  dsimp only
  rcases Nat.eq_or_lt_of_le hle with rfl | hlt
  -- it is the floor, and the rest at most half; a rest of just half needs an even floor
  · split
    · rfl
    · split
      · omega
      · omega
  -- it is the next one, and the rest at least half
  · obtain rfl : m = f + 1 := by omega
    rw [Nat.mul_add] at hlow hhigh hodd
    split
    · omega
    · split
      · rfl
      · omega

namespace Binary64

/-! ## Section 2: Intervals -/

/-- How far below a double what rounds to it may lie, in units of its last place. Below a power of
    two the next double is only half as far away. -/
def gapBelow (m : Nat) (q : Int) : ℚ := if m = 2 ^ 52 ∧ q ≠ -1074 then 1 / 4 else 1 / 2

/-- **The number lies in the interval that rounds to this mantissa and exponent.** -/
structure RoundsTo (r : ℚ) (m : Nat) (q : Int) : Prop where
  low : (m - gapBelow m q) * 2 ^ q ≤ r
  high : r ≤ (m + 1 / 2) * 2 ^ q
  odd : m % 2 = 1 → (m - gapBelow m q) * 2 ^ q < r ∧ r < (m + 1 / 2) * 2 ^ q

/-- **The mantissa and the exponent of a finite double other than zero.** -/
structure Regular (m : Nat) (q : Int) : Prop where
  pos : 0 < m
  lt : m < 2 ^ 53
  least : -1074 ≤ q
  greatest : q ≤ 971
  normal : 2 ^ 52 ≤ m ∨ q = -1074

/-! ## Section 3: Scaling -/

theorem scale_pos (num : Nat) {den : Nat} (hden : 0 < den) (e : Int) : 0 < (scale num den e).2 := by
  unfold scale
  split
  · exact hden
  · exact Nat.mul_pos hden (Nat.pow_pos (by decide))

/-- Scaling by a power of two multiplies the quotient by it. -/
theorem scale_div (num den : Nat) (e : Int) :
    ((scale num den e).1 : ℚ) / (scale num den e).2 = num / den * 2 ^ e := by
  unfold scale
  split
  · next he =>
    obtain ⟨k, rfl⟩ := Int.eq_ofNat_of_zero_le he
    simp only [Int.toNat_natCast, zpow_natCast]
    show ((num * 2 ^ k : Nat) : ℚ) / den = _
    push_cast
    ring
  · next he =>
    obtain ⟨k, rfl⟩ : ∃ k : Nat, e = -(k : Int) := ⟨(-e).toNat, by omega⟩
    simp only [neg_neg, Int.toNat_natCast, zpow_neg, zpow_natCast]
    show (num : ℚ) / ((den * 2 ^ k : Nat) : ℚ) = _
    push_cast
    rw [div_mul_eq_div_div, div_eq_mul_inv _ ((2 : ℚ) ^ k)]

/-! ## Section 4: The exponent -/

/-- The exponent for a mantissa of 53 bits, however small the quotient is. -/
def leadingExponent (num den : Nat) : Int :=
  let guess : Int := (num.log2 : Int) - (den.log2 : Int) - 52
  if (scale num den (-guess)).1 < Nat.pow 2 52 * (scale num den (-guess)).2 then guess - 1
  else guess

theorem bitsOfRatio_of_pos {num den : Nat} (hnum : 0 < num) :
    bitsOfRatio num den =
      let exponent := max (leadingExponent num den) (-1074)
      let bits := (exponent + 1074).toNat * Nat.pow 2 52 +
        roundHalfEven (scale num den (-exponent)).1 (scale num den (-exponent)).2
      if 2047 * Nat.pow 2 52 ≤ bits then 2047 * Nat.pow 2 52 else bits := by
  unfold bitsOfRatio
  rw [if_neg (Nat.pos_iff_ne_zero.mp hnum)]
  rfl

/-- A whole number lies between two powers of two. -/
theorem log2_bounds {n : Nat} (hn : 0 < n) :
    (2 : ℚ) ^ (n.log2 : Int) ≤ n ∧ (n : ℚ) < 2 ^ ((n.log2 : Int) + 1) := by
  have hle : 2 ^ n.log2 ≤ n := Nat.log2_self_le (Nat.pos_iff_ne_zero.mp hn)
  have hlt : n < 2 ^ (n.log2 + 1) := Nat.lt_log2_self
  constructor
  · rw [zpow_natCast]
    exact_mod_cast hle
  · rw [show (n.log2 : Int) + 1 = ((n.log2 + 1 : Nat) : Int) by push_cast; rfl, zpow_natCast]
    exact_mod_cast hlt

/-- **With the leading exponent the mantissa has 53 bits.** -/
theorem leadingExponent_bounds {num den : Nat} (hnum : 0 < num) (hden : 0 < den) :
    (2 : ℚ) ^ (leadingExponent num den + 52) ≤ num / den ∧
      (num : ℚ) / den < 2 ^ (leadingExponent num den + 53) := by
  obtain ⟨hnumLow, hnumHigh⟩ := log2_bounds hnum
  obtain ⟨hdenLow, hdenHigh⟩ := log2_bounds hden
  have hdenPos : (0 : ℚ) < den := by exact_mod_cast hden
  unfold leadingExponent
  dsimp only
  generalize hguess : (num.log2 : Int) - (den.log2 : Int) - 52 = guess
  -- the guess is right or one too large
  have hlow : (2 : ℚ) ^ (guess + 51) ≤ num / den := by
    rw [le_div_iff₀ hdenPos]
    calc (2 : ℚ) ^ (guess + 51) * den ≤ 2 ^ (guess + 51) * 2 ^ ((den.log2 : Int) + 1) :=
          mul_le_mul_of_nonneg_left hdenHigh.le (by positivity)
      _ = 2 ^ (num.log2 : Int) := by
          rw [← zpow_add₀ two_ne_zero]
          congr 1
          omega
      _ ≤ num := hnumLow
  have hhigh : (num : ℚ) / den < 2 ^ (guess + 53) := by
    rw [div_lt_iff₀ hdenPos]
    calc (num : ℚ) < 2 ^ ((num.log2 : Int) + 1) := hnumHigh
      _ = 2 ^ (guess + 53) * 2 ^ (den.log2 : Int) := by
          rw [← zpow_add₀ two_ne_zero]
          congr 1
          omega
      _ ≤ 2 ^ (guess + 53) * den := mul_le_mul_of_nonneg_left hdenLow (by positivity)
  -- the comparison decides which
  have hcompare : (scale num den (-guess)).1 < Nat.pow 2 52 * (scale num den (-guess)).2 ↔
      (num : ℚ) / den < 2 ^ (guess + 52) := by
    have hscaled := scale_div num den (-guess)
    have hpos : (0 : ℚ) < (scale num den (-guess)).2 := by exact_mod_cast scale_pos num hden (-guess)
    have hcast : (scale num den (-guess)).1 < Nat.pow 2 52 * (scale num den (-guess)).2 ↔
        ((scale num den (-guess)).1 : ℚ) / (scale num den (-guess)).2 < 2 ^ 52 := by
      rw [div_lt_iff₀ hpos]
      exact_mod_cast Iff.rfl
    rw [hcast, hscaled, zpow_neg, ← div_eq_mul_inv, div_lt_iff₀ (by positivity),
      zpow_add₀ two_ne_zero, mul_comm]
    exact Iff.rfl
  split
  · next hlt =>
    have hless := hcompare.mp hlt
    constructor
    · rwa [show guess - 1 + 52 = guess + 51 by ring]
    · rwa [show guess - 1 + 53 = guess + 52 by ring]
  · next hge =>
    exact ⟨not_lt.mp (fun hlt => hge (hcompare.mpr hlt)), hhigh⟩

/-- No other exponent does that. -/
theorem eq_leadingExponent {num den : Nat} (hnum : 0 < num) (hden : 0 < den) {e : Int}
    (hlow : (2 : ℚ) ^ (e + 52) ≤ num / den) (hhigh : (num : ℚ) / den < 2 ^ (e + 53)) :
    leadingExponent num den = e := by
  obtain ⟨hlow', hhigh'⟩ := leadingExponent_bounds hnum hden
  have hlt := (zpow_lt_zpow_iff_right₀ (one_lt_two (α := ℚ))).mp (hlow.trans_lt hhigh')
  have hlt' := (zpow_lt_zpow_iff_right₀ (one_lt_two (α := ℚ))).mp (hlow'.trans_lt hhigh)
  omega

/-! ## Section 5: The pattern of bits -/

/-- A scaled quotient is rounded to a whole number at most half a unit away. -/
theorem roundHalfEven_scale {num den m : Nat} (hden : 0 < den) (e : Int)
    (hlow : (m : ℚ) - 1 / 2 ≤ num / den * 2 ^ e) (hhigh : (num : ℚ) / den * 2 ^ e ≤ m + 1 / 2)
    (hodd : m % 2 = 1 → (m : ℚ) - 1 / 2 < num / den * 2 ^ e ∧
      (num : ℚ) / den * 2 ^ e < m + 1 / 2) :
    roundHalfEven (scale num den e).1 (scale num den e).2 = m := by
  rw [← scale_div num den e] at hlow hhigh hodd
  have hpos := scale_pos num hden e
  generalize (scale num den e).1 = n at hlow hhigh hodd ⊢
  generalize (scale num den e).2 = d at hlow hhigh hodd hpos ⊢
  have hposQ : (0 : ℚ) < d := by exact_mod_cast hpos
  apply roundHalfEven_eq hpos
  · rw [le_div_iff₀ hposQ] at hlow
    have hcast : 2 * (m : ℚ) * d ≤ 2 * n + d := by linarith
    exact_mod_cast hcast
  · rw [div_le_iff₀ hposQ] at hhigh
    have hcast : 2 * (n : ℚ) ≤ 2 * m * d + d := by linarith
    exact_mod_cast hcast
  · intro hm
    obtain ⟨hlow, hhigh⟩ := hodd hm
    rw [lt_div_iff₀ hposQ] at hlow
    rw [div_lt_iff₀ hposQ] at hhigh
    have hcast : 2 * (m : ℚ) * d < 2 * n + d := by linarith
    have hcast' : 2 * (n : ℚ) < 2 * m * d + d := by linarith
    exact ⟨by exact_mod_cast hcast, by exact_mod_cast hcast'⟩

theorem half_le_gapBelow (m : Nat) (q : Int) : 0 < gapBelow m q ∧ gapBelow m q ≤ 1 / 2 := by
  unfold gapBelow
  split <;> norm_num

/-- What rounds to a double lies at most half a unit of its last place away. -/
theorem RoundsTo.near {r : ℚ} {m : Nat} {q : Int} (h : RoundsTo r m q) :
    ((m : ℚ) - 1 / 2 ≤ r * 2 ^ (-q) ∧ r * 2 ^ (-q) ≤ m + 1 / 2) ∧
      (m % 2 = 1 → (m : ℚ) - 1 / 2 < r * 2 ^ (-q) ∧ r * 2 ^ (-q) < m + 1 / 2) := by
  obtain ⟨-, hgap⟩ := half_le_gapBelow m q
  have hunit : (0 : ℚ) < 2 ^ q := by positivity
  rw [zpow_neg, ← div_eq_mul_inv]
  refine ⟨⟨?_, (div_le_iff₀ hunit).mpr h.high⟩, fun hm => ⟨?_, (div_lt_iff₀ hunit).mpr (h.odd hm).2⟩⟩
  · have hlow := (le_div_iff₀ hunit).mpr h.low
    linarith
  · have hlow := (lt_div_iff₀ hunit).mpr (h.odd hm).1
    linarith

/-- The bits are those of the exponent that is taken and the mantissa for it. -/
theorem bitsOfRatio_of_exponent {num den m : Nat} {e : Int} (hnum : 0 < num)
    (hexponent : max (leadingExponent num den) (-1074) = e)
    (hmantissa : roundHalfEven (scale num den (-e)).1 (scale num den (-e)).2 = m)
    (hfinite : (e + 1074).toNat * 2 ^ 52 + m < 2047 * 2 ^ 52) :
    bitsOfRatio num den = (e + 1074).toNat * 2 ^ 52 + m := by
  rw [bitsOfRatio_of_pos hnum]
  dsimp only
  rw [hexponent, hmantissa]
  exact if_neg (Nat.not_le.mpr hfinite)

/-- Where the quotient reaches the mantissas of 53 bits, or the exponent is the least one, the
    mantissa is that of the double. -/
theorem bitsOfRatio_of_max {num den m : Nat} {q : Int} (hnum : 0 < num) (hden : 0 < den)
    (hm : Regular m q) (h : RoundsTo (num / den) m q)
    (hexponent : max (leadingExponent num den) (-1074) = q) :
    bitsOfRatio num den = (q + 1074).toNat * 2 ^ 52 + m := by
  obtain ⟨⟨hlow, hhigh⟩, hodd⟩ := h.near
  have hmantissa := roundHalfEven_scale hden (-q) hlow hhigh hodd
  have hlt := hm.lt
  have hleast := hm.least
  have hgreatest := hm.greatest
  exact bitsOfRatio_of_exponent hnum hexponent hmantissa (by omega)

/-- Powers of two with a given exponent above a unit. -/
theorem two_zpow_add (q : Int) (k : Nat) : (2 : ℚ) ^ (q + k) = 2 ^ k * 2 ^ q := by
  rw [zpow_add₀ two_ne_zero, zpow_natCast, mul_comm]

/-- Just below a power of two the mantissa is rounded up to the power, which carries into the
    exponent. -/
theorem bitsOfRatio_below_power {num den : Nat} {q : Int} (hnum : 0 < num) (hden : 0 < den)
    (hleast : -1074 < q) (hgreatest : q ≤ 971)
    (hlow : ((2 : ℚ) ^ 53 - 1 / 2) * 2 ^ (q - 1) ≤ num / den)
    (hhigh : (num : ℚ) / den < 2 ^ 53 * 2 ^ (q - 1)) :
    bitsOfRatio num den = (q + 1074).toNat * 2 ^ 52 + 2 ^ 52 := by
  have hunit : (0 : ℚ) < 2 ^ (q - 1) := by positivity
  have hexponent : leadingExponent num den = q - 1 := by
    apply eq_leadingExponent hnum hden
    · have h52 := two_zpow_add (q - 1) 52
      push_cast at h52
      rw [h52]
      exact (mul_le_mul_of_nonneg_right (by norm_num) hunit.le).trans hlow
    · have h53 := two_zpow_add (q - 1) 53
      push_cast at h53
      rw [h53]
      exact hhigh
  have hmantissa : roundHalfEven (scale num den (-(q - 1))).1 (scale num den (-(q - 1))).2 =
      2 ^ 53 := by
    have hlow' := (le_div_iff₀ hunit).mpr hlow
    have hhigh' := (div_lt_iff₀ hunit).mpr hhigh
    apply roundHalfEven_scale hden
    · rw [zpow_neg, ← div_eq_mul_inv]
      push_cast
      exact hlow'
    · rw [zpow_neg, ← div_eq_mul_inv]
      push_cast
      linarith
    · intro hodd
      exact absurd hodd (by decide)
  have hbits : (q - 1 + 1074).toNat * 2 ^ 52 + 2 ^ 53 = (q + 1074).toNat * 2 ^ 52 + 2 ^ 52 := by
    omega
  rw [← hbits]
  exact bitsOfRatio_of_exponent hnum (by omega) hmantissa (by omega)

/-- **A quotient in the interval of a double is rounded to the bits of that double.** -/
theorem bitsOfRatio_eq {num den m : Nat} {q : Int} (hden : 0 < den) (hm : Regular m q)
    (h : RoundsTo (num / den) m q) :
    bitsOfRatio num den = (q + 1074).toNat * 2 ^ 52 + m := by
  have hunit : (0 : ℚ) < 2 ^ q := by positivity
  have hone : (1 : ℚ) ≤ m := by exact_mod_cast hm.pos
  have htop : (m : ℚ) ≤ 2 ^ 53 - 1 := by
    have hlt := hm.lt
    have hcast : (m : ℚ) + 1 ≤ 2 ^ 53 := by exact_mod_cast hlt
    linarith
  obtain ⟨-, hgap⟩ := half_le_gapBelow m q
  have hnum : 0 < num := by
    have hpos : (0 : ℚ) < num / den :=
      lt_of_lt_of_le (mul_pos (by linarith) hunit) h.low
    rw [Nat.pos_iff_ne_zero]
    rintro rfl
    simp at hpos
  obtain ⟨hleading, -⟩ := leadingExponent_bounds hnum hden
  by_cases hlarge : (2 : ℚ) ^ (q + 52) ≤ num / den
  · -- the quotient has the exponent of the double
    have hless : (num : ℚ) / den < 2 ^ (q + 53) := by
      have h53 := two_zpow_add q 53
      push_cast at h53
      rw [h53]
      calc (num : ℚ) / den ≤ (m + 1 / 2) * 2 ^ q := h.high
        _ < 2 ^ 53 * 2 ^ q := mul_lt_mul_of_pos_right (by linarith) hunit
    have hexponent := eq_leadingExponent hnum hden hlarge hless
    have hleast := hm.least
    exact bitsOfRatio_of_max hnum hden hm h (by omega)
  · have hsmall : (num : ℚ) / den < 2 ^ (q + 52) := not_le.mp hlarge
    have hbelow : leadingExponent num den < q := by
      have hlt := (zpow_lt_zpow_iff_right₀ (one_lt_two (α := ℚ))).mp (hleading.trans_lt hsmall)
      omega
    by_cases hq : q = -1074
    · exact bitsOfRatio_of_max hnum hden hm h (by omega)
    · -- the double is a power of two, and the quotient lies just below it
      have h52 := two_zpow_add q 52
      push_cast at h52
      rw [h52] at hsmall
      have hm52 : m = 2 ^ 52 := by
        have hnormal : 2 ^ 52 ≤ m := hm.normal.resolve_right hq
        have hbetween : ((m : ℚ) - 1 / 2) * 2 ^ q < 2 ^ 52 * 2 ^ q :=
          lt_of_le_of_lt (mul_le_mul_of_nonneg_right (by linarith) hunit.le)
            (h.low.trans_lt hsmall)
        have hlt : (m : ℚ) < 2 ^ 52 + 1 := by
          have hcancel := lt_of_mul_lt_mul_right hbetween hunit.le
          linarith
        have hnat : m < 2 ^ 52 + 1 := by exact_mod_cast hlt
        omega
      have hlow : ((2 : ℚ) ^ 52 - 1 / 4) * 2 ^ q ≤ num / den := by
        have hquarter : gapBelow m q = 1 / 4 := if_pos ⟨hm52, hq⟩
        have hlow := h.low
        rw [hquarter, hm52] at hlow
        exact_mod_cast hlow
      have hhalf : (2 : ℚ) ^ q = 2 * 2 ^ (q - 1) := by
        rw [zpow_sub_one₀ two_ne_zero]
        ring
      rw [hhalf] at hlow hsmall
      rw [hm52]
      have hleast := hm.least
      exact bitsOfRatio_below_power hnum hden (by omega) hm.greatest (by linarith) (by linarith)

/-! ## Section 6: Doubles -/

/-- Zero, or a regular mantissa and exponent. -/
theorem regular_of_parts {x : Float} {p : Parts} (h : parts x = some p) :
    (p.mantissa = 0 ∧ p.exponent = -1074) ∨ Regular p.mantissa p.exponent := by
  unfold parts at h
  dsimp only at h
  have hbiased : x.toBits.toNat / Nat.pow 2 52 % 2048 < 2048 := Nat.mod_lt _ (by decide)
  have hfraction : x.toBits.toNat % Nat.pow 2 52 < 2 ^ 52 := Nat.mod_lt _ (by decide)
  generalize x.toBits.toNat / Nat.pow 2 52 % 2048 = biased at h hbiased
  generalize x.toBits.toNat % Nat.pow 2 52 = fraction at h hfraction
  split at h
  · cases h
  · split at h
    -- below the least normal double the leading bit is no longer implied
    · cases h
      dsimp only
      by_cases hzero : fraction = 0
      · exact .inl ⟨hzero, rfl⟩
      · exact .inr ⟨by omega, by omega, by omega, by omega, .inr rfl⟩
    · cases h
      have hone : Nat.pow 2 52 = 2 ^ 52 := rfl
      dsimp only
      rw [hone]
      exact .inr ⟨by omega, by omega, by omega, by omega, .inl (by omega)⟩

/-- **The bits of a finite double** are its exponent and its mantissa, and its sign on top. -/
theorem bits_of_parts {x : Float} {p : Parts} (h : parts x = some p) :
    x.toBits.toNat = (p.exponent + 1074).toNat * 2 ^ 52 + p.mantissa +
      if p.negative then Nat.pow 2 63 else 0 := by
  unfold parts at h
  dsimp only at h
  have hbits : x.toBits.toNat < 2 ^ 64 := x.toBits.toNat_lt
  generalize x.toBits.toNat = bits at h hbits
  have h52 : Nat.pow 2 52 = 4503599627370496 := by decide
  have h63 : Nat.pow 2 63 = 9223372036854775808 := by decide
  rw [h52, h63] at h
  rw [h63]
  -- the sign is the bit above those of the exponent, which are taken modulo 2048
  split at h
  · cases h
  · split at h
    · cases h
      dsimp only
      split
      · next hneg =>
        rw [decide_eq_true_eq] at hneg
        omega
      · next hpos =>
        rw [decide_eq_true_eq] at hpos
        omega
    · cases h
      dsimp only
      split
      · next hneg =>
        rw [decide_eq_true_eq] at hneg
        omega
      · next hpos =>
        rw [decide_eq_true_eq] at hpos
        omega

/-- What is rounded to the bits of a double is rounded to it. -/
theorem ofRatio_of_bits {x : Float} {p : Parts} (h : parts x = some p) {num den : Nat}
    (hbits : bitsOfRatio num den = (p.exponent + 1074).toNat * 2 ^ 52 + p.mantissa) :
    ofRatio p.negative num den = x := by
  rw [ofRatio, hbits, ← bits_of_parts h, UInt64.ofNat_toNat]
  exact Float.ofBits_toBits x

/-- **A quotient in the interval of a finite double is rounded to it.** -/
theorem ofRatio_eq {x : Float} {p : Parts} (h : parts x = some p) {num den : Nat} (hden : 0 < den)
    (hm : 0 < p.mantissa) (hrounds : RoundsTo (num / den) p.mantissa p.exponent) :
    ofRatio p.negative num den = x := by
  rcases regular_of_parts h with ⟨hzero, -⟩ | hregular
  · omega
  · exact ofRatio_of_bits h (bitsOfRatio_eq hden hregular hrounds)

/-- A zero of either sign is what zero is rounded to under that sign. -/
theorem ofRatio_zero {x : Float} {p : Parts} (h : parts x = some p) (hm : p.mantissa = 0)
    (den : Nat) : ofRatio p.negative 0 den = x := by
  refine ofRatio_of_bits h ?_
  rcases regular_of_parts h with ⟨hzero, hleast⟩ | hregular
  · rw [hzero, hleast]
    rfl
  · exact absurd hm (Nat.pos_iff_ne_zero.mp hregular.pos)

/-! ## Section 7: What is not finite -/

theorem toNat_unpackExponent (b : BitVec Float.Model.Format.binary64.numBits) :
    (Float.Model.UnpackedFloat.unpackExponent b).toNat = b.toNat / 2 ^ 52 % 2048 := by
  show (BitVec.cast _ (BitVec.extractLsb 62 52 b)).toNat = _
  rw [BitVec.toNat_cast, BitVec.extractLsb_toNat, Nat.shiftRight_eq_div_pow]

theorem toNat_unpackMantissa (b : BitVec Float.Model.Format.binary64.numBits) :
    (Float.Model.UnpackedFloat.unpackMantissa b).toNat = b.toNat % 2 ^ 52 := by
  show (BitVec.cast _ (BitVec.extractLsb 51 0 b)).toNat = _
  rw [BitVec.toNat_cast, BitVec.extractLsb_toNat, Nat.shiftRight_zero]

/-- **A double that is not finite is one of three**: there is only one pattern of bits for what is
    not a number. -/
theorem eq_of_parts_none {x : Float} (h : parts x = none) :
    x = 0.0 / 0.0 ∨ x = 1.0 / 0.0 ∨ x = -1.0 / 0.0 := by
  have hbiased : x.toBits.toNat / 2 ^ 52 % 2048 = 2047 := by
    unfold parts at h
    dsimp only at h
    split at h
    · assumption
    · split at h <;> cases h
  have hbits : x.toBits.toNat < 2 ^ 64 := x.toBits.toNat_lt
  by_cases hfraction : x.toBits.toNat % 2 ^ 52 = 0
  · right
    by_cases hneg : 2 ^ 63 ≤ x.toBits.toNat
    · right
      have heq : x.toBits.toNat = 0xFFF0000000000000 := by omega
      rw [← Float.toBits_inj, ← UInt64.toNat_inj, heq]
      decide
    · left
      have heq : x.toBits.toNat = 0x7FF0000000000000 := by omega
      rw [← Float.toBits_inj, ← UInt64.toNat_inj, heq]
      decide
  · left
    have hpattern : x.toModel.toBits.toBitVec =
        Float.Model.UnpackedFloat.packedNaN Float.Model.Format.binary64 := by
      apply x.toModel.valid.eq_packedNaN
      · apply BitVec.eq_of_toNat_eq
        exact (toNat_unpackExponent _).trans hbiased
      · intro hzero
        exact hfraction ((toNat_unpackMantissa _).symm.trans (congrArg BitVec.toNat hzero))
    rw [← Float.toBits_inj, ← UInt64.toBitVec_inj]
    show x.toModel.toBits.toBitVec = _
    rw [hpattern]
    decide

end Binary64

end EventCheck
