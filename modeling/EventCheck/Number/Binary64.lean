/-! # Exact values of doubles

    A finite double is a whole number times a power of two, and a quotient of
    whole numbers becomes a double by one rounding.

    - `Binary64.parts` takes a finite double apart.
    - `Binary64.ofRatio` rounds a quotient to the nearest double, ties to even,
      with gradual underflow and overflow to infinity.
    - `Binary64.ofDecimal` does so for a decimal number.
-/

namespace EventCheck

/-- The whole number nearest to `num / den`; a quotient half-way between two goes to the even
    one. -/
def roundHalfEven (num den : Nat) : Nat :=
  let floor := num / den
  let twice := 2 * (num % den)
  if twice < den then floor
  else if den < twice then floor + 1
  else floor + floor % 2

namespace Binary64

/-- A finite double: its sign, and a whole number and an exponent of two for its size. -/
structure Parts where
  negative : Bool
  mantissa : Nat
  exponent : Int
  deriving DecidableEq, Repr

/-- The parts of a double, or none for an infinity or a value that is not a number. -/
def parts (x : Float) : Option Parts :=
  let bits := x.toBits.toNat
  let negative := decide (Nat.pow 2 63 ≤ bits)
  let biased : Nat := bits / Nat.pow 2 52 % 2048
  let fraction : Nat := bits % Nat.pow 2 52
  if biased = 2047 then none
  else if biased = 0 then some ⟨negative, fraction, -1074⟩
  else some ⟨negative, Nat.pow 2 52 + fraction, (biased : Int) - 1075⟩

/-- The quotient `num / den * 2 ^ exponent` as a quotient of two whole numbers. -/
def scale (num den : Nat) (exponent : Int) : Nat × Nat :=
  if 0 ≤ exponent then (num * Nat.pow 2 exponent.toNat, den)
  else (num, den * Nat.pow 2 (-exponent).toNat)

/-- The pattern of bits of the double nearest to `num / den`. -/
def bitsOfRatio (num den : Nat) : Nat :=
  if num = 0 then 0
  else
    let guess : Int := (num.log2 : Int) - (den.log2 : Int) - 52
    let (n, d) := scale num den (-guess)
    let exponent := max (if n < Nat.pow 2 52 * d then guess - 1 else guess) (-1074)
    let (n, d) := scale num den (-exponent)
    let mantissa := roundHalfEven n d
    let biased := (exponent + 1074).toNat
    -- the leading bit of a normal mantissa carries into the exponent
    let bits := biased * Nat.pow 2 52 + mantissa
    if 2047 * Nat.pow 2 52 ≤ bits then 2047 * Nat.pow 2 52 else bits

/-- The double nearest to `num / den`, ties to even. -/
def ofRatio (negative : Bool) (num den : Nat) : Float :=
  Float.ofBits (UInt64.ofNat (bitsOfRatio num den + if negative then Nat.pow 2 63 else 0))

/-- How many decimal digits a whole number has. -/
def digitCount (n : Nat) : Nat := (Nat.toDigits 10 n).length

/-- The double nearest to `digits * 10 ^ exponent`. Sizes far outside the range of doubles are
    settled without computing the power. -/
def ofDecimal (negative : Bool) (digits : Nat) (exponent : Int) : Float :=
  let size := (digitCount digits : Int) + exponent
  if digits = 0 || size < -400 then ofRatio negative 0 1
  else if 400 < size then ofRatio negative (Nat.pow 2 1024) 1
  else if 0 ≤ exponent then ofRatio negative (digits * Nat.pow 10 exponent.toNat) 1
  else ofRatio negative digits (Nat.pow 10 (-exponent).toNat)

/-- The double nearest to a whole number. -/
def ofInt (n : Int) : Float :=
  ofRatio (decide (n < 0)) n.natAbs 1

end Binary64

end EventCheck
