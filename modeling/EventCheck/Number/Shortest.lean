import EventCheck.Number.Binary64

/-! # The shortest text of a double

    Of all decimal numbers that read back as a given double, the text shows one
    with the fewest digits and, of those, the nearest.

    - `Shortest.digits` finds it by exact arithmetic: for one, two, ... digits
      it tests the two neighbours of the value on that decimal grid.
    - `Shortest.text` writes it: positional from four zeros after the point up
      to sixteen digits before it, with a power of ten beyond.
    - `Fixed.text` and `Fixed.round` keep a given number of places instead.
-/

namespace EventCheck

namespace Shortest

/-- A decimal number: its digits as a whole number and a power of ten. -/
structure Decimal where
  digits : Nat
  exponent : Int
  deriving DecidableEq, Repr

/-- A quotient together with the interval of quotients that round to it, all over one
    denominator. The ends belong to the interval where `closed` says so. -/
structure Target where
  value : Nat
  low : Nat
  high : Nat
  den : Nat
  closed : Bool

/-- The interval that rounds to `mantissa * 2 ^ exponent`. Below a power of two the next double is
    only half as far away. -/
def Target.of (mantissa : Nat) (exponent : Int) : Target :=
  let belowGap := if mantissa = Nat.pow 2 52 && exponent ≠ -1074 then 1 else 2
  let grow := fun n => (Binary64.scale n 1 (exponent - 2)).1
  { value := grow (4 * mantissa)
    low := grow (4 * mantissa - belowGap)
    high := grow (4 * mantissa + 2)
    den := (Binary64.scale 1 1 (exponent - 2)).2
    closed := mantissa % 2 = 0 }

/-- Does `count * unitNum / unitDen` round to the target? -/
def Target.holds (t : Target) (count unitNum unitDen : Nat) : Bool :=
  let point := count * unitNum * t.den
  let low := t.low * unitDen
  let high := t.high * unitDen
  if t.closed then low ≤ point && point ≤ high else low < point && point < high

/-- The least power of ten above the target's value. -/
def Target.magnitude (t : Target) : Int :=
  if t.den ≤ t.value then Binary64.digitCount (t.value / t.den)
  else
    let n := Binary64.digitCount (t.den / t.value)
    if t.den = t.value * Nat.pow 10 (n - 1) then 2 - (n : Int) else 1 - (n : Int)

/-- The nearest number of at most `count` digits that rounds to the target. -/
def Target.withDigits? (t : Target) (count : Nat) : Option Decimal :=
  let exponent := t.magnitude - count
  let unitNum := if 0 ≤ exponent then Nat.pow 10 exponent.toNat else 1
  let unitDen := if 0 ≤ exponent then 1 else Nat.pow 10 (-exponent).toNat
  let below := t.value * unitDen / (t.den * unitNum)
  let above := below + 1
  match t.holds below unitNum unitDen, t.holds above unitNum unitDen with
  | true, false => some ⟨below, exponent⟩
  | false, true => some ⟨above, exponent⟩
  | true, true => some ⟨roundHalfEven (t.value * unitDen) (t.den * unitNum), exponent⟩
  | false, false => none

/-- Moves zeros at the end of the digits into the exponent. -/
def Decimal.trim (d : Decimal) : Decimal :=
  let zeros := ((Nat.toDigits 10 d.digits).reverse.takeWhile (· == '0')).length
  ⟨d.digits / Nat.pow 10 zeros, d.exponent + zeros⟩

/-- The decimal number that is shown for `mantissa * 2 ^ exponent`. Seventeen digits always
    suffice. -/
def digits (mantissa : Nat) (exponent : Int) : Decimal :=
  let t := Target.of mantissa exponent
  match (List.range 17).findSome? fun n => t.withDigits? (n + 1) with
  | some d => d.trim
  | none => ⟨mantissa, exponent⟩

/-- Sizes of the exponent of ten, that of the first digit, which are written positionally. -/
def positional (exponent : Int) : Bool := -4 ≤ exponent && exponent < 16

/-- A decimal number, positional or with an exponent of at least two digits. -/
def Decimal.text (d : Decimal) : String :=
  let ds := Nat.toDigits 10 d.digits
  let point : Int := ds.length + d.exponent
  if positional (point - 1) then
    if point ≤ 0 then
      "0." ++ String.ofList (List.replicate (-point).toNat '0' ++ ds)
    else
      let whole := ds.take point.toNat ++ List.replicate (point.toNat - ds.length) '0'
      let rest := ds.drop point.toNat
      String.ofList whole ++ "." ++ (if rest.isEmpty then "0" else String.ofList rest)
  else
    let lead := String.ofList (ds.take 1)
    let tail := String.ofList (ds.drop 1)
    let power := point - 1
    let size := toString power.natAbs
    lead ++ (if tail.isEmpty then "" else "." ++ tail) ++ "e" ++ (if power < 0 then "-" else "+")
      ++ (if power.natAbs < 10 then "0" ++ size else size)

/-- How the values that are not finite are spelt. -/
structure Spelling where
  infinity : String
  notNumber : String

/-- The text of a double. -/
def text (spelling : Spelling) (x : Float) : String :=
  match Binary64.parts x with
  | none =>
    if x.isNaN then spelling.notNumber
    else if x < 0 then "-" ++ spelling.infinity else spelling.infinity
  | some p =>
    (if p.negative then "-" else "")
      ++ (if p.mantissa = 0 then "0.0" else (digits p.mantissa p.exponent).text)

end Shortest

namespace Fixed

/-- The size of a double in units of `10 ^ -places`, to the nearest unit, ties to even. -/
def units (places : Nat) (p : Binary64.Parts) : Nat :=
  let (num, den) := Binary64.scale (p.mantissa * Nat.pow 10 places) 1 p.exponent
  roundHalfEven num den

/-- A double with a fixed number of places after the point. -/
def text (places : Nat) (x : Float) : String :=
  match Binary64.parts x with
  | none => if x.isNaN then "nan" else if x < 0 then "-inf" else "inf"
  | some p =>
    let ds := Nat.toDigits 10 (units places p)
    let ds := List.replicate (places + 1 - ds.length) '0' ++ ds
    (if p.negative then "-" else "") ++ String.ofList (ds.take (ds.length - places)) ++ "."
      ++ String.ofList (ds.drop (ds.length - places))

/-- A double rounded to a fixed number of places. -/
def round (places : Nat) (x : Float) : Float :=
  match Binary64.parts x with
  | none => x
  | some p => Binary64.ofRatio p.negative (units places p) (Nat.pow 10 places)

end Fixed

end EventCheck
