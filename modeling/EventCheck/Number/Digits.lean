import EventCheck.Number.Binary64

/-! # Numbers in decimal notation

    `Digits.float?` reads a number without its sign: digits with at most one point,
    at least one of them, and an exponent if there is one.
-/

namespace EventCheck

namespace Digits

/-- The digits at the front of a text, and the rest. -/
def front (cs : List Char) : List Nat × List Char :=
  ((cs.takeWhile Char.isDigit).map fun c => c.toNat - 48, cs.dropWhile Char.isDigit)

def value (ds : List Nat) : Nat := ds.foldl (fun n d => n * 10 + d) 0

/-- The sign in front of a number, true for a minus, and the rest. -/
def sign : List Char → Bool × List Char
  | '-' :: rest => (true, rest)
  | '+' :: rest => (false, rest)
  | rest => (false, rest)

/-- A whole number with a sign. -/
def signed (negative : Bool) (n : Nat) : Int := if negative then -(n : Int) else n

/-- The value of an exponent, or of none. -/
def exponent? : List Char → Option Int
  | [] => some 0
  | e :: rest =>
    if e == 'e' || e == 'E' then
      let (negative, rest) := sign rest
      match front rest with
      | ([], _) => none
      | (ds, []) => some (signed negative (value ds))
      | _ => none
    else none

/-- A number in decimal notation: digits on at least one side of the point. -/
def float? (negative : Bool) (cs : List Char) : Option Float :=
  let (whole, rest) := front cs
  let (places, rest) :=
    match rest with
    | '.' :: rest => front rest
    | rest => ([], rest)
  if whole.isEmpty && places.isEmpty then none
  else
    (exponent? rest).map fun exponent =>
      Binary64.ofDecimal negative (value (whole ++ places)) (exponent - places.length)

/-- The number without size that has this sign. -/
def infinity (negative : Bool) : Float := Binary64.ofRatio negative (Nat.pow 2 1024) 1

end Digits

end EventCheck
