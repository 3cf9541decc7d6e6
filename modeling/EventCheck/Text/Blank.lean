/-! # Blanks and decimal digits

    - `Blank.holds` is the set of blanks of Unicode 14 with the separators of
      ASCII, `Blank.ascii` its six members that every locale has.
    - `decimalDigit?` is the value of a decimal digit of any script.
    - `Numeral.int?` reads a whole number as people write it: blanks around it,
      a sign, and single underscores between digits.
-/

namespace EventCheck

namespace Blank

/-- Tab to carriage return, and the space. -/
def ascii (c : Char) : Bool := (9 ≤ c.toNat && c.toNat ≤ 13) || c == ' '

/-- Is the character a blank? -/
def holds (c : Char) : Bool :=
  let n := c.toNat
  ascii c || (28 ≤ n && n ≤ 31) || n == 0x85 || n == 0xA0 || n == 0x1680
    || (0x2000 ≤ n && n ≤ 0x200A) || n == 0x2028 || n == 0x2029 || n == 0x202F || n == 0x205F
    || n == 0x3000

/-- The characters without those of a set at either end. -/
def trim (blank : Char → Bool) (cs : List Char) : List Char :=
  ((cs.dropWhile blank).reverse.dropWhile blank).reverse

end Blank

/-- The zeros of the scripts; the nine other digits of a script follow its zero. -/
def decimalZeros : List Nat := [
    48, 1632, 1776, 1984, 2406, 2534, 2662, 2790, 2918, 3046, 3174, 3302, 3430, 3558, 3664, 3792,
    3872, 4160, 4240, 6112, 6160, 6470, 6608, 6784, 6800, 6992, 7088, 7232, 7248, 42528, 43216,
    43264, 43472, 43504, 43600, 44016, 65296, 66720, 68912, 69734, 69872, 69942, 70096, 70384,
    70736, 70864, 71248, 71360, 71472, 71904, 72016, 72784, 73040, 73120, 92768, 92864, 93008,
    120782, 120792, 120802, 120812, 120822, 123200, 123632, 125264, 130032]

/-- The value of a decimal digit. -/
def decimalDigit? (c : Char) : Option Nat :=
  (decimalZeros.find? fun first => first ≤ c.toNat && c.toNat < first + 10).map (c.toNat - ·)

namespace Numeral

/-- The number that digits write after `n`, with single underscores between them. -/
def digits? (n : Nat) : List Char → Option Nat
  | [] => some n
  | '_' :: c :: rest => (decimalDigit? c).bind fun d => digits? (n * 10 + d) rest
  | c :: rest => (decimalDigit? c).bind fun d => digits? (n * 10 + d) rest

/-- The greatest number of digits. -/
def maxDigits : Nat := 4300

/-- A whole number without a sign: at least one digit, and a digit first. -/
def nat? (cs : List Char) : Option Nat :=
  match cs with
  | [] => none
  | '_' :: _ => none
  | _ => if maxDigits < (cs.filter (· != '_')).length then none else digits? 0 cs

/-- The blanks around a number: of ASCII only the six, not the separators. -/
def isBlank (c : Char) : Bool := Blank.ascii c || (0x80 ≤ c.toNat && Blank.holds c)

/-- A whole number as people write it. -/
def int? (s : String) : Option Int :=
  match Blank.trim isBlank s.toList with
  | '-' :: rest => (nat? rest).map fun n => -(n : Int)
  | '+' :: rest => (nat? rest).map Int.ofNat
  | rest => (nat? rest).map Int.ofNat

end Numeral

end EventCheck
