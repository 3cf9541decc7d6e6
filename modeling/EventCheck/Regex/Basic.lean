import EventCheck.Text.Blank
import EventCheck.Text.Case

/-! # Regular expressions

    A `Regex` is what a written expression means. Classes of characters and
    letter case follow Unicode unless the expression asks for ASCII alone.

    - `CharTest` decides on one character, `Edge` on a place between two.
    - A `repeated` expression is tried as often as possible, as seldom as
      possible, or as often as possible with no way back.
-/

namespace EventCheck

namespace Regex

/-! ## Letter case -/

/-- How letters of either case are compared. -/
inductive Fold where
  | exact | ascii | unicode
  deriving DecidableEq, Repr

/-- Small letters that count as equal although neither is the capital of the other. -/
def kin : List (List Nat) := [
    [0x69, 0x131], [0x73, 0x17f], [0xb5, 0x3bc], [0x345, 0x3b9, 0x1fbe], [0x390, 0x1fd3],
    [0x3b0, 0x1fe3], [0x3b2, 0x3d0], [0x3b5, 0x3f5], [0x3b8, 0x3d1], [0x3ba, 0x3f0],
    [0x3c0, 0x3d6], [0x3c1, 0x3f1], [0x3c2, 0x3c3], [0x3c6, 0x3d5], [0x432, 0x1c80],
    [0x434, 0x1c81], [0x43e, 0x1c82], [0x441, 0x1c83], [0x442, 0x1c84, 0x1c85], [0x44a, 0x1c86],
    [0x463, 0x1c87], [0x1c88, 0xa64b], [0x1e61, 0x1e9b], [0xfb05, 0xfb06]]

/-- The small letter of a character, one character for each. -/
def Fold.lower (fold : Fold) (c : Char) : Char :=
  match fold with
  | .exact => c
  | .ascii => c.toLower
  | .unicode => if c == '\u0130' then 'i' else Case.lowerChar c

/-- The characters above ASCII whose small letter has this code. -/
def capitalsOf (small : Nat) : List Nat :=
  Case.capitals.filterMap fun (first, last, step, shift) =>
    let n := (small : Int) - shift
    if (first : Int) ≤ n && n ≤ last && (n.toNat - first) % step == 0 then some n.toNat else none

/-- The codes of all characters with this small letter. -/
def spellings (fold : Fold) (small : Nat) : List Nat :=
  let capital := if 97 ≤ small && small ≤ 122 then [small - 32] else []
  match fold with
  | .exact => [small]
  | .ascii => small :: capital
  | .unicode => small :: capital ++ (if small = 0x69 then [0x130] else []) ++ capitalsOf small

/-- The codes of all characters that count as equal to a character. -/
def variants (fold : Fold) (c : Char) : List Nat :=
  match fold with
  | .exact => [c.toNat]
  | .ascii => spellings .ascii c.toLower.toNat
  | .unicode =>
    let small := (Fold.lower .unicode c).toNat
    match kin.find? (·.contains small) with
    | none => spellings .unicode small
    | some family => family.flatMap (spellings .unicode)

/-! ## Characters -/

inductive Class where
  | digit | space | word
  deriving DecidableEq, Repr

/-- Is the character in the class? -/
def Class.holds (asciiOnly : Bool) (c : Char) : Class → Bool
  | .digit => if asciiOnly then c.isDigit else (decimalDigit? c).isSome
  | .space => if asciiOnly then Blank.ascii c else Blank.holds c
  | .word => if asciiOnly then c.isAlphanum || c == '_' else Word.holds c

/-- A part of a set of characters. The ends of a range are codes. -/
inductive Member where
  | range (first last : Nat)
  | cls (cls : Class) (negated : Bool)
  deriving DecidableEq, Repr

/-- A test of one character. -/
structure CharTest where
  negated : Bool
  members : List Member
  fold : Fold
  asciiOnly : Bool
  deriving DecidableEq, Repr

/-- Is the character in a part of a set? -/
def CharTest.isIn (t : CharTest) (c : Char) : Member → Bool
  | .range first last => (variants t.fold c).any fun n => first ≤ n && n ≤ last
  | .cls cls negated => cls.holds t.asciiOnly c != negated

def CharTest.accepts (t : CharTest) (c : Char) : Bool := t.members.any (t.isIn c) != t.negated

/-! ## Places -/

/-- A condition on a place in the text. -/
inductive Edge where
  | textStart | textEnd
  | lineStart | lineEnd
  | lastLineEnd
  | wordEdge (asciiOnly negated : Bool)
  deriving DecidableEq, Repr

inductive Greed where
  | greedy | lazy | possessive
  deriving DecidableEq, Repr

end Regex

/-- A regular expression. -/
inductive Regex where
  | empty
  | char (test : Regex.CharTest)
  | edge (edge : Regex.Edge)
  | seq (a b : Regex)
  | either (a b : Regex)
  | group (number : Nat) (body : Regex)
  | repeated (low : Nat) (high : Option Nat) (greed : Regex.Greed) (body : Regex)
  | atomic (body : Regex)
  | ahead (wanted : Bool) (body : Regex)
  | behind (wanted : Bool) (width : Nat) (body : Regex)
  | again (number : Nat) (fold : Regex.Fold)
  | ifGroup (number : Nat) (yes no : Regex)
  deriving Inhabited

namespace Regex

/-! ## Width -/

/-- The least and the greatest number of characters that an expression takes, given those of the
    groups. A number without a bound is `unbounded`. -/
def unbounded : Nat := Nat.pow 2 64

def width (groups : Nat → Nat × Nat) : Regex → Nat × Nat
  | .empty | .edge _ | .ahead _ _ | .behind _ _ _ => (0, 0)
  | .char _ => (1, 1)
  | .seq a b =>
    let (al, ah) := a.width groups
    let (bl, bh) := b.width groups
    (min (al + bl) unbounded, min (ah + bh) unbounded)
  | .either a b =>
    let (al, ah) := a.width groups
    let (bl, bh) := b.width groups
    (min al bl, max ah bh)
  | .group _ body | .atomic body => body.width groups
  | .repeated low high _ body =>
    let (l, h) := body.width groups
    (min (l * low) unbounded,
      match high with
      | none => if h = 0 then 0 else unbounded
      | some n => min (h * n) unbounded)
  | .again number _ => groups number
  | .ifGroup _ yes no =>
    let (yl, yh) := yes.width groups
    let (nl, nh) := no.width groups
    (min yl nl, max yh nh)

/-- How many parts an expression has, a repeated part as often as it has to be there. -/
def weight : Regex → Nat
  | .empty | .char _ | .edge _ | .again _ _ => 1
  | .seq a b | .either a b | .ifGroup _ a b => 1 + a.weight + b.weight
  | .group _ body | .atomic body | .ahead _ body | .behind _ _ body => 1 + body.weight
  | .repeated low _ _ body => 1 + low + body.weight

end Regex

end EventCheck
