/-! # A place in a text

    A `Cursor` is what is left of a text, with the line and the column where that
    begins. A line ends with a line feed, a next line, or a line or paragraph
    separator.
-/

namespace EventCheck

namespace Yaml

/-- Does the character end a line? -/
def isBreak (c : Char) : Bool :=
  c == '\n' || c == '\r' || c == '\u0085' || c == '\u2028' || c == '\u2029'

/-- Does the character end a line, or is it a space or a tab? -/
def isGap (c : Char) : Bool := isBreak c || c == ' ' || c == '\t'

/-- May the character stand in a text? -/
def isPrintable (c : Char) : Bool :=
  let n := c.toNat
  n == 9 || n == 10 || n == 13 || (0x20 ≤ n && n ≤ 0x7E) || n == 0x85 || (0xA0 ≤ n && n ≤ 0xD7FF)
    || (0xE000 ≤ n && n ≤ 0xFFFD) || 0x10000 ≤ n

/-- What is left of a text, how many characters lie before it, and on which line and in which
    column it begins. -/
structure Cursor where
  rest : List Char
  index : Nat
  line : Nat
  column : Nat

namespace Cursor

def start (text : List Char) : Cursor := ⟨text, 0, 0, 0⟩

def atEnd (c : Cursor) : Bool := c.rest.isEmpty

/-- The character some places on, if the text goes on so far. -/
def peek? (c : Cursor) (ahead : Nat) : Option Char := (c.rest.drop ahead).head?

/-- Is the character some places on of this sort? The end of the text counts as such. -/
def endsAt (c : Cursor) (ahead : Nat) (sort : Char → Bool) : Bool :=
  match c.peek? ahead with
  | none => true
  | some ch => sort ch

/-- Is this the next character? -/
def isAt (c : Cursor) (ch : Char) : Bool := c.peek? 0 == some ch

/-- The place behind some characters of the same line. -/
def forward (c : Cursor) (count : Nat) : Cursor :=
  let passed := c.rest.take count
  ⟨c.rest.drop count, c.index + passed.length, c.line,
    c.column + (passed.filter (· != '\ufeff')).length⟩

/-- The characters of a sort that come next, on this line, and the place behind them. -/
def takeWhile (c : Cursor) (sort : Char → Bool) : List Char × Cursor :=
  let taken := c.rest.takeWhile sort
  (taken, c.forward taken.length)

def skipWhile (c : Cursor) (sort : Char → Bool) : Cursor := (c.takeWhile sort).2

/-- The break that comes next, as it is read, and the place behind it. -/
def break? (c : Cursor) : Option (Char × Cursor) :=
  match c.rest with
  | '\r' :: '\n' :: rest => some ('\n', ⟨rest, c.index + 2, c.line + 1, 0⟩)
  | ch :: rest =>
    if isBreak ch then
      let read := if ch == '\u2028' || ch == '\u2029' then ch else '\n'
      some (read, ⟨rest, c.index + 1, c.line + 1, 0⟩)
    else none
  | [] => none

/-- Is there a line here that separates documents? -/
def isSeparator (c : Cursor) : Bool :=
  let mark := c.rest.take 3
  (mark == ['-', '-', '-'] || mark == ['.', '.', '.']) && c.endsAt 3 isGap

end Cursor

end Yaml

end EventCheck
