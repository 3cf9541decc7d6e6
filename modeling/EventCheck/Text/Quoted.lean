import EventCheck.Text.Printable

/-! # Quoted texts

    How a text, or a string of bytes, is shown inside a message.

    - Single quotes stand around it, or double quotes if it holds single quotes
      and no double ones.
    - A backslash and the quote itself have a backslash before them; characters
      that are not printable are written by their number.
-/

namespace EventCheck

namespace Quoted

/-- The lower-case hexadecimal digits of a number, with zeros up to a width. -/
def hex (width n : Nat) : List Char :=
  let ds := Nat.toDigits 16 n
  List.replicate (width - ds.length) '0' ++ ds

/-- The quote for a text. -/
def quoteFor (cs : List Char) : Char :=
  if cs.contains '\'' && !cs.contains '"' then '"' else '\''

/-- A character that is not printable, by its number. -/
def escape (n : Nat) : List Char :=
  if n < 0x100 then '\\' :: 'x' :: hex 2 n
  else if n < 0x10000 then '\\' :: 'u' :: hex 4 n
  else '\\' :: 'U' :: hex 8 n

/-- One character of a quoted text. -/
def char (quote c : Char) : List Char :=
  if c == quote || c == '\\' then ['\\', c]
  else if c == '\t' then ['\\', 't']
  else if c == '\n' then ['\\', 'n']
  else if c == '\r' then ['\\', 'r']
  else if Printable.holds c then [c]
  else escape c.toNat

/-- A text in quotes. -/
def text (s : String) : String :=
  let cs := s.toList
  let quote := quoteFor cs
  String.ofList (quote :: cs.flatMap (char quote) ++ [quote])

/-- One byte of a quoted string of bytes: above ASCII by its number. -/
def byte (quote : Char) (b : UInt8) : List Char :=
  if b < 0x80 then char quote (Char.ofNat b.toNat) else escape b.toNat

/-- A string of bytes in quotes, with the letter that marks it. -/
def bytes (bs : List UInt8) : String :=
  let quote := quoteFor (bs.map fun b => Char.ofNat b.toNat)
  String.ofList ('b' :: quote :: bs.flatMap (byte quote) ++ [quote])

end Quoted

end EventCheck
