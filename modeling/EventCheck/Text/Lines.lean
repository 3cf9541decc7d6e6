/-! # Lines

    - `Lines.unify` writes every end of a line as a line feed, as text files are
      read.
    - `Lines.split` cuts a text behind each line feed; `Lines.splitAll` also
      behind the other characters that end a line in Unicode.
-/

namespace EventCheck

namespace Lines

/-- The text with a line feed for each carriage return, alone or with the line feed behind it. -/
def unifyChars : List Char → List Char
  | '\r' :: '\n' :: rest => '\n' :: unifyChars rest
  | '\r' :: rest => '\n' :: unifyChars rest
  | c :: rest => c :: unifyChars rest
  | [] => []

def unify (s : String) : String := String.ofList (unifyChars s.toList)

/-- The characters, other than a carriage return, that end a line. -/
def isEnd (c : Char) : Bool :=
  c == '\n' || c == '\x0b' || c == '\x0c' || c == '\x1c' || c == '\x1d' || c == '\x1e'
    || c == '\u0085' || c == '\u2028' || c == '\u2029'

/-- Puts a character in front of the first line. -/
def extend (c : Char) : List (List Char) → List (List Char)
  | [] => [[c]]
  | line :: rest => (c :: line) :: rest

/-- The lines of a text with their ends, where `ends` says which characters end a line; a carriage
    return does so if `returns` holds, together with a line feed behind it. -/
def splitChars (ends : Char → Bool) (returns : Bool) : List Char → List (List Char)
  | [] => []
  | '\r' :: '\n' :: rest =>
    if returns then ['\r', '\n'] :: splitChars ends returns rest
    else extend '\r' (['\n'] :: splitChars ends returns rest)
  | c :: rest =>
    if ends c || (returns && c == '\r') then [c] :: splitChars ends returns rest
    else extend c (splitChars ends returns rest)

/-- The lines of a text, each with its line feed. -/
def split (s : String) : List String :=
  (splitChars (· == '\n') false s.toList).map String.ofList

/-- The lines of a text, each with whatever ends it. -/
def splitAll (s : String) : List String :=
  (splitChars isEnd true s.toList).map String.ofList

end Lines

end EventCheck
