import EventCheck.Keyed
import EventCheck.Text.Blank
import EventCheck.Text.Case
import EventCheck.Text.Lines

/-! # Headers

    The lines in front of a body, each a name, a colon and a value. Names may be
    written in letters of either case.

    - A line that begins with a blank goes on with the value of the line before.
    - A line with no name is passed over; one that cannot be a header ends them.
    - `Headers.grouped` gives the values of all spellings of a name under each of
      its spellings.
-/

namespace EventCheck

/-- Names and values, in order. -/
abbrev Headers := List (String × String)

namespace Headers

/-- Does the character end a line? -/
def isLineEnd (c : Char) : Bool := c == '\r' || c == '\n'

/-- The lines that a line on the wire is, with their ends: a carriage return or a line feed in its
    midst ends a line as well. -/
def wireLines (line : String) : List (List Char) :=
  Lines.splitChars (· == '\n') true (line.toList ++ ['\r', '\n'])

/-- May the character stand in a name? -/
def isNameChar (c : Char) : Bool := 33 ≤ c.toNat && c.toNat ≤ 126 && c != ':'

/-- The sorts of lines. -/
inductive Line where
  | header (name value : List Char)
  | more
  | nothing
  | none
  deriving DecidableEq, Repr

/-- What a line is. -/
def Line.of (cs : List Char) : Line :=
  let name := cs.takeWhile isNameChar
  match cs, cs.drop name.length with
  | ' ' :: _, _ | '\t' :: _, _ => .more
  | 'F' :: 'r' :: 'o' :: 'm' :: ' ' :: _, _ => .nothing
  | _, ':' :: value => if name.isEmpty then .nothing else .header name value
  | _, _ => .none

/-- Adds a line to the value of the last header, if there is one that is not complete. -/
def extend (found : List (List Char × List Char)) (line : List Char) :
    List (List Char × List Char) :=
  match found with
  | [] => []
  | (name, value) :: rest => (name, value ++ line) :: rest

/-- The headers of some lines, the last one first. `isOpen` tells that the last header may go
    on. -/
def collect (isOpen : Bool) (found : List (List Char × List Char)) :
    List (List Char) → List (List Char × List Char)
  | [] => found
  | line :: rest =>
    match Line.of line with
    | .header name value => collect true ((name, value) :: found) rest
    | .more => collect isOpen (if isOpen then extend found line else found) rest
    | .nothing => collect false found rest
    | .none => found

/-- The headers that some lines write. Blanks in front of a value do not belong to it, nor does the
    end of its last line. -/
def ofLines (lines : List String) : Headers :=
  ((collect false [] (lines.flatMap wireLines)).reverse).map fun (name, value) =>
    let value := value.dropWhile fun c => c == ' ' || c == '\t'
    (String.ofList name, String.ofList (value.reverse.dropWhile isLineEnd).reverse)

/-- All values of a header. -/
def values (headers : Headers) (name : String) : List String :=
  (headers.filter fun (n, _) => Case.lower n == Case.lower name).map Prod.snd

/-- Each spelling of a name once, with the values of all its spellings. -/
def grouped (headers : Headers) : Keyed (List String) :=
  (headers.map Prod.fst).eraseDups.map fun name => (name, headers.values name)

/-- The length of the body that the headers tell. What is no number tells none. -/
def contentLength (headers : Headers) : Nat :=
  match headers.values "Content-Length" with
  | [] => 0
  | value :: _ => ((Numeral.int? value).getD 0).toNat

end Headers

end EventCheck
