import EventCheck.Json.Basic
import EventCheck.Number.Shortest
import EventCheck.Text.Quoted

/-! # Writing JSON values

    - `Json.text` writes a value on one line, with a blank behind each comma and
      colon; `Json.ascii` escapes everything beyond ASCII as well, and
      `Json.pretty` puts each item on a line of its own, two blanks deeper.
    - `Json.shown` is the form in which messages show a value: words with a
      capital, single quotes. `Json.plain` is the same, but a text stands
      without quotes.

    A whole number is written however long it is. Where there is a limit on its digits,
    that is asked for first: before something is logged, or shown in a message of a
    step (`Value.isLoggable`).
-/

namespace EventCheck

namespace Json

/-! ## Leaves -/

/-- Infinities and what is not a number as JSON texts spell them. -/
def numberSpelling : Shortest.Spelling := ⟨"Infinity", "NaN"⟩

/-- Infinities and what is not a number as messages spell them. -/
def shownSpelling : Shortest.Spelling := ⟨"inf", "nan"⟩

/-- A unit of sixteen bits as an escape. -/
def unitEscape (u : Nat) : List Char := '\\' :: 'u' :: Quoted.hex 4 u

/-- A character as one escape, or as two when it needs a pair of units. -/
def unicodeEscapes (c : Char) : List Char :=
  let n := c.toNat
  if n < 0x10000 then unitEscape n
  else unitEscape (0xD800 + (n - 0x10000) / 0x400) ++ unitEscape (0xDC00 + (n - 0x10000) % 0x400)

/-- One character of a string. Control characters are always escaped, those beyond ASCII, with the
    last of ASCII, only on demand. -/
def writeChar (asciiOnly : Bool) (c : Char) : List Char :=
  if c == '"' then ['\\', '"']
  else if c == '\\' then ['\\', '\\']
  else if c == '\n' then ['\\', 'n']
  else if c == '\r' then ['\\', 'r']
  else if c == '\t' then ['\\', 't']
  else if c == '\x0c' then ['\\', 'f']
  else if c == '\x08' then ['\\', 'b']
  else if c.toNat < 0x20 || (asciiOnly && 0x7F ≤ c.toNat) then unicodeEscapes c
  else [c]

def writeString (asciiOnly : Bool) (s : String) : String :=
  String.ofList ('"' :: s.toList.flatMap (writeChar asciiOnly) ++ ['"'])

/-- The text of a leaf; containers have none. No limit on the digits of a whole number applies. -/
def writeLeaf (asciiOnly : Bool) : Json → String
  | .null => "null"
  | .bool true => "true"
  | .bool false => "false"
  | .int n => toString n
  | .float x => Shortest.text numberSpelling x
  | .str s => writeString asciiOnly s
  | .arr _ | .obj _ => ""

/-! ## One line -/

mutual

def write (asciiOnly : Bool) : Json → String
  | .arr items => "[" ++ ", ".intercalate (writeItems asciiOnly items) ++ "]"
  | .obj fields => "\x7b" ++ ", ".intercalate (writeFields asciiOnly fields) ++ "\x7d"
  | leaf => writeLeaf asciiOnly leaf

def writeItems (asciiOnly : Bool) : List Json → List String
  | [] => []
  | v :: rest => v.write asciiOnly :: writeItems asciiOnly rest

def writeFields (asciiOnly : Bool) : Fields → List String
  | [] => []
  | (k, v) :: rest =>
    (writeString asciiOnly k ++ ": " ++ v.write asciiOnly) :: writeFields asciiOnly rest

end

/-- The text of a value on one line. -/
def text (v : Json) : String := v.write false

/-- The text of a value on one line, in ASCII. -/
def ascii (v : Json) : String := v.write true

/-! ## Indented -/

/-- Entries one below the other, two blanks deeper than their brackets. -/
def block (depth : Nat) (opening closing : String) (entries : List String) : String :=
  if entries.isEmpty then opening ++ closing
  else
    let newline := "\n" ++ String.ofList (List.replicate (2 * depth) ' ')
    opening ++ newline ++ "  " ++ ("," ++ newline ++ "  ").intercalate entries ++ newline ++ closing

mutual

def writeDeep (depth : Nat) : Json → String
  | .arr items => block depth "[" "]" (writeDeepItems (depth + 1) items)
  | .obj fields => block depth "\x7b" "\x7d" (writeDeepFields (depth + 1) fields)
  | leaf => writeLeaf false leaf

def writeDeepItems (depth : Nat) : List Json → List String
  | [] => []
  | v :: rest => v.writeDeep depth :: writeDeepItems depth rest

def writeDeepFields (depth : Nat) : Fields → List String
  | [] => []
  | (k, v) :: rest =>
    (writeString false k ++ ": " ++ v.writeDeep depth) :: writeDeepFields depth rest

end

/-- The text of a value over several lines. -/
def pretty (v : Json) : String := v.writeDeep 0

/-! ## In messages -/

mutual

/-- A value as messages show it. -/
def shown : Json → String
  | .null => "None"
  | .bool true => "True"
  | .bool false => "False"
  | .int n => toString n
  | .float x => Shortest.text shownSpelling x
  | .str s => Quoted.text s
  | .arr items => "[" ++ ", ".intercalate (shownItems items) ++ "]"
  | .obj fields => "\x7b" ++ ", ".intercalate (shownFields fields) ++ "\x7d"

def shownItems : List Json → List String
  | [] => []
  | v :: rest => v.shown :: shownItems rest

def shownFields : Fields → List String
  | [] => []
  | (k, v) :: rest => (Quoted.text k ++ ": " ++ v.shown) :: shownFields rest

end

/-- A value as a name: a text as it is, anything else as messages show it. -/
def plain : Json → String
  | .str s => s
  | v => v.shown

end Json

end EventCheck
