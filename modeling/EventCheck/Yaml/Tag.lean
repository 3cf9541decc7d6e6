import EventCheck.Number.Digits

/-! # Tags

    A tag says what a node is. Where none is written the text of a plain scalar
    decides (`Tag.ofPlain`).

    - Whole numbers are decimal, binary, octal behind a zero, hexadecimal, or counted
      in sixties; fractions have a point. Underscores may stand between digits.
    - `Moment.read?` reads a day, or a day and a time.
-/

namespace EventCheck

namespace Yaml

/-- What a node is. -/
inductive Tag where
  | text | flag | whole | fraction | nothing | moment
  | list | mapping | set | pairs
  | merge | value
  | unknown
  deriving DecidableEq, Repr

/-! ## Moments -/

/-- A distance from universal time in minutes. -/
inductive Zone where
  | universal
  | ahead (minutes : Int)

structure DayTime where
  hour : Nat
  minute : Nat
  second : Nat
  zone : Option Zone

/-- A day with or without a time; `isFull` tells that month and day have two digits each. -/
structure Moment where
  year : Nat
  month : Nat
  day : Nat
  isFull : Bool
  time : Option DayTime

namespace Moment

/-- A number of at least `least` and at most `most` digits. -/
def number? (least most : Nat) (cs : List Char) : Option (Nat × List Char) :=
  let ds := (cs.take most).takeWhile Char.isDigit
  if ds.length < least then none
  else some (Digits.value (ds.map fun c => c.toNat - 48), cs.drop ds.length)

/-- The rest of a text behind a character. -/
def behind? (ch : Char) : List Char → Option (List Char)
  | c :: rest => if c == ch then some rest else none
  | [] => none

def isBlank (c : Char) : Bool := c == ' ' || c == '\t'

/-- A zone at the end of a text. -/
def zone? (cs : List Char) : Option (Option Zone) :=
  match cs.dropWhile isBlank with
  | [] => if cs.isEmpty then some none else none
  | ['Z'] => some (some .universal)
  | sign :: rest =>
    if sign == '+' || sign == '-' then do
      let (hours, rest) ← number? 1 2 rest
      let minutes ←
        match rest with
        | [] => some 0
        | rest => do
          match ← number? 2 2 (← behind? ':' rest) with
          | (minutes, []) => some minutes
          | _ => none
      pure (some (.ahead (Digits.signed (sign == '-') (hours * 60 + minutes))))
    else none

/-- A fraction of a second does not matter; it is passed over. -/
def skipFraction : List Char → List Char
  | '.' :: rest => rest.dropWhile Char.isDigit
  | rest => rest

/-- The time at the end of a text, behind a letter or blanks. -/
def time? (cs : List Char) : Option DayTime := do
  let rest ←
    match cs with
    | 'T' :: rest | 't' :: rest => some rest
    | c :: rest => if isBlank c then some (rest.dropWhile isBlank) else none
    | [] => none
  let (hour, rest) ← number? 1 2 rest
  let (minute, rest) ← number? 2 2 (← behind? ':' rest)
  let (second, rest) ← number? 2 2 (← behind? ':' rest)
  let zone ← zone? (skipFraction rest)
  pure ⟨hour, minute, second, zone⟩

def read? (cs : List Char) : Option Moment := do
  let (year, rest) ← number? 4 4 cs
  let (month, rest') ← number? 1 2 (← behind? '-' rest)
  let (day, rest) ← number? 1 2 (← behind? '-' rest')
  let isFull := cs.length - rest.length == 10
  if rest.isEmpty then pure ⟨year, month, day, isFull, none⟩
  else
    let time ← time? rest
    pure ⟨year, month, day, isFull, some time⟩

end Moment

namespace Tag

/-! ## Numbers -/

def isOneOf (chars : String) (c : Char) : Bool := chars.toList.contains c

/-- The parts of a text between colons. -/
def colonParts (cs : List Char) : List (List Char) := cs.splitOn ':'

/-- A part of a number counted in sixties, the first one aside. -/
def isSixtieth : List Char → Bool
  | [d] => d.isDigit
  | [t, d] => '0' ≤ t && t ≤ '5' && d.isDigit
  | _ => false

def isDigitOrGap (c : Char) : Bool := c.isDigit || c == '_'

/-- Is the text a whole number? -/
def isWhole (cs : List Char) : Bool :=
  match (Digits.sign cs).2 with
  | '0' :: 'b' :: ds => !ds.isEmpty && ds.all (isOneOf "01_")
  | '0' :: 'x' :: ds => !ds.isEmpty && ds.all (isOneOf "0123456789abcdefABCDEF_")
  | '0' :: ds => ds.all (isOneOf "01234567_")
  | c :: rest =>
    c.isDigit &&
      match colonParts (c :: rest) with
      | first :: others => first.all isDigitOrGap && others.all isSixtieth
      | [] => false
  | [] => false

/-- An exponent with its sign, or nothing. -/
def isExponent : List Char → Bool
  | [] => true
  | e :: s :: d :: ds => isOneOf "eE" e && isOneOf "+-" s && (d :: ds).all Char.isDigit
  | _ => false

/-- The whole part of a fraction may be counted in sixties; it has no exponent then. -/
def isDecimal (cs : List Char) : Bool :=
  let isStart (cs : List Char) : Bool :=
    match cs with
    | c :: rest => c.isDigit && rest.all isDigitOrGap
    | [] => false
  let whole := cs.takeWhile (· != '.')
  match cs.dropWhile (· != '.') with
  | '.' :: places =>
    match colonParts whole with
    | [whole] => isStart whole && isExponent (places.dropWhile isDigitOrGap)
    | first :: others => isStart first && others.all isSixtieth && places.all isDigitOrGap
    | [] => false
  | _ => false

/-- Is the text a number with a point? -/
def isFraction (cs : List Char) : Bool :=
  match cs with
  | '.' :: d :: rest =>
    (d.isDigit && isExponent (rest.dropWhile isDigitOrGap))
      || [".inf", ".Inf", ".INF", ".nan", ".NaN", ".NAN"].contains (String.ofList cs)
  | _ =>
    match (Digits.sign cs).2 with
    | '.' :: word => ["inf", "Inf", "INF"].contains (String.ofList word)
    | rest => isDecimal rest

/-! ## Plain scalars -/

def flagWords : List String := [
    "yes", "Yes", "YES", "no", "No", "NO", "true", "True", "TRUE", "false", "False", "FALSE", "on",
    "On", "ON", "off", "Off", "OFF"]

def nothingWords : List String := ["~", "null", "Null", "NULL", ""]

/-- What a plain scalar is. -/
def ofPlain (s : String) : Tag :=
  let cs := s.toList
  if flagWords.contains s then .flag
  else if isFraction cs then .fraction
  else if isWhole cs then .whole
  else if s == "<<" then .merge
  else if nothingWords.contains s then .nothing
  else
    match Moment.read? cs with
    | some m => if m.isFull || m.time.isSome then .moment else .text
    | none => if s == "=" then .value else .text

/-- What the names of tags begin with. -/
def stem : String := "tag:yaml.org,2002:"

/-- The tag with a name. -/
def ofName (name : String) : Tag :=
  if !stem.toList.isPrefixOf name.toList then .unknown
  else
    match String.ofList (name.toList.drop stem.length) with
    | "str" => .text
    | "bool" => .flag
    | "int" => .whole
    | "float" => .fraction
    | "null" => .nothing
    | "timestamp" => .moment
    | "seq" => .list
    | "map" => .mapping
    | "set" => .set
    | "omap" | "pairs" => .pairs
    | "merge" => .merge
    | "value" => .value
    | _ => .unknown

end Tag

end Yaml

end EventCheck
