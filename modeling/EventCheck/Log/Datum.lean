import EventCheck.Json.Value

/-! # Data of log records

    A record holds data of any kind, and the log writes it as one JSON text. Not all
    data can be written.

    - A `Text` may hold half of a surrogate pair without the other one. No bytes stand
      for that, so such a text cannot be encoded (`Text.encode`).
    - A `Datum` may be a dictionary with keys of any sort, or a thing that has to be
      shown as text. It has an end: where a container stands within itself, or deeper
      than can be followed, there is a thing that fails to be shown.
    - `Datum.dump` writes a datum, or names the first `Obstacle` that it meets.
    - `Datum.isWritable` says what may stand in a datum that can be written and encoded;
      `Value.isLoggable` is the same for what callers hand in.
-/

namespace EventCheck

namespace Log

/-! ## Texts -/

/-- A character, or half of a surrogate pair that stands alone, by its place among the halves. -/
inductive Mark where
  | char (c : Char)
  | half (place : Fin 2048)
  deriving DecidableEq

abbrev Text := List Mark

/-- The halves of pairs that stand next to one another in a text, by the first of them and by the
    places of the first and the last. -/
structure Halves where
  place : Fin 2048
  first : Nat
  last : Nat
  deriving DecidableEq

def Halves.message (h : Halves) : String :=
  "'utf-8' codec can't encode "
    ++ (if h.first = h.last then
        "character '\\u" ++ String.ofList (Quoted.hex 4 (0xD800 + h.place)) ++ "' in position "
          ++ toString h.first
      else "characters in position " ++ toString h.first ++ "-" ++ toString h.last)
    ++ ": surrogates not allowed"

def Mark.isChar : Mark → Bool
  | .char _ => true
  | .half _ => false

namespace Text

def ofString (s : String) : Text := s.toList.map .char

/-- Is the text made of characters only? -/
def isPlain (t : Text) : Bool := t.all Mark.isChar

/-- The characters of a text, or the first halves of pairs in it. `before` is how many marks stand
    before the text. -/
def chars (before : Nat) : Text → Except Halves (List Char)
  | [] => .ok []
  | .char c :: rest => (chars (before + 1) rest).map (c :: ·)
  | .half place :: rest =>
    .error ⟨place, before, before + (rest.takeWhile fun mark => !mark.isChar).length⟩

/-- The text as it can be written to a file. -/
def encode (t : Text) : Except Halves String := (t.chars 0).map String.ofList

/-- Parts one behind the other, with a comma and a blank between them. -/
def joined : List Text → Text
  | [] => []
  | [part] => part
  | part :: rest => part ++ .char ',' :: .char ' ' :: joined rest

/-- One mark of a string. -/
def quotedMark : Mark → Text
  | .char c => (Json.writeChar false c).map .char
  | .half place => [.half place]

/-- The text as a string of JSON. -/
def quoted (t : Text) : Text := .char '"' :: (t.flatMap quotedMark ++ [.char '"'])

end Text

/-! ## Data -/

/-- A key of a dictionary. Of one that is none of these only the name of its type counts. -/
inductive Key where
  | null
  | bool (b : Bool)
  | int (n : Int)
  | float (x : Float)
  | text (t : Text)
  | other (typeName : String)

/-- What a record holds. A thing that is none of these is shown as text, or fails to be; so does a
    container that stands within itself or too deep. -/
inductive Datum where
  | null
  | bool (b : Bool)
  | int (n : Int)
  | float (x : Float)
  | text (t : Text)
  | list (items : List Datum)
  | dict (fields : List (Key × Datum))
  | other (shown : Except String Text)

/-- Why no JSON text can be made of a datum: a key of a type that keys cannot have, a whole number
    with too many digits, or a thing that could not be shown, with what that failed with. -/
inductive Obstacle where
  | key (typeName : String)
  | digits
  | unshown (message : String)
  deriving DecidableEq

def Obstacle.message : Obstacle → String
  | .key typeName => "keys must be str, int, float, bool or None, not " ++ typeName
  | .digits =>
    "Exceeds the limit (4300 digits) for integer string conversion; "
      ++ "use sys.set_int_max_str_digits() to increase the limit"
  | .unshown message => message

/-- Has the whole number no more digits than a text may have? -/
def isShort (n : Int) : Bool := (Nat.toDigits 10 n.natAbs).length ≤ Json.maxDigits

/-- A whole number as text. -/
def dumpInt (n : Int) : Except Obstacle Text :=
  if isShort n then .ok (.ofString (toString n)) else .error .digits

/-- The text of a leaf of JSON. -/
def dumpLeaf (v : Json) : Text := .ofString (v.writeLeaf false)

namespace Key

/-- A key as text. -/
def dump : Key → Except Obstacle Text
  | .null => .ok (dumpLeaf .null)
  | .bool b => .ok (dumpLeaf (.bool b))
  | .int n => dumpInt n
  | .float x => .ok (dumpLeaf (.float x))
  | .text t => .ok t
  | .other typeName => .error (.key typeName)

def isWritable : Key → Bool
  | .int n => isShort n
  | .text t => t.isPlain
  | .other _ => false
  | _ => true

end Key

namespace Datum

mutual

/-- The JSON text of a datum, or the first obstacle on the way to it. -/
def dump : Datum → Except Obstacle Text
  | .null => .ok (dumpLeaf .null)
  | .bool b => .ok (dumpLeaf (.bool b))
  | .int n => dumpInt n
  | .float x => .ok (dumpLeaf (.float x))
  | .text t => .ok t.quoted
  | .list items =>
    (dumpItems items).map fun parts => .char '[' :: (Text.joined parts ++ [.char ']'])
  | .dict fields =>
    (dumpFields fields).map fun parts => .char '\x7b' :: (Text.joined parts ++ [.char '\x7d'])
  | .other shown =>
    match shown with
    | .ok t => .ok t.quoted
    | .error message => .error (.unshown message)

def dumpItems : List Datum → Except Obstacle (List Text)
  | [] => .ok []
  | d :: rest =>
    match d.dump with
    | .error obstacle => .error obstacle
    | .ok part => (dumpItems rest).map (part :: ·)

def dumpFields : List (Key × Datum) → Except Obstacle (List Text)
  | [] => .ok []
  | (key, d) :: rest =>
    match key.dump with
    | .error obstacle => .error obstacle
    | .ok key =>
      match d.dump with
      | .error obstacle => .error obstacle
      | .ok part =>
        (dumpFields rest).map ((key.quoted ++ .char ':' :: .char ' ' :: part) :: ·)

end

mutual

/-- **Can the datum be written?** Its whole numbers have no more digits than a text may have, its
    keys are of the sorts that a text knows, no half of a pair stands alone in its texts, and
    what has to be shown can be. -/
def isWritable : Datum → Bool
  | .int n => isShort n
  | .text t => t.isPlain
  | .list items => areWritable items
  | .dict fields => fieldsWritable fields
  | .other (.ok t) => t.isPlain
  | .other (.error _) => false
  | .null | .bool _ | .float _ => true

def areWritable : List Datum → Bool
  | [] => true
  | d :: rest => d.isWritable && areWritable rest

def fieldsWritable : List (Key × Datum) → Bool
  | [] => true
  | (key, d) :: rest => key.isWritable && d.isWritable && fieldsWritable rest

end

mutual

/-- What callers hand in, as a datum: tuples as lists, and other foreign things as messages show
    them. -/
def ofValue : Value → Datum
  | .null => .null
  | .bool b => .bool b
  | .int n => .int n
  | .float x => .float x
  | .str s => .text (.ofString s)
  | .arr items | .tuple items => .list (ofValues items)
  | .obj fields => .dict (ofFields fields)
  | .set items =>
    .other (if areWritable (ofValues items) then .ok (.ofString (Value.set items).shown)
      else .error Obstacle.digits.message)
  | .bytes bs => .other (.ok (.ofString (Value.bytes bs).shown))
  | .other name => .other (.ok (.ofString (Value.other name).shown))

def ofValues : List Value → List Datum
  | [] => []
  | v :: rest => ofValue v :: ofValues rest

def ofFields : Keyed Value → List (Key × Datum)
  | [] => []
  | (key, v) :: rest => (.text (.ofString key), ofValue v) :: ofFields rest

end

end Datum

end Log

/-- **Can the value be written to the log?** All can but a value with a whole number in it that has
    too many digits. -/
def Value.isLoggable (v : Value) : Bool := (Log.Datum.ofValue v).isWritable

end EventCheck
