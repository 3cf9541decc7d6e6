import EventCheck.Json.Reader
import EventCheck.Json.Value
import EventCheck.Text.Encoding
import EventCheck.Text.Lines

/-! # Patterns

    A pattern is an object whose keys are looked for in events. Callers give it
    as a mapping, as JSON text, in a file, or not at all.

    - `Pattern.load` turns any of these into the fields of the pattern, or says
      what is wrong with them.
    - A mapping has to hold JSON values whose nesting storage allows
      (`Json.storable`); a text may nest as deep as can be read.
-/

namespace EventCheck

/-- How many levels a stored value may have. -/
def maxLevels : Nat := 255

/-- May the value be stored? -/
def Json.storable (v : Json) : Bool := v.levels ≤ maxLevels

namespace Pattern

/-- What a pattern file holds. -/
inductive File where
  | missing
  | holds (bytes : List UInt8)

/-- How a caller gives a pattern. -/
inductive Source where
  | none
  | mapping (fields : Keyed Value)
  | text (text : String)
  | bytes (bytes : List UInt8)
  | file (path : String) (content : File)
  | unfit (typeName : String)

/-- The source that a value is. -/
def Source.ofValue : Value → Source
  | .null => .none
  | .obj fields => .mapping fields
  | .str s => .text s
  | .bytes bs => .bytes bs
  | v => .unfit v.typeName

/-- Where the text of a pattern came from. -/
inductive Origin where
  | string
  | file (path : String)
  deriving DecidableEq, Repr

def Origin.text : Origin → String
  | .string => "string"
  | .file path => "file '" ++ path ++ "'"

/-- Why a source gives no pattern. The last two are mistakes of another sort than the rest: bytes
    that are no text, and something that no pattern can be made of. -/
inductive Error where
  | unreadable (path : String)
  | notJson (origin : Origin) (reason : String)
  | tooDeep (origin : Origin)
  | notObject (origin : Origin) (typeName : String)
  | foreignValues
  | undecodable (error : Utf8.DecodeError)
  | unfit (typeName : String)
  deriving DecidableEq, Repr

def Error.message : Error → String
  | .unreadable path =>
    "Cannot read pattern file '" ++ path ++ "': [Errno 2] No such file or directory: '" ++ path
      ++ "'"
  | .notJson origin reason => "Pattern " ++ origin.text ++ " is not valid JSON: " ++ reason
  | .tooDeep origin => "Pattern " ++ origin.text ++ " is nested too deeply"
  | .notObject origin typeName =>
    "Pattern " ++ origin.text ++ " must be a JSON object with key/value pairs, got " ++ typeName
  | .foreignValues => "Pattern mapping must contain only JSON values"
  | .undecodable e => e.message
  | .unfit typeName => "the JSON object must be str, bytes or bytearray, not " ++ typeName

/-- Is it the pattern itself that is malformed? -/
def Error.isMalformed : Error → Bool
  | .undecodable _ | .unfit _ => false
  | _ => true

/-- The pattern that a text writes. -/
def ofText (origin : Origin) (text : String) : Except Error Fields :=
  match Json.read text with
  | .error e => .error (if e.isTooDeep then .tooDeep origin else .notJson origin e.message)
  | .ok (.obj fields) => .ok fields
  | .ok v => .error (.notObject origin (Value.ofJson v).typeName)

/-- The pattern that a mapping is. -/
def ofMapping (fields : Keyed Value) : Except Error Fields :=
  match Value.toFields? fields with
  | some fields =>
    if fields.all fun (_, v) => v.storable then .ok fields else .error .foreignValues
  | none => .error .foreignValues

/-- The pattern that a source gives; none stands for a pattern that asks for nothing at all. -/
def load : Source → Except Error (Option Fields)
  | .none => .ok none
  | .mapping fields => (ofMapping fields).map some
  | .text text => (ofText .string text).map some
  | .bytes bytes =>
    match Encoding.decode bytes with
    | .error e => .error (.notJson .string e.message)
    | .ok text => (ofText .string text).map some
  | .file path .missing => .error (.unreadable path)
  | .file path (.holds bytes) =>
    match Utf8.strict bytes with
    | .error e => .error (.undecodable e)
    | .ok text => (ofText (.file path) (Lines.unify text)).map some
  | .unfit typeName => .error (.unfit typeName)

end Pattern

end EventCheck
