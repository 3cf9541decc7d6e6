import EventCheck.Json.Writer

/-! # Values that callers hand in

    A caller may hand in things that JSON does not have. A `Value` is a JSON value
    in which tuples, sets, strings of bytes and objects of other types may stand.

    - `Value.toJson?` accepts JSON and nothing else; `Value.serial` also writes a
      tuple as an array; `Value.render` writes everything.
    - `Value.kind` counts a tuple as an array and refuses the other things by
      the name of their type.
-/

namespace EventCheck

/-- A JSON value in which foreign things may stand. -/
inductive Value where
  | null
  | bool (b : Bool)
  | int (n : Int)
  | float (x : Float)
  | str (s : String)
  | arr (items : List Value)
  | obj (fields : List (String × Value))
  | tuple (items : List Value)
  | set (items : List Value)
  | bytes (bs : List UInt8)
  | other (typeName : String)
  deriving Inhabited

/-- A thing was met that is not JSON; it is known by the name of its type. -/
structure NotJson where
  typeName : String
  deriving DecidableEq, Repr, Inhabited

namespace Value

/-! ## To and from JSON -/

mutual

def ofJson : Json → Value
  | .null => .null
  | .bool b => .bool b
  | .int n => .int n
  | .float x => .float x
  | .str s => .str s
  | .arr items => .arr (ofItems items)
  | .obj fields => .obj (ofFields fields)

def ofItems : List Json → List Value
  | [] => []
  | v :: rest => ofJson v :: ofItems rest

def ofFields : Fields → Keyed Value
  | [] => []
  | (k, v) :: rest => (k, ofJson v) :: ofFields rest

end

instance : Coe Json Value := ⟨ofJson⟩

mutual

/-- The JSON value that it is, if nothing foreign stands in it. -/
def toJson? : Value → Option Json
  | .null => some .null
  | .bool b => some (.bool b)
  | .int n => some (.int n)
  | .float x => some (.float x)
  | .str s => some (.str s)
  | .arr items => (toItems? items).map .arr
  | .obj fields => (toFields? fields).map .obj
  | .tuple _ | .set _ | .bytes _ | .other _ => none

def toItems? : List Value → Option (List Json)
  | [] => some []
  | v :: rest => v.toJson?.bind fun v => (toItems? rest).map (v :: ·)

def toFields? : Keyed Value → Option Fields
  | [] => some []
  | (k, v) :: rest => v.toJson?.bind fun v => (toFields? rest).map ((k, v) :: ·)

end

/-! ## Types and kinds -/

/-- The name of a type as messages give it. -/
def typeName : Value → String
  | .null => "NoneType"
  | .bool _ => "bool"
  | .int _ => "int"
  | .float _ => "float"
  | .str _ => "str"
  | .arr _ => "list"
  | .obj _ => "dict"
  | .tuple _ => "tuple"
  | .set _ => "set"
  | .bytes _ => "bytes"
  | .other name => name

def kind (v : Value) : Except NotJson Json.Kind :=
  match v with
  | .null => .ok .null
  | .bool _ => .ok .bool
  | .int _ | .float _ => .ok .number
  | .str _ => .ok .string
  | .arr _ | .tuple _ => .ok .array
  | .obj _ => .ok .object
  | .set _ | .bytes _ | .other _ => .error ⟨v.typeName⟩

def NotJson.message (e : NotJson) : String := "Not a JSON value: " ++ e.typeName

/-! ## Writing -/

mutual

/-- The value with every foreign thing replaced; a tuple becomes an array. The first thing that
    cannot be replaced stops it. -/
def replace (foreign : Value → Except NotJson Json) : Value → Except NotJson Json
  | .null => .ok .null
  | .bool b => .ok (.bool b)
  | .int n => .ok (.int n)
  | .float x => .ok (.float x)
  | .str s => .ok (.str s)
  | .arr items => (replaceItems foreign items).map .arr
  | .tuple items => (replaceItems foreign items).map .arr
  | .obj fields => (replaceFields foreign fields).map .obj
  | .set items => foreign (.set items)
  | .bytes bs => foreign (.bytes bs)
  | .other name => foreign (.other name)

def replaceItems (foreign : Value → Except NotJson Json) :
    List Value → Except NotJson (List Json)
  | [] => .ok []
  | v :: rest =>
    match v.replace foreign with
    | .error e => .error e
    | .ok v => (replaceItems foreign rest).map (v :: ·)

def replaceFields (foreign : Value → Except NotJson Json) :
    Keyed Value → Except NotJson Fields
  | [] => .ok []
  | (k, v) :: rest =>
    match v.replace foreign with
    | .error e => .error e
    | .ok v => (replaceFields foreign rest).map ((k, v) :: ·)

end

/-- The value as it is written: tuples as arrays, and nothing else that is foreign. -/
def serial (v : Value) : Except NotJson Json := v.replace fun v => .error ⟨v.typeName⟩

mutual

/-- A value as messages show it. -/
def shown : Value → String
  | .null => "None"
  | .bool b => (Json.bool b).shown
  | .int n => (Json.int n).shown
  | .float x => (Json.float x).shown
  | .str s => Quoted.text s
  | .arr items => "[" ++ ", ".intercalate (shownItems items) ++ "]"
  | .obj fields => "\x7b" ++ ", ".intercalate (shownFields fields) ++ "\x7d"
  | .tuple [v] => "(" ++ v.shown ++ ",)"
  | .tuple items => "(" ++ ", ".intercalate (shownItems items) ++ ")"
  | .set [] => "set()"
  | .set items => "\x7b" ++ ", ".intercalate (shownItems items) ++ "\x7d"
  | .bytes bs => Quoted.bytes bs
  | .other name => "<" ++ name ++ ">"

def shownItems : List Value → List String
  | [] => []
  | v :: rest => v.shown :: shownItems rest

def shownFields : Keyed Value → List String
  | [] => []
  | (k, v) :: rest => (Quoted.text k ++ ": " ++ v.shown) :: shownFields rest

end

/-- The value with foreign things written by `foreign`. -/
def render (foreign : Value → String) (v : Value) : Json :=
  match v.replace fun v => .ok (.str (foreign v)) with
  | .ok v => v
  | .error _ => .null

/-- The value with foreign things as messages show them. -/
def renderShown (v : Value) : Json := v.render shown

/-- The value with the names of the types of foreign things in their place. -/
def renderNamed (v : Value) : Json := v.render fun v => "<" ++ v.typeName ++ ">"

end Value

end EventCheck
