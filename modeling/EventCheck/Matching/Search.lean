import EventCheck.Matching.Structure

/-! # Searching fields

    The keys of a pattern are looked for one by one, each anywhere in the
    payload: in objects and arrays at any depth, but not inside strings. A
    payload that is a string is decoded first. The search itself has no limit on
    depth, only the decoding has.
-/

namespace EventCheck

namespace Json

mutual

/-- Is there, at any depth, a field with this key whose value satisfies the pattern? -/
def hasField (key : String) (wanted : Json) : Json → Bool
  | .obj fields => fieldsHave key wanted fields
  | .arr items => itemsHave key wanted items
  | _ => false

def fieldsHave (key : String) (wanted : Json) : Fields → Bool
  | [] => false
  | (k, v) :: rest =>
    (k == key && v.satisfies wanted) || hasField key wanted v || fieldsHave key wanted rest

def itemsHave (key : String) (wanted : Json) : List Json → Bool
  | [] => false
  | v :: rest => hasField key wanted v || itemsHave key wanted rest

end

/-- A payload: the value of a JSON text, and any other value as it is. -/
def decoded (payload : Json) : Json :=
  match payload with
  | .str s => (read? s).getD payload
  | _ => payload

/-- Are all these fields found in the value? -/
def hasFields (v : Json) (pattern : Fields) : Bool :=
  pattern.all fun (key, wanted) => hasField key wanted v

/-- Does the payload contain the pattern? However deep both nest, there is an answer. -/
def contains (payload : Json) (pattern : Fields) : Bool := payload.decoded.hasFields pattern

end Json

end EventCheck
