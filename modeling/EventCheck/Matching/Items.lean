import EventCheck.Matching.Search

/-! # Items

    An item is an object that is an element of an array stored under a given
    key, `items` unless said otherwise. A screen's event lists in this way what
    it shows.

    `Json.items` lists them: those of a field before any that lie deeper in the
    same field, and those of a field before those of the fields behind it. It goes
    as deep as the value does.
-/

namespace EventCheck

namespace Json

/-- The objects among the elements of an array. -/
def objects : Json → List Fields
  | .arr items => items.filterMap fun v =>
    match v with
    | .obj fields => some fields
    | _ => none
  | _ => []

mutual

/-- The items of a value, stored under the given key at any depth. -/
def items (key : String) : Json → List Fields
  | .obj fields => itemsOfFields key fields
  | .arr elements => itemsOfArray key elements
  | _ => []

def itemsOfFields (key : String) : Fields → List Fields
  | [] => []
  | (k, v) :: rest =>
    (if k = key then v.objects else []) ++ v.items key ++ itemsOfFields key rest

def itemsOfArray (key : String) : List Json → List Fields
  | [] => []
  | v :: rest => v.items key ++ itemsOfArray key rest

end

/-- The key under which events list their items. -/
def itemsKey : String := "items"

/-- The first item of a payload in which the whole pattern is found. -/
def findItem? (payload : Json) (pattern : Fields) : Option Fields :=
  (payload.decoded.items itemsKey).find? fun item => (Json.obj item).hasFields pattern

end Json

end EventCheck
