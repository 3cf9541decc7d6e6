import EventCheck.Json.Value
import EventCheck.Matching.Items

/-! # Matching what callers hand in

    The rules of matching for a `Value`, in which foreign things may stand. They
    are those of JSON, with two additions:

    - a tuple counts as an array;
    - any other foreign thing ends the work with `NotJson` when it is looked at,
      so that an answer which is known before stands.

    A pattern that is no object has no fields to look for; that is noticed when
    its fields are asked for.

    As for JSON, the only limit on depth is that of the texts which are decoded on the way.
    That the stack may not suffice for deeper values is left aside in `Value.satisfies`,
    `Value.contains` and `Value.items`.
-/

namespace EventCheck

namespace Value

/-! ## Leaves -/

/-- Why something has no content to compare. -/
inductive ContentError where
  | notJson (error : NotJson)
  | container (kind : Json.Kind)
  deriving Repr

def ContentError.message : ContentError → String
  | .notJson e => "Not a JSON value: " ++ e.typeName
  | .container kind => "Not a JSON leaf: " ++ kind.name

/-- The leaf that a value is; null for anything else. -/
def leaf : Value → Json
  | .bool b => .bool b
  | .int n => .int n
  | .float x => .float x
  | .str s => .str s
  | _ => .null

/-- What a leaf says in a comparison. -/
def content (v : Value) : Except ContentError String :=
  match v.kind with
  | .error e => .error (.notJson e)
  | .ok kind => if kind.isLeaf then .ok v.leaf.content else .error (.container kind)

/-- Does the leaf satisfy the leaf of a pattern? The pattern is looked at first. -/
def leafMatches (event pattern : Value) : Except ContentError Bool := do
  let _ ← pattern.content
  let content ← event.content
  pure ((LeafRule.of pattern.leaf).accepts content)

/-! ## Structures -/

/-- A value with a string decoded until it is none. -/
def opened? : Value → Option Value
  | .str s => (Json.str s).opened?.map ofJson
  | v => some v

mutual

/-- Does the value satisfy the pattern? It is answered however deep both nest. -/
def satisfies (event pattern : Value) : Except NotJson Bool :=
  match pattern with
  | .obj wanted => do
    let _ ← event.kind
    match event.opened? with
    | some (.obj fields) => fieldsSatisfy fields wanted
    | _ => pure false
  | .arr wanted | .tuple wanted => do
    let _ ← event.kind
    match event.opened? with
    | some (.arr items) | some (.tuple items) => itemsSatisfy items wanted
    | _ => pure false
  | single => do
    let kind ← event.kind
    let _ ← single.kind
    pure (kind.isLeaf && event.leaf.leafMatches single.leaf)

def fieldsSatisfy (fields : Keyed Value) :
    Keyed Value → Except NotJson Bool
  | [] => pure true
  | (key, wanted) :: rest =>
    match Keyed.get? fields key with
    | none => pure false
    | some value => do
      if ← value.satisfies wanted then fieldsSatisfy fields rest else pure false

def itemsSatisfy (items : List Value) : List Value → Except NotJson Bool
  | [] => pure true
  | wanted :: rest => do
    if ← items.anyM fun item => item.satisfies wanted then itemsSatisfy items rest else pure false

end

/-! ## Searching -/

mutual

/-- Is there, at any depth, a field with this key whose value satisfies the pattern? -/
def hasField (key : String) (wanted : Value) (v : Value) : Except NotJson Bool :=
  match v with
  | .obj fields => fieldsHave key wanted fields
  | .arr items | .tuple items => itemsHave key wanted items
  | single => single.kind.map fun _ => false

def fieldsHave (key : String) (wanted : Value) : Keyed Value → Except NotJson Bool
  | [] => pure false
  | (k, v) :: rest => do
    if k == key then
      if ← v.satisfies wanted then return true
    if ← hasField key wanted v then pure true else fieldsHave key wanted rest

def itemsHave (key : String) (wanted : Value) : List Value → Except NotJson Bool
  | [] => pure false
  | v :: rest => do
    if ← hasField key wanted v then pure true else itemsHave key wanted rest

end

/-- Why a search came to no answer. -/
inductive SearchError where
  | notJson (error : NotJson)
  | noFields (typeName : String)
  deriving DecidableEq, Repr, Inhabited

def SearchError.message : SearchError → String
  | .notJson e => "Not a JSON value: " ++ e.typeName
  | .noFields typeName => "'" ++ typeName ++ "' object has no attribute 'items'"

/-- The fields that a pattern asks for. -/
def patternFields (pattern : Value) : Except SearchError (Keyed Value) :=
  match pattern with
  | .obj fields => .ok fields
  | v => .error (.noFields v.typeName)

/-- Are all these fields found in the value? -/
def hasFields (v : Value) : Keyed Value → Except NotJson Bool
  | [] => pure true
  | (key, wanted) :: rest => do
    if ← hasField key wanted v then hasFields v rest else pure false

/-- A payload: the value of a JSON text, and any other value as it is. -/
def decoded (payload : Value) : Value :=
  match payload with
  | .str s => ofJson (Json.str s).decoded
  | _ => payload

/-- Does the value have all fields of the pattern? -/
def hasPattern (v pattern : Value) : Except SearchError Bool := do
  let wanted ← pattern.patternFields
  (v.hasFields wanted).mapError .notJson

/-- Does the payload contain the pattern? It is answered however deep both nest. -/
def contains (payload pattern : Value) : Except SearchError Bool :=
  payload.decoded.hasPattern pattern

/-! ## Items -/

/-- The items found before the first foreign thing, and that thing if there is one. -/
structure Listing where
  found : List (Keyed Value)
  stop : Option NotJson

/-- One listing after the other; the second is not begun if the first one stopped. -/
def Listing.append (a b : Listing) : Listing :=
  if a.stop.isSome then a else ⟨a.found ++ b.found, b.stop⟩

/-- The objects among the elements of an array. -/
def objects : Value → List (Keyed Value)
  | .arr items => items.filterMap fun v =>
    match v with
    | .obj fields => some fields
    | _ => none
  | _ => []

mutual

/-- The items of a value, stored under the given key at any depth, however deep that is. -/
def items (key : String) (v : Value) : Listing :=
  match v with
  | .obj fields => itemsOfFields key fields
  | .arr elements | .tuple elements => itemsOfArray key elements
  | single =>
    match single.kind with
    | .ok _ => ⟨[], none⟩
    | .error e => ⟨[], some e⟩

def itemsOfFields (key : String) : Keyed Value → Listing
  | [] => ⟨[], none⟩
  | (k, v) :: rest =>
    Listing.append ⟨if k = key then v.objects else [], none⟩
      ((items key v).append (itemsOfFields key rest))

def itemsOfArray (key : String) : List Value → Listing
  | [] => ⟨[], none⟩
  | v :: rest => (items key v).append (itemsOfArray key rest)

end

/-- All items, or what stopped the listing. -/
def Listing.all (l : Listing) : Except NotJson (List (Keyed Value)) :=
  match l.stop with
  | none => .ok l.found
  | some e => .error e

/-- The first of some objects in which the whole pattern is found. -/
def firstWith? (pattern : Value) :
    List (Keyed Value) → Except SearchError (Option (Keyed Value))
  | [] => pure none
  | item :: rest => do
    if ← (Value.obj item).hasPattern pattern then pure (some item) else firstWith? pattern rest

/-- The first item of a payload in which the whole pattern is found. -/
def findItem? (payload pattern : Value) : Except SearchError (Option (Keyed Value)) := do
  let listing := payload.decoded.items Json.itemsKey
  match ← firstWith? pattern listing.found with
  | some item => pure (some item)
  | none =>
    match listing.stop with
    | some e => .error (.notJson e)
    | none => pure none

end Value

end EventCheck
