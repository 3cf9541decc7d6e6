import EventCheck.Pattern

/-! # Mappings as they lie in memory

    A caller may hand in any mapping. Its keys need not be strings, two things may
    share a third one, and a thing may hold itself.

    - `Cell`: what a thing is, with the places of the things that it holds.
    - `Memory.json?`: the JSON value that lies at a place, if nothing foreign stands in
      it and it has no more levels than it may.
    - `Pattern.ofMemory`: the pattern that a mapping in memory is. `Value.cell` lays out
      a value in memory; there `Pattern.ofMapping` says the same.
-/

namespace EventCheck

/-- What lies at a place in memory; the things that it holds lie at other places. -/
inductive Cell (ι : Type) where
  | null
  | bool (b : Bool)
  | int (n : Int)
  | float (x : Float)
  | str (s : String)
  | list (items : List ι)
  | dict (entries : List (ι × ι))
  | bytes (bs : List UInt8)
  | other (typeName : String)

namespace Cell

variable {ι : Type}

/-- The key that a thing is taken for: a string, or bytes that hold one. -/
def key? : Cell ι → Option String
  | .str s => some s
  | .bytes bs => (Utf8.strict bs).toOption
  | _ => none

/-- The leaf that a thing is. -/
def leaf? : Cell ι → Option Json
  | .null => some .null
  | .bool b => some (.bool b)
  | .int n => some (.int n)
  | .float x => some (.float x)
  | .str s => some (.str s)
  | .list _ | .dict _ | .bytes _ | .other _ => none

end Cell

/-- What lies at each place. -/
abbrev Memory (ι : Type) : Type := ι → Cell ι

namespace Memory

variable {ι : Type} (memory : Memory ι)

/-- The field that an entry of a mapping is, where `value?` reads its value. -/
def field? (value? : ι → Option Json) (entry : ι × ι) : Option (String × Json) := do
  let key ← (memory entry.1).key?
  let value ← value? entry.2
  pure (key, value)

/-- The fields that the entries of a mapping are; of keys that come to be the same the last one
    counts. -/
def fields? (value? : ι → Option Json) (entries : List (ι × ι)) : Option Fields :=
  (entries.mapM (memory.field? value?)).map Keyed.ofPairs

/-- The JSON value at a place, which may have this many levels. -/
def json? : Nat → ι → Option Json
  | 0, _ => none
  | levels + 1, place =>
    match memory place with
    | .list items => (items.mapM (json? levels)).map .arr
    | .dict entries => (memory.fields? (json? levels) entries).map .obj
    | cell => cell.leaf?

end Memory

/-- The cell of a value, in a memory in which every value lies at itself. -/
def Value.cell : Memory Value
  | .null => .null
  | .bool b => .bool b
  | .int n => .int n
  | .float x => .float x
  | .str s => .str s
  | .arr items => .list items
  | .obj fields => .dict (fields.map fun (key, v) => (.str key, v))
  | .bytes bs => .bytes bs
  | v => .other v.typeName

/-- The pattern that a mapping is whose keys and values lie at these places. -/
def Pattern.ofMemory {ι : Type} (memory : Memory ι) (entries : List (ι × ι)) :
    Except Pattern.Error Fields :=
  match memory.fields? (memory.json? maxLevels) entries with
  | some fields => .ok fields
  | none => .error .foreignValues

end EventCheck
