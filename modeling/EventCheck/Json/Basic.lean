import EventCheck.Keyed

/-! # JSON values

    The data that events carry and that patterns are made of.

    - `Json` keeps whole numbers and floating-point numbers apart and keeps the
      fields of an object in the order in which their keys first came.
    - A field enters an object by `Keyed.put`: the last value of a key wins, in
      the place of the first.
    - `Json.Sound` says that no object, at any depth, has a key twice.
    - `Json.size` is the measure under which decoding a text shrinks it, and
      `Json.levels` is the nesting depth that storage limits.
-/

namespace EventCheck

/-- A JSON value. -/
inductive Json where
  | null
  | bool (b : Bool)
  | int (n : Int)
  | float (x : Float)
  | str (s : String)
  | arr (items : List Json)
  | obj (fields : List (String × Json))
  deriving Inhabited

/-- The fields of an object, in order. -/
abbrev Fields := Keyed Json

namespace Json

/-! ## Kinds -/

/-- The six kinds that the format tells apart: both sorts of number are one kind. -/
inductive Kind where
  | null | bool | number | string | array | object
  deriving DecidableEq, Repr, Inhabited

/-- The kind as it is written in messages. -/
def Kind.name : Kind → String
  | .null => "null"
  | .bool => "bool"
  | .number => "number"
  | .string => "string"
  | .array => "array"
  | .object => "object"

/-- Everything but an array or an object is a leaf. -/
def Kind.isLeaf : Kind → Bool
  | .array | .object => false
  | _ => true

def kind : Json → Kind
  | .null => .null
  | .bool _ => .bool
  | .int _ | .float _ => .number
  | .str _ => .string
  | .arr _ => .array
  | .obj _ => .object

def isLeaf (v : Json) : Bool := v.kind.isLeaf

/-! ## Size and depth -/

mutual

/-- A string weighs one more than its length, any other leaf one; an array adds one to the
    weight of its items, an object one to that of its fields. -/
def size : Json → Nat
  | .str s => 1 + s.length
  | .arr items => 1 + sizeItems items
  | .obj fields => 1 + sizeFields fields
  | _ => 1

def sizeItems : List Json → Nat
  | [] => 0
  | v :: rest => v.size + sizeItems rest

/-- A field weighs one, the length of its key and the weight of its value. -/
def sizeFields : Fields → Nat
  | [] => 0
  | (k, v) :: rest => (1 + k.length + v.size) + sizeFields rest

end

theorem one_le_size (v : Json) : 1 ≤ v.size := by
  cases v <;> simp only [size] <;> omega

mutual

/-- How many values lie inside one another on the longest way down, the leaf included. -/
def levels : Json → Nat
  | .arr items => 1 + levelsItems items
  | .obj fields => 1 + levelsFields fields
  | _ => 1

def levelsItems : List Json → Nat
  | [] => 0
  | v :: rest => max v.levels (levelsItems rest)

def levelsFields : Fields → Nat
  | [] => 0
  | (_, v) :: rest => max v.levels (levelsFields rest)

end

mutual

/-- No object inside the value has a key twice. -/
def Sound : Json → Prop
  | .arr items => SoundItems items
  | .obj fields => (fields.map Prod.fst).Nodup ∧ SoundFields fields
  | _ => True

def SoundItems : List Json → Prop
  | [] => True
  | v :: rest => v.Sound ∧ SoundItems rest

def SoundFields : Fields → Prop
  | [] => True
  | (_, v) :: rest => v.Sound ∧ SoundFields rest

end

/-- The greatest number of digits of a whole number in a text. -/
def maxDigits : Nat := 4300

/-! ## Emptiness -/

/-- A value that counts as nothing where a value is optional: null, false, a zero, and an empty
    text, list or object. -/
def isVoid : Json → Bool
  | .null => true
  | .bool b => !b
  | .int n => n == 0
  | .float x => x == 0
  | .str s => s.isEmpty
  | .arr items => items.isEmpty
  | .obj fields => fields.isEmpty

end Json

/-! ## Objects -/

namespace Fields

theorem size_put_le (fields : Fields) (key : String) (value : Json) :
    Json.sizeFields (Keyed.put fields key value) ≤
      Json.sizeFields fields + (1 + key.length + value.size) := by
  induction fields with
  | nil => simp [Keyed.put, Json.sizeFields]
  | cons p rest ih =>
    obtain ⟨k, v⟩ := p
    simp only [Keyed.put]
    split
    · next h => subst h; simp only [Json.sizeFields]; omega
    · simp only [Json.sizeFields]; omega

theorem size_merge_le (base pairs : Fields) :
    Json.sizeFields (Keyed.merge base pairs) ≤
      Json.sizeFields base + Json.sizeFields pairs := by
  induction pairs generalizing base with
  | nil => simp [Keyed.merge, Json.sizeFields]
  | cons p rest ih =>
    obtain ⟨k, v⟩ := p
    have h := ih (Keyed.put base k v)
    have h' := size_put_le base k v
    simp only [Keyed.merge, List.foldl_cons, Json.sizeFields] at h ⊢
    omega

/-- Dropping repeated keys makes an object no larger. -/
theorem size_ofPairs_le (pairs : List (String × Json)) :
    Json.sizeFields (Keyed.ofPairs pairs) ≤ Json.sizeFields pairs := by
  have h := size_merge_le [] pairs
  simpa [Keyed.ofPairs, Json.sizeFields] using h

end Fields

end EventCheck
