import EventCheck.Text.Utf8

/-! # Encodings of JSON texts

    Bytes that hold a JSON text may be in UTF-8, UTF-16 or UTF-32. A mark at the
    front tells which; without one the places of the zero bytes do, since a JSON
    text begins with a character of ASCII.
-/

namespace EventCheck

/-- How wide units are, in bytes, and whether their high byte comes first. -/
structure WideUnits where
  width : Nat
  bigEndian : Bool
  deriving DecidableEq, Repr

namespace Encoding

/-- An encoding, and how many bytes of a mark are in front of the text. -/
inductive Choice where
  | utf8 (mark : Nat)
  | wide (units : WideUnits) (mark : Nat)
  deriving DecidableEq, Repr

/-- The encoding of a JSON text. -/
def detect (bytes : List UInt8) : Choice :=
  match bytes with
  | 0x00 :: 0x00 :: 0xFE :: 0xFF :: _ => .wide ⟨4, true⟩ 4
  | 0xFF :: 0xFE :: 0x00 :: 0x00 :: _ => .wide ⟨4, false⟩ 4
  | 0xFE :: 0xFF :: _ => .wide ⟨2, true⟩ 2
  | 0xFF :: 0xFE :: _ => .wide ⟨2, false⟩ 2
  | 0xEF :: 0xBB :: 0xBF :: _ => .utf8 3
  | a :: b :: c :: d :: _ =>
    if a = 0 then (if b ≠ 0 then .wide ⟨2, true⟩ 0 else .wide ⟨4, true⟩ 0)
    else if b = 0 then
      (if c ≠ 0 || d ≠ 0 then .wide ⟨2, false⟩ 0 else .wide ⟨4, false⟩ 0)
    else .utf8 0
  | [a, b] =>
    if a = 0 then .wide ⟨2, true⟩ 0
    else if b = 0 then .wide ⟨2, false⟩ 0
    else .utf8 0
  | _ => .utf8 0

/-- Why bytes are no text in an encoding with wide units. -/
inductive WideFault where
  | truncated | outOfRange
  deriving DecidableEq, Repr

/-- Why bytes are no text, and where. -/
inductive Error where
  | narrow (error : Utf8.DecodeError)
  | wide (units : WideUnits) (fault : WideFault) (bytes : List UInt8) (position : Nat)
  deriving DecidableEq, Repr

def WideUnits.name (u : WideUnits) : String :=
  "utf-" ++ toString (8 * u.width) ++ (if u.bigEndian then "-be" else "-le")

def Error.message : Error → String
  | .narrow e => e.message
  | .wide units fault bytes position =>
    "'" ++ WideUnits.name units ++ "' codec can't decode "
      ++ (match bytes with
          | [b] => "byte " ++ Utf8.hexByte b ++ " in position " ++ toString position
          | bytes =>
            "bytes in position " ++ toString position ++ "-"
              ++ toString (position + bytes.length - 1))
      ++ ": "
      ++ (match fault with
          | .truncated => "truncated data"
          | .outOfRange => "code point not in range(0x110000)")

/-- The number that the bytes of one unit write. -/
def unitValue (bigEndian : Bool) (bytes : List UInt8) : Nat :=
  (if bigEndian then bytes else bytes.reverse).foldl (fun n b => n * 256 + b.toNat) 0

/-- The units of bytes that begin at a place. `steps` bounds their number. -/
def unitsFrom (u : WideUnits) : Nat → Nat → List UInt8 → Except Error (List Nat)
  | 0, _, _ => .ok []
  | _, _, [] => .ok []
  | steps + 1, position, bytes =>
    let unit := bytes.take u.width
    if unit.length < u.width then .error (.wide u .truncated unit position)
    else
      let n := unitValue u.bigEndian unit
      if 0x110000 ≤ n then .error (.wide u .outOfRange unit position)
      else (unitsFrom u steps (position + u.width) (bytes.drop u.width)).map (n :: ·)

/-- The characters that units write: two halves of a pair are one, a half alone is replaced. -/
def unitsText : List Nat → List Char
  | [] => []
  | [u] => [if 0xD800 ≤ u && u < 0xE000 then '\ufffd' else Char.ofNat u]
  | u :: v :: rest =>
    if 0xD800 ≤ u && u < 0xDC00 && 0xDC00 ≤ v && v < 0xE000 then
      Char.ofNat (0x10000 + (u - 0xD800) * 0x400 + (v - 0xDC00)) :: unitsText rest
    else
      (if 0xD800 ≤ u && u < 0xE000 then '\ufffd' else Char.ofNat u) :: unitsText (v :: rest)

/-- The text that bytes hold. -/
def decode (bytes : List UInt8) : Except Error String :=
  match detect bytes with
  | .utf8 mark => (Utf8.strict (bytes.drop mark)).mapError .narrow
  | .wide units mark =>
    (unitsFrom units bytes.length mark (bytes.drop mark)).map
      fun us => String.ofList (unitsText us)

end Encoding

end EventCheck
