/-! # UTF-8

    `Utf8.pieces` splits bytes into characters and faults. A fault takes the
    longest start of a character that was cut short, or one byte.

    - `Utf8.strict` reads bytes that have to be free of faults,
    - `Utf8.lenient` puts a replacement character for each fault,
    - `Utf8.skipping` leaves faults out.
-/

namespace EventCheck

namespace Utf8

/-- Why bytes are no character. -/
inductive Fault where
  | badStart | badContinuation | cutShort
  deriving DecidableEq, Repr

def Fault.text : Fault → String
  | .badStart => "invalid start byte"
  | .badContinuation => "invalid continuation byte"
  | .cutShort => "unexpected end of data"

/-- A character, or a fault with the bytes that it takes. -/
inductive Piece where
  | char (c : Char) (width : Nat)
  | fault (fault : Fault) (bytes : List UInt8)

def Piece.width : Piece → Nat
  | .char _ width => width
  | .fault _ bytes => bytes.length

def isContinuation (b : UInt8) : Bool := 0x80 ≤ b && b < 0xC0

/-- Can the byte be the second one behind this first one? This keeps out the long forms of short
    characters, halves of surrogate pairs and numbers beyond the last character. -/
def isSecond (first b : UInt8) : Bool :=
  isContinuation b
    && (if first = 0xE0 then 0xA0 ≤ b
        else if first = 0xED then b < 0xA0
        else if first = 0xF0 then 0x90 ≤ b
        else if first = 0xF4 then b < 0x90
        else true)

/-- The low six bits of a continuation byte. -/
def tail (b : UInt8) : Nat := b.toNat % 64

/-- The first piece of bytes that begin with `b`. -/
def first (b : UInt8) (rest : List UInt8) : Piece :=
  if b < 0x80 then .char (Char.ofNat b.toNat) 1
  else if b < 0xC2 || 0xF5 ≤ b then .fault .badStart [b]
  else
    match rest with
    | [] => .fault .cutShort [b]
    | c :: rest =>
      if !isSecond b c then .fault .badContinuation [b]
      else if b < 0xE0 then .char (Char.ofNat (b.toNat % 32 * 64 + tail c)) 2
      else
        match rest with
        | [] => .fault .cutShort [b, c]
        | d :: rest =>
          if !isContinuation d then .fault .badContinuation [b, c]
          else if b < 0xF0 then
            .char (Char.ofNat ((b.toNat % 16 * 64 + tail c) * 64 + tail d)) 3
          else
            match rest with
            | [] => .fault .cutShort [b, c, d]
            | e :: _ =>
              if !isContinuation e then .fault .badContinuation [b, c, d]
              else
                .char (Char.ofNat (((b.toNat % 8 * 64 + tail c) * 64 + tail d) * 64 + tail e)) 4

theorem one_le_width_first (b : UInt8) (rest : List UInt8) : 1 ≤ (first b rest).width := by
  unfold first
  repeat' split
  all_goals simp [Piece.width]

/-- The characters and faults of a string of bytes, in order. -/
def pieces (bytes : List UInt8) : List Piece :=
  match bytes with
  | [] => []
  | b :: rest =>
    let piece := first b rest
    piece :: pieces ((b :: rest).drop piece.width)
  termination_by bytes.length
  decreasing_by
    have := one_le_width_first b rest
    simp only [List.length_drop, List.length_cons]; omega

/-- The first fault of a string of bytes, and where it is. -/
structure DecodeError where
  fault : Fault
  bytes : List UInt8
  position : Nat
  deriving DecidableEq, Repr

/-- Two hexadecimal digits. -/
def hexByte (b : UInt8) : String :=
  let ds := Nat.toDigits 16 b.toNat
  "0x" ++ String.ofList (List.replicate (2 - ds.length) '0' ++ ds)

/-- The fault in words: a single byte is shown, of several only the place. -/
def DecodeError.message (e : DecodeError) : String :=
  "'utf-8' codec can't decode "
    ++ (match e.bytes with
        | [b] => "byte " ++ hexByte b ++ " in position " ++ toString e.position
        | bytes =>
          "bytes in position " ++ toString e.position ++ "-"
            ++ toString (e.position + bytes.length - 1))
    ++ ": " ++ e.fault.text

/-- The characters of pieces that begin at a place, up to the first fault. -/
def strictFrom (position : Nat) : List Piece → Except DecodeError (List Char)
  | [] => .ok []
  | .char c width :: rest => (strictFrom (position + width) rest).map (c :: ·)
  | .fault fault bytes :: _ => .error ⟨fault, bytes, position⟩

/-- The text of bytes without faults. -/
def strict (bytes : List UInt8) : Except DecodeError String :=
  (strictFrom 0 (pieces bytes)).map String.ofList

/-- The text of any bytes, with a replacement character for each fault. -/
def lenient (bytes : List UInt8) : String :=
  String.ofList ((pieces bytes).map fun
    | .char c _ => c
    | .fault _ _ => '\ufffd')

/-- The text of any bytes without the faults. -/
def skipping (bytes : List UInt8) : String :=
  String.ofList ((pieces bytes).filterMap fun
    | .char c _ => some c
    | .fault _ _ => none)

/-- The bytes of a text. -/
def encode (s : String) : List UInt8 := s.toUTF8.toList

end Utf8

end EventCheck
