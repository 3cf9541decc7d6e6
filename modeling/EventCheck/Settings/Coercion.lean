import EventCheck.Number.Digits
import EventCheck.Text.Blank
import EventCheck.Text.Utf8
import EventCheck.Validation

/-! # Reading settings

    A setting may be given in another form than its own: a number as text, a flag
    as a word or as zero or one, a whole number with a fraction of zero. Each
    reader takes the forms that say the same and names what is wrong with any
    other.
-/

namespace EventCheck

namespace Coercion

/-! ## Texts with numbers -/

/-- A text without single underscores between its characters; none if an underscore stands at an
    end or beside another one. -/
def withoutUnderscores? (cs : List Char) : Option (List Char) :=
  let rec go : Bool → List Char → Option (List Char)
    | _, [] => some []
    | allowed, '_' :: rest =>
      if allowed && !rest.isEmpty then go false rest else none
    | _, c :: rest => (go true rest).map (c :: ·)
  go false cs

/-- The words for what has no decimal notation. -/
def special? (negative : Bool) (cs : List Char) : Option Float :=
  let word := String.ofList (cs.map Char.toLower)
  if word == "inf" || word == "infinity" then
    some (Digits.infinity negative)
  else if word == "nan" then some (0.0 / 0.0)
  else none

/-- The number that a text writes. -/
def floatOfChars? (cs : List Char) : Option Float :=
  let (negative, rest) := Digits.sign cs
  (Digits.float? negative rest).orElse fun _ => special? negative rest

/-- The number that a text with blanks around it writes. -/
def float? (s : String) : Option Float :=
  let cs := Blank.trim Numeral.isBlank s.toList
  (floatOfChars? cs).orElse fun _ => (withoutUnderscores? cs).bind floatOfChars?

/-- A whole number without a point and zeros behind it. -/
def withoutFraction (cs : List Char) : List Char :=
  match cs.dropWhile (· != '.') with
  | '.' :: zeros =>
    if !zeros.isEmpty && zeros.all (· == '0') then cs.takeWhile (· != '.') else cs
  | _ => cs

/-- The greatest length of a whole number. -/
def maxLength : Nat := 4300

/-- The whole number that a text with blanks around it writes. -/
def int (s : String) : Checked Int :=
  let (negative, rest) := Digits.sign (Blank.trim Numeral.isBlank s.toList)
  match withoutUnderscores? (withoutFraction rest) with
  | none => .misfit .unreadableWhole
  | some cs =>
    match Digits.front cs with
    | ([], _) => .misfit .unreadableWhole
    | (ds, []) =>
      if maxLength < ds.length then .misfit .tooLong
      else .ok (Digits.signed negative (Digits.value ds))
    | _ => .misfit .unreadableWhole

/-- The flag that a word names, in letters of either case. -/
def flag? (s : String) : Option Bool :=
  let word := String.ofList (s.toList.map Char.toLower)
  if ["1", "on", "t", "true", "y", "yes"].contains word then some true
  else if ["0", "off", "f", "false", "n", "no"].contains word then some false
  else none

/-- One more than the greatest whole number that another form of a number may stand for. -/
def wordBound : Nat := Nat.pow 2 63

/-- The whole number that a number without a fraction is. -/
def ofFloat (x : Float) : Checked Int :=
  match Binary64.parts x with
  | none => .misfit .notFinite
  | some p =>
    let (num, den) := Binary64.scale p.mantissa 1 p.exponent
    if num % den ≠ 0 then .misfit .fractional
    else if wordBound ≤ num / den then .misfit .tooLong
    else .ok (Digits.signed p.negative (num / den))

/-! ## Settings of each sort -/

/-- The text of a value that is one, also as bytes; what is wrong with other values and with bytes
    that are no text depends on what is read from it. -/
def textOf (v : Value) (absent broken : Misfit) : Checked String :=
  match v with
  | .str s => .ok s
  | .bytes bs =>
    match Utf8.strict bs with
    | .ok s => .ok s
    | .error _ => .misfit broken
  | _ => .misfit absent

def text (v : Value) : Checked String := textOf v .notText .brokenText

def number (v : Value) : Checked Float :=
  match v with
  | .float x => .ok x
  | .int n =>
    let x := Binary64.ofInt n
    if (Binary64.parts x).isSome then .ok x else .misfit .notNumber
  | .bool b => .ok (if b then 1 else 0)
  | v => do
    match float? (← textOf v .notNumber .unreadableNumber) with
    | some x => .ok x
    | none => .misfit .unreadableNumber

def whole (v : Value) : Checked Int :=
  match v with
  | .int n => .ok n
  | .bool b => .ok (if b then 1 else 0)
  | .float x => ofFloat x
  | v => do int (← textOf v .notWhole .unreadableWhole)

/-- The flag that a whole number stands for. -/
def flagOfInt (n : Int) : Checked Bool :=
  if n = 0 then .ok false
  else if n = 1 then .ok true
  else if -(wordBound : Int) ≤ n && n < wordBound then .misfit .unreadableFlag
  else .misfit .notFlag

def flag (v : Value) : Checked Bool :=
  match v with
  | .bool b => .ok b
  | .int n => flagOfInt n
  | .float x =>
    match ofFloat x with
    | .ok n => flagOfInt n
    | .error _ => .misfit .notFlag
  | v => do
    match flag? (← textOf v .notFlag .unreadableFlag) with
    | some b => .ok b
    | none => .misfit .unreadableFlag

/-- A setting that may be left empty. -/
def optional {α : Type} (read : Value → Checked α) (v : Value) : Checked (Option α) :=
  match v with
  | .null => .ok none
  | v => (read v).map some

/-- A list of texts. -/
def texts (v : Value) : Checked (List String) :=
  match v with
  | .arr items | .tuple items | .set items =>
    .all (items.zipIdx.map fun (v, i) => Checked.under (toString i) (text v))
  | _ => .misfit .notList

/-! ## Fields -/

/-- The setting that a field gives, or the default. -/
def field {α : Type} (fields : Keyed Value) (key : String) (read : Value → Checked α)
    (default : α) : Checked α :=
  match Keyed.get? fields key with
  | none => .ok default
  | some v => Checked.under key (read v)

end Coercion

end EventCheck
