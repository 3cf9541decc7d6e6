import EventCheck.Json.Value
import EventCheck.Yaml.Node

/-! # Data of a document

    What a document says: numbers, flags, texts, lists and mappings.

    - Of a key that comes again the last value counts, in the place of the first.
    - A key has to be a leaf. Keys that are no text have no place in data, but
      `Data.hasOddKeys` tells whether there is one.
    - A number or a day may be written in the right form and still be none
      (`Data.Fault`).
-/

namespace EventCheck

namespace Yaml

namespace Data

/-! ## Faults -/

/-- Why a moment does not exist. -/
inductive MomentFault where
  | year (year : Nat)
  | month | day | hour | minute | second
  | zone (minutes : Int)
  deriving DecidableEq, Repr

/-- A length of time in days and seconds as messages show it. -/
def shownLength (minutes : Int) : String :=
  let days := minutes.fdiv 1440
  let seconds := minutes.fmod 1440 * 60
  let parts :=
    (if days = 0 then [] else ["days=" ++ toString days])
      ++ (if seconds = 0 then [] else ["seconds=" ++ toString seconds])
  "datetime.timedelta(" ++ ", ".intercalate (if parts.isEmpty then ["0"] else parts) ++ ")"

def MomentFault.message : MomentFault → String
  | .year y => "year " ++ toString y ++ " is out of range"
  | .month => "month must be in 1..12"
  | .day => "day is out of range for month"
  | .hour => "hour must be in 0..23"
  | .minute => "minute must be in 0..59"
  | .second => "second must be in 0..59"
  | .zone minutes =>
    "offset must be a timedelta strictly between -timedelta(hours=24) and timedelta(hours=24), not "
      ++ shownLength minutes

/-- Why a document gives no data. -/
inductive Fault where
  | malformed
  | moment (fault : MomentFault)
  | notWhole (base : Nat) (text : String)
  | tooLong (digits : Nat)
  | notNumber (text : String)
  deriving DecidableEq, Repr

def Fault.message : Fault → String
  | .malformed => ""
  | .moment fault => fault.message
  | .notWhole base text =>
    "invalid literal for int() with base " ++ toString base ++ ": " ++ Quoted.text text
  | .tooLong digits =>
    "Exceeds the limit (4300 digits) for integer string conversion: value has " ++ toString digits
      ++ " digits; use sys.set_int_max_str_digits() to increase the limit"
  | .notNumber text => "could not convert string to float: " ++ Quoted.text text

/-! ## Leaves -/

/-- A sign of either sort in front of a number, and the rest. -/
def numberParts (text : String) : Bool × List Char :=
  Digits.sign (text.toList.filter (· != '_'))

/-- A whole number that digits of a base write. -/
def inBase (base : Nat) (negative : Bool) (cs : List Char) : Except Fault Int :=
  match cs.mapM hexDigit? with
  | none | some [] => .error (.notWhole base (String.ofList cs))
  | some ds =>
    if ds.any (base ≤ ·) then .error (.notWhole base (String.ofList cs))
    else if base = 10 && 4300 < ds.length then .error (.tooLong ds.length)
    else .ok (Digits.signed negative (ds.foldl (fun n d => n * base + d) 0))

/-- A whole number in sixties, the greatest in front. -/
def inSixties (negative : Bool) (parts : List (List Char)) : Except Fault Int := do
  let ds ← parts.mapM (inBase 10 false)
  let n := ds.foldl (fun n d => n * 60 + d) 0
  pure (if negative then -n else n)

def whole (text : String) : Except Fault Int :=
  let (negative, cs) := numberParts text
  match cs with
  | ['0'] => .ok 0
  | '0' :: 'b' :: ds => inBase 2 negative ds
  | '0' :: 'x' :: ds => inBase 16 negative ds
  | '0' :: ds => inBase 8 negative ds
  | cs => if cs.contains ':' then inSixties negative (cs.splitOn ':') else inBase 10 negative cs

/-- A number with a point and without a sign. -/
def plainNumber (cs : List Char) : Except Fault Float :=
  match Digits.float? false cs with
  | some x => .ok x
  | none => .error (.notNumber (String.ofList cs))

/-- The sum of the parts of a number in sixties, from the last one on. -/
def sumInSixties : Nat → Float → List Float → Float
  | _, sum, [] => sum
  | base, sum, x :: rest => sumInSixties (base * 60) (sum + x * Binary64.ofInt base) rest

def fraction (text : String) : Except Fault Float := do
  let (negative, cs) := numberParts text
  let cs := cs.map Char.toLower
  let sign (x : Float) : Float := if negative then -x else x
  if cs == ['.', 'i', 'n', 'f'] then pure (Digits.infinity negative)
  else if cs == ['.', 'n', 'a', 'n'] then pure (0.0 / 0.0)
  else if cs.contains ':' then
    let parts ← (cs.splitOn ':').mapM plainNumber
    pure (sign (sumInSixties 1 0 parts.reverse))
  else
    let x ← plainNumber cs
    pure (sign x)

def isLeapYear (year : Nat) : Bool := year % 4 == 0 && (year % 100 != 0 || year % 400 == 0)

def monthLength (year month : Nat) : Nat :=
  if month = 2 then if isLeapYear year then 29 else 28
  else if [4, 6, 9, 11].contains month then 30
  else 31

/-- What is wrong with a day. -/
def dayFault? (m : Moment) : Option MomentFault :=
  if m.year = 0 then some (.year m.year)
  else if m.month = 0 || 12 < m.month then some .month
  else if m.day = 0 || monthLength m.year m.month < m.day then some .day
  else none

/-- What is wrong with a time of day. -/
def timeFault? (t : DayTime) : Option MomentFault :=
  if 23 < t.hour then some .hour
  else if 59 < t.minute then some .minute
  else if 59 < t.second then some .second
  else none

/-- What is wrong with a distance from universal time; a day is too far. -/
def zoneFault? (t : DayTime) : Option MomentFault :=
  match t.zone with
  | some (.ahead minutes) => if 1440 ≤ minutes.natAbs then some (.zone minutes) else none
  | _ => none

def momentFault? (m : Moment) : Option MomentFault :=
  match m.time with
  | none => dayFault? m
  | some t => (zoneFault? t).or ((dayFault? m).or (timeFault? t))

/-- A moment; data knows it only by its sort. -/
def moment (text : String) : Except Fault Value :=
  match Moment.read? text.toList with
  | none => .error .malformed
  | some m =>
    match momentFault? m with
    | some fault => .error (.moment fault)
    | none => .ok (.other (if m.time.isSome then "datetime" else "date"))

def flag (text : String) : Except Fault Bool :=
  let word := String.ofList (text.toList.map Char.toLower)
  if ["yes", "true", "on"].contains word then .ok true
  else if ["no", "false", "off"].contains word then .ok false
  else .error .malformed

def leaf (tag : Tag) (text : String) : Except Fault Value :=
  match tag with
  | .text => .ok (.str text)
  | .flag => (flag text).map .bool
  | .whole => (whole text).map .int
  | .fraction => (fraction text).map .float
  | .nothing => .ok .null
  | .moment => moment text
  | _ => .error .malformed

/-! ## Collections -/

/-- Can the value be a key? -/
def isKey : Value → Bool
  | .arr _ | .obj _ | .set _ => false
  | _ => true

/-- The mapping of those pairs whose keys are texts. -/
def fieldsOf (pairs : List (Value × Value)) : Keyed Value :=
  pairs.foldl (fun fields (k, v) =>
    match k with
    | .str k => Keyed.put fields k v
    | _ => fields) []

/-- Pairs as a collection of a sort. -/
def ofPairs (tag : Tag) (pairs : List (Value × Value)) : Except Fault Value :=
  if !pairs.all fun (k, _) => isKey k then .error .malformed
  else
    match tag with
    | .mapping => .ok (.obj (fieldsOf pairs))
    | .set => .ok (.set (pairs.map Prod.fst))
    | _ => .error .malformed

mutual

/-- What a node says. -/
def ofNode : Node → Except Fault Value
  | .scalar tag text => leaf tag text
  | .enclosing isMapping => .ok (if isMapping then .obj [] else .arr [])
  | .mapping tag entries => do ofPairs tag (← ofEntries entries)
  | .sequence tag items =>
    match tag with
    | .list => (ofNodes items).map .arr
    | .pairs => (ofSingles items).map .arr
    | _ => .error .malformed

def ofNodes : List Node → Except Fault (List Value)
  | [] => .ok []
  | node :: rest => do
    let v ← ofNode node
    pure (v :: (← ofNodes rest))

def ofEntries : List (Node × Node) → Except Fault (List (Value × Value))
  | [] => .ok []
  | (key, value) :: rest => do
    let key ← ofNode key
    let value ← ofNode value
    pure ((key, value) :: (← ofEntries rest))

/-- A list of pairs is written as mappings with one entry each. -/
def ofSingles : List Node → Except Fault (List Value)
  | [] => .ok []
  | node :: rest =>
    match node with
    | .mapping _ [(key, value)] => do
      let key ← ofNode key
      let value ← ofNode value
      pure (.tuple [key, value] :: (← ofSingles rest))
    | _ => .error .malformed

end

/-- Has a mapping a key that is no text? -/
def hasOddKeys : Node → Bool
  | .mapping .mapping entries =>
    entries.any fun (k, _) =>
      match k with
      | .scalar .text _ => false
      | _ => true
  | _ => false

end Data

end Yaml

end EventCheck
