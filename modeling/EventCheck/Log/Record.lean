import EventCheck.Json.Value
import EventCheck.Text.Blank

/-! # Log records

    A record has a level, the part of the program that wrote it, what happened,
    and fields. The fields of the context stand in every record, but those of the
    record itself count.

    - Fields without a value are left out.
    - Payloads and patterns can be of any size, so they are clipped.
-/

namespace EventCheck

namespace Log

/-! ## Levels -/

/-- How grave a record is. -/
inductive Level where
  | info | warning | error
  deriving DecidableEq, Repr

def Level.name : Level → String
  | .info => "info"
  | .warning => "warning"
  | .error => "error"

/-- A capital letter for a small one; besides ASCII two letters have one of its capitals. -/
def capital (c : Char) : Char :=
  if c == '\u0131' then 'I' else if c == '\u017f' then 'S' else c.toUpper

/-- The rank below which records are not written. -/
def thresholds : Keyed Nat := [
    ("TRACE", 5), ("CRITICAL", 50), ("FATAL", 50), ("ERROR", 40), ("WARNING", 30), ("WARN", 30),
    ("INFO", 20), ("DEBUG", 10), ("NOTSET", 0)]

/-- The rank that a setting names, in letters of either case; anything else means that of
    information. -/
def threshold (setting : Option String) : Nat :=
  let name := String.ofList ((setting.getD "INFO").toList.map capital)
  (Keyed.get? thresholds name).getD 20

/-! ## Records -/

/-- The fields of a record or of the context. -/
abbrev Entries := Keyed Value

/-- What a part of the program has to say. -/
structure Record where
  level : Level
  source : String
  event : String
  entries : Entries

/-- The entries without those that have no value. -/
def present (entries : Entries) : Entries :=
  entries.filter fun (_, v) =>
    match v with
    | .null => false
    | _ => true

/-- The keys whose values are clipped. -/
def bulky : List String := ["payload", "pattern"]

/-- How many characters of a bulky value are kept if no setting says otherwise. -/
def defaultLimit : Int := 2000

/-- The limit that a setting names; what is no whole number names none. -/
def limit (setting : Option String) : Int :=
  match setting with
  | none => defaultLimit
  | some s => (Numeral.int? s).getD defaultLimit

/-- The first `n` characters of a text; below zero, all but the last `-n`. -/
def cut (n : Int) (cs : List Char) : List Char :=
  if 0 ≤ n then cs.take n.toNat else cs.take (cs.length - n.natAbs)

/-- A value whose text is longer than the limit becomes the front of that text. -/
def clipValue (limit : Int) (v : Value) : Value :=
  let text := v.renderShown.text.toList
  if limit < text.length then
    .str (String.ofList (cut limit text) ++ "... (" ++ toString text.length ++ " chars)")
  else v

def clip (limit : Int) (entries : Entries) : Entries :=
  entries.map fun (k, v) => (k, if bulky.contains k then clipValue limit v else v)

/-! ## Context -/

/-- The keys that a record uses for itself. -/
def reserved : List String := ["event", "level", "timestamp", "module"]

/-- The record as it is written: within the context, without absent values, and clipped. -/
def Record.within (r : Record) (context : Entries) : Record :=
  let entries := (Keyed.merge context r.entries).filter fun (k, _) => !reserved.contains k
  { r with entries := clip defaultLimit (present entries) }

/-- The entries in the order of their keys. -/
def Record.sorted (r : Record) : Entries :=
  r.entries.mergeSort fun a b => a.1 ≤ b.1

end Log

end EventCheck
