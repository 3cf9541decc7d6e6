import EventCheck.Matching.Search
import EventCheck.Regex.Reader
import EventCheck.Regex.Search
import EventCheck.Store.Basic

/-! # Filters

    A filter asks for stored events, consumed or not: by name, by pattern, and by
    a condition on the event itself. A name is compared in one of four ways
    (`NameMode`); an expression that is no regular expression matches no name.
-/

namespace EventCheck

/-- How an expected name is compared with a name. -/
inductive NameMode where
  | exact | contains | startsWith | regex
  deriving DecidableEq, Repr

/-- Why names cannot be compared. -/
inductive NameError where
  | unknownMode (mode : String)
  | tooManyRounds
  | mixedAlphabets
  deriving DecidableEq, Repr

def NameError.message : NameError → String
  | .unknownMode mode => "Expected code to be unreachable, but got: " ++ Quoted.text mode
  | .tooManyRounds => "the repetition number is too large"
  | .mixedAlphabets => "ASCII and UNICODE flags are incompatible"

namespace NameMode

/-- The mode that a text names. -/
def read? : String → Option NameMode
  | "exact" => some .exact
  | "contains" => some .contains
  | "starts_with" => some .startsWith
  | "regex" => some .regex
  | _ => none

/-- Does a name match the expected one? -/
def accepts (mode : NameMode) (expected name : String) : Except NameError Bool :=
  match mode with
  | .exact => .ok (name == expected)
  | .contains => .ok (isPart expected name)
  | .startsWith => .ok (expected.toList.isPrefixOf name.toList)
  | .regex =>
    match Regex.read expected with
    | .ok e => .ok (e.occursIn name)
    | .error .malformed => .ok false
    | .error .tooManyRounds => .error .tooManyRounds
    | .error .mixedAlphabets => .error .mixedAlphabets

end NameMode

/-- A condition on an event: ids above a number, and, on demand, a request that brought it. -/
structure Condition where
  idAbove : Int
  needsRequest : Bool

def Condition.holds (c : Condition) (e : Event) : Bool :=
  c.idAbove < e.id && (!c.needsRequest || e.request.isSome)

/-- What a filter asks for, apart from its pattern. The mode matters only where there is a name. -/
structure Filter where
  name : Option String
  mode : String
  condition : Option Condition

namespace Filter

/-- Does the name of an event pass? -/
def acceptsName (f : Filter) (name : String) : Except NameError Bool :=
  match f.name with
  | none => .ok true
  | some expected =>
    match NameMode.read? f.mode with
    | some mode => mode.accepts expected name
    | none => .error (.unknownMode f.mode)

/-- Does an event pass? -/
def accepts (f : Filter) (pattern : Option Fields) (e : Event) : Except NameError Bool :=
  (f.acceptsName e.name).map fun named =>
    named && (pattern.all fun pattern => e.payload.contains pattern)
      && f.condition.all fun condition => condition.holds e

/-- The events that pass, in order. -/
def events (f : Filter) (pattern : Option Fields) : List Event → Except NameError (List Event)
  | [] => .ok []
  | e :: rest =>
    match f.accepts pattern e with
    | .error error => .error error
    | .ok passes =>
      (f.events pattern rest).map fun found => if passes then e :: found else found

end Filter

end EventCheck
