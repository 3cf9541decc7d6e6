import EventCheck.Watch.Pace
import EventCheck.Watch.Scan

/-! # What becomes of a watch

    - `NotFound` says that no event was found in time, `WatchError` that the
      watch could not go on.
    - `WatchResult` is what a watch leaves.
-/

namespace EventCheck

namespace Seconds

def toJson : Seconds Float → Json
  | .whole n => .int n
  | .fractional x => .float x

/-- The length as messages show it. -/
def text (s : Seconds Float) : String := s.toJson.shown

end Seconds

/-- No event was found in time. -/
structure NotFound (τ : Type) where
  name : String
  pattern : Option Value
  timeout : Seconds τ
  elapsed : τ
  candidates : Nat
  last : Option Event

/-- Why a watch could not go on. -/
inductive WatchError where
  | search (error : Value.SearchError)
  | negativeSleep
  | unwritable (typeName : String)
  | digits
  deriving DecidableEq, Repr, Inhabited

def WatchError.message : WatchError → String
  | .search e => e.message
  | .negativeSleep => "sleep length must be non-negative"
  | .unwritable typeName => "Object of type " ++ typeName ++ " is not JSON serializable"
  | .digits => Log.Obstacle.digits.message

namespace NotFound

/-- The pattern as it is written; a pattern that was accepted can be written. -/
def patternText (pattern : Value) : String :=
  match pattern.serial with
  | .ok v => v.text
  | .error _ => ""

def message (e : NotFound Float) : String :=
  "Expected event '" ++ e.name ++ "'"
    ++ (match e.pattern with
        | none => ""
        | some pattern => " with data " ++ patternText pattern)
    ++ " was not found within " ++ e.timeout.text ++ "s (elapsed " ++ Fixed.text 2 e.elapsed
    ++ "s, unconsumed '" ++ e.name ++ "' events on last poll: " ++ toString e.candidates ++ ")"

end NotFound

/-- How a watch ended. -/
inductive Outcome (τ : Type) where
  | matched (event : Event)
  | expired (error : NotFound τ)
  | crashed (error : WatchError)

/-- What a watch that came to an end leaves: the consumed event, or the error. -/
structure WatchResult (τ : Type) where
  matched : Bool
  id : Option Nat
  error : Option (NotFound τ)
  event : Option Event

namespace Outcome

variable {τ : Type}

/-- The result that an outcome leaves; a watch that crashed leaves an empty one. -/
def result : Outcome τ → WatchResult τ
  | .matched event => ⟨true, some event.id, none, some event⟩
  | .expired error => ⟨false, none, some error, none⟩
  | .crashed _ => ⟨false, none, none, none⟩

end Outcome

end EventCheck
