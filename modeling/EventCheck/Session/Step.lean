import EventCheck.Background.Monitor
import EventCheck.Endpoint.Basic
import EventCheck.Filter
import EventCheck.Locator
import EventCheck.Log.Record
import EventCheck.Report.Artifacts

/-! # Steps of a session

    What a test can do (`Step`), what it gets for it (`Reply`), and how a step
    can fail (`Failure`).
-/

namespace EventCheck

/-- What a watch is asked to look for. Without a timeout or an interval the usual ones count. -/
structure Search where
  name : String
  pattern : Option Value
  timeout : Option (Seconds Float)
  interval : Option Float

/-- What a check expects: as a search, but with a pattern that has to be loaded first. -/
structure Expectation where
  name : String
  source : Pattern.Source
  timeout : Option (Seconds Float)
  interval : Option Float

/-- A step of a test. -/
inductive Step where
  /- The store. -/
  | append (name payload time : Value) (request : Option Fields)
  | snapshot
  | names
  | ids
  | eventsSince (baseline : Int)
  | tryConsume (id : Int)
  | isConsumed (id : Int)
  | lastEvent
  | count (name : String)
  | reset
  /- Capture. -/
  | ingest (raw : Value) (request : Option Fields)
  | call (call : Call)
  /- Time. -/
  | advance (duration : Float)
  | later (delay : Float) (step : Step)
  /- Watches and background checks. -/
  | watch (search : Search) (baseline : Int)
  | waitFor (search : Search)
  | schedule (search : Search)
  | newCheck (name : String) (pattern : Option Value) (timeout : Seconds Float) (baseline : Int)
  | join (index : Int) (bound : Option Float)
  | look (index : Int)
  | awaitAll (bound : Option (Seconds Float))
  /- The verifier. -/
  | check (expected : Expectation)
  | checkLater (expected : Expectation)
  | awaitChecks (bound : Option (Seconds Float))
  | filter (filter : Filter) (source : Pattern.Source)
  | matchedItem (expected : Expectation) (position : String)
  | pageElement (expected : Expectation) (position : String)
  | teardown
  /- The context of log records. -/
  | bind (test : Option String) (extra : Log.Entries)
  | clearContext
  | enterTest (test : String)
  | leaveTest

/-- How a step fails. -/
inductive Failure where
  | badPattern (error : Pattern.Error)
  | event (fields : List EventField)
  | request (violations : List Violation)
  | notFound (error : NotFound Float)
  | check (failure : CheckFailure Float)
  | watch (error : WatchError)
  | badName (error : NameError)
  | badTarget (error : TargetError)
  | noPattern
  | noItem (name : String) (id : Nat) (pattern : Fields)
  | noItemName (name : String) (item : Fields)
  | noLongerStored (name : String) (pattern : Fields)
  | noSuchCheck
  | overlong
  | digits

def Failure.message : Failure → String
  | .badPattern e => e.message
  | .event fields => "; ".intercalate (fields.map EventField.text)
  | .request violations => Violation.message violations
  | .notFound e => e.message
  | .check f => f.message
  | .watch e => e.message
  | .badName e => e.message
  | .badTarget e => e.message
  | .noPattern => "event_data is required to match an item"
  | .noItem name id pattern =>
    "No item of event '" ++ name ++ "' (id=" ++ toString id ++ ") matches "
      ++ (Json.obj pattern).shown
  | .noItemName name item =>
    "Matched item of event '" ++ name ++ "' has no 'name' field: " ++ (Json.obj item).shown
  | .noLongerStored name pattern =>
    "Event '" ++ name ++ "' with data " ++ (Json.obj pattern).shown ++ " is no longer stored"
  | .noSuchCheck => "list index out of range"
  | .overlong => Join.Fault.overlong.message
  | .digits => Log.Obstacle.digits.message

/-- What a step gives. -/
inductive Reply where
  | nothing
  | finished
  | number (n : Nat)
  | flag (b : Bool)
  | ids (ids : List Nat)
  | names (names : List String)
  | event (event : Option Event)
  | events (events : List Event)
  | result (result : Option (WatchResult Float))
  | check (check : Check Float)
  | item (item : Fields)
  | element (element : PageElement)
  | response (response : Response)

end EventCheck
