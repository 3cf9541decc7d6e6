import EventCheck.Matching.Foreign
import EventCheck.Store.Basic

/-! # Scanning the store

    One scan of a watch walks the events behind its baseline in the order in
    which they came. The first one that has the watch's name, is not consumed
    and contains its pattern is consumed. An event that somebody else takes at
    that moment is passed over, and the scan goes on.
-/

namespace EventCheck

/-- What a watch looks for: a name, a pattern if there is one, and how many events at the front of
    the store it leaves out. -/
structure Query where
  name : String
  pattern : Option Value
  baseline : Int

namespace Query

/-- Does the payload contain the pattern? Without a pattern every payload does. -/
def admits (q : Query) (payload : Json) : Except Value.SearchError Bool :=
  match q.pattern with
  | none => .ok true
  | some pattern => (Value.ofJson payload).contains pattern

/-- Can the query be written to the log? -/
def isLoggable (q : Query) : Bool := q.pattern.all Value.isLoggable

/-- Does the event have the name, and is it still to be had? -/
def isCandidate (q : Query) (s : Store) (e : Event) : Bool :=
  e.name == q.name && !s.isConsumed e.id

end Query

/-- What a scan has seen so far: how many candidates, the last of them that did not contain the
    pattern, and the ids that it tried to consume, each with the answer. -/
structure Tally where
  candidates : Nat
  last : Option Event
  answers : List (Nat × Bool)
  deriving Inhabited

/-- The ids that were lost to somebody else. -/
def Tally.lost (t : Tally) : List Nat := (t.answers.filter fun (_, answer) => !answer).map Prod.fst

/-- How a scan ends. -/
inductive Found where
  | event (event : Event)
  | nothing
  | failed (error : Value.SearchError)

/-- A scan at its end: how, what it saw, and the store that it leaves. -/
structure Scan where
  found : Found
  tally : Tally
  store : Store

/-- Scans the given events. -/
def Query.scanEvents (q : Query) (rivals : Rivals) : List Event → Tally → Store → Scan
  | [], tally, s => ⟨.nothing, tally, s⟩
  | e :: rest, tally, s =>
    if q.isCandidate s e then
      let tally := { tally with candidates := tally.candidates + 1 }
      match q.admits e.payload with
      | .error error => ⟨.failed error, tally, s⟩
      | .ok false => q.scanEvents rivals rest { tally with last := some e } s
      | .ok true =>
        match rivals.tryConsume s e.id with
        | (true, s') => ⟨.event e, { tally with answers := tally.answers ++ [(e.id, true)] }, s'⟩
        | (false, s') =>
          q.scanEvents rivals rest { tally with answers := tally.answers ++ [(e.id, false)] } s'
    else q.scanEvents rivals rest tally s

/-- One scan of the store. -/
def Query.scan (q : Query) (rivals : Rivals) (s : Store) : Scan :=
  q.scanEvents rivals (s.eventsSince q.baseline) ⟨0, none, []⟩ s

end EventCheck
