import EventCheck.Store.Event

/-! # The event store

    The store of one test: the events in the order in which they came, and the
    ledger of the ids that a successful check has consumed.

    - An id counts as consumed from its first consumption until a reset, whether
      an event with that id is stored or not.
    - A rejected offer changes nothing.
-/

namespace EventCheck

structure Store where
  events : List Event
  consumed : List Int
  nextId : Nat
  deriving Inhabited

namespace Store

/-- The store of a new test. -/
def empty : Store := ⟨[], [], 1⟩

def size (s : Store) : Nat := s.events.length

/-- Stores what is offered under the next id, or names the fields that do not fit. -/
def append (s : Store) (offer : Incoming) (now : String) :
    Except (List EventField) (Store × Event) :=
  match offer.accept s.nextId now with
  | .error fields => .error fields
  | .ok event => .ok (⟨s.events ++ [event], s.consumed, s.nextId + 1⟩, event)

/-- The events from a position on; a negative position counts from the end. -/
def eventsSince (s : Store) (baseline : Int) : List Event :=
  if 0 ≤ baseline then s.events.drop baseline.toNat
  else s.events.drop (s.size - baseline.natAbs)

def isConsumed (s : Store) (id : Int) : Bool := s.consumed.contains id

/-- Consumes an id and tells whether it was still to be had. -/
def tryConsume (s : Store) (id : Int) : Bool × Store :=
  if s.isConsumed id then (false, s) else (true, { s with consumed := id :: s.consumed })

def last? (s : Store) : Option Event := s.events.getLast?

/-- How many stored events have the name. -/
def count (s : Store) (name : String) : Nat := (s.events.filter (·.name == name)).length

/-- Forgets all events and the ledger, and counts ids from one again. -/
def reset (_ : Store) : Store := empty

end Store

/-- Others who act on the store in the middle of a check: ids that somebody else takes at the
    moment when a check reaches for them, and ids whose consumption makes somebody reset the
    store. -/
structure Rivals where
  lost : List Int
  resetAfter : List Int
  deriving Inhabited

namespace Rivals

def none : Rivals := ⟨[], []⟩

/-- Consumes an id among rivals. -/
def tryConsume (r : Rivals) (s : Store) (id : Int) : Bool × Store :=
  let (fresh, s') := s.tryConsume id
  if r.lost.contains id then (false, s')
  else (fresh, if fresh && r.resetAfter.contains id then s'.reset else s')

end Rivals

end EventCheck
