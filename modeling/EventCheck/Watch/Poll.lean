import EventCheck.Watch.Pace
import EventCheck.Watch.Result

/-! # Polling

    A poll is one round of a watch: a scan and, if that found nothing, the
    decision whether to sleep or to give up.
-/

namespace EventCheck

/-- A watch: what it looks for, when, and the timeout that it was given. -/
structure Watch (τ : Type) where
  query : Query
  pace : Pace τ
  timeout : Seconds τ

/-- What a watch does after a round. -/
inductive Turn (τ : Type) where
  | ended (outcome : Outcome τ)
  | sleeps (duration : τ)

/-- A round at its end. `expired` tells that the deadline had come, also when the error could not
    be made. -/
structure Poll (τ : Type) where
  turn : Turn τ
  tally : Tally
  expired : Bool
  store : Store

/-- The round of a watch that crashes before it has scanned anything, since its pattern cannot be
    written to the log. -/
def Poll.unlogged {τ : Type} (s : Store) : Poll τ :=
  ⟨.ended (.crashed .digits), ⟨0, none, []⟩, false, s⟩

namespace Watch

variable {τ : Type} [Time τ]

/-- What a watch has to say when its deadline has come. The error shows the pattern, so that has
    to be one that can be written. -/
def giveUp (w : Watch τ) (tally : Tally) (now : τ) : Outcome τ :=
  let error : NotFound τ :=
    ⟨w.query.name, w.query.pattern, w.timeout, w.pace.elapsed now, tally.candidates, tally.last⟩
  match w.query.pattern with
  | none => .expired error
  | some pattern =>
    match pattern.serial with
    | .ok _ => .expired error
    | .error e => .crashed (.unwritable e.typeName)

/-- One round of the watch. -/
def poll (w : Watch τ) (rivals : Rivals) (now : τ) (s : Store) : Poll τ :=
  let scan := w.query.scan rivals s
  match scan.found with
  | .event event => ⟨.ended (.matched event), scan.tally, false, scan.store⟩
  | .failed error => ⟨.ended (.crashed (.search error)), scan.tally, false, scan.store⟩
  | .nothing =>
    match w.pace.rest now with
    | .isOver => ⟨.ended (w.giveUp scan.tally now), scan.tally, true, scan.store⟩
    | .impossible => ⟨.ended (.crashed .negativeSleep), scan.tally, false, scan.store⟩
    | .sleep duration => ⟨.sleeps duration, scan.tally, false, scan.store⟩

end Watch

end EventCheck
