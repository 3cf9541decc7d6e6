import EventCheck.Watch.Poll

/-! # Background checks

    A check is a watch in the background. It leaves out the events that were
    stored when it was scheduled, runs its rounds one by one and ends with a
    result and, unless an event was found, with a failure.

    - `Check` is a check at some point of its life, `Check.Phase` how far it is.
    - `Check.round?` is its next round, `Check.Round.poll` what comes of that, and
      `Check.after` the check behind it.
    - `CheckFailure` is what is reported when the check is joined.

    Checks give way to one another and to the test only where they sleep. What happens
    between two sleeps happens at once: with its last round a check has its result and
    its failure, and has ended.
-/

namespace EventCheck

/-- Why a check failed: no event came in time, its watch could not go on, or it was still running
    when it was no longer waited for. -/
inductive CheckFault (τ : Type) where
  | notFound (error : NotFound τ)
  | crashed (error : WatchError)
  | unfinished (bound : Seconds τ)

/-- The failure of a check, and how many others failed in the join that reported it first. -/
structure CheckFailure (τ : Type) where
  name : String
  pattern : Option Value
  fault : CheckFault τ
  others : Nat

namespace CheckFailure

/-- The failure on its own. -/
def own (f : CheckFailure Float) : String :=
  match f.fault with
  | .notFound error => error.message
  | .crashed error =>
    "Background check of event '" ++ f.name ++ "' crashed: " ++ error.message
  | .unfinished bound =>
    "Background check of event '" ++ f.name ++ "' did not finish within " ++ bound.text ++ "s"

def message (f : CheckFailure Float) : String :=
  f.own ++
    if f.others = 0 then "" else "\n(and " ++ toString f.others ++ " more failed event checks)"

/-- Can the failure be written to the log? It is written with the pattern of its check. -/
def isLoggable {τ : Type} (f : CheckFailure τ) : Bool := f.pattern.all Value.isLoggable

/-- The last event that a check saw without finding its pattern in it. -/
def last? {τ : Type} (f : CheckFailure τ) : Option Event :=
  match f.fault with
  | .notFound error => error.last
  | _ => none

end CheckFailure

/-- How far a check is. -/
inductive Check.Phase (τ : Type) where
  | idle
  | scheduled (interval : τ)
  | watching (watch : Watch τ)
  | ended

/-- A background check. -/
structure Check (τ : Type) where
  name : String
  pattern : Option Value
  timeout : Seconds τ
  baseline : Int
  phase : Check.Phase τ
  result : Option (WatchResult τ)
  failure : Option (CheckFailure τ)

namespace Check

/-- A check that was never scheduled. -/
def idle {τ : Type} (name : String) (pattern : Option Value) (timeout : Seconds τ)
    (baseline : Int) : Check τ :=
  ⟨name, pattern, timeout, baseline, .idle, none, none⟩

/-- A check as it is scheduled when this many events are stored. -/
def scheduled {τ : Type} (name : String) (pattern : Option Value) (timeout : Seconds τ)
    (stored : Nat) (interval : τ) : Check τ :=
  ⟨name, pattern, timeout, stored, .scheduled interval, none, none⟩

variable {τ : Type}

def isDone (c : Check τ) : Bool :=
  match c.phase with
  | .ended => true
  | _ => false

def isIdle (c : Check τ) : Bool :=
  match c.phase with
  | .idle => true
  | _ => false

/-- The check as messages show it. -/
def shown (c : Check τ) : String :=
  "EventCheckHandle(name=" ++ Quoted.text c.name ++ ", baseline=" ++ toString c.baseline ++ ", "
    ++ (if c.isDone then "done" else "running") ++ ")"

/-- A round of a check: its watch, and whether the watch begins with it. -/
structure Round (τ : Type) where
  watch : Watch τ
  isFirst : Bool

variable [Time τ]

/-- The next round of the check, if it has one. -/
def round? (c : Check τ) (now : τ) : Option (Round τ) :=
  match c.phase with
  | .scheduled interval =>
    some ⟨⟨⟨c.name, c.pattern, c.baseline⟩, .starting now c.timeout interval, c.timeout⟩, true⟩
  | .watching watch => some ⟨watch, false⟩
  | .idle | .ended => none

/-- What comes of a round. A watch begins with a record that shows its pattern, and crashes where
    that cannot be written. -/
def Round.poll (round : Round τ) (r : Rivals) (now : τ) (s : Store) : Poll τ :=
  if round.isFirst && !round.watch.query.isLoggable then .unlogged s
  else round.watch.poll r now s

/-- The failure that an outcome of the check means, if it means one. -/
def failureOf (c : Check τ) : Outcome τ → Option (CheckFailure τ)
  | .matched _ => none
  | .expired error => some ⟨c.name, c.pattern, .notFound error, 0⟩
  | .crashed error => some ⟨c.name, c.pattern, .crashed error, 0⟩

/-- The check behind a round of its watch. It has its result and its failure when it has ended, and
    not before. -/
def after (c : Check τ) (watch : Watch τ) : Turn τ → Check τ
  | .sleeps _ => { c with phase := .watching watch }
  | .ended outcome =>
    { c with phase := .ended, result := some outcome.result, failure := c.failureOf outcome }

/-- The failure of a check that is no longer waited for. -/
def unfinished (c : Check τ) (bound : Seconds τ) : CheckFailure τ :=
  ⟨c.name, c.pattern, .unfinished bound, 0⟩

end Check

end EventCheck
