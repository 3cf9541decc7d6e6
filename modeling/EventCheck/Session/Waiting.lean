import EventCheck.Session.Basic

/-! # Waiting for events and checks

    - `Act.watch` scans the store again and again until an event is found, the
      timeout is over, or the watch cannot go on.
    - `Act.schedule` does the same in the background.
    - `Act.awaitAll` joins all checks in the order in which they were scheduled
      and fails with the first failure.

    Before something that a caller handed in is written to the log, `Act.demand` asks
    whether it can be. If not, the step fails there, and what it did before stays done.
-/

namespace EventCheck

/-- Something that happens in a session: it has a value or fails, and changes the session either
    way. -/
abbrev Act := ReaderT World (ExceptT Failure (StateM Session))

namespace Act

/-- Changes the session. -/
def change (f : Session → Session) : Act Unit := modify f

/-- Writes a record in the context of the test. -/
def log (r : Log.Record) : Act Unit := change fun s => s.log r

/-- Writes several records. -/
def logAll (rs : List Log.Record) : Act Unit :=
  change fun s => rs.foldl (fun s r => s.log r) s

/-- Fails if something holds. -/
def failIf (b : Bool) (e : Failure) : Act Unit := if b then throw e else pure ()

/-- Fails unless this can be written to the log. -/
def demand (v : Option Value) : Act Unit := failIf (!v.all Value.isLoggable) .digits

/-- Lets time pass. -/
def sleep (duration : Float) : Act Unit := do
  let w ← read
  change fun s => s.sleep w duration

/-! ## Watching -/

/-- The rounds of a watch in the foreground, at most `rounds` of them; none are left only if the
    watch went on forever. -/
def rounds (watch : Watch Float) : Nat → Act (Option (Outcome Float))
  | 0 => pure none
  | count + 1 => do
    let s ← get
    let (poll, monitor) := s.monitor.poll watch s.clock
    set { s with monitor := monitor }
    logAll (Session.pollRecords s.monitor.rivals watch poll s.clock)
    match poll.turn with
    | .ended outcome => pure (some outcome)
    | .sleeps duration => do
      sleep duration
      rounds watch count

/-- Watches for an event behind a baseline. -/
def watch (q : Search) (baseline : Int) : Act (WatchResult Float) := do
  let w ← read
  let s ← get
  let timeout := q.timeout.getD Timing.default.timeout
  let interval := q.interval.getD w.setup.polling
  let watch : Watch Float :=
    ⟨⟨q.name, q.pattern, baseline⟩, .starting s.clock timeout interval, timeout⟩
  demand q.pattern
  log (Session.watchRecord watch)
  match ← rounds watch w.rounds with
  | some (.crashed error) => throw (.watch error)
  | some outcome => pure outcome.result
  | none => pure ⟨false, none, none, none⟩

/-- The event of a result, or its error. -/
def eventOf (r : WatchResult Float) : Act (Option Event) :=
  match r.error with
  | some error => throw (.notFound error)
  | none => pure r.event

/-! ## Background checks -/

/-- Schedules a check for events that come from now on and gives its number. The check is under way
    when that is logged. -/
def schedule (q : Search) : Act Nat := do
  let w ← read
  let s ← get
  let timeout := q.timeout.getD Timing.default.timeout
  let interval := q.interval.getD w.setup.polling
  let (number, monitor) := s.monitor.schedule q.name q.pattern timeout interval
  let (_, s) := { s with monitor := monitor }.put s.clock (.poll number)
  set s
  demand q.pattern
  match monitor.checks[number]? with
  | some c => log (Session.scheduledRecord c)
  | none => pure ()
  pure number

/-- The check with a number. -/
def checkAt (number : Nat) : Act (Check Float) := do
  let s ← get
  match s.monitor.checks[number]? with
  | some c => pure c
  | none => throw .noSuchCheck

/-- The number of a check; a negative one counts from the end. -/
def numberOf (index : Int) : Act Nat := do
  let count := (← get).monitor.checks.length
  let n := if index < 0 then count + index else index
  if 0 ≤ n && n < count then pure n.toNat else throw .noSuchCheck

/-- Waits for a check to end, not longer than the bound if there is one. -/
def waitFor (number : Nat) (bound : Option Float) : Act Unit := do
  let w ← read
  change fun s => s.waitForCheck w number bound

/-! ## Joining -/

/-- Waits for each of the checks that a join took and settles it. A wait may be refused. -/
def settle (j : Join Float) : List Nat → Act (Join Float)
  | [] => pure j
  | number :: rest => do
    let s ← get
    failIf (j.isRefused s.clock) .overlong
    waitFor number (j.patience s.clock)
    let s ← get
    settle (j.turn s.monitor) rest

/-- Writes a record for each failure, up to one that cannot be written. -/
def logFailures : List (CheckFailure Float) → Act Unit
  | [] => pure ()
  | f :: rest => do
    demand f.pattern
    log (Session.failedRecord f)
    logFailures rest

/-- Joins all registered checks. They are taken from the registry first, so what goes wrong behind
    that loses their outcomes. -/
def awaitAll (bound : Option (Seconds Float)) : Act Unit := do
  let s ← get
  let (join, monitor) := Join.start s.monitor bound s.clock
  set { s with monitor := monitor }
  let join ← settle join join.waiting
  let s ← get
  let (verdict, monitor) := join.verdict s.monitor
  set { s with monitor := monitor }
  log (Session.joinedRecord verdict)
  logFailures verdict.failures
  match verdict.reported with
  | none => pure ()
  | some failure => throw (.check failure)

end Act

end EventCheck
