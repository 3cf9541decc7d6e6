import EventCheck.Session.Agenda
import EventCheck.Session.Moment
import EventCheck.Session.Step

/-! # Sessions

    A session runs a test on a clock of its own. The clock stands still while
    anything runs; it moves when the test sleeps or waits, from one entry of the
    agenda to the next (`Session.passUntil`).

    - On the agenda are the next rounds of background checks, the moments when the
      test wakes up, and steps that are to be taken later.
    - `Setup` is what stays the same, `Session` what changes: the monitor, the
      clock, the agenda, and what the step that is being taken leaves behind.
    - `World` says in addition how a later step is taken and how many entries may
      come up in one wait.
-/

namespace EventCheck

/-- What happens to the checks that are left at the end of a test. -/
inductive AtEnd where
  | nothing
  | warns
  | joins (bound : Seconds Float)

/-- What stays the same during a session. -/
structure Setup where
  timeout : Seconds Float
  polling : Float
  reporter : Reporter
  paths : List String
  atEnd : AtEnd

/-- What comes up. -/
inductive Task where
  | wake
  | poll (check : Nat)
  | step (step : Step)

structure Session where
  monitor : Monitor Float
  clock : Float
  agenda : Agenda Task
  rung : List Nat
  context : Log.Entries
  isTornDown : Bool
  titles : List String
  attached : List Attachment
  journal : List Log.Record
  fired : List (Except Failure Reply)

/-- Where a step is taken. -/
structure World where
  setup : Setup
  fire : Step → Session → Session
  rounds : Nat

namespace Session

/-- A session at its start. -/
def new (rivals : Rivals) : Session :=
  ⟨.new rivals, 0, .empty, [], [], false, [], [], [], []⟩

/-- The session with nothing left behind by earlier steps. -/
def cleared (s : Session) : Session :=
  { s with titles := [], attached := [], journal := [], fired := [] }

/-- The moment that the clock shows. -/
def now (s : Session) : String := Moment.text s.clock

/-! ## What a step leaves behind -/

/-- Writes a record in a context. -/
def write (context : Log.Entries) (r : Log.Record) (s : Session) : Session :=
  { s with journal := s.journal ++ [r.within context] }

/-- Writes a record in the context of the test. -/
def log (r : Log.Record) (s : Session) : Session := s.write s.context r

/-- Notes that a step of the report begins. -/
def begin (title : String) (s : Session) : Session := { s with titles := s.titles ++ [title] }

/-- Attaches the artifacts of a check. -/
def attach (reporter : Reporter) (name : String) (occasion : Occasion)
    (expected actual : Option Value) (s : Session) : Session :=
  let report := reporter.attach name occasion expected actual
  report.records.foldl (fun s r => s.log r) { s with attached := s.attached ++ report.attached }

/-! ## Records -/

def optional (v : Option Value) : Value := v.getD .null

def seconds (t : Seconds Float) : Value := .ofJson t.toJson

/-- A length of time as records show it. -/
def millis (x : Float) : Value := .float (Fixed.round 3 x)

def record (level : Log.Level) (source event : String) (entries : Log.Entries) : Log.Record :=
  ⟨level, source, event, entries⟩

def appendedRecord (e : Event) : Log.Record :=
  record .info "events" "event_appended"
    [("id", .int e.id), ("name", .str e.name), ("payload", .ofJson e.payload),
      ("uri", optional (e.request.map fun r => .str r.uri))]

def consumedRecord (id : Int) : Log.Record :=
  record .info "events" "event_consumed" [("id", .int id)]

def clearedRecord : Log.Record := record .info "events" "events_cleared" []

def watchRecord (w : Watch Float) : Log.Record :=
  record .info "watcher" "event_watch_start"
    [("name", .str w.query.name), ("pattern", optional w.query.pattern),
      ("timeout", seconds w.timeout), ("baseline", .int w.query.baseline)]

def matchedRecord (w : Watch Float) (e : Event) (now : Float) : Log.Record :=
  record .info "watcher" "event_watch_matched"
    [("name", .str w.query.name), ("id", .int e.id), ("elapsed", millis (w.pace.elapsed now))]

def timeoutRecord (w : Watch Float) (tally : Tally) (now : Float) : Log.Record :=
  record .warning "watcher" "event_watch_timeout"
    [("name", .str w.query.name), ("pattern", optional w.query.pattern),
      ("timeout", seconds w.timeout), ("elapsed", millis (w.pace.elapsed now)),
      ("candidates", .int tally.candidates)]

def scheduledRecord (c : Check Float) : Log.Record :=
  record .info "scheduler" "event_check_scheduled"
    [("name", .str c.name), ("pattern", optional c.pattern), ("timeout", seconds c.timeout),
      ("baseline", .int c.baseline)]

def crashedRecord (name : String) (e : WatchError) : Log.Record :=
  record .error "scheduler" "event_check_crashed"
    [("name", .str name), ("error", .str e.message), ("exc_info", .bool true)]

def joinedRecord (v : Verdict Float) : Log.Record :=
  record .info "scheduler" "event_checks_joined"
    [("total", .int v.total), ("failed", .int v.failures.length)]

def failedRecord (f : CheckFailure Float) : Log.Record :=
  record .error "scheduler" "event_check_failed"
    [("name", .str f.name), ("pattern", optional f.pattern), ("error", .str f.message)]

/-- The records of an id that is consumed, with a reset if that follows from it. -/
def consumptionRecords (rivals : Rivals) (id : Int) : List Log.Record :=
  consumedRecord id
    :: if !rivals.lost.contains id && rivals.resetAfter.contains id then [clearedRecord] else []

/-- The records of one round of a watch. -/
def pollRecords (rivals : Rivals) (w : Watch Float) (poll : Poll Float) (now : Float) :
    List Log.Record :=
  let lost := poll.tally.lost.map fun (id : Nat) => consumedRecord id
  let found :=
    match poll.turn with
    | .ended (.matched e) => consumptionRecords rivals e.id ++ [matchedRecord w e now]
    | _ => []
  lost ++ found ++ if poll.expired then [timeoutRecord w poll.tally now] else []

/-! ## Time -/

/-- Puts a task on the agenda and gives its ticket. -/
def put (time : Float) (task : Task) (s : Session) : Nat × Session :=
  let (ticket, agenda) := s.agenda.put time task
  (ticket, { s with agenda := agenda })

/-- Runs the next round of a background check. Its records stand in no context; the first of them,
    that the watch starts, is missing if it cannot be written. -/
def runCheck (number : Nat) (s : Session) : Session :=
  match s.monitor.pollCheck number s.clock with
  | none => s
  | some (round, poll, monitor) =>
    let rivals := s.monitor.rivals
    let start :=
      if round.isFirst && round.watch.query.isLoggable then [watchRecord round.watch] else []
    let crash :=
      match poll.turn with
      | .ended (.crashed e) => [crashedRecord round.watch.query.name e]
      | _ => []
    let s := { s with monitor := monitor }
    let s := (start ++ pollRecords rivals round.watch poll s.clock ++ crash).foldl
      (fun s r => s.write [] r) s
    match poll.turn with
    | .sleeps duration => (s.put (s.clock + duration) (.poll number)).2
    | .ended _ => s

/-- Runs what has come up. -/
def runEntry (w : World) (e : Agenda.Entry Task) (s : Session) : Session :=
  match e.task with
  | .wake => { s with rung := e.ticket :: s.rung }
  | .poll number => s.runCheck number
  | .step step => w.fire step s

/-- Runs entry after entry until something holds, and moves the clock along. -/
def passUntil (w : World) (isOver : Session → Bool) : Nat → Session → Session
  | 0, s => s
  | rounds + 1, s =>
    if isOver s then s
    else
      match s.agenda.pop? with
      | none => s
      | some (e, agenda) =>
        passUntil w isOver rounds (runEntry w e { s with agenda := agenda, clock := e.time })

/-- Has the entry with this ticket come up? -/
def hasRung (ticket : Nat) (s : Session) : Bool := s.rung.contains ticket

/-- Lets time pass. -/
def sleep (w : World) (duration : Float) (s : Session) : Session :=
  let (ticket, s) := s.put (s.clock + duration) .wake
  let s := passUntil w (hasRung ticket) w.rounds s
  { s with rung := s.rung.erase ticket }

/-- Has the check nothing left to do? -/
def isSettled (number : Nat) (s : Session) : Bool :=
  match s.monitor.checks[number]? with
  | none => true
  | some c =>
    match c.phase with
    | .idle | .ended => true
    | _ => false

/-- Is the test refused to wait for a check? It does not wait for one that was never scheduled. -/
def refuses (number : Nat) (bound : Option Float) (s : Session) : Bool :=
  isOverlong bound && s.monitor.checks[number]?.any fun c => !c.isIdle

/-- Waits for a check to end, not longer than the bound if there is one. -/
def waitForCheck (w : World) (number : Nat) (bound : Option Float) (s : Session) : Session :=
  if s.isSettled number then s
  else
    match bound with
    | none => passUntil w (isSettled number) w.rounds s
    | some bound =>
      let (ticket, s) := s.put (s.clock + bound) .wake
      let s := passUntil w (fun s => s.isSettled number || s.hasRung ticket) w.rounds s
      { s with rung := s.rung.erase ticket }

end Session

end EventCheck
