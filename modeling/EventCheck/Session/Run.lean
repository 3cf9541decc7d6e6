import EventCheck.Ingest
import EventCheck.Session.Verifier

/-! # Running a session

    `Act.perform` takes one step. `Session.run` takes all steps of a test one after
    the other and gives, for each, what it returned or how it failed, what it left
    behind, and the state after it.

    A later step may wait as well and let further steps come up. Each comes up once,
    so this goes no deeper than there are later steps.
-/

namespace EventCheck

namespace Act

/-- The request with which something was offered. -/
def requestOf (fields : Option Fields) : Act (Option Request) :=
  match fields with
  | none => pure none
  | some fields =>
    match Request.ofFields fields with
    | .ok request => pure (some request)
    | .error violations => throw (.request violations)

/-- Stores an event, logs it, and gives its id. -/
def append (offer : Incoming) : Act Nat := do
  let s ← get
  match s.monitor.append offer s.now with
  | .error fields => throw (.event fields)
  | .ok (event, monitor) => do
    set { s with monitor := monitor }
    demand (some (.ofJson event.payload))
    log (Session.appendedRecord event)
    pure event.id

def tryConsume (id : Int) : Act Bool := do
  let s ← get
  let fresh := !s.monitor.store.isConsumed id
  let (taken, monitor) := s.monitor.tryConsume id
  set { s with monitor := monitor }
  if fresh then logAll (Session.consumptionRecords s.monitor.rivals id)
  pure taken

def reset : Act Unit := do
  change fun s => { s with monitor := s.monitor.reset }
  log Session.clearedRecord

/-- The records of an ingestion: one for each event that can be logged, why it stopped if it did, and
    how many ids it gives back. -/
def ingestionRecords (request : Option Request) (i : Ingestion) : List Log.Record :=
  let source := Session.optional (request.map fun r => .str (r.remoteAddress ++ r.uri))
  let failure := i.stop.toList.map fun stop =>
    Session.record .warning "ingest" "failed_to_ingest_event"
      [("source", source), ("error", .str stop.message)]
  let summary := if i.readable then
      [Session.record .info "ingest" "batch_ingested"
        [("source", source), ("count", .int i.ids.length)]]
    else []
  (i.added.filter Event.isLoggable).map Session.appendedRecord ++ failure ++ summary

/-- Puts what an ingestion left in the place of the store. -/
def finishIngestion (request : Option Request) (i : Ingestion) : Act Unit := do
  change fun s => { s with monitor := { s.monitor with store := i.store } }
  logAll (ingestionRecords request i)

/-- Ingests what was sent and gives the ids of its events. -/
def ingest (raw : Value) (request : Option Request) : Act (List Nat) := do
  let s ← get
  let i := s.monitor.store.ingest raw request s.now
  finishIngestion request i
  pure i.ids

/-- Handles a call to the capture endpoint. -/
def handle (call : Call) : Act Response := do
  let w ← read
  let s ← get
  match Endpoint.handle w.setup.paths call s.monitor.store s.now with
  | .error e => throw (.badTarget e)
  | .ok handled => do
    match handled.ingested with
    | some (request, i) => finishIngestion (some request) i
    | none => pure ()
    match handled.problem with
    | some e =>
      log (Session.record .error "event_server" "batch_handler_error"
        [("error", .str e.message), ("exc_info", .bool true)])
    | none => pure ()
    pure handled.response

/-- Sets entries of the context of log records. -/
def bind (test : Option String) (extra : Log.Entries) : Act Unit :=
  change fun s =>
    { s with
      context := Keyed.merge s.context (("test", Session.optional (test.map .str)) :: extra) }

def clearContext : Act Unit := change fun s => { s with context := [] }

/-- Puts a step on the agenda. -/
def later (delay : Float) (step : Step) : Act Unit :=
  change fun s => (s.put (s.clock + delay) (.step step)).2

/-- Lets time pass, forwards only. -/
def advance (duration : Float) : Act Unit :=
  if duration < 0 then throw (.watch .negativeSleep) else sleep duration

/-- Takes a step. -/
def perform : Step → Act Reply
  | .append name payload time request => do
    let request ← requestOf request
    pure (.number (← append ⟨name, payload, time, request⟩))
  | .snapshot => do pure (.events (← get).monitor.store.events)
  | .names => do pure (.names ((← get).monitor.store.events.map (·.name)))
  | .ids => do pure (.ids ((← get).monitor.store.events.map (·.id)))
  | .eventsSince baseline => do
    pure (.ids (((← get).monitor.store.eventsSince baseline).map (·.id)))
  | .tryConsume id => do pure (.flag (← tryConsume id))
  | .isConsumed id => do pure (.flag ((← get).monitor.store.isConsumed id))
  | .lastEvent => do pure (.event (← get).monitor.store.last?)
  | .count name => do pure (.number ((← get).monitor.store.count name))
  | .reset => do
    reset
    pure .nothing
  | .ingest raw request => do
    let request ← requestOf request
    pure (.ids (← ingest raw request))
  | .call call => do pure (.response (← handle call))
  | .advance duration => do
    advance duration
    pure .nothing
  | .later delay step => do
    later delay step
    pure .nothing
  | .watch q baseline => do pure (.result (some (← watch q baseline)))
  | .waitFor q => do
    let result ← watch q 0
    pure (.event (← eventOf result))
  | .schedule q => do
    let number ← schedule q
    pure (.check (← checkAt number))
  | .newCheck name pattern timeout baseline => do
    let s ← get
    let (number, monitor) := s.monitor.addCheck (.idle name pattern timeout baseline)
    set { s with monitor := monitor }
    pure (.check (← checkAt number))
  | .join index bound => do
    let number ← numberOf index
    failIf ((← get).refuses number bound) .overlong
    waitFor number bound
    let c ← checkAt number
    pure (.result c.result)
  | .look index => do
    let number ← numberOf index
    pure (.check (← checkAt number))
  | .awaitAll bound => do
    awaitAll bound
    pure .nothing
  | .check expected => do pure (.event (← check expected))
  | .checkLater expected => do
    let number ← checkLater expected
    pure (.check (← checkAt number))
  | .awaitChecks bound => do
    awaitChecks bound
    pure .nothing
  | .filter f source => do pure (.ids ((← filter f source).map (·.id)))
  | .matchedItem expected position => do
    let (item, _) ← matchedItem expected position
    pure (.item item)
  | .pageElement expected position => do pure (.element (← pageElement expected position))
  | .teardown => do
    teardown
    pure .finished
  | .bind test extra => do
    bind test extra
    pure .nothing
  | .clearContext => do
    clearContext
    pure .nothing
  | .enterTest test => do
    bind (some test) []
    pure .nothing
  | .leaveTest => do
    clearContext
    pure .finished

/-- Takes a step in a session. -/
def take (w : World) (step : Step) (s : Session) : Except Failure Reply × Session :=
  Id.run (((perform step).run w).run s)

end Act

/-- How many steps a step puts on the agenda, those that come up later included. -/
def Step.laterCount : Step → Nat
  | .later _ step => step.laterCount + 1
  | _ => 0

namespace Session

/-- What a step gave and left behind, and the state after it. -/
structure Outcome where
  reply : Except Failure Reply
  fired : List (Except Failure Reply)
  titles : List String
  attached : List Attachment
  journal : List Log.Record
  stored : Nat
  consumed : List Nat
  pending : Nat
  clock : Float

/-- Takes a later step and notes what it gave. While it waits further steps may come up, at most
    `depth` in one another. -/
def fire (setup : Setup) (rounds : Nat) : Nat → Step → Session → Session
  | 0, _, s => s
  | depth + 1, step, s =>
    let (reply, s) := Act.take ⟨setup, fire setup rounds depth, rounds⟩ step s
    { s with fired := s.fired ++ [reply] }

/-- Takes a step and gathers what it gave. -/
def take (w : World) (step : Step) (s : Session) : Outcome × Session :=
  let (reply, s) := Act.take w step s.cleared
  let store := s.monitor.store
  let consumed := ((List.range store.size).map (· + 1)).filter fun (id : Nat) =>
    store.isConsumed id
  (⟨reply, s.fired, s.titles, s.attached, s.journal, store.size, consumed,
    s.monitor.registry.length, s.clock⟩, s)

/-- Takes some steps one after the other. -/
def takeAll (w : World) : List Step → Session → List Outcome
  | [], _ => []
  | step :: rest, s =>
    let (outcome, s) := take w step s
    outcome :: takeAll w rest s

/-- How many entries of the agenda may come up in one wait. -/
def maxRounds : Nat := 10000000

/-- A whole session. -/
def run (setup : Setup) (rivals : Rivals) (steps : List Step) : List Outcome :=
  let depth := steps.foldl (fun n step => n + step.laterCount) 0
  takeAll ⟨setup, fire setup maxRounds depth, maxRounds⟩ steps (.new rivals)

end Session

end EventCheck
