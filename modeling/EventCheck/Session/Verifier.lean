import EventCheck.Session.Waiting

/-! # The verifier

    What a test says about the events it expects. Every pattern is loaded first;
    if that fails nothing else happens. Messages and titles show patterns and items, and
    what cannot be written to the log cannot be shown either.

    - `Act.check` waits for an event, `Act.checkLater` does so in the background,
      and `Act.awaitChecks` joins the checks in the background. Their outcomes are
      attached to the report.
    - `Act.filter` asks for stored events.
    - `Act.matchedItem` finds the item of an event in which the whole pattern
      occurs.
-/

namespace EventCheck

namespace Act

/-- The pattern that a source gives. -/
def load (source : Pattern.Source) : Act (Option Fields) :=
  match Pattern.load source with
  | .ok pattern => pure pattern
  | .error e => throw (.badPattern e)

/-- A loaded pattern, or another object, as a value. -/
def valueOf (pattern : Option Fields) : Option Value :=
  pattern.map fun fields => .ofJson (.obj fields)

/-- Notes that a step of the report begins. -/
def begin (title : String) : Act Unit := change fun s => s.begin title

/-- Attaches the artifacts of a check. -/
def attach (name : String) (occasion : Occasion) (expected : Option Value) (actual : Option Event) :
    Act Unit := do
  let w ← read
  change fun s =>
    s.attach w.setup.reporter name occasion expected (actual.map fun e => .ofJson e.payload)

/-- The timeout of a check, the usual one if none is given. -/
def timeoutOf (timeout : Option (Seconds Float)) : Act (Seconds Float) := do
  let w ← read
  pure (timeout.getD w.setup.timeout)

/-- The title of a check. A pattern that asks for nothing is not shown. -/
def checkTitle (name : String) (pattern : Option Fields) (timeout : Seconds Float) : String :=
  let data :=
    match pattern with
    | none | some [] => ""
    | some fields => " with data " ++ (Json.obj fields).shown
  "Wait for event '" ++ name ++ "'" ++ data ++ " (timeout=" ++ timeout.text ++ "s)"

/-- Waits for an event and consumes it. -/
def check (expected : Expectation) : Act (Option Event) := do
  let pattern ← load expected.source
  let timeout ← timeoutOf expected.timeout
  demand (valueOf pattern)
  begin (checkTitle expected.name pattern timeout)
  let result ← watch ⟨expected.name, valueOf pattern, some timeout, expected.interval⟩ 0
  let artifacts := "event_check(" ++ expected.name ++ ")"
  match result.error with
  | some error => do
    attach artifacts .failure (valueOf pattern) error.last
    throw (.notFound error)
  | none => do
    attach artifacts .success (valueOf pattern) result.event
    pure result.event

/-- Begins to wait for an event in the background. -/
def checkLater (expected : Expectation) : Act Nat := do
  let pattern ← load expected.source
  let timeout ← timeoutOf expected.timeout
  begin ("Start background check of event '" ++ expected.name ++ "' (timeout=" ++ timeout.text
    ++ "s)")
  schedule ⟨expected.name, valueOf pattern, some timeout, expected.interval⟩

/-- Joins the checks in the background. -/
def awaitChecks (bound : Option (Seconds Float)) : Act Unit := do
  begin "Wait for background event checks"
  tryCatch (awaitAll bound) fun
    | .check failure => do
      attach ("event_check_async(" ++ failure.name ++ ")") .failure failure.pattern failure.last?
      throw (.check failure)
    | error => throw error

/-- The stored events that pass a filter. -/
def filter (f : Filter) (source : Pattern.Source) : Act (List Event) := do
  let pattern ← load source
  let s ← get
  match f.events pattern s.monitor.store.events with
  | .ok events => pure events
  | .error e => throw (.badName e)

/-- The one of several events that a position names: the last one, or the first one. -/
def pick? (position : String) (events : List Event) : Option Event :=
  if position == "last" then events.getLast? else events.head?

/-- The record of an item that was found. -/
def itemRecord (name : String) (e : Event) (itemName : Json) (position : String) : Log.Record :=
  Session.record .info "event_verifier" "matched_item_found"
    [("name", .str name), ("id", .int e.id), ("item_name", .ofJson itemName),
      ("position", .str position)]

/-- The item of an event in which the whole pattern occurs, and its name. -/
def matchedItem (expected : Expectation) (position : String) : Act (Fields × Json) := do
  match ← load expected.source with
  | none => throw .noPattern
  | some pattern => do
    let name := expected.name
    demand (valueOf (some pattern))
    begin ("Find item of event '" ++ name ++ "' matching " ++ (Json.obj pattern).shown)
    let _ ← check
      ⟨name, .mapping (Value.ofFields pattern), expected.timeout, none⟩
    let s ← get
    let events := s.monitor.store.events.filter fun e =>
      e.name == name && e.payload.contains pattern
    match pick? position events with
    | none => throw (.noLongerStored name pattern)
    | some e =>
      match e.payload.findItem? pattern with
      | none => throw (.noItem name e.id pattern)
      | some item =>
        match Keyed.get? item "name" with
        | none => do
          demand (valueOf (some item))
          throw (.noItemName name item)
        | some itemName => do
          demand (some (.ofJson itemName))
          log (itemRecord name e itemName position)
          pure (item, itemName)

/-- The locators of an item by its name. -/
def pageElement (expected : Expectation) (position : String) : Act PageElement := do
  let (_, name) ← matchedItem expected position
  pure (.named name.plain)

/-- What happens at the end of a test, once. -/
def teardown : Act Unit := do
  let w ← read
  let s ← get
  if s.isTornDown then pure ()
  else do
    set { s with isTornDown := true }
    match w.setup.atEnd with
    | .nothing => pure ()
    | .joins bound => awaitChecks (some bound)
    | .warns =>
      if s.monitor.registry.isEmpty then pure ()
      else
        log (Session.record .warning "fixtures" "background_event_checks_not_joined"
          [("pending", .int s.monitor.registry.length)])

end Act

end EventCheck
