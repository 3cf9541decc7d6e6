import EventCheck.Proofs.Session.Alike
import EventCheck.Proofs.Session.Verifying

/-! # Reporting has no influence

    Artifacts are attached between the outcome of a check and its delivery. Whether that
    works, fails, or is not asked for, the outcome is delivered as it is, and all that
    follows is the same.

    - `Act.twins_rounds`, `Act.twins_awaitAll`: watches and joins are the same in alike
      sessions, however long they wait.
    - `Act.twins_attach`: to attach artifacts is the same for every reporter. With that,
      checks, joins, and the search for an item are the same for every reporter.
    - `Act.twins_perform`: so is every step, one case for each.
    - `Session.world_alike`: so are later steps that come up in one another, by induction
      on how deep that goes; and `Session.run_unreported`: so are whole runs, by induction
      on their steps.
    - `Session.reporting_has_no_influence` puts it together.
-/

namespace EventCheck

namespace Act

variable {w v : World}

/-! ## Section 1: Waiting -/

theorem twins_log (r : Log.Record) : Twins w v (log r) (log r) := twins_change fun _ _ h => h.log r

theorem twins_logAll (rs : List Log.Record) : Twins w v (logAll rs) (logAll rs) :=
  twins_change fun _ _ h => h.logAll rs

theorem twins_failIf (b : Bool) (failure : Failure) :
    Twins w v (failIf b failure) (failIf b failure) := by
  cases b with
  | false => exact twins_pure _
  | true => exact twins_throw _

theorem twins_demand (value : Option Value) : Twins w v (demand value) (demand value) :=
  twins_failIf _ _

theorem twins_begin (title : String) : Twins w v (begin title) (begin title) :=
  twins_change fun _ _ h => h.change (f := fun s => s.begin title) fun _ => rfl

theorem twins_sleep (hw : w.Alike v) (duration : Float) :
    Twins w v (sleep duration) (sleep duration) :=
  twins_read_bind (twins_change fun _ _ h => h.sleep hw duration)

/-- **The rounds of a watch** see the same monitor at the same time, whatever comes up between two
    of them. -/
theorem twins_rounds (hw : w.Alike v) (watch : Watch Float) (count : Nat) :
    Twins w v (rounds watch count) (rounds watch count) := by
  induction count with
  | zero => exact twins_pure _
  | succ count ih =>
    rw [rounds]
    refine twins_get_bind fun s t h => ?_
    have hpoll : s.monitor.poll watch s.clock = t.monitor.poll watch t.clock := by
      rw [h.monitor, h.clock]
    refine (twins_set (h.setMonitor (congrArg Prod.snd hpoll))).bind fun _ => ?_
    rw [h.monitor, h.clock]
    refine (twins_logAll _).bind fun _ => ?_
    cases (watch.poll t.monitor.rivals t.clock t.monitor.store).turn with
    | ended outcome => exact twins_pure _
    | sleeps duration => exact (twins_sleep hw duration).bind fun _ => ih

theorem twins_watch (hw : w.Alike v) (q : Search) (baseline : Int) :
    Twins w v (watch q baseline) (watch q baseline) := by
  unfold watch
  refine twins_read_bind (twins_get_bind fun s t h => ?_)
  rw [h.clock, hw.polling, hw.rounds]
  refine (twins_demand _).bind fun _ => ?_
  refine (twins_log _).bind fun _ => ?_
  refine (twins_rounds hw _ _).bind fun last => ?_
  rcases last with _ | ⟨e⟩ | ⟨error⟩ | ⟨error⟩
  · exact twins_pure _
  · exact twins_pure _
  · exact twins_pure _
  · exact twins_throw _

theorem twins_eventOf (r : WatchResult Float) : Twins w v (eventOf r) (eventOf r) := by
  unfold eventOf
  cases r.error with
  | none => exact twins_pure _
  | some error => exact twins_throw _

/-! ## Section 2: Checks in the background -/

theorem twins_schedule (hw : w.Alike v) (q : Search) :
    Twins w v (schedule q) (schedule q) := by
  unfold schedule
  refine twins_read_bind (twins_get_bind fun s t h => ?_)
  dsimp only
  rw [hw.polling]
  generalize q.timeout.getD Timing.default.timeout = timeout
  generalize q.interval.getD v.setup.polling = interval
  have hscheduled : s.monitor.schedule q.name q.pattern timeout interval =
      t.monitor.schedule q.name q.pattern timeout interval := by
    rw [h.monitor]
  rw [hscheduled]
  generalize t.monitor.schedule q.name q.pattern timeout interval = scheduled
  obtain ⟨number, monitor⟩ := scheduled
  -- the first round is put on both agendas, under one ticket
  refine (twins_set ((h.setMonitor rfl).put h.clock rfl)).bind fun _ => ?_
  refine (twins_demand _).bind fun _ => ?_
  cases monitor.checks[number]? with
  | none => exact twins_pure _
  | some c => exact (twins_log _).bind fun _ => twins_pure _

theorem twins_checkAt (number : Nat) : Twins w v (checkAt number) (checkAt number) := by
  refine twins_get_bind fun s t h => ?_
  rw [h.monitor]
  cases t.monitor.checks[number]? with
  | none => exact twins_throw _
  | some c => exact twins_pure _

theorem twins_numberOf (index : Int) : Twins w v (numberOf index) (numberOf index) := by
  refine twins_get_bind fun s t h => ?_
  rw [h.monitor]
  dsimp only
  generalize (if index < 0 then t.monitor.checks.length + index else index) = n
  split
  · exact twins_pure _
  · exact twins_throw _

theorem twins_waitFor (hw : w.Alike v) (number : Nat) (bound : Option Float) :
    Twins w v (waitFor number bound) (waitFor number bound) :=
  twins_read_bind (twins_change fun _ _ h => h.waitForCheck hw number bound)

theorem twins_settle (hw : w.Alike v) (j : Join Float) (numbers : List Nat) :
    Twins w v (settle j numbers) (settle j numbers) := by
  induction numbers generalizing j with
  | nil => exact twins_pure _
  | cons number rest ih =>
    refine twins_get_bind fun s t h => ?_
    rw [h.clock]
    refine (twins_failIf _ _).bind fun _ => ?_
    refine (twins_waitFor hw number _).bind fun _ => ?_
    -- what came up meanwhile may have changed the checks, but the same in both sessions
    refine twins_get_bind fun s t h => ?_
    rw [h.monitor]
    exact ih _

theorem twins_logFailures (fs : List (CheckFailure Float)) :
    Twins w v (logFailures fs) (logFailures fs) := by
  induction fs with
  | nil => exact twins_pure _
  | cons f rest ih =>
    refine (twins_demand _).bind fun _ => ?_
    exact (twins_log _).bind fun _ => ih

theorem twins_awaitAll (hw : w.Alike v) (bound : Option (Seconds Float)) :
    Twins w v (awaitAll bound) (awaitAll bound) := by
  unfold awaitAll
  refine twins_get_bind fun s t h => ?_
  have hstart : Join.start s.monitor bound s.clock = Join.start t.monitor bound t.clock := by
    rw [h.monitor, h.clock]
  refine (twins_set (h.setMonitor (congrArg Prod.snd hstart))).bind fun _ => ?_
  rw [h.monitor, h.clock]
  refine (twins_settle hw _ _).bind fun join => ?_
  refine twins_get_bind fun s t h => ?_
  have hverdict : join.verdict s.monitor = join.verdict t.monitor := by rw [h.monitor]
  rw [hverdict]
  generalize join.verdict t.monitor = spoken
  obtain ⟨verdict, monitor⟩ := spoken
  refine (twins_set (h.setMonitor rfl)).bind fun _ => ?_
  refine (twins_log _).bind fun _ => ?_
  refine (twins_logFailures _).bind fun _ => ?_
  cases verdict.reported with
  | none => exact twins_pure _
  | some failure => exact twins_throw _

/-! ## Section 3: The verifier -/

theorem twins_load (source : Pattern.Source) : Twins w v (load source) (load source) := by
  unfold load
  cases Pattern.load source with
  | ok pattern => exact twins_pure _
  | error e => exact twins_throw _

theorem twins_timeoutOf (hw : w.Alike v) (timeout : Option (Seconds Float)) :
    Twins w v (timeoutOf timeout) (timeoutOf timeout) :=
  twins_read_bind (hw.timeout ▸ twins_pure _)

/-- **To attach artifacts is the same for every reporter**: it gives nothing, never fails, and
    leaves nothing that is seen. -/
theorem twins_attach (name : String) (occasion : Occasion) (expected : Option Value)
    (actual : Option Event) :
    Twins w v (attach name occasion expected actual) (attach name occasion expected actual) :=
  twins_read_bind (twins_change fun _ _ h => h.attach _ _ _ _ _ _)

theorem twins_check (hw : w.Alike v) (expected : Expectation) :
    Twins w v (check expected) (check expected) := by
  unfold check
  refine (twins_load _).bind fun pattern => ?_
  refine (twins_timeoutOf hw _).bind fun timeout => ?_
  refine (twins_demand _).bind fun _ => ?_
  refine (twins_begin _).bind fun _ => ?_
  refine (twins_watch hw _ _).bind fun result => ?_
  -- the artifacts come between the result and its delivery
  cases result.error with
  | some error => exact (twins_attach _ _ _ _).bind fun _ => twins_throw _
  | none => exact (twins_attach _ _ _ _).bind fun _ => twins_pure _

theorem twins_checkLater (hw : w.Alike v) (expected : Expectation) :
    Twins w v (checkLater expected) (checkLater expected) := by
  unfold checkLater
  refine (twins_load _).bind fun pattern => ?_
  refine (twins_timeoutOf hw _).bind fun timeout => ?_
  exact (twins_begin _).bind fun _ => twins_schedule hw _

theorem twins_awaitChecks (hw : w.Alike v) (bound : Option (Seconds Float)) :
    Twins w v (awaitChecks bound) (awaitChecks bound) := by
  unfold awaitChecks
  refine (twins_begin _).bind fun _ => ?_
  refine (twins_awaitAll hw bound).tryCatch fun failure => ?_
  cases failure with
  | check failure => exact (twins_attach _ _ _ _).bind fun _ => twins_throw _
  | _ => exact twins_throw _

theorem twins_filter (f : Filter) (source : Pattern.Source) :
    Twins w v (filter f source) (filter f source) := by
  unfold filter
  refine (twins_load _).bind fun pattern => ?_
  refine twins_get_bind fun s t h => ?_
  rw [h.monitor]
  cases f.events pattern t.monitor.store.events with
  | ok events => exact twins_pure _
  | error e => exact twins_throw _

theorem twins_matchedItem (hw : w.Alike v) (expected : Expectation) (position : String) :
    Twins w v (matchedItem expected position) (matchedItem expected position) := by
  unfold matchedItem
  refine (twins_load _).bind fun pattern => ?_
  cases pattern with
  | none => exact twins_throw _
  | some pattern =>
    refine (twins_demand _).bind fun _ => ?_
    refine (twins_begin _).bind fun _ => ?_
    refine (twins_check hw _).bind fun _ => ?_
    refine twins_get_bind fun s t h => ?_
    rw [h.monitor]
    dsimp only
    split
    · exact twins_throw _
    · split
      · exact twins_throw _
      · split
        · exact (twins_demand _).bind fun _ => twins_throw _
        · refine (twins_demand _).bind fun _ => ?_
          exact (twins_log _).bind fun _ => twins_pure _

theorem twins_pageElement (hw : w.Alike v) (expected : Expectation) (position : String) :
    Twins w v (pageElement expected position) (pageElement expected position) :=
  (twins_matchedItem hw expected position).gives fun found => PageElement.named found.2.plain

theorem twins_teardown (hw : w.Alike v) : Twins w v teardown teardown := by
  unfold teardown
  refine twins_read_bind (twins_get_bind fun s t h => ?_)
  rw [h.isTornDown]
  split
  · exact twins_pure _
  · have hdown : ({ s with isTornDown := true } : Session).Alike { t with isTornDown := true } :=
      h.change (f := fun s => { s with isTornDown := true }) fun _ => rfl
    refine (twins_set hdown).bind fun _ => ?_
    rw [hw.atEnd, h.monitor]
    cases v.setup.atEnd with
    | nothing => exact twins_pure _
    | joins bound => exact twins_awaitChecks hw _
    | warns =>
      dsimp only
      split
      · exact twins_pure _
      · exact twins_log _

/-! ## Section 4: The store and the agenda -/

theorem twins_requestOf (fields : Option Fields) :
    Twins w v (requestOf fields) (requestOf fields) := by
  unfold requestOf
  cases fields with
  | none => exact twins_pure _
  | some given =>
    dsimp only
    cases Request.ofFields given with
    | ok request => exact twins_pure _
    | error violations => exact twins_throw _

theorem twins_append (offer : Incoming) : Twins w v (append offer) (append offer) := by
  unfold append
  refine twins_get_bind fun s t h => ?_
  have happend : s.monitor.append offer s.now = t.monitor.append offer t.now := by
    rw [h.monitor, h.now]
  rw [happend]
  cases t.monitor.append offer t.now with
  | error fields => exact twins_throw _
  | ok stored =>
    obtain ⟨event, monitor⟩ := stored
    refine (twins_set (h.setMonitor rfl)).bind fun _ => ?_
    refine (twins_demand _).bind fun _ => ?_
    exact (twins_log _).bind fun _ => twins_pure _

theorem twins_tryConsume (id : Int) : Twins w v (tryConsume id) (tryConsume id) := by
  unfold tryConsume
  refine twins_get_bind fun s t h => ?_
  have hconsume : s.monitor.tryConsume id = t.monitor.tryConsume id := by rw [h.monitor]
  refine (twins_set (h.setMonitor (congrArg Prod.snd hconsume))).bind fun _ => ?_
  rw [h.monitor]
  dsimp only
  split
  · exact (twins_logAll _).bind fun _ => twins_pure _
  · exact twins_pure _

theorem twins_reset : Twins w v reset reset := by
  unfold reset
  refine (twins_change fun _ _ h => h.setMonitor (by rw [h.monitor])).bind fun _ => ?_
  exact twins_log _

theorem twins_finishIngestion (request : Option Request) (i : Ingestion) :
    Twins w v (finishIngestion request i) (finishIngestion request i) := by
  unfold finishIngestion
  refine (twins_change fun _ _ h => h.setMonitor (by rw [h.monitor])).bind fun _ => ?_
  exact twins_logAll _

theorem twins_ingest (raw : Value) (request : Option Request) :
    Twins w v (ingest raw request) (ingest raw request) := by
  unfold ingest
  refine twins_get_bind fun s t h => ?_
  rw [h.monitor, h.now]
  exact (twins_finishIngestion _ _).bind fun _ => twins_pure _

theorem twins_handle (hw : w.Alike v) (call : Call) : Twins w v (handle call) (handle call) := by
  unfold handle
  refine twins_read_bind (twins_get_bind fun s t h => ?_)
  rw [hw.paths, h.monitor, h.now]
  cases Endpoint.handle v.setup.paths call t.monitor.store t.now with
  | error e => exact twins_throw _
  | ok handled =>
    obtain ⟨response, ingested, problem⟩ := handled
    rcases ingested with _ | ⟨request, i⟩ <;> rcases problem with _ | e
    · exact twins_pure _
    · exact (twins_log _).bind fun _ => twins_pure _
    · exact (twins_finishIngestion _ _).bind fun _ => twins_pure _
    · refine (twins_finishIngestion _ _).bind fun _ => ?_
      exact (twins_log _).bind fun _ => twins_pure _

theorem twins_bind (test : Option String) (extra : Log.Entries) :
    Twins w v (Act.bind test extra) (Act.bind test extra) :=
  twins_change fun _ _ h => h.change
    (f := fun s => { s with
      context := Keyed.merge s.context (("test", Session.optional (test.map .str)) :: extra) })
    fun _ => rfl

theorem twins_clearContext : Twins w v clearContext clearContext :=
  twins_change fun _ _ h => h.change (f := fun s => { s with context := [] }) fun _ => rfl

theorem twins_later (delay : Float) (step : Step) :
    Twins w v (later delay step) (later delay step) :=
  twins_change fun _ _ h => h.put (by rw [h.clock]) rfl

theorem twins_advance (hw : w.Alike v) (duration : Float) :
    Twins w v (advance duration) (advance duration) := by
  unfold advance
  split
  · exact twins_throw _
  · exact twins_sleep hw duration

/-! ## Section 5: Steps -/

/-- **Every step gives the same** in alike sessions. -/
theorem twins_perform (hw : w.Alike v) (step : Step) :
    Twins w v (perform step) (perform step) := by
  cases step with
  | append name payload time request =>
    refine (twins_requestOf request).bind fun request => ?_
    exact (twins_append _).gives _
  | snapshot => exact twins_monitor fun m => Reply.events m.store.events
  | names => exact twins_monitor fun m => Reply.names (m.store.events.map (·.name))
  | ids => exact twins_monitor fun m => Reply.ids (m.store.events.map (·.id))
  | eventsSince baseline =>
    exact twins_monitor fun m => Reply.ids ((m.store.eventsSince baseline).map (·.id))
  | tryConsume id => exact (twins_tryConsume id).gives _
  | isConsumed id => exact twins_monitor fun m => Reply.flag (m.store.isConsumed id)
  | lastEvent => exact twins_monitor fun m => Reply.event m.store.last?
  | count name => exact twins_monitor fun m => Reply.number (m.store.count name)
  | reset => exact twins_reset.gives fun _ => Reply.nothing
  | ingest raw request =>
    refine (twins_requestOf request).bind fun request => ?_
    exact (twins_ingest raw request).gives _
  | call call => exact (twins_handle hw call).gives _
  | advance duration => exact (twins_advance hw duration).gives fun _ => Reply.nothing
  | later delay step => exact (twins_later delay step).gives fun _ => Reply.nothing
  | watch q baseline => exact (twins_watch hw q baseline).gives fun r => Reply.result (some r)
  | waitFor q =>
    refine (twins_watch hw q 0).bind fun result => ?_
    exact (twins_eventOf result).gives _
  | schedule q =>
    refine (twins_schedule hw q).bind fun number => ?_
    exact (twins_checkAt number).gives _
  | newCheck name pattern timeout baseline =>
    refine twins_get_bind fun s t h => ?_
    have hadd : s.monitor.addCheck (.idle name pattern timeout baseline) =
        t.monitor.addCheck (.idle name pattern timeout baseline) := by
      rw [h.monitor]
    refine (twins_set (h.setMonitor (congrArg Prod.snd hadd))).bind fun _ => ?_
    rw [h.monitor]
    exact (twins_checkAt _).gives _
  | join index bound =>
    refine (twins_numberOf index).bind fun number => ?_
    refine twins_get_bind fun s t h => ?_
    have hrefuses : s.refuses number bound = t.refuses number bound := by
      rw [Session.refuses, Session.refuses, h.monitor]
    rw [hrefuses]
    refine (twins_failIf _ _).bind fun _ => ?_
    refine (twins_waitFor hw number bound).bind fun _ => ?_
    exact (twins_checkAt number).gives fun c => Reply.result c.result
  | look index =>
    refine (twins_numberOf index).bind fun number => ?_
    exact (twins_checkAt number).gives _
  | awaitAll bound => exact (twins_awaitAll hw bound).gives fun _ => Reply.nothing
  | check expected => exact (twins_check hw expected).gives _
  | checkLater expected =>
    refine (twins_checkLater hw expected).bind fun number => ?_
    exact (twins_checkAt number).gives _
  | awaitChecks bound => exact (twins_awaitChecks hw bound).gives fun _ => Reply.nothing
  | filter f source =>
    exact (twins_filter f source).gives fun events => Reply.ids (events.map (·.id))
  | matchedItem expected position =>
    exact (twins_matchedItem hw expected position).gives fun found => Reply.item found.1
  | pageElement expected position => exact (twins_pageElement hw expected position).gives _
  | teardown => exact (twins_teardown hw).gives fun _ => Reply.finished
  | bind test extra => exact (twins_bind test extra).gives fun _ => Reply.nothing
  | clearContext => exact twins_clearContext.gives fun _ => Reply.nothing
  | enterTest test => exact (twins_bind (some test) []).gives fun _ => Reply.nothing
  | leaveTest => exact twins_clearContext.gives fun _ => Reply.finished

theorem take_alike (hw : w.Alike v) (step : Step) {s t : Session} (h : s.Alike t) :
    (take w step s).1 = (take v step t).1 ∧ (take w step s).2.Alike (take v step t).2 :=
  twins_perform hw step s t h

end Act

/-! ## Section 6: Whole runs -/

namespace Session

/-- **The outcome of a step without what reporting left in it**: without attachments, and without
    records of the reporter. -/
def Outcome.unreported (o : Outcome) : Outcome :=
  { o with attached := [], journal := o.journal.filter fun r => !r.isReporting }

/-- The world of a setup, in which later steps come up at most so deep in one another. -/
def world (setup : Setup) (rounds depth : Nat) : World := ⟨setup, fire setup rounds depth, rounds⟩

/-- A later step notes what it gave. -/
theorem Alike.noteFired {s t : Session} (h : s.Alike t) {reply reply' : Except Failure Reply}
    (hreply : reply = reply') : ({ s with fired := s.fired ++ [reply] } : Session).Alike
      { t with fired := t.fired ++ [reply'] } := by
  subst hreply
  exact h.change (f := fun s => { s with fired := s.fired ++ [reply] }) fun _ => rfl

/-- **Worlds that differ in where reports go are alike.** By induction on the depth of the steps
    that come up in one another. -/
theorem world_alike (setup : Setup) (reporter : Reporter) (rounds depth : Nat) :
    (world setup rounds depth).Alike (world { setup with reporter } rounds depth) := by
  induction depth with
  | zero => exact ⟨rfl, rfl, rfl, rfl, rfl, fun _ _ _ h => h⟩
  | succ depth ih =>
    refine ⟨rfl, rfl, rfl, rfl, rfl, fun step s t h => ?_⟩
    obtain ⟨hreply, hleft⟩ := Act.take_alike ih step h
    exact hleft.noteFired hreply

variable {w v : World}

/-- A step has the same outcome in alike sessions, and leaves alike sessions. -/
theorem take_unreported (hw : w.Alike v) (step : Step) {s t : Session} (h : s.Alike t) :
    (take w step s).1.unreported = (take v step t).1.unreported ∧
      (take w step s).2.Alike (take v step t).2 := by
  have hcleared : s.cleared.Alike t.cleared := h.change (f := cleared) fun _ => rfl
  obtain ⟨hreply, hleft⟩ := Act.take_alike hw step hcleared
  refine ⟨?_, hleft⟩
  unfold take Outcome.unreported
  dsimp only
  rw [hreply, hleft.monitor, hleft.clock, hleft.titles, hleft.fired, hleft.journal]

theorem takeAll_cons (w : World) (step : Step) (rest : List Step) (s : Session) :
    takeAll w (step :: rest) s = (take w step s).1 :: takeAll w rest (take w step s).2 := rfl

/-- So has a run, by induction on its steps. -/
theorem run_unreported (hw : w.Alike v) (steps : List Step) {s t : Session} (h : s.Alike t) :
    (takeAll w steps s).map Outcome.unreported = (takeAll v steps t).map Outcome.unreported ∧
      (after w steps s).Alike (after v steps t) := by
  induction steps generalizing s t with
  | nil => exact ⟨rfl, h⟩
  | cons step rest ih =>
    obtain ⟨houtcome, hleft⟩ := take_unreported hw step h
    obtain ⟨hrest, hend⟩ := ih hleft
    refine ⟨?_, hend⟩
    rw [takeAll_cons, takeAll_cons, List.map_cons, List.map_cons, houtcome, hrest]

/-- **Reporting has no influence.** A run is taken twice from one session, with any two reporters:
    attaching may work, or fail each time, or the settings may ask for none of it. The outcomes of
    all steps are the same, of later steps too that come up while the test waits: replies and
    failures, titles, records, the ledger, the number of stored events and of registered checks,
    and the clock. So is the session in which the run ends. All that differs is what was attached,
    and the records in which a reporter says that it could not. The same is true of whole
    sessions, whatever rivals there are. -/
theorem reporting_has_no_influence (setup : Setup) (reporter : Reporter) (steps : List Step) :
    (∀ (rounds depth : Nat) (s : Session),
      let w := world setup rounds depth
      let v := world { setup with reporter } rounds depth
      (takeAll v steps s).map Outcome.unreported = (takeAll w steps s).map Outcome.unreported ∧
        (after v steps s).unreported = (after w steps s).unreported) ∧
    ∀ rivals, (run { setup with reporter } rivals steps).map Outcome.unreported =
      (run setup rivals steps).map Outcome.unreported := by
  have hboth (rounds depth : Nat) (s : Session) :=
    run_unreported (world_alike setup reporter rounds depth) steps (.refl s)
  constructor
  · intro rounds depth s
    obtain ⟨houtcomes, hend⟩ := hboth rounds depth s
    exact ⟨houtcomes.symm, hend.same.symm⟩
  · intro rivals
    exact (hboth maxRounds _ (.new rivals)).1.symm

end Session

end EventCheck
