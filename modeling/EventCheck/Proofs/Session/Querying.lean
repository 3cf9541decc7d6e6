import EventCheck.Proofs.Arena.Events
import EventCheck.Proofs.Session.Failures
import EventCheck.Proofs.Session.Verifying

/-! # Checks and queries agree

    A check scans the store again and again, asks the ledger, and stops as soon as it
    can. A query filters all that is stored. They agree on what is looked for, so that a
    query tells right behind a check what the check has left.

    - `Query.Course.wanted_consumed`: behind a scan, all events that it went over and that
      its query wants are consumed.
    - `Filter.events_named`: a query by name gives the stored events that a scan wants.
    - `Act.Yields`: what an act gives and leaves in a session. `Act.yields_rounds` says it
      of the rounds of a watch, by induction on their number, and `Act.yields_check` of a
      whole check.
    - `Session.checks_agree_with_queries` puts it together.
-/

namespace EventCheck

/-! ## Section 1: Behind a scan -/

/-- Without a baseline nothing is left out. -/
theorem Store.eventsSince_zero (s : Store) : s.eventsSince 0 = s.events := rfl

namespace Query.Course

variable {q : Query} {r : Rivals} {s s' : Store} {events : List Event}
  {answers : List (Nat × Bool)} {found : Found}

/-- **Behind a scan the ledger holds what it held before**, and all ids that the scan asked for,
    unless a rival drops everything over its success. -/
theorem consumed_behind (h : q.Course r s events answers found s')
    (hkeeps : ∀ e, found = .event e → r.resetAfter.contains (e.id : Int) = false) :
    (∀ id, s.isConsumed id = true → s'.isConsumed id = true) ∧
      ∀ (id : Nat) (answer : Bool), (id, answer) ∈ answers → s'.isConsumed id = true := by
  induction h with
  | ends s => exact ⟨fun id hid => hid, fun id answer hin => absurd hin List.not_mem_nil⟩
  | skips hc h ih => exact ih hkeeps
  | declines hc ha h ih => exact ih hkeeps
  | fails hc ha => exact ⟨fun id hid => hid, fun id answer hin => absurd hin List.not_mem_nil⟩
  | @takes s e rest hc ha hl =>
    have hsettle : r.settle s e.id = s.mark e.id := by
      rw [Rivals.settle, hkeeps e rfl, if_neg Bool.false_ne_true]
    rw [hsettle]
    constructor
    · intro id hid
      exact Store.isConsumed_mark.mpr (.inr hid)
    · intro id answer hin
      cases List.mem_singleton.mp hin
      exact Store.isConsumed_mark.mpr (.inl rfl)
  | @loses s s' e rest answers found hc ha hl h ih =>
    -- the rival has taken the id, so it is in the ledger from here on
    obtain ⟨hmarked, hanswers⟩ := ih hkeeps
    constructor
    · intro id hid
      exact hmarked id (Store.isConsumed_mark.mpr (.inr hid))
    · intro id answer hin
      rcases List.mem_cons.mp hin with heq | hin
      · cases heq
        exact hmarked e.id (Store.isConsumed_mark.mpr (.inl rfl))
      · exact hanswers id answer hin

/-- Then the stored events stay as well. -/
theorem events_kept (h : q.Course r s events answers found s')
    (hkeeps : ∀ e, found = .event e → r.resetAfter.contains (e.id : Int) = false) :
    s'.events = s.events := by
  rcases h.events with ⟨hevents, -⟩ | ⟨-, e, heq, hreset⟩
  · exact hevents
  · rw [hkeeps e heq] at hreset
    cases hreset

/-- **Behind a scan the wanted events are consumed** as far as it went. -/
theorem wanted_consumed (h : q.Course r s events answers found s')
    (hkeeps : ∀ e, found = .event e → r.resetAfter.contains (e.id : Int) = false) :
    ∃ front, found.EndsBehind front events ∧
      ∀ x ∈ front, q.wants x = true → s'.isConsumed x.id = true := by
  obtain ⟨hkept, hasked⟩ := h.consumed_behind hkeeps
  obtain ⟨front, hends, hover⟩ := h.passed_over
  refine ⟨front, hends, fun x hx hwants => ?_⟩
  rcases hover x hx hwants with hbefore | hlost
  · exact hkept x.id hbefore
  · exact hasked x.id false hlost

end Query.Course

/-! ## Section 2: Queries by name -/

/-- What a check with this pattern looks for. -/
def Expectation.query (call : Expectation) (pattern : Option Fields) : Query :=
  ⟨call.name, Act.valueOf pattern, 0⟩

/-- A query with a loaded pattern admits what contains that pattern. -/
theorem Query.admits_loaded (name : String) (pattern : Option Fields) (baseline : Int)
    (payload : Json) :
    (⟨name, Act.valueOf pattern, baseline⟩ : Query).admits payload =
      .ok (pattern.all fun fields => payload.contains fields) := by
  cases pattern with
  | none => rfl
  | some fields => exact Value.contains_ofJson payload fields

namespace Filter

/-- The filter that asks for this very name, and for nothing else but a pattern. -/
def named (name : String) : Filter := ⟨some name, "exact", none⟩

theorem accepts_named (name : String) (pattern : Option Fields) (baseline : Int) (e : Event) :
    (named name).accepts pattern e =
      .ok ((⟨name, Act.valueOf pattern, baseline⟩ : Query).wants e) := by
  have hname : (named name).acceptsName e.name = .ok (e.name == name) := rfl
  unfold accepts Query.wants
  rw [hname, Query.admits_loaded]
  exact congrArg Except.ok (Bool.and_true _)

/-- **A query by name gives the stored events that a check looks for**, in their order. -/
theorem events_named (call : Expectation) (pattern : Option Fields) (events : List Event) :
    (named call.name).events pattern events = .ok (events.filter (call.query pattern).wants) := by
  induction events with
  | nil => rfl
  | cons e rest ih =>
    rw [Filter.events, accepts_named call.name pattern 0 e, ih]
    by_cases hwants : (call.query pattern).wants e = true
    · rw [List.filter_cons_of_pos hwants]
      show Except.ok (if (call.query pattern).wants e then _ else _) = _
      rw [if_pos hwants]
    · rw [List.filter_cons_of_neg hwants]
      show Except.ok (if (call.query pattern).wants e then _ else _) = _
      rw [if_neg hwants]

end Filter

/-! ## Section 3: What acts give and leave -/

/-- **The watch has ended so**, and the session stands right behind its last round. -/
def Watch.Ended (watch : Watch Float) (outcome : Outcome Float) (s : Session) : Prop :=
  ∃ (m : Monitor Float) (clock : Float),
    (watch.poll m.rivals clock m.store).turn = .ended outcome ∧
      s.monitor = (m.poll watch clock).2

/-- What is attached to the report changes nothing of that. -/
theorem Watch.Ended.attach {watch : Watch Float} {outcome : Outcome Float} {s : Session}
    (h : watch.Ended outcome s) (reporter : Reporter) (name : String) (occasion : Occasion)
    (expected actual : Option Value) :
    watch.Ended outcome (s.attach reporter name occasion expected actual) := by
  obtain ⟨m, clock, hturn, hmonitor⟩ := h
  have hkept := (s.becomes_attach reporter name occasion expected actual).monitor
  exact ⟨m, clock, hturn, hkept.trans hmonitor⟩

namespace Act

variable {α β : Type} {w : World} {s t : Session}

/-- **What the act gives and leaves**, in this session, is so. -/
def Yields (x : Act α) (w : World) (s : Session) (Q : Except Failure α → Session → Prop) : Prop :=
  Q ((x.run w).run s).1 ((x.run w).run s).2

/-- Two acts in a row yield what the second one does, behind a first one that gives a value. -/
theorem yields_bind {x : Act α} {f : α → Act β} {a : α} {Q : Except Failure β → Session → Prop}
    (hx : (x.run w).run s = (.ok a, t)) (hf : (f a).Yields w t Q) : (x >>= f).Yields w s Q := by
  unfold Yields at hf ⊢
  rw [run_bind, hx]
  exact hf

/-- Behind a first one of which less is known, the second one has to do it in all cases. -/
theorem Yields.bind {x : Act α} {f : α → Act β} {R : Except Failure α → Session → Prop}
    {Q : Except Failure β → Session → Prop} (hx : x.Yields w s R)
    (hf : ∀ a s', R (.ok a) s' → (f a).Yields w s' Q)
    (hfails : ∀ failure s', R (.error failure) s' → Q (.error failure) s') :
    (x >>= f).Yields w s Q := by
  unfold Yields at hx
  rcases hrun : (x.run w).run s with ⟨⟨failure⟩ | ⟨a⟩, s'⟩
  · rw [hrun] at hx
    unfold Yields
    rw [run_bind, hrun]
    exact hfails failure s' hx
  · rw [hrun] at hx
    exact yields_bind hrun (hf a s' hx)

/-- What is asked for in between yields nothing but its refusal. -/
theorem yields_demand {v : Option Value} {f : Unit → Act β} {Q : Except Failure β → Session → Prop}
    (hf : (f ()).Yields w s Q) (hrefused : Q (.error .digits) s) :
    (demand v >>= f).Yields w s Q := by
  unfold Yields at hf ⊢
  rw [run_bind, run_demand]
  by_cases hlog : v.all Value.isLoggable = true
  · rw [if_pos hlog]
    exact hf
  · rw [if_neg hlog]
    exact hrefused

/-! ## Section 4: How watches and checks end -/

/-- **The rounds of a watch end with its last round**, or do not end. By induction on their number;
    anything may come up between two rounds. -/
theorem yields_rounds (watch : Watch Float) (count : Nat) (s : Session) :
    (rounds watch count).Yields w s fun result s' => ∃ last, result = .ok last ∧
      ∀ outcome, last = some outcome → watch.Ended outcome s' := by
  induction count generalizing s with
  | zero => exact ⟨none, rfl, nofun⟩
  | succ count ih =>
    rw [rounds]
    refine yields_bind (t := s) rfl ?_
    refine yields_bind (a := ⟨⟩) (t := { s with monitor := (s.monitor.poll watch s.clock).2 })
      rfl ?_
    refine yields_bind (a := ()) rfl ?_
    dsimp only
    cases hturn : (watch.poll s.monitor.rivals s.clock s.monitor.store).turn with
    | ended outcome =>
      refine ⟨some outcome, rfl, fun outcome' heq => ?_⟩
      cases heq
      exact ⟨s.monitor, s.clock, hturn, (Session.becomes_logAll _ _).monitor⟩
    | sleeps duration =>
      -- the session may have become any other one by then
      exact yields_bind (a := ()) rfl (ih _)

/-- **How a watch ends.** -/
inductive Watched (query : Query) : Except Failure (WatchResult Float) → Session → Prop where
  /-- It got an event. -/
  | found {watch : Watch Float} {e : Event} {s : Session} (hquery : watch.query = query)
      (hended : watch.Ended (.matched e) s) :
      Watched query (.ok (Outcome.matched e).result) s
  /-- It got none in time. -/
  | notFound {watch : Watch Float} {error : NotFound Float} {s : Session}
      (hquery : watch.query = query) (hended : watch.Ended (.expired error) s) :
      Watched query (.ok (Outcome.expired error).result) s
  /-- It could not go on. -/
  | stopped (error : WatchError) (s : Session) : Watched query (.error (.watch error)) s
  /-- Its pattern cannot be logged. -/
  | unlogged (s : Session) : Watched query (.error .digits) s
  /-- It did not end. -/
  | endless (s : Session) : Watched query (.ok ⟨false, none, none, none⟩) s

theorem yields_watch (q : Search) (baseline : Int) :
    (watch q baseline).Yields w s (Watched ⟨q.name, q.pattern, baseline⟩) := by
  unfold watch
  refine yields_bind (a := w) (t := s) rfl ?_
  refine yields_bind (a := s) (t := s) rfl ?_
  refine yields_demand ?_ (.unlogged s)
  refine yields_bind (a := ()) (t := s.log _) rfl ?_
  refine (yields_rounds _ _ _).bind ?_ ?_
  · rintro last s' ⟨last, heq, hended⟩
    cases heq
    cases last with
    | none => exact .endless s'
    | some outcome =>
      cases outcome with
      | crashed error => exact .stopped error s'
      | matched e => exact .found rfl (hended _ rfl)
      | expired error => exact .notFound rfl (hended _ rfl)
  · rintro failure s' ⟨last, heq, -⟩
    cases heq

/-- **How a check ends** whose pattern was loaded. -/
inductive Checked (query : Query) : Except Failure (Option Event) → Session → Prop where
  /-- Its watch got an event. -/
  | found {watch : Watch Float} {e : Event} {s : Session} (hquery : watch.query = query)
      (hended : watch.Ended (.matched e) s) : Checked query (.ok (some e)) s
  /-- Its watch got none in time. -/
  | notFound {watch : Watch Float} {error : NotFound Float} {s : Session}
      (hquery : watch.query = query) (hended : watch.Ended (.expired error) s) :
      Checked query (.error (.notFound error)) s
  /-- Its watch could not go on. -/
  | stopped (error : WatchError) (s : Session) : Checked query (.error (.watch error)) s
  /-- Its pattern cannot be logged. -/
  | unlogged (s : Session) : Checked query (.error .digits) s
  /-- Its watch did not end. -/
  | endless (s : Session) : Checked query (.ok none) s

theorem yields_check {call : Expectation} {pattern : Option Fields}
    (hload : Pattern.load call.source = .ok pattern) :
    (check call).Yields w s (Checked (call.query pattern)) := by
  unfold check
  rw [load_eq hload, pure_bind]
  refine yields_bind (a := call.timeout.getD w.setup.timeout) (t := s) rfl ?_
  refine yields_demand ?_ (.unlogged s)
  refine yields_bind (a := ()) (t := s.begin _) rfl ?_
  refine (yields_watch _ _).bind ?_ ?_
  · intro result s' hwatched
    cases hwatched with
    | endless s' => exact yields_bind (a := ()) rfl (.endless _)
    | found hquery hended =>
      exact yields_bind (a := ()) rfl (.found hquery (hended.attach _ _ _ _ _))
    | notFound hquery hended =>
      exact yields_bind (a := ()) rfl (.notFound hquery (hended.attach _ _ _ _ _))
  · intro failure s' hwatched
    cases hwatched with
    | stopped error s' => exact .stopped _ _
    | unlogged s' => exact .unlogged _

/-- What a query by name gives: the stored events that the check looks for. -/
theorem run_filter_named {call : Expectation} {pattern : Option Fields}
    (hload : Pattern.load call.source = .ok pattern) (w : World) (s : Session) :
    ((filter (.named call.name) call.source).run w).run s =
      (.ok (s.monitor.store.events.filter (call.query pattern).wants), s) := by
  have hget : ((get : Act Session).run w).run s = (.ok s, s) := rfl
  unfold filter
  rw [load_eq hload, pure_bind, run_bind, hget]
  dsimp only
  rw [Filter.events_named]
  rfl

end Act

/-! ## Section 5: What a query tells behind a check -/

namespace Watch.Ended

variable {watch : Watch Float} {s : Session}

/-- **Behind a watch that got an event**, that event and all in front of it are consumed, among
    those that the watch looked for. -/
theorem consumed_of_matched {e : Event} (h : watch.Ended (.matched e) s)
    (hbaseline : watch.query.baseline = 0)
    (hkeeps : s.monitor.rivals.resetAfter.contains (e.id : Int) = false) :
    ∃ front rest, s.monitor.store.events.filter watch.query.wants = front ++ e :: rest ∧
      ∀ x ∈ front ++ [e], s.monitor.store.isConsumed x.id = true := by
  obtain ⟨m, clock, hturn, hmonitor⟩ := h
  rw [hmonitor] at hkeeps ⊢
  have hcourse := watch.course_poll m.rivals clock m.store
  rw [Watch.poll_matched_iff.mp hturn] at hcourse
  have hnoreset : ∀ x, Found.event e = .event x →
      m.rivals.resetAfter.contains (x.id : Int) = false := by
    intro x heq
    cases heq
    exact hkeeps
  have hevents := hcourse.events_kept hnoreset
  obtain ⟨front, ⟨rest, hscanned⟩, hfront⟩ := hcourse.wanted_consumed hnoreset
  obtain ⟨-, hwants, -⟩ := hcourse.found_event
  obtain ⟨lost, hanswers, -⟩ := hcourse.answers_of_event
  rw [hbaseline, Store.eventsSince_zero] at hscanned
  refine ⟨front.filter watch.query.wants, rest.filter watch.query.wants, ?_, fun x hx => ?_⟩
  · show (watch.poll m.rivals clock m.store).store.events.filter _ = _
    rw [hevents, hscanned, List.filter_append, List.filter_cons_of_pos hwants]
  · rcases List.mem_append.mp hx with hx | hx
    · obtain ⟨hin, hxwants⟩ := List.mem_filter.mp hx
      exact hfront x hin hxwants
    · -- the event itself: the last answer of the scan is about it
      rw [List.mem_singleton.mp hx]
      refine (hcourse.consumed_behind hnoreset).2 e.id true ?_
      rw [hanswers]
      exact List.mem_append_right _ List.mem_cons_self

/-- **Behind a watch that got no event in time** all events are consumed that it looked for. -/
theorem consumed_of_expired {error : NotFound Float} (h : watch.Ended (.expired error) s)
    (hbaseline : watch.query.baseline = 0) :
    ∀ x ∈ s.monitor.store.events.filter watch.query.wants,
      s.monitor.store.isConsumed x.id = true := by
  obtain ⟨m, clock, hturn, hmonitor⟩ := h
  rw [hmonitor]
  have hcourse := watch.course_poll m.rivals clock m.store
  rw [(Watch.poll_expired hturn).1] at hcourse
  have hevents := hcourse.events_kept nofun
  obtain ⟨front, hscanned, hfront⟩ := hcourse.wanted_consumed nofun
  -- the scan went over all stored events
  have hall : m.store.eventsSince watch.query.baseline = front := hscanned
  rw [hbaseline, Store.eventsSince_zero] at hall
  intro x hx
  obtain ⟨hin, hwants⟩ := List.mem_filter.mp hx
  have hstored : x ∈ (watch.poll m.rivals clock m.store).store.events := hin
  rw [hevents, hall] at hstored
  exact hfront x hstored hwants

end Watch.Ended

namespace Session

/-- **A query tells right behind a check what the check has left**, in every world and session,
    whatever was stored or consumed before and whatever came up while the check waited. If the
    check gives an event, and nobody drops all events over that, then a query with the name and
    the pattern of the check gives that event as well, and it is consumed with all in front of
    it. If the check does not find an event in time, then all that such a query gives is
    consumed. -/
theorem checks_agree_with_queries (w : World) (s : Session) (call : Expectation) :
    let checked := ((Act.check call).run w).run s
    let asked := ((Act.filter (.named call.name) call.source).run w).run checked.2
    let store := checked.2.monitor.store
    (∀ e, checked.1 = .ok (some e) →
      checked.2.monitor.rivals.resetAfter.contains (e.id : Int) = false →
      ∃ front rest, asked = (.ok (front ++ e :: rest), checked.2) ∧
        ∀ x ∈ front ++ [e], store.isConsumed x.id = true) ∧
    ∀ error, checked.1 = .error (.notFound error) →
      ∃ events, asked = (.ok events, checked.2) ∧ ∀ x ∈ events, store.isConsumed x.id = true := by
  cases hload : Pattern.load call.source with
  | error e =>
    -- a pattern that cannot be loaded is neither found nor missed
    have hfails : ((Act.check call).run w).run s = (.error (.badPattern e), s) := by
      unfold Act.check Act.load
      rw [hload, Act.run_bind]
      rfl
    rw [hfails]
    exact ⟨nofun, nofun⟩
  | ok pattern =>
    have hchecked := Act.yields_check (w := w) (s := s) hload
    unfold Act.Yields at hchecked
    generalize ((Act.check call).run w).run s = checked at hchecked
    obtain ⟨result, s'⟩ := checked
    dsimp only at hchecked ⊢
    rw [Act.run_filter_named hload]
    cases hchecked with
    | @found watch e s' hquery hended =>
      refine ⟨fun x heq hkeeps => ?_, nofun⟩
      cases heq
      have hbaseline : watch.query.baseline = 0 := by rw [hquery]; rfl
      obtain ⟨front, rest, hfilter, hconsumed⟩ := hended.consumed_of_matched hbaseline hkeeps
      rw [hquery] at hfilter
      exact ⟨front, rest, by rw [hfilter], hconsumed⟩
    | @notFound watch error s' hquery hended =>
      refine ⟨nofun, fun other heq => ?_⟩
      have hbaseline : watch.query.baseline = 0 := by rw [hquery]; rfl
      have hconsumed := hended.consumed_of_expired hbaseline
      rw [hquery] at hconsumed
      exact ⟨_, rfl, hconsumed⟩
    | stopped error s' => exact ⟨nofun, nofun⟩
    | unlogged s' => exact ⟨nofun, nofun⟩
    | endless s' => exact ⟨nofun, nofun⟩

/-- A check that has no time. -/
def paidCall : Expectation := ⟨"paid", .none, some (.whole 0), none⟩

/-- One event is stored that it looks for. -/
def paidOnce : Session :=
  after hastyWorld [.append (.str "paid") .null (.str "noon") none] (.new .none)

/-- The first of two checks gets the event, and the second finds nothing. A query gives the event
    behind either of them, and it is consumed. -/
theorem paidOnce_queried :
    (∃ e front rest, e.id = 1 ∧
      let checked := ((Act.check paidCall).run hastyWorld).run paidOnce
      checked.1 = .ok (some e) ∧
      ((Act.filter (.named "paid") .none).run hastyWorld).run checked.2 =
        (.ok (front ++ e :: rest), checked.2) ∧
      checked.2.monitor.store.isConsumed e.id = true) ∧
    ∃ error events,
      let checked := ((Act.check paidCall).run hastyWorld).run
        (after hastyWorld [.check paidCall] paidOnce)
      checked.1 = .error (.notFound error) ∧
      ((Act.filter (.named "paid") .none).run hastyWorld).run checked.2 =
        (.ok events, checked.2) ∧
      events.map (·.id) = [1] ∧ ∀ x ∈ events, checked.2.monitor.store.isConsumed x.id = true := by
  constructor
  · obtain ⟨front, rest, hasked, hconsumed⟩ :=
      (checks_agree_with_queries hastyWorld paidOnce paidCall).1 _ rfl rfl
    refine ⟨_, front, rest, rfl, rfl, hasked, ?_⟩
    exact hconsumed _ (List.mem_append_right _ List.mem_cons_self)
  · obtain ⟨events, hasked, hconsumed⟩ :=
      (checks_agree_with_queries hastyWorld (after hastyWorld [.check paidCall] paidOnce)
        paidCall).2 _ rfl
    refine ⟨_, events, rfl, hasked, ?_, hconsumed⟩
    cases congrArg Prod.fst hasked
    rfl

end Session

end EventCheck
