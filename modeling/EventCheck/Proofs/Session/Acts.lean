import EventCheck.Proofs.Arena.Round
import EventCheck.Session.Run

/-! # What is done at once

    An act of a session may let time pass, and then anything that is on the agenda
    comes up. An act that is done at once does not.

    - `Session.Becomes`: nothing but the monitor has changed, and what is left behind
      for the report.
    - `Act.AtOnce`: an act gives a value, leaves a monitor, and changes nothing else.
      `AtOnce.bind` puts such acts together.
    - `atOnce_watch`: a watch whose first scan gets an event is done at once.
-/

namespace EventCheck

/-! ## Section 1: Sessions in which no time passes -/

/-- **The session becomes another one with this monitor.** It may have left records, titles and
    attachments behind; the clock, the agenda and everything else stay. -/
structure Session.Becomes (s : Session) (m : Monitor Float) (s' : Session) : Prop where
  monitor : s'.monitor = m
  clock : s'.clock = s.clock
  agenda : s'.agenda = s.agenda
  rung : s'.rung = s.rung
  context : s'.context = s.context
  isTornDown : s'.isTornDown = s.isTornDown
  fired : s'.fired = s.fired

namespace Session

theorem Becomes.refl (s : Session) : s.Becomes s.monitor s := ⟨rfl, rfl, rfl, rfl, rfl, rfl, rfl⟩

theorem Becomes.trans {s s' s'' : Session} {m m' : Monitor Float} (h : s.Becomes m s')
    (h' : s'.Becomes m' s'') : s.Becomes m' s'' where
  monitor := h'.monitor
  clock := h'.clock.trans h.clock
  agenda := h'.agenda.trans h.agenda
  rung := h'.rung.trans h.rung
  context := h'.context.trans h.context
  isTornDown := h'.isTornDown.trans h.isTornDown
  fired := h'.fired.trans h.fired

/-- A session can be put back to an earlier one with another monitor, as long as no time has
    passed in between. -/
theorem Becomes.back {s s' : Session} {m : Monitor Float} (h : s.Becomes m s')
    (m' : Monitor Float) : s'.Becomes m' { s with monitor := m' } where
  monitor := rfl
  clock := h.clock.symm
  agenda := h.agenda.symm
  rung := h.rung.symm
  context := h.context.symm
  isTornDown := h.isTornDown.symm
  fired := h.fired.symm

theorem becomes_store (s : Session) (store : Store) :
    s.Becomes { s.monitor with store } { s with monitor := { s.monitor with store } } :=
  ⟨rfl, rfl, rfl, rfl, rfl, rfl, rfl⟩

theorem becomes_log (s : Session) (r : Log.Record) : s.Becomes s.monitor (s.log r) :=
  ⟨rfl, rfl, rfl, rfl, rfl, rfl, rfl⟩

theorem becomes_begin (s : Session) (title : String) : s.Becomes s.monitor (s.begin title) :=
  ⟨rfl, rfl, rfl, rfl, rfl, rfl, rfl⟩

theorem becomes_logAll (s : Session) (rs : List Log.Record) :
    s.Becomes s.monitor (rs.foldl (fun s r => s.log r) s) := by
  induction rs generalizing s with
  | nil => exact .refl s
  | cons r rest ih => exact (s.becomes_log r).trans (ih (s.log r))

theorem becomes_attach (s : Session) (reporter : Reporter) (name : String) (occasion : Occasion)
    (expected actual : Option Value) :
    s.Becomes s.monitor (s.attach reporter name occasion expected actual) := by
  have hattached : s.Becomes s.monitor
      { s with
        attached := s.attached ++ (reporter.attach name occasion expected actual).attached } :=
    ⟨rfl, rfl, rfl, rfl, rfl, rfl, rfl⟩
  exact hattached.trans (becomes_logAll _ _)

end Session

/-! ## Section 2: Acts -/

namespace Act

variable {α β : Type} {w : World} {s : Session} {m m' : Monitor Float}

/-- **The act is done at once**: in this session it gives a value and leaves a monitor, and nothing
    else changes. -/
def AtOnce (x : Act α) (w : World) (s : Session) (a : α) (m : Monitor Float) : Prop :=
  ∃ s', (x.run w).run s = (.ok a, s') ∧ s.Becomes m s'

theorem atOnce_pure (a : α) : AtOnce (pure a) w s a s.monitor := ⟨s, rfl, .refl s⟩

theorem atOnce_read : AtOnce read w s w s.monitor := ⟨s, rfl, .refl s⟩

theorem atOnce_get : AtOnce get w s s s.monitor := ⟨s, rfl, .refl s⟩

/-- A change is done at once if it is one of the monitor, or of what is left behind. -/
theorem atOnce_change {f : Session → Session} (h : s.Becomes m (f s)) :
    AtOnce (change f) w s () m := ⟨f s, rfl, h⟩

theorem atOnce_set {s' : Session} (h : s.Becomes m s') : AtOnce (set s') w s ⟨⟩ m := ⟨s', rfl, h⟩

theorem AtOnce.bind {x : Act α} {f : α → Act β} {a : α} {b : β} (hx : x.AtOnce w s a m)
    (hf : ∀ s', s.Becomes m s' → (f a).AtOnce w s' b m') : (x >>= f).AtOnce w s b m' := by
  obtain ⟨s', hrun, hs'⟩ := hx
  obtain ⟨s'', hrun', hs''⟩ := hf s' hs'
  refine ⟨s'', ?_, hs'.trans hs''⟩
  show ((x.run w).run >>= fun r => ExceptT.bindCont (fun a => (f a).run w) r) s = _
  show (match (x.run w).run s with | (r, s') => ExceptT.bindCont (fun a => (f a).run w) r s') = _
  rw [hrun]
  exact hrun'

theorem atOnce_log (r : Log.Record) : AtOnce (log r) w s () s.monitor :=
  atOnce_change (s.becomes_log r)

theorem atOnce_logAll (rs : List Log.Record) : AtOnce (logAll rs) w s () s.monitor :=
  atOnce_change (s.becomes_logAll rs)

/-- What can be logged is let through. -/
theorem demand_eq {v : Option Value} (h : v.all Value.isLoggable = true) : demand v = pure () := by
  rw [demand, h]
  rfl

theorem atOnce_demand {v : Option Value} (h : v.all Value.isLoggable = true) :
    AtOnce (demand v) w s () s.monitor := by
  rw [demand_eq h]
  exact atOnce_pure ()

theorem atOnce_begin (title : String) : AtOnce (begin title) w s () s.monitor :=
  atOnce_change (s.becomes_begin title)

theorem atOnce_attach (name : String) (occasion : Occasion) (expected : Option Value)
    (actual : Option Event) : AtOnce (attach name occasion expected actual) w s () s.monitor :=
  atOnce_read.bind fun _ hs' => hs'.monitor ▸ atOnce_change (Session.becomes_attach _ _ _ _ _ _)

theorem load_eq {source : Pattern.Source} {pattern : Option Fields}
    (h : Pattern.load source = .ok pattern) : load source = pure pattern := by
  unfold load
  rw [h]

theorem atOnce_load {source : Pattern.Source} {pattern : Option Fields}
    (h : Pattern.load source = .ok pattern) : AtOnce (load source) w s pattern s.monitor := by
  rw [load_eq h]
  exact atOnce_pure pattern

theorem atOnce_timeoutOf (timeout : Option (Seconds Float)) :
    AtOnce (timeoutOf timeout) w s (timeout.getD w.setup.timeout) s.monitor :=
  ⟨s, rfl, .refl s⟩

/-! ## Section 3: Watches -/

/-- A watch that ends with its first round ends at once. -/
theorem atOnce_rounds {watch : Watch Float} {outcome : Outcome Float}
    (h : (watch.poll s.monitor.rivals s.clock s.monitor.store).turn = .ended outcome)
    {count : Nat} (hcount : 0 < count) :
    AtOnce (rounds watch count) w s (some outcome)
      { s.monitor with store := (watch.query.scan s.monitor.rivals s.monitor.store).store } := by
  cases count with
  | zero => cases hcount
  | succ count =>
    rw [rounds]
    refine atOnce_get.bind fun s₁ hs₁ => ?_
    have hmonitor : (s.monitor.poll watch s.clock).2 = { s.monitor with
        store := (watch.query.scan s.monitor.rivals s.monitor.store).store } :=
      congrArg (fun store => { s.monitor with store }) (Watch.poll_store _ _ _ _)
    refine (atOnce_set (hs₁.back (s.monitor.poll watch s.clock).2)).bind fun s₂ hs₂ => ?_
    refine (atOnce_logAll _).bind fun s₃ hs₃ => ?_
    dsimp only
    rw [h, ← hmonitor, ← hs₂.monitor, ← hs₃.monitor]
    exact atOnce_pure (some outcome)

/-- **A watch whose first scan gets an event is done at once.** -/
theorem atOnce_watch {q : Search} {baseline : Int} {e : Event} (hw : 0 < w.rounds)
    (hlog : q.pattern.all Value.isLoggable = true)
    (h : (Query.scan ⟨q.name, q.pattern, baseline⟩ s.monitor.rivals s.monitor.store).found =
      .event e) :
    AtOnce (watch q baseline) w s (Outcome.matched e).result
      { s.monitor with
        store := (Query.scan ⟨q.name, q.pattern, baseline⟩ s.monitor.rivals
          s.monitor.store).store } := by
  unfold watch
  refine atOnce_read.bind fun s₁ hs₁ => ?_
  refine atOnce_get.bind fun s₂ hs₂ => ?_
  refine (atOnce_demand hlog).bind fun s₃ hs₃ => ?_
  refine (atOnce_log _).bind fun s₄ hs₄ => ?_
  have hs : s₄.monitor = s.monitor :=
    hs₄.monitor.trans (hs₃.monitor.trans (hs₂.monitor.trans hs₁.monitor))
  rw [← hs] at h ⊢
  refine (atOnce_rounds (Watch.poll_matched_iff.mpr h) hw).bind fun s₅ hs₅ => ?_
  rw [← hs₅.monitor]
  exact atOnce_pure _

/-- **A check whose first scan gets an event is done at once** and gives that event. -/
theorem atOnce_check {expected : Expectation} {pattern : Option Fields} {e : Event}
    (hw : 0 < w.rounds) (hload : Pattern.load expected.source = .ok pattern)
    (hlog : (valueOf pattern).all Value.isLoggable = true)
    (h : (Query.scan ⟨expected.name, valueOf pattern, 0⟩ s.monitor.rivals s.monitor.store).found =
      .event e) :
    AtOnce (check expected) w s (some e)
      { s.monitor with
        store := (Query.scan ⟨expected.name, valueOf pattern, 0⟩ s.monitor.rivals
          s.monitor.store).store } := by
  unfold check
  refine (atOnce_load hload).bind fun s₁ hs₁ => ?_
  refine (atOnce_timeoutOf _).bind fun s₂ hs₂ => ?_
  refine (atOnce_demand hlog).bind fun s₃ hs₃ => ?_
  refine (atOnce_begin _).bind fun s₄ hs₄ => ?_
  have hs : s₄.monitor = s.monitor :=
    hs₄.monitor.trans (hs₃.monitor.trans (hs₂.monitor.trans hs₁.monitor))
  rw [← hs] at h ⊢
  refine (atOnce_watch hw hlog h).bind fun s₅ hs₅ => ?_
  refine (atOnce_attach _ _ _ _).bind fun s₆ hs₆ => ?_
  rw [← hs₅.monitor, ← hs₆.monitor]
  exact atOnce_pure _

/-! ## Section 4: Ingestion -/

/-- The request with which something is offered, if it is one. -/
theorem atOnce_requestOf {fields : Option Fields}
    (h : ∀ given, fields = some given → ∃ request, Request.ofFields given = .ok request) :
    ∃ request, AtOnce (requestOf fields) w s request s.monitor := by
  cases fields with
  | none => exact ⟨none, atOnce_pure none⟩
  | some given =>
    obtain ⟨request, hrequest⟩ := h given rfl
    refine ⟨some request, ?_⟩
    unfold requestOf
    dsimp only
    rw [hrequest]
    exact atOnce_pure (some request)

theorem atOnce_finishIngestion (request : Option Request) (i : Ingestion) :
    AtOnce (finishIngestion request i) w s () { s.monitor with store := i.store } := by
  unfold finishIngestion
  refine (atOnce_change (s.becomes_store i.store)).bind fun s₁ hs₁ => ?_
  rw [← hs₁.monitor]
  exact atOnce_logAll _

/-- **An ingestion is done at once.** -/
theorem atOnce_ingest (raw : Value) (request : Option Request) :
    AtOnce (ingest raw request) w s (s.monitor.store.ingest raw request s.now).ids
      { s.monitor with store := (s.monitor.store.ingest raw request s.now).store } := by
  unfold ingest
  refine atOnce_get.bind fun s₁ hs₁ => ?_
  rw [← hs₁.monitor]
  refine (atOnce_finishIngestion _ _).bind fun s₂ hs₂ => ?_
  rw [hs₁.monitor] at hs₂ ⊢
  rw [← hs₂.monitor]
  exact atOnce_pure _

end Act

/-! ## Section 5: Steps -/

/-- A step that is done at once gives its reply, and nothing comes up meanwhile. -/
theorem Session.take_of_atOnce {w : World} {s : Session} {step : Step} {reply : Reply}
    {m : Monitor Float} (h : (Act.perform step).AtOnce w s.cleared reply m) :
    (take w step s).1.reply = .ok reply ∧ (take w step s).1.fired = [] ∧
      (take w step s).2.monitor = m ∧ (take w step s).2.clock = s.clock ∧
      (take w step s).2.agenda = s.agenda := by
  obtain ⟨s', hrun, hs'⟩ := h
  have htake : Act.take w step s.cleared = (.ok reply, s') := hrun
  unfold take
  rw [htake]
  exact ⟨rfl, hs'.fired, hs'.monitor, hs'.clock, hs'.agenda⟩

end EventCheck
