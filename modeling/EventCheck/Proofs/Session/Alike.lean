import EventCheck.Proofs.Session.Failures

/-! # Sessions that differ in their report

    Attachments, and the records of what went wrong in attaching them, are all that
    reporting leaves in a session.

    - `Session.unreported`: the session without that. Two sessions are alike
      (`Session.Alike`) if they are the same without it.
    - `World.Alike`: the worlds differ at most in where reports go.
    - `Session.Alike.passUntil`: alike sessions stay alike while time passes. By induction
      on what comes up.
    - `Act.Twins`: in alike sessions, two acts give the same value or fail with the same
      failure, and leave alike sessions. `Twins.bind` puts such acts together.
-/

namespace EventCheck

/-! ## Section 1: Alike sessions -/

/-- Is the record one of the reporter? -/
def Log.Record.isReporting (r : Log.Record) : Bool := r.source == "manager"

namespace Session

/-- **The session without what reporting left in it.** -/
def unreported (s : Session) : Session :=
  { s with attached := [], journal := s.journal.filter fun r => !r.isReporting }

/-- **The sessions differ at most in what reporting left in them.** -/
structure Alike (s t : Session) : Prop where
  same : s.unreported = t.unreported

variable {s t : Session}

namespace Alike

theorem refl (s : Session) : s.Alike s := ⟨rfl⟩

theorem monitor (h : s.Alike t) : s.monitor = t.monitor := (congrArg Session.monitor h.same :)

theorem clock (h : s.Alike t) : s.clock = t.clock := (congrArg Session.clock h.same :)

theorem agenda (h : s.Alike t) : s.agenda = t.agenda := (congrArg Session.agenda h.same :)

theorem rung (h : s.Alike t) : s.rung = t.rung := (congrArg Session.rung h.same :)

theorem context (h : s.Alike t) : s.context = t.context := (congrArg Session.context h.same :)

theorem isTornDown (h : s.Alike t) : s.isTornDown = t.isTornDown :=
  (congrArg Session.isTornDown h.same :)

theorem titles (h : s.Alike t) : s.titles = t.titles := (congrArg Session.titles h.same :)

theorem fired (h : s.Alike t) : s.fired = t.fired := (congrArg Session.fired h.same :)

theorem journal (h : s.Alike t) :
    (s.journal.filter fun r => !r.isReporting) = t.journal.filter fun r => !r.isReporting :=
  (congrArg Session.journal h.same :)

theorem now (h : s.Alike t) : s.now = t.now := congrArg Moment.text h.clock

/-- A change that leaves the report alone keeps sessions alike. -/
theorem change (h : s.Alike t) {f : Session → Session}
    (hf : ∀ s, (f s).unreported = f s.unreported) : (f s).Alike (f t) := by
  constructor
  rw [hf s, hf t, h.same]

theorem setMonitor (h : s.Alike t) {m m' : Monitor Float} (hm : m = m') :
    ({ s with monitor := m } : Session).Alike { t with monitor := m' } := by
  subst hm
  exact h.change (f := fun s => { s with monitor := m }) fun _ => rfl

end Alike

/-! ## Section 2: What a step leaves behind -/

/-- Without the report, a record is added if it is none of the reporter. -/
theorem unreported_write (context : Log.Entries) (r : Log.Record) (s : Session) :
    (s.write context r).unreported =
      if r.isReporting then s.unreported else s.unreported.write context r := by
  have hsame : (r.within context).isReporting = r.isReporting := rfl
  by_cases hr : r.isReporting = true
  · simp [write, unreported, List.filter_append, hsame, hr]
  · simp [write, unreported, List.filter_append, hsame, hr]

theorem Alike.write (h : s.Alike t) (context : Log.Entries) (r : Log.Record) :
    (s.write context r).Alike (t.write context r) := by
  constructor
  rw [unreported_write, unreported_write, h.same]

theorem Alike.log (h : s.Alike t) (r : Log.Record) : (s.log r).Alike (t.log r) := by
  unfold Session.log
  rw [h.context]
  exact h.write _ r

/-- Records that are written one after the other keep sessions alike if each of them does. -/
theorem Alike.foldl {f : Session → Log.Record → Session}
    (hf : ∀ r s t, s.Alike t → (f s r).Alike (f t r)) (h : s.Alike t) (rs : List Log.Record) :
    (rs.foldl f s).Alike (rs.foldl f t) := by
  induction rs generalizing s t with
  | nil => exact h
  | cons r rest ih => exact ih (hf r s t h)

theorem Alike.logAll (h : s.Alike t) (rs : List Log.Record) :
    (rs.foldl (fun s r => s.log r) s).Alike (rs.foldl (fun s r => s.log r) t) :=
  h.foldl (fun r _ _ h => h.log r) rs

theorem Alike.writeAll (h : s.Alike t) (context : Log.Entries) (rs : List Log.Record) :
    (rs.foldl (fun s r => s.write context r) s).Alike
      (rs.foldl (fun s r => s.write context r) t) :=
  h.foldl (fun r _ _ h => h.write context r) rs

/-- Records of the reporter are not seen. -/
theorem unreported_logAll {rs : List Log.Record} (h : ∀ r ∈ rs, r.isReporting = true)
    (s : Session) : (rs.foldl (fun s r => s.log r) s).unreported = s.unreported := by
  induction rs generalizing s with
  | nil => rfl
  | cons r rest ih =>
    rw [List.foldl_cons, ih (fun r' hr' => h r' (List.mem_cons_of_mem _ hr')), log,
      unreported_write, if_pos (h r List.mem_cons_self)]

end Session

/-- **All that a reporter logs is about reporting.** -/
theorem Reporter.records_reporting (reporter : Reporter) (name : String) (occasion : Occasion)
    (expected actual : Option Value) :
    ∀ r ∈ (reporter.attach name occasion expected actual).records, r.isReporting = true := by
  intro r hr
  unfold attach at hr
  dsimp only at hr
  split at hr
  · split at hr
    · rw [List.mem_singleton.mp hr]
      rfl
    · cases hr
    · split at hr
      · cases hr
      · rw [List.mem_singleton.mp hr]
        rfl
  · cases hr

namespace Session

variable {s t : Session}

/-- **What is attached is not seen**, whether it is attached or fails to be. -/
theorem unreported_attach (s : Session) (reporter : Reporter) (name : String)
    (occasion : Occasion) (expected actual : Option Value) :
    (s.attach reporter name occasion expected actual).unreported = s.unreported := by
  unfold attach
  exact unreported_logAll (reporter.records_reporting name occasion expected actual) _

theorem Alike.attach (h : s.Alike t) (reporter reporter' : Reporter) (name : String)
    (occasion : Occasion) (expected actual : Option Value) :
    (s.attach reporter name occasion expected actual).Alike
      (t.attach reporter' name occasion expected actual) := by
  constructor
  rw [unreported_attach, unreported_attach, h.same]

end Session

/-! ## Section 3: Time -/

/-- **The worlds differ at most in where reports go.** -/
structure World.Alike (w v : World) : Prop where
  timeout : w.setup.timeout = v.setup.timeout
  polling : w.setup.polling = v.setup.polling
  paths : w.setup.paths = v.setup.paths
  atEnd : w.setup.atEnd = v.setup.atEnd
  rounds : w.rounds = v.rounds
  fire : ∀ step s t, s.Alike t → (w.fire step s).Alike (v.fire step t)

namespace Session.Alike

variable {w v : World} {s t : Session}

theorem ticket (h : s.Alike t) (time : Float) (task : Task) :
    (s.put time task).1 = (t.put time task).1 := congrArg Agenda.nextTicket h.agenda

theorem put (h : s.Alike t) {time time' : Float} (htime : time = time') {task task' : Task}
    (htask : task = task') : (s.put time task).2.Alike (t.put time' task').2 := by
  subst htime htask
  exact h.change (f := fun s => (s.put time task).2) fun _ => rfl

/-- A round of a check in the background is the same in alike sessions. -/
theorem runCheck (h : s.Alike t) (number : Nat) :
    (s.runCheck number).Alike (t.runCheck number) := by
  have hpoll : s.monitor.pollCheck number s.clock = t.monitor.pollCheck number t.clock := by
    rw [h.monitor, h.clock]
  unfold Session.runCheck
  rw [hpoll]
  cases t.monitor.pollCheck number t.clock with
  | none => exact h
  | some played =>
    obtain ⟨round, poll, monitor⟩ := played
    have hrecords : pollRecords s.monitor.rivals round.watch poll s.clock =
        pollRecords t.monitor.rivals round.watch poll t.clock := by
      rw [h.monitor, h.clock]
    dsimp only
    rw [hrecords]
    -- all that is written is the same, whatever it is
    generalize _ ++ pollRecords t.monitor.rivals round.watch poll t.clock ++ _ = records
    have hwritten := (h.setMonitor (rfl : monitor = monitor)).writeAll [] records
    cases poll.turn with
    | ended outcome => exact hwritten
    | sleeps duration =>
      exact hwritten.put (by rw [hwritten.clock]) rfl

/-- What comes up at a moment is the same in alike sessions. -/
theorem runEntry (hw : w.Alike v) (h : s.Alike t) (e : Agenda.Entry Task) :
    (Session.runEntry w e s).Alike (Session.runEntry v e t) := by
  unfold Session.runEntry
  cases e.task with
  | wake => exact h.change (f := fun s => { s with rung := e.ticket :: s.rung }) fun _ => rfl
  | poll number => exact h.runCheck number
  | step step => exact hw.fire step s t h

/-- **Alike sessions stay alike while time passes**, until something holds that does not depend on
    the report. By induction on how much may come up. -/
theorem passUntil (hw : w.Alike v) {isOver : Session → Bool}
    (hover : ∀ s t, s.Alike t → isOver s = isOver t) (rounds : Nat) (h : s.Alike t) :
    (Session.passUntil w isOver rounds s).Alike (Session.passUntil v isOver rounds t) := by
  induction rounds generalizing s t with
  | zero => exact h
  | succ rounds ih =>
    rw [Session.passUntil, Session.passUntil, hover s t h]
    by_cases hdone : isOver t = true
    · rw [if_pos hdone, if_pos hdone]
      exact h
    · rw [if_neg hdone, if_neg hdone, h.agenda]
      cases t.agenda.pop? with
      | none => exact h
      | some next =>
        obtain ⟨e, agenda⟩ := next
        have hnext := h.change (f := fun s => { s with agenda := agenda, clock := e.time })
          fun _ => rfl
        exact ih (hnext.runEntry hw e)

theorem hasRung (h : s.Alike t) (ticket : Nat) : s.hasRung ticket = t.hasRung ticket := by
  unfold Session.hasRung
  rw [h.rung]

theorem isSettled (h : s.Alike t) (number : Nat) : s.isSettled number = t.isSettled number := by
  unfold Session.isSettled
  rw [h.monitor]

theorem forget (h : s.Alike t) (ticket : Nat) :
    ({ s with rung := s.rung.erase ticket } : Session).Alike
      { t with rung := t.rung.erase ticket } :=
  h.change (f := fun s => { s with rung := s.rung.erase ticket }) fun _ => rfl

theorem sleep (hw : w.Alike v) (h : s.Alike t) (duration : Float) :
    (s.sleep w duration).Alike (t.sleep v duration) := by
  unfold Session.sleep
  dsimp only
  rw [h.clock, h.ticket, hw.rounds]
  exact ((h.put rfl rfl).passUntil hw (fun _ _ h => h.hasRung _) _).forget _

theorem waitForCheck (hw : w.Alike v) (h : s.Alike t) (number : Nat) (bound : Option Float) :
    (s.waitForCheck w number bound).Alike (t.waitForCheck v number bound) := by
  unfold Session.waitForCheck
  rw [h.isSettled]
  by_cases hdone : t.isSettled number = true
  · rw [if_pos hdone, if_pos hdone]
    exact h
  · rw [if_neg hdone, if_neg hdone, hw.rounds]
    cases bound with
    | none => exact h.passUntil hw (fun _ _ h => h.isSettled number) _
    | some bound =>
      dsimp only
      rw [h.clock, h.ticket]
      refine ((h.put rfl rfl).passUntil hw (fun _ _ h => ?_) _).forget _
      rw [h.isSettled, h.hasRung]

end Session.Alike

/-! ## Section 4: Acts in alike sessions -/

namespace Act

/-- **The acts are twins** in these worlds: in alike sessions they give the same value or fail with
    the same failure, and they leave alike sessions. -/
def Twins {α : Type} (w v : World) (x y : Act α) : Prop :=
  ∀ s t : Session, s.Alike t → ((x.run w).run s).1 = ((y.run v).run t).1 ∧
    ((x.run w).run s).2.Alike ((y.run v).run t).2

variable {α β : Type} {w v : World}

theorem twins_pure (a : α) : Twins w v (pure a) (pure a) := fun _ _ hs => ⟨rfl, hs⟩

theorem twins_throw (failure : Failure) :
    Twins w v (throw failure : Act α) (throw failure : Act α) :=
  fun _ _ hs => ⟨rfl, hs⟩

theorem twins_set {s t : Session} (h : s.Alike t) :
    Twins w v (set s : Act PUnit) (set t : Act PUnit) :=
  fun _ _ _ => ⟨rfl, h⟩

theorem twins_change {f g : Session → Session} (h : ∀ s t, s.Alike t → (f s).Alike (g t)) :
    Twins w v (change f) (change g) :=
  fun s t hs => ⟨rfl, h s t hs⟩

/-- **Two acts in a row are twins if the first ones are**, and the second ones are for every value
    that the first ones may give. -/
theorem Twins.bind {x y : Act α} {f g : α → Act β} (hx : Twins w v x y)
    (hf : ∀ a, Twins w v (f a) (g a)) : Twins w v (x >>= f) (y >>= g) := by
  intro s t hs
  obtain ⟨hsame, hleft⟩ := hx s t hs
  rw [run_bind, run_bind]
  generalize (x.run w).run s = first, (y.run v).run t = second at hsame hleft
  obtain ⟨result, s'⟩ := first
  obtain ⟨result', t'⟩ := second
  dsimp only at hsame hleft ⊢
  subst hsame
  cases result with
  | ok a => exact hf a s' t' hleft
  | error failure => exact ⟨rfl, hleft⟩

/-- Acts that look at their worlds are twins if what they do then is. -/
theorem twins_read_bind {f g : World → Act α} (h : Twins w v (f w) (g v)) :
    Twins w v (read >>= f) (read >>= g) := by
  intro s t hs
  rw [run_bind, run_bind]
  exact h s t hs

/-- Acts that look at their sessions are twins if what they do then is, in alike sessions. -/
theorem twins_get_bind {f g : Session → Act α} (h : ∀ s t, s.Alike t → Twins w v (f s) (g t)) :
    Twins w v (get >>= f) (get >>= g) := by
  intro s t hs
  rw [run_bind, run_bind]
  exact h s t hs s t hs

/-- An act whose failure is handled is that act and, if it fails, what is done about it. -/
theorem run_tryCatch (x : Act α) (f : Failure → Act α) (w : World) (s : Session) :
    ((tryCatch x f).run w).run s = match (x.run w).run s with
      | (.ok a, s') => (.ok a, s')
      | (.error failure, s') => ((f failure).run w).run s' := by
  have hinner : (tryCatch x f).run w = ExceptT.tryCatch (x.run w) fun e => (f e).run w := rfl
  rw [hinner, ExceptT.tryCatch, ExceptT.run_mk]
  show StateT.bind (x.run w).run _ s = _
  unfold StateT.bind
  rcases (x.run w).run s with ⟨⟨failure⟩ | ⟨a⟩, s'⟩ <;> rfl

/-- **So are acts with their failures handled**, if both the acts and what is done about a failure
    are twins. -/
theorem Twins.tryCatch {x y : Act α} {f g : Failure → Act α} (hx : Twins w v x y)
    (hf : ∀ failure, Twins w v (f failure) (g failure)) :
    Twins w v (tryCatch x f) (tryCatch y g) := by
  intro s t hs
  obtain ⟨hsame, hleft⟩ := hx s t hs
  rw [run_tryCatch, run_tryCatch]
  generalize (x.run w).run s = first, (y.run v).run t = second at hsame hleft
  obtain ⟨result, s'⟩ := first
  obtain ⟨result', t'⟩ := second
  dsimp only at hsame hleft ⊢
  subst hsame
  cases result with
  | ok a => exact ⟨rfl, hleft⟩
  | error failure => exact hf failure s' t' hleft

/-- What is made of the value of an act is the same if the value is. -/
theorem Twins.gives {x y : Act α} (h : Twins w v x y) (f : α → β) :
    Twins w v (do let a ← x; pure (f a)) (do let a ← y; pure (f a)) :=
  h.bind fun a => twins_pure (f a)

/-- What is read off the monitor is the same. -/
theorem twins_monitor (f : Monitor Float → α) :
    Twins w v (do pure (f (← get).monitor)) (do pure (f (← get).monitor)) := by
  refine twins_get_bind fun s t h => ?_
  rw [h.monitor]
  exact twins_pure _

end Act

end EventCheck
