import EventCheck.Proofs.Watch.Deadline
import EventCheck.Proofs.Watch.First

/-! # Watches for different names

    A watch looks at the events that have its name and at nothing else. So it cannot tell
    what the others are, and watches for different names do not get into each other's way.

    - `Store.AlikeFor`: two stores that differ only in events with other names than one.
    - `Query.scan_alike` is the step: a scan for that name sees the same in both, and leaves
      stores that are alike again. `Scene.rounds_alike` carries that through the rounds of a
      watch, whatever others do to the two stores in between, as long as they keep them alike.
    - `Query.alikeFor_scan`: to a watch for another name a scan makes no difference at all.
    - `Scene.names_independent` puts it together.
-/

namespace EventCheck

/-! ## Section 1: Stores that are alike for a name -/

/-- **Events that are alike for a name**: they are the same, or both have another name. -/
def Event.AlikeFor (name : String) (x y : Event) : Prop :=
  x = y ∨ x.name ≠ name ∧ y.name ≠ name

namespace Store

/-- **Stores that are alike for a name.** In each place there are events that are alike, and those
    that have the name are consumed in both stores or in neither. -/
structure AlikeFor (name : String) (s t : Store) : Prop where
  events : List.Forall₂ (Event.AlikeFor name) s.events t.events
  consumed : ∀ x ∈ s.events, x.name = name → s.isConsumed x.id = t.isConsumed x.id

theorem forall₂_alikeFor_self (name : String) (events : List Event) :
    List.Forall₂ (Event.AlikeFor name) events events :=
  List.forall₂_same.mpr fun _ _ => .inl rfl

/-- The same events stand behind a baseline. -/
theorem AlikeFor.eventsSince {name : String} {s t : Store} (h : s.AlikeFor name t)
    (baseline : Int) :
    List.Forall₂ (Event.AlikeFor name) (s.eventsSince baseline) (t.eventsSince baseline) := by
  have hsize : s.size = t.size := h.events.length_eq
  unfold Store.eventsSince
  by_cases hfront : 0 ≤ baseline
  · simp only [hfront, if_true]
    exact List.forall₂_drop _ h.events
  · simp only [hfront, if_false, hsize]
    exact List.forall₂_drop _ h.events

/-- One more id in both ledgers makes no difference. -/
theorem isConsumed_mark_congr {s t : Store} {other : Int}
    (h : s.isConsumed other = t.isConsumed other) (id : Int) :
    (s.mark id).isConsumed other = (t.mark id).isConsumed other := by
  rw [Bool.eq_iff_iff, isConsumed_mark, isConsumed_mark, h]

end Store

/-! ## Section 2: One scan -/

namespace Query

variable {q : Query} {r : Rivals} {s t : Store}

/-- An event with another name is passed over. -/
theorem not_isCandidate_of_name {e : Event} (h : e.name ≠ q.name) (s : Store) :
    q.isCandidate s e = false := by
  simp [isCandidate, h]

/-- The same event is a candidate in both stores or in neither, if they agree about it. -/
theorem isCandidate_congr {e : Event}
    (h : e.name = q.name → s.isConsumed e.id = t.isConsumed e.id) :
    q.isCandidate t e = q.isCandidate s e := by
  by_cases hname : e.name = q.name
  · simp only [isCandidate, h hname]
  · rw [not_isCandidate_of_name hname, not_isCandidate_of_name hname]

/-- The scan of events that are alike, one by one. The invariant is about the ledgers alone: they
    agree about all stored events that have the name. -/
theorem scanEvents_alike {stored xs ys : List Event} (hr : r.resetAfter = [])
    (h : List.Forall₂ (Event.AlikeFor q.name) xs ys) (hstored : xs ⊆ stored)
    (hsame : ∀ x ∈ stored, x.name = q.name → s.isConsumed x.id = t.isConsumed x.id)
    (tally : Tally) :
    let scan := q.scanEvents r xs tally s
    let scan' := q.scanEvents r ys tally t
    scan.found = scan'.found ∧ scan.tally = scan'.tally ∧
      ∀ x ∈ stored, x.name = q.name →
        scan.store.isConsumed x.id = scan'.store.isConsumed x.id := by
  induction h generalizing s t tally with
  | nil => exact ⟨rfl, rfl, hsame⟩
  | @cons x y xs ys hxy _ ih =>
    obtain ⟨hx, hrest⟩ := List.cons_subset.mp hstored
    rcases hxy with rfl | ⟨hname, hname'⟩
    · have hc : q.isCandidate t x = q.isCandidate s x := isCandidate_congr (hsame x hx)
      by_cases hcand : q.isCandidate s x = true
      · rw [hcand] at hc
        cases ha : q.admits x.payload with
        | error error =>
          simp only [scanEvents, hcand, hc, ha, if_true, true_and]
          exact hsame
        | ok admitted =>
          cases admitted with
          | false =>
            simp only [scanEvents, hcand, hc, ha, if_true]
            exact ih hrest hsame _
          | true =>
            have hfree : s.isConsumed x.id = false := (isCandidate_iff.mp hcand).2
            have hfree' : t.isConsumed x.id = false := (isCandidate_iff.mp hc).2
            have hmarked : ∀ y ∈ stored, y.name = q.name →
                (s.mark x.id).isConsumed y.id = (t.mark x.id).isConsumed y.id := by
              intro y hy hname
              exact Store.isConsumed_mark_congr (hsame y hy hname) x.id
            cases hl : r.lost.contains (x.id : Int) with
            | false =>
              simp only [scanEvents, hcand, hc, ha, Rivals.tryConsume_of_fresh hfree hl,
                Rivals.tryConsume_of_fresh hfree' hl, if_true, true_and]
              simpa [Rivals.settle, hr] using hmarked
            | true =>
              simp only [scanEvents, hcand, hc, ha, Rivals.tryConsume_of_lost hfree hl,
                Rivals.tryConsume_of_lost hfree' hl, if_true]
              exact ih hrest hmarked _
      · rw [Bool.not_eq_true] at hcand
        rw [hcand] at hc
        simp only [scanEvents, hcand, hc, Bool.false_eq_true, if_false]
        exact ih hrest hsame _
    · -- two events with other names are passed over in both stores
      simp only [scanEvents, not_isCandidate_of_name hname, not_isCandidate_of_name hname',
        Bool.false_eq_true, if_false]
      exact ih hrest hsame _

/-- A scan among rivals that drop nothing leaves the stored events. -/
theorem events_scan (hr : r.resetAfter = []) : (q.scan r s).store.events = s.events := by
  rw [(course_scan q r s).store_eq hr]

/-- It leaves the next id, too. -/
theorem nextId_scan (hr : r.resetAfter = []) : (q.scan r s).store.nextId = s.nextId := by
  rw [(course_scan q r s).store_eq hr]

/-- **A scan sees the same in stores that are alike for its name**, and leaves them alike. -/
theorem scan_alike (hr : r.resetAfter = []) (h : s.AlikeFor q.name t) :
    (q.scan r s).found = (q.scan r t).found ∧ (q.scan r s).tally = (q.scan r t).tally ∧
      (q.scan r s).store.AlikeFor q.name (q.scan r t).store := by
  have hsubset : s.eventsSince q.baseline ⊆ s.events :=
    fun x hx => Store.mem_of_mem_eventsSince hx
  obtain ⟨hfound, htally, hconsumed⟩ :=
    scanEvents_alike hr (h.eventsSince q.baseline) hsubset h.consumed ⟨0, none, []⟩
  refine ⟨hfound, htally, ?_, ?_⟩
  · rw [events_scan hr, events_scan hr]
    exact h.events
  · rw [events_scan hr]
    exact hconsumed

/-- **To a watch for another name a scan makes no difference**, since ids are unique: the event
    that it gets is none of that name. -/
theorem alikeFor_scan (hr : r.resetAfter = []) (hs : s.Numbered) {name : String}
    (hname : q.name ≠ name) : s.AlikeFor name (q.scan r s).store where
  events := by
    rw [events_scan hr]
    exact Store.forall₂_alikeFor_self name s.events
  consumed x hx hxname := by
    have hno : q.wants x = false := by
      rw [← Bool.not_eq_true, wants_iff, hxname]
      intro hwants
      exact hname hwants.1.symm
    exact (untouched_of_unwanted hr hs hx hno).symm

end Query

/-- **A round is the same over stores that are alike for its name**, and leaves them alike. -/
theorem Watch.poll_alike {w : Watch Rat} {r : Rivals} {s t : Store} (hr : r.resetAfter = [])
    (h : s.AlikeFor w.query.name t) (now : Rat) :
    (w.poll r now s).turn = (w.poll r now t).turn ∧
      (w.poll r now s).store.AlikeFor w.query.name (w.poll r now t).store := by
  obtain ⟨hfound, htally, hstore⟩ := Query.scan_alike hr h
  constructor
  · unfold poll
    simp only [hfound, htally]
    cases (w.query.scan r t).found with
    | event e => rfl
    | failed error => rfl
    | nothing => cases w.pace.rest now <;> rfl
  · rw [poll_store, poll_store]
    exact hstore

/-! ## Section 3: Whole watches -/

/-- **A scene for watches**: the clock and the store. -/
structure Scene where
  clock : Rat
  store : Store

/-- What others do to the store while a watch sleeps, by the time at which it wakes up. -/
abbrev Traffic : Type := Rat → Store → Store

/-- **The traffic of two scenes that differ in other names only**: it keeps stores alike. -/
def Traffic.AlikeFor (name : String) (traffic traffic' : Traffic) : Prop :=
  ∀ clock s t, s.AlikeFor name t → (traffic clock s).AlikeFor name (traffic' clock t)

/-- No traffic at all. -/
def Traffic.quiet : Traffic := fun _ s => s

namespace Scene

/-- A scene as the place of a watch. Time is exact, and passes only while the watch sleeps. -/
def workplace (r : Rivals) (traffic : Traffic) : Workplace (StateM Scene) Rat where
  poll w := do
    let scene ← get
    let poll := w.poll r scene.clock scene.store
    set { scene with store := poll.store }
    pure poll
  sleep duration := modify fun scene =>
    ⟨scene.clock + duration, traffic (scene.clock + duration) scene.store⟩

/-- **A watch from its beginning to its end**, within so many rounds: its outcome, if it ends. -/
def watch (r : Rivals) (traffic : Traffic) (query : Query) (timeout : Seconds Rat)
    (interval : Rat) (rounds : Nat) : StateM Scene (Option (Outcome Rat)) := do
  let scene ← get
  (Watch.starting query timeout interval scene.clock).rounds (workplace r traffic) rounds

/-- The scene behind a round. -/
def polled (scene : Scene) (r : Rivals) (w : Watch Rat) : Scene :=
  { scene with store := (w.poll r scene.clock scene.store).store }

/-- The scene behind a sleep. -/
def slept (scene : Scene) (traffic : Traffic) (duration : Rat) : Scene :=
  ⟨scene.clock + duration, traffic (scene.clock + duration) scene.store⟩

section Rounds

variable {w : Watch Rat} {r : Rivals} {traffic traffic' : Traffic} {scene scene' : Scene}

theorem run_rounds_of_ended {outcome : Outcome Rat}
    (h : (w.poll r scene.clock scene.store).turn = .ended outcome) (count : Nat) :
    (w.rounds (workplace r traffic) (count + 1)).run scene = (some outcome, scene.polled r w) := by
  have hpoll : ((workplace r traffic).poll w).run scene =
      (w.poll r scene.clock scene.store, scene.polled r w) := rfl
  rw [Watch.rounds, StateT.run_bind, hpoll]
  dsimp only [bind]
  rw [h]
  rfl

theorem run_rounds_of_sleeps {duration : Rat}
    (h : (w.poll r scene.clock scene.store).turn = .sleeps duration) (count : Nat) :
    (w.rounds (workplace r traffic) (count + 1)).run scene =
      (w.rounds (workplace r traffic) count).run ((scene.polled r w).slept traffic duration) := by
  have hpoll : ((workplace r traffic).poll w).run scene =
      (w.poll r scene.clock scene.store, scene.polled r w) := rfl
  rw [Watch.rounds, StateT.run_bind, hpoll]
  dsimp only [bind]
  rw [h]
  rfl

/-- **The rounds of a watch are the same in scenes that are alike for its name.** By induction on
    the rounds that are left; what one round and one sleep keep is that the stores are alike. -/
theorem rounds_alike (hr : r.resetAfter = []) (htraffic : traffic.AlikeFor w.query.name traffic')
    (count : Nat) (hclock : scene.clock = scene'.clock)
    (hstore : scene.store.AlikeFor w.query.name scene'.store) :
    ((w.rounds (workplace r traffic) count).run scene).1 =
      ((w.rounds (workplace r traffic') count).run scene').1 := by
  induction count generalizing scene scene' with
  | zero => rfl
  | succ count ih =>
    obtain ⟨hturn, hpolled⟩ := Watch.poll_alike hr hstore scene.clock
    rw [hclock] at hturn hpolled
    cases hend : (w.poll r scene'.clock scene'.store).turn with
    | ended outcome =>
      rw [hend, ← hclock] at hturn
      rw [run_rounds_of_ended hturn, run_rounds_of_ended hend]
    | sleeps duration =>
      rw [hend, ← hclock] at hturn
      rw [run_rounds_of_sleeps hturn, run_rounds_of_sleeps hend]
      have hclock' : scene.clock + duration = scene'.clock + duration := by rw [hclock]
      apply ih
      · exact hclock'
      · show ((traffic _ _).AlikeFor _ (traffic' _ _))
        rw [polled, polled, hclock]
        exact htraffic _ _ _ hpolled

end Rounds

/-! ## Section 4: Watches that do not wait -/

section AtOnce

variable {query : Query} {timeout : Seconds Rat} {interval : Rat} {r : Rivals} {traffic : Traffic}

/-- How a watch ends that does not wait. -/
def verdict (query : Query) (timeout : Seconds Rat) (interval : Rat) (r : Rivals) (scene : Scene) :
    Outcome Rat :=
  let scan := query.scan r scene.store
  match scan.found with
  | .event e => .matched e
  | .failed error => .crashed (.search error)
  | .nothing =>
    (Watch.starting query timeout interval scene.clock).giveUp scan.tally scene.clock

/-- **A watch that does not wait ends with its first round.** -/
theorem run_watch_at_once (htimeout : timeout.length ≤ 0) (scene : Scene) (count : Nat) :
    (watch r traffic query timeout interval (count + 1)).run scene =
      (some (verdict query timeout interval r scene),
        { scene with store := (query.scan r scene.store).store }) := by
  have hover : (Pace.starting scene.clock timeout interval).rest scene.clock = .isOver := by
    apply Pace.rest_behind
    show scene.clock + timeout.length ≤ scene.clock
    linarith
  have hturn : ((Watch.starting query timeout interval scene.clock).poll r scene.clock
      scene.store).turn = .ended (verdict query timeout interval r scene) := by
    unfold Watch.poll verdict
    simp only [Watch.starting]
    cases (query.scan r scene.store).found with
    | event e => rfl
    | failed error => rfl
    | nothing => simp only [hover]
  have hrun : (watch r traffic query timeout interval (count + 1)).run scene =
      (some (verdict query timeout interval r scene),
        scene.polled r (Watch.starting query timeout interval scene.clock)) :=
    run_rounds_of_ended hturn count
  rw [polled, Watch.poll_store] at hrun
  exact hrun

/-- Over a store that is alike for its name it ends in the same way. -/
theorem verdict_alike (hr : r.resetAfter = []) {clock : Rat} {s t : Store}
    (h : s.AlikeFor query.name t) :
    verdict query timeout interval r ⟨clock, s⟩ = verdict query timeout interval r ⟨clock, t⟩ := by
  obtain ⟨hfound, htally, -⟩ := Query.scan_alike hr h
  simp only [verdict, hfound, htally]

end AtOnce

/-- **Of two watches for different names the second ends as if the first had not been**, if neither
    waits. -/
theorem run_both (q q' : Query) {timeout timeout' : Seconds Rat} {s : Store} {β : Type}
    (hs : s.Numbered) (hnames : q.name ≠ q'.name) (htimeout : timeout.length ≤ 0)
    (htimeout' : timeout'.length ≤ 0) (interval interval' clock : Rat) (count : Nat)
    (results : Option (Outcome Rat) → Option (Outcome Rat) → β) :
    (do
      let a ← watch .none .quiet q timeout interval (count + 1)
      let b ← watch .none .quiet q' timeout' interval' (count + 1)
      pure (results a b) : StateM Scene β).run ⟨clock, s⟩ =
    (results (some (verdict q timeout interval .none ⟨clock, s⟩))
        (some (verdict q' timeout' interval' .none ⟨clock, s⟩)),
      ⟨clock, (q'.scan .none (q.scan .none s).store).store⟩) := by
  -- what the first leaves is alike for the second
  have hsecond : verdict q' timeout' interval' .none ⟨clock, s⟩ =
      verdict q' timeout' interval' .none ⟨clock, (q.scan .none s).store⟩ :=
    verdict_alike rfl (Query.alikeFor_scan rfl hs hnames)
  rw [hsecond]
  simp only [StateT.run_bind, run_watch_at_once htimeout, run_watch_at_once htimeout']
  rfl

/-- Two scans of watches for different names enter the same ids, whichever comes first. -/
theorem isConsumed_both {q₁ q₂ : Query} {s : Store} (hs : s.Numbered) (hnames : q₁.name ≠ q₂.name)
    (id : Int) :
    (q₂.scan .none (q₁.scan .none s).store).store.isConsumed id = true ↔
      s.isConsumed id = true ∨ (∃ e, (q₁.scan .none s).found = .event e ∧ (e.id : Int) = id) ∨
        ∃ e, (q₂.scan .none s).found = .event e ∧ (e.id : Int) = id := by
  have hfound : (q₂.scan .none s).found = (q₂.scan .none (q₁.scan .none s).store).found :=
    (Query.scan_alike rfl (Query.alikeFor_scan rfl hs hnames)).1
  have hnone (q : Query) (s : Store) (y : Event) : q.snatched .none s y = false := by
    simp [Query.snatched, Rivals.none]
  simp only [Query.isConsumed_scan_iff (r := .none) rfl, ← hfound, hnone, Bool.false_eq_true,
    false_and, and_false, exists_false, or_false, or_assoc]

/-- **Watches for different names are independent.**

    Two watches that do not wait, for different names, end in the same way in either order,
    whatever was stored and consumed before and whatever their patterns and baselines are. In
    either order they leave the same events, the same next id and the same ledger.

    A watch ends in the same way over two stores that differ only in events with other names,
    whatever these hold, whatever names but its own they have, and whether they are consumed;
    this holds for every pattern, baseline, timeout and interval, also if ids are lost to
    rivals, and while others go on to change the two stores in such a way. -/
theorem names_independent (deeds : List Store.Deed) (clock : Rat) {name other : String}
    (hnames : name ≠ other) (pattern pattern' : Option Value) (baseline baseline' : Nat)
    {timeout timeout' : Seconds Rat} (htimeout : timeout.length ≤ 0)
    (htimeout' : timeout'.length ≤ 0) (interval interval' : Rat) (count : Nat) :
    let s := Store.empty.after deeds
    let first := watch .none .quiet ⟨name, pattern, baseline⟩ timeout interval (count + 1)
    let second := watch .none .quiet ⟨other, pattern', baseline'⟩ timeout' interval' (count + 1)
    let there := (do let a ← first; let b ← second; pure (a, b) : StateM Scene _).run ⟨clock, s⟩
    let back := (do let b ← second; let a ← first; pure (a, b) : StateM Scene _).run ⟨clock, s⟩
    (∃ a b, there.1 = (some a, some b) ∧ back.1 = (some a, some b)) ∧
    there.2.store.events = back.2.store.events ∧ there.2.store.nextId = back.2.store.nextId ∧
    (∀ id, there.2.store.isConsumed id = back.2.store.isConsumed id) ∧
    ∀ (t : Store) (traffic traffic' : Traffic), s.AlikeFor name t →
      traffic.AlikeFor name traffic' →
      ∀ (lost : List Int) (baseline : Int) (timeout : Seconds Rat) (interval : Rat) (rounds : Nat),
        let query : Query := ⟨name, pattern, baseline⟩
        ((watch ⟨lost, []⟩ traffic query timeout interval rounds).run ⟨clock, s⟩).1 =
          ((watch ⟨lost, []⟩ traffic' query timeout interval rounds).run ⟨clock, t⟩).1 := by
  intro s first second there back
  have hs : s.Numbered := Store.numbered_history deeds
  let q : Query := ⟨name, pattern, baseline⟩
  let q' : Query := ⟨other, pattern', baseline'⟩
  have hthere : there = _ :=
    run_both q q' hs hnames htimeout htimeout' interval interval' clock count Prod.mk
  have hback : back = _ :=
    run_both q' q hs hnames.symm htimeout' htimeout interval' interval clock count
      fun b a => (a, b)
  rw [hthere, hback]
  refine ⟨⟨_, _, rfl, rfl⟩, ?_, ?_, ?_, ?_⟩
  · simp only [Query.events_scan (r := .none) rfl]
  · simp only [Query.nextId_scan (r := .none) rfl]
  · intro id
    rw [Bool.eq_iff_iff, isConsumed_both hs hnames, isConsumed_both hs hnames.symm]
    exact or_congr_right or_comm
  · intro t traffic traffic' halike htraffic lost baseline timeout interval rounds query
    exact rounds_alike (w := Watch.starting query timeout interval clock) rfl htraffic rounds rfl
      halike

/-- An order and a view come in. -/
def orderAndView : List Store.Deed :=
  [.append (.plain "order" .null none) "noon", .append (.plain "view" (.int 1) none) "noon"]

/-- The same, but instead of the view a click came, and that is consumed. -/
def orderAndClick : Store where
  events := [⟨1, "order", .null, "noon", none⟩, ⟨2, "click", .str "*", "noon", none⟩]
  consumed := [2]
  nextId := 3

theorem orderAndView_alikeFor :
    (Store.empty.after orderAndView).AlikeFor "order" orderAndClick where
  events := .cons (.inl rfl) (.cons (.inr ⟨by decide, by decide⟩) .nil)
  consumed := by
    intro x hx hname
    rcases List.mem_cons.mp hx with rfl | hx
    · rfl
    · obtain rfl := List.mem_singleton.mp hx
      exact absurd hname (by decide)

/-- The watch for the order and the watch for the view do not meet, and the watch for the order does
    not see that a click came instead of the view. -/
theorem order_independent_of_view :
    let s := Store.empty.after orderAndView
    let first := watch .none .quiet ⟨"order", none, 0⟩ (.whole 0) 1 1
    let second := watch .none .quiet ⟨"view", none, 0⟩ (.whole 0) 1 1
    let there := (do let a ← first; let b ← second; pure (a, b) : StateM Scene _).run ⟨0, s⟩
    let back := (do let b ← second; let a ← first; pure (a, b) : StateM Scene _).run ⟨0, s⟩
    "order" ≠ "view" ∧ (Seconds.whole 0 : Seconds Rat).length ≤ 0 ∧
      s.AlikeFor "order" orderAndClick ∧ Traffic.quiet.AlikeFor "order" .quiet ∧
      (∃ a b, there.1 = (some a, some b) ∧ back.1 = (some a, some b)) ∧
      (∀ id, there.2.store.isConsumed id = back.2.store.isConsumed id) ∧
      ((watch ⟨[], []⟩ .quiet ⟨"order", none, 0⟩ (.whole 1) 1 2).run ⟨0, s⟩).1 =
        ((watch ⟨[], []⟩ .quiet ⟨"order", none, 0⟩ (.whole 1) 1 2).run ⟨0, orderAndClick⟩).1 := by
  intro s first second there back
  have hnames : "order" ≠ "view" := by decide
  have hlength : (Seconds.whole 0 : Seconds Rat).length ≤ 0 := by decide
  have hquiet : Traffic.quiet.AlikeFor "order" .quiet := fun _ _ _ h => h
  obtain ⟨hresults, -, -, hledger, hsame⟩ :=
    names_independent orderAndView 0 hnames none none 0 0 hlength hlength 1 1 0
  exact ⟨hnames, hlength, orderAndView_alikeFor, hquiet, hresults, hledger,
    hsame orderAndClick .quiet .quiet orderAndView_alikeFor hquiet [] 0 (.whole 1) 1 2⟩

end Scene

end EventCheck
