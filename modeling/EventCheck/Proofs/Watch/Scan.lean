import EventCheck.Watch.Scan

/-! # The course of a scan

    `Query.Course` tells event by event what a scan does: it passes over events
    that are no candidates or lack the pattern, goes on when it loses an event to a
    rival, and ends with the first event that it gets.

    - `course_scan`: every scan runs such a course.
    - `Course.found_event` says what the found event is, `Course.gone_over` what became
      of the events in front of it, and `Course.store_eq` what of the store.
    - `Course.answers_of_event` says which answers such a scan gets from the ledger.
-/

namespace EventCheck

/-! ## Section 1: Consuming one id -/

namespace Store

/-- The store with one more id in its ledger. -/
def mark (s : Store) (id : Int) : Store := { s with consumed := id :: s.consumed }

@[simp] theorem mark_events (s : Store) (id : Int) : (s.mark id).events = s.events := rfl

@[simp] theorem mark_nextId (s : Store) (id : Int) : (s.mark id).nextId = s.nextId := rfl

@[simp] theorem mark_consumed (s : Store) (id : Int) :
    (s.mark id).consumed = id :: s.consumed := rfl

theorem isConsumed_iff {s : Store} {id : Int} : s.isConsumed id = true ↔ id ∈ s.consumed := by
  simp [isConsumed]

theorem isConsumed_eq_false_iff {s : Store} {id : Int} :
    s.isConsumed id = false ↔ id ∉ s.consumed := by
  simp [isConsumed]

theorem isConsumed_mark {s : Store} {id other : Int} :
    (s.mark id).isConsumed other = true ↔ other = id ∨ s.isConsumed other = true := by
  simp [isConsumed_iff]

end Store

namespace Rivals

/-- The store behind a successful consumption among rivals. -/
def settle (r : Rivals) (s : Store) (id : Int) : Store :=
  if r.resetAfter.contains id then s.reset else s.mark id

theorem tryConsume_of_consumed {r : Rivals} {s : Store} {id : Int}
    (h : s.isConsumed id = true) : r.tryConsume s id = (false, s) := by
  simp [tryConsume, Store.tryConsume, h]

theorem tryConsume_of_lost {r : Rivals} {s : Store} {id : Int}
    (h : s.isConsumed id = false) (hl : r.lost.contains id = true) :
    r.tryConsume s id = (false, s.mark id) := by
  simp only [tryConsume, Store.tryConsume, h, hl, if_true]
  rfl

theorem tryConsume_of_fresh {r : Rivals} {s : Store} {id : Int}
    (h : s.isConsumed id = false) (hl : r.lost.contains id = false) :
    r.tryConsume s id = (true, r.settle s id) := by
  simp only [tryConsume, Store.tryConsume, h, hl, Bool.false_eq_true, if_false, Bool.true_and]
  rfl

end Rivals

/-! ## Section 2: Courses -/

/-- A scan of these events that ends so has gone over the ones in front. -/
def Found.EndsBehind (front events : List Event) : Found → Prop
  | .event e => ∃ rest, events = front ++ e :: rest
  | .nothing => events = front
  | .failed _ => front <+: events

theorem Found.EndsBehind.cons {front events : List Event} {found : Found} (e : Event)
    (h : found.EndsBehind front events) : found.EndsBehind (e :: front) (e :: events) := by
  cases found with
  | event x =>
    obtain ⟨rest, rfl⟩ := h
    exact ⟨rest, rfl⟩
  | nothing => exact congrArg (e :: ·) h
  | failed error => exact List.cons_prefix_cons.mpr ⟨rfl, h⟩

theorem Found.EndsBehind.front_subset {front events : List Event} {found : Found}
    (h : found.EndsBehind front events) : front ⊆ events := by
  cases found with
  | event x =>
    obtain ⟨rest, rfl⟩ := h
    exact List.subset_append_left _ _
  | nothing =>
    obtain rfl : events = front := h
    exact List.Subset.refl _
  | failed error => exact h.subset

namespace Query

/-- Is the event one that the query looks for, wherever it is stored? -/
def wants (q : Query) (e : Event) : Bool :=
  e.name == q.name &&
    match q.admits e.payload with
    | .ok admitted => admitted
    | .error _ => false

theorem wants_iff {q : Query} {e : Event} :
    q.wants e = true ↔ e.name = q.name ∧ q.admits e.payload = .ok true := by
  unfold wants
  cases q.admits e.payload <;> simp

theorem isCandidate_iff {q : Query} {s : Store} {e : Event} :
    q.isCandidate s e = true ↔ e.name = q.name ∧ s.isConsumed e.id = false := by
  simp [isCandidate]

/-- **Is the event to be had?** The query wants it, nobody has consumed it, and no rival gets it. -/
def available (q : Query) (r : Rivals) (s : Store) (e : Event) : Bool :=
  q.wants e && !s.isConsumed e.id && !r.lost.contains (e.id : Int)

/-- Does a rival snatch the event when the query reaches for it? -/
def snatched (q : Query) (r : Rivals) (s : Store) (e : Event) : Bool :=
  q.wants e && !s.isConsumed e.id && r.lost.contains (e.id : Int)

theorem available_iff {q : Query} {r : Rivals} {s : Store} {e : Event} :
    q.available r s e = true ↔
      q.wants e = true ∧ s.isConsumed e.id = false ∧ r.lost.contains (e.id : Int) = false := by
  simp only [available, Bool.and_eq_true, Bool.not_eq_true', and_assoc]

theorem snatched_iff {q : Query} {r : Rivals} {s : Store} {e : Event} :
    q.snatched r s e = true ↔
      q.wants e = true ∧ s.isConsumed e.id = false ∧ r.lost.contains (e.id : Int) = true := by
  simp only [snatched, Bool.and_eq_true, Bool.not_eq_true', and_assoc]

/-- An event that is no candidate, or that the query does not want, is not reached for. -/
theorem not_reached {q : Query} {s : Store} {e : Event}
    (h : q.isCandidate s e = false ∨ q.wants e = false) :
    (∀ r, q.available r s e = false) ∧ ∀ r, q.snatched r s e = false := by
  have hno : (q.wants e && !s.isConsumed e.id) = false := by
    rcases h with hc | hwants
    · have hname : q.wants e = true → (e.name == q.name) = true := fun hw => by
        simpa using (wants_iff.mp hw).1
      unfold isCandidate at hc
      cases hw : q.wants e with
      | false => rfl
      | true => rwa [hname hw] at hc
    · rw [hwants, Bool.false_and]
  exact ⟨fun r => by rw [available, hno, Bool.false_and],
    fun r => by rw [snatched, hno, Bool.false_and]⟩

/-- When a rival takes an id, all else stays to be had. -/
theorem available_mark {q : Query} {r : Rivals} {s : Store} {id : Nat} {e : Event}
    (hl : r.lost.contains (id : Int) = true) :
    q.available r (s.mark id) e = q.available r s e := by
  rw [Bool.eq_iff_iff, available_iff, available_iff]
  refine and_congr_right fun _ => and_congr_left fun hlost => ?_
  have hother : (e.id : Int) ≠ id := fun heq => by
    rw [heq, hl] at hlost
    cases hlost
  rw [← Bool.not_eq_true, ← Bool.not_eq_true, Store.isConsumed_mark, or_iff_right hother]

/-- It snatches no event with that id again. -/
theorem snatched_mark {q : Query} {r : Rivals} {s : Store} {id : Nat} {e : Event} :
    q.snatched r (s.mark id) e = true ↔ e.id ≠ id ∧ q.snatched r s e = true := by
  rw [snatched_iff, snatched_iff, ← Bool.not_eq_true, ← Bool.not_eq_true, Store.isConsumed_mark,
    not_or, Int.ofNat_inj]
  exact ⟨fun ⟨hw, ⟨hid, hfree⟩, hl⟩ => ⟨hid, hw, hfree, hl⟩,
    fun ⟨hid, hw, hfree, hl⟩ => ⟨hw, ⟨hid, hfree⟩, hl⟩⟩

/-- **The course of a scan** over some events: the answers that it gets from the ledger, how it
    ends, and the store that it leaves. -/
inductive Course (q : Query) (r : Rivals) :
    Store → List Event → List (Nat × Bool) → Found → Store → Prop where
  /-- No event is left. -/
  | ends (s : Store) : Course q r s [] [] .nothing s
  /-- The event has another name or is consumed. -/
  | skips {s s' : Store} {e : Event} {rest : List Event} {answers : List (Nat × Bool)}
      {found : Found} (hc : q.isCandidate s e = false)
      (h : Course q r s rest answers found s') : Course q r s (e :: rest) answers found s'
  /-- The event does not contain the pattern. -/
  | declines {s s' : Store} {e : Event} {rest : List Event} {answers : List (Nat × Bool)}
      {found : Found} (hc : q.isCandidate s e = true) (ha : q.admits e.payload = .ok false)
      (h : Course q r s rest answers found s') : Course q r s (e :: rest) answers found s'
  /-- The pattern cannot be looked for. -/
  | fails {s : Store} {e : Event} {rest : List Event} {error : Value.SearchError}
      (hc : q.isCandidate s e = true) (ha : q.admits e.payload = .error error) :
      Course q r s (e :: rest) [] (.failed error) s
  /-- The scan gets the event. -/
  | takes {s : Store} {e : Event} {rest : List Event} (hc : q.isCandidate s e = true)
      (ha : q.admits e.payload = .ok true) (hl : r.lost.contains (e.id : Int) = false) :
      Course q r s (e :: rest) [(e.id, true)] (.event e) (r.settle s e.id)
  /-- A rival gets the event. -/
  | loses {s s' : Store} {e : Event} {rest : List Event} {answers : List (Nat × Bool)}
      {found : Found} (hc : q.isCandidate s e = true) (ha : q.admits e.payload = .ok true)
      (hl : r.lost.contains (e.id : Int) = true)
      (h : Course q r (s.mark e.id) rest answers found s') :
      Course q r s (e :: rest) ((e.id, false) :: answers) found s'

/-- The answers of a scan come behind those that the tally holds already. -/
theorem course_scanEvents (q : Query) (r : Rivals) (events : List Event) (tally : Tally)
    (s : Store) : ∃ answers,
      (q.scanEvents r events tally s).tally.answers = tally.answers ++ answers ∧
      q.Course r s events answers (q.scanEvents r events tally s).found
        (q.scanEvents r events tally s).store := by
  induction events generalizing tally s with
  | nil => exact ⟨[], by simp [scanEvents], .ends s⟩
  | cons e rest ih =>
    by_cases hc : q.isCandidate s e = true
    · cases ha : q.admits e.payload with
      | error error =>
        refine ⟨[], ?_, ?_⟩
        · simp [scanEvents, hc, ha]
        · simpa only [scanEvents, hc, ha, if_true] using Course.fails hc ha
      | ok admitted =>
        cases admitted with
        | false =>
          obtain ⟨answers, htally, hcourse⟩ := ih _ s
          refine ⟨answers, ?_, ?_⟩
          · simpa only [scanEvents, hc, ha, if_true] using htally
          · simpa only [scanEvents, hc, ha, if_true] using Course.declines hc ha hcourse
        | true =>
          -- a candidate is free, so only a rival can stand in the way
          have hfresh : s.isConsumed e.id = false := (isCandidate_iff.mp hc).2
          cases hl : r.lost.contains (e.id : Int) with
          | false =>
            have htry := Rivals.tryConsume_of_fresh hfresh hl
            refine ⟨[(e.id, true)], ?_, ?_⟩
            · simp only [scanEvents, hc, ha, htry, if_true]
            · simpa only [scanEvents, hc, ha, htry, if_true] using Course.takes hc ha hl
          | true =>
            have htry := Rivals.tryConsume_of_lost hfresh hl
            obtain ⟨answers, htally, hcourse⟩ := ih
              ⟨tally.candidates + 1, tally.last, tally.answers ++ [(e.id, false)]⟩ (s.mark e.id)
            refine ⟨(e.id, false) :: answers, ?_, ?_⟩
            · simpa [scanEvents, hc, ha, htry] using htally
            · simpa only [scanEvents, hc, ha, htry, if_true] using Course.loses hc ha hl hcourse
    · have hc' : q.isCandidate s e = false := by simpa using hc
      obtain ⟨answers, htally, hcourse⟩ := ih tally s
      refine ⟨answers, ?_, ?_⟩
      · simpa only [scanEvents, hc', Bool.false_eq_true, if_false] using htally
      · simpa only [scanEvents, hc', Bool.false_eq_true, if_false] using Course.skips hc' hcourse

/-- Every scan runs a course over the events behind its baseline. -/
theorem course_scan (q : Query) (r : Rivals) (s : Store) :
    q.Course r s (s.eventsSince q.baseline) (q.scan r s).tally.answers (q.scan r s).found
      (q.scan r s).store := by
  obtain ⟨answers, htally, hcourse⟩ :=
    course_scanEvents q r (s.eventsSince q.baseline) ⟨0, none, []⟩ s
  rw [List.nil_append] at htally
  unfold scan
  rw [htally]
  exact hcourse

/-! ## Section 3: What a course says -/

namespace Course

variable {q : Query} {r : Rivals} {s s' : Store} {events : List Event}
  {answers : List (Nat × Bool)} {found : Found}

/-- The event that a scan gets stood among the scanned ones, is one that the query wants, and was
    not consumed when the scan began. -/
theorem found_event {e : Event} (h : Course q r s events answers (.event e) s') :
    e ∈ events ∧ q.wants e = true ∧ s.isConsumed e.id = false := by
  generalize hf : Found.event e = found at h
  induction h with
  | ends s => cases hf
  | skips hc h ih =>
    obtain ⟨hmem, hwants, hfree⟩ := ih hf
    exact ⟨List.mem_cons_of_mem _ hmem, hwants, hfree⟩
  | declines hc ha h ih =>
    obtain ⟨hmem, hwants, hfree⟩ := ih hf
    exact ⟨List.mem_cons_of_mem _ hmem, hwants, hfree⟩
  | fails hc ha => cases hf
  | takes hc ha hl =>
    cases hf
    obtain ⟨hname, hfree⟩ := isCandidate_iff.mp hc
    exact ⟨List.mem_cons_self, wants_iff.mpr ⟨hname, ha⟩, hfree⟩
  | loses hc ha hl h ih =>
    obtain ⟨hmem, hwants, hfree⟩ := ih hf
    refine ⟨List.mem_cons_of_mem _ hmem, hwants, ?_⟩
    -- what is free behind a loss was free before it
    rw [Store.isConsumed_eq_false_iff] at hfree ⊢
    exact fun hin => hfree (List.mem_cons_of_mem _ hin)

/-- The last answer of a scan that gets an event is the only yes. -/
theorem answers_of_event {e : Event} (h : Course q r s events answers (.event e) s') :
    ∃ lost, answers = lost ++ [(e.id, true)] ∧ ∀ a ∈ lost, a.2 = false := by
  generalize hf : Found.event e = found at h
  induction h with
  | ends s => cases hf
  | skips hc h ih => exact ih hf
  | declines hc ha h ih => exact ih hf
  | fails hc ha => cases hf
  | takes hc ha hl =>
    cases hf
    exact ⟨[], rfl, by simp⟩
  | @loses s s' e' rest answers found hc ha hl h ih =>
    obtain ⟨lost, rfl, hlost⟩ := ih hf
    refine ⟨(e'.id, false) :: lost, rfl, ?_⟩
    intro a hin
    rcases List.mem_cons.mp hin with rfl | hin
    · rfl
    · exact hlost a hin

/-- **What a scan has gone over**: in front of the event that it gets, and everywhere if it ends
    with nothing, no event was to be had, and it was refused exactly those that rivals snatch. -/
theorem gone_over (h : Course q r s events answers found s') :
    ∃ front, found.EndsBehind front events ∧ (∀ x ∈ front, q.available r s x = false) ∧
      ∀ id, (id, false) ∈ answers ↔ ∃ x ∈ front, q.snatched r s x = true ∧ x.id = id := by
  induction h with
  | ends s => exact ⟨[], rfl, by simp⟩
  | @skips s s' e rest answers found hc h ih =>
    obtain ⟨front, hfront, hover, hrefused⟩ := ih
    -- an event that is no candidate is neither to be had nor snatched
    obtain ⟨havailable, hsnatched⟩ := not_reached (.inl hc)
    refine ⟨e :: front, hfront.cons e, List.forall_mem_cons.mpr ⟨havailable r, hover⟩, ?_⟩
    simpa [hsnatched r] using hrefused
  | @declines s s' e rest answers found hc ha h ih =>
    obtain ⟨front, hfront, hover, hrefused⟩ := ih
    have hwants : q.wants e = false := by simp [wants, ha]
    obtain ⟨havailable, hsnatched⟩ := not_reached (.inr hwants)
    refine ⟨e :: front, hfront.cons e, List.forall_mem_cons.mpr ⟨havailable r, hover⟩, ?_⟩
    simpa [hsnatched r] using hrefused
  | fails hc ha => exact ⟨[], List.nil_prefix, by simp⟩
  | takes hc ha hl => exact ⟨[], ⟨_, rfl⟩, by simp⟩
  | @loses s s' e rest answers found hc ha hl h ih =>
    obtain ⟨front, hfront, hover, hrefused⟩ := ih
    have hsnatched : q.snatched r s e = true := snatched_iff.mpr
      ⟨wants_iff.mpr ⟨(isCandidate_iff.mp hc).1, ha⟩, (isCandidate_iff.mp hc).2, hl⟩
    have havailable : q.available r s e = false := by
      rw [available, hl, Bool.not_true, Bool.and_false]
    refine ⟨e :: front, hfront.cons e, List.forall_mem_cons.mpr ⟨havailable, ?_⟩, fun id => ?_⟩
    · intro x hx
      rw [← available_mark hl]
      exact hover x hx
    · rw [List.mem_cons, hrefused]
      constructor
      · rintro (heq | ⟨x, hx, hxs, rfl⟩)
        · cases heq
          exact ⟨e, List.mem_cons_self, hsnatched, rfl⟩
        · exact ⟨x, List.mem_cons_of_mem _ hx, (snatched_mark.mp hxs).2, rfl⟩
      · rintro ⟨x, hx, hxs, rfl⟩
        by_cases hid : x.id = e.id
        · exact .inl (by rw [hid])
        · -- a snatched event with another id comes behind this one
          rcases List.mem_cons.mp hx with rfl | hx
          · exact absurd rfl hid
          · exact .inr ⟨x, hx, snatched_mark.mpr ⟨hid, hxs⟩, rfl⟩

/-- **Nothing is passed over**: each event in front that the query wants was consumed before or is
    lost to a rival. -/
theorem passed_over (h : Course q r s events answers found s') :
    ∃ front, found.EndsBehind front events ∧
      ∀ x ∈ front, q.wants x = true → s.isConsumed x.id = true ∨ (x.id, false) ∈ answers := by
  obtain ⟨front, hfront, hover, hrefused⟩ := h.gone_over
  refine ⟨front, hfront, fun x hx hwants => ?_⟩
  cases hfree : s.isConsumed x.id with
  | true => exact .inl rfl
  | false =>
    cases hl : r.lost.contains (x.id : Int) with
    | true => exact .inr ((hrefused x.id).mpr ⟨x, hx, snatched_iff.mpr ⟨hwants, hfree, hl⟩, rfl⟩)
    | false =>
      have havailable := available_iff.mpr ⟨hwants, hfree, hl⟩
      rw [hover x hx] at havailable
      cases havailable

/-- **What a scan does to the store**, if no rival drops everything over its success: it enters the
    ids in the ledger for which it has asked. -/
theorem store_eq (h : Course q r s events answers found s') (hr : r.resetAfter = []) :
    s' = { s with consumed := (answers.map fun a => (a.1 : Int)).reverse ++ s.consumed } := by
  induction h with
  | ends s => rfl
  | skips hc h ih => exact ih
  | declines hc ha h ih => exact ih
  | fails hc ha => rfl
  | takes hc ha hl =>
    rw [Rivals.settle, hr]
    rfl
  | loses hc ha hl h ih =>
    rw [ih]
    simp [Store.mark]

end Course

/-! ## Section 4: The first event that is left -/

/-- A scan goes over consumed events without a trace. -/
theorem scanEvents_behind {q : Query} {r : Rivals} {front : List Event} {s : Store}
    (h : ∀ x ∈ front, s.isConsumed x.id = true) (events : List Event) (tally : Tally) :
    q.scanEvents r (front ++ events) tally s = q.scanEvents r events tally s := by
  induction front with
  | nil => rfl
  | cons e rest ih =>
    have hc : q.isCandidate s e = false := by
      simp [isCandidate, h e List.mem_cons_self]
    rw [List.cons_append, scanEvents, hc, if_neg Bool.false_ne_true]
    exact ih fun x hin => h x (List.mem_cons_of_mem _ hin)

/-- **A scan gets the first event that is not consumed**, if it is one that the query wants and no
    rival reaches for it. -/
theorem scan_first {q : Query} {r : Rivals} {s : Store} {front rest : List Event} {e : Event}
    (hq : q.baseline = 0) (hevents : s.events = front ++ e :: rest)
    (hfront : ∀ x ∈ front, s.isConsumed x.id = true) (hfree : s.isConsumed e.id = false)
    (hw : q.wants e = true) (hl : r.lost.contains (e.id : Int) = false) :
    (q.scan r s).found = .event e ∧ (q.scan r s).store = r.settle s e.id := by
  obtain ⟨hname, hadmits⟩ := wants_iff.mp hw
  have hc : q.isCandidate s e = true := isCandidate_iff.mpr ⟨hname, hfree⟩
  have hall : s.eventsSince q.baseline = front ++ e :: rest := by
    simp [Store.eventsSince, hq, hevents]
  rw [scan, hall, scanEvents_behind hfront]
  simp only [scanEvents, hc, hadmits, Rivals.tryConsume_of_fresh hfree hl, if_true, and_self]

end Query

end EventCheck
