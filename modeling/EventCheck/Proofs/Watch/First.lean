import EventCheck.Proofs.Matching.Answers
import EventCheck.Proofs.Store.History
import EventCheck.Proofs.Watch.Scan
import Mathlib.Data.List.TakeWhile

/-! # The first event that is to be had

    A scan is a search for the first event behind its baseline that is to be had, and it
    touches nothing else.

    - `Query.Course.found_iff`: what a scan gets is the first event that is to be had.
      A pattern with foreign things in it may end the scan before, but such a pattern is
      contained in no event, so there was none to be had (`Query.Course.not_wants`).
    - `Query.Course.mem_answers_iff`: a scan asks the ledger for the events that rivals
      snatch from it on the way, and for the one that it gets.
    - `Query.scan_takes_first` puts it together, for the store behind any history.
-/

namespace EventCheck

/-- **The event stays as it was** for everybody: consumed if it was, else still to be had. -/
def Store.Untouched (s s' : Store) (x : Event) : Prop := s'.isConsumed x.id = s.isConsumed x.id

namespace Query

/-! ## Section 1: Scans that fail -/

/-- A query that wants some event gets an answer about every payload. -/
theorem admits_answered {q : Query} {e : Event} (h : q.wants e = true) (payload : Json) :
    ∃ answer, q.admits payload = .ok answer := by
  have hadmits := (wants_iff.mp h).2
  unfold admits at hadmits ⊢
  cases hpattern : q.pattern with
  | none => exact ⟨true, rfl⟩
  | some pattern =>
    rw [hpattern] at hadmits
    exact Value.contains_answered hadmits payload

namespace Course

variable {q : Query} {r : Rivals} {s s' : Store} {events : List Event}
  {answers : List (Nat × Bool)} {found : Found}

/-- A scan fails over a payload about which it gets no answer. -/
theorem error_of_failed {error : Value.SearchError}
    (h : Course q r s events answers (.failed error) s') :
    ∃ e : Event, q.admits e.payload = .error error := by
  generalize hf : Found.failed error = found at h
  induction h with
  | ends s => cases hf
  | skips hc h ih => exact ih hf
  | declines hc ha h ih => exact ih hf
  | @fails s e rest error' hc ha =>
    cases hf
    exact ⟨e, ha⟩
  | takes hc ha hl => cases hf
  | loses hc ha hl h ih => exact ih hf

/-- **A scan that fails looks for a pattern that no event contains.** -/
theorem not_wants {error : Value.SearchError}
    (h : Course q r s events answers (.failed error) s') (x : Event) : q.wants x = false := by
  obtain ⟨e, herror⟩ := h.error_of_failed
  rw [← Bool.not_eq_true]
  intro hwants
  obtain ⟨answer, hanswer⟩ := admits_answered hwants e.payload
  rw [herror] at hanswer
  cases hanswer

/-! ## Section 2: What a scan gets -/

/-- The event that a scan gets was to be had. -/
theorem available_of_found {e : Event} (h : Course q r s events answers (.event e) s') :
    q.available r s e = true := by
  generalize hf : Found.event e = found at h
  induction h with
  | ends s => cases hf
  | skips hc h ih => exact ih hf
  | declines hc ha h ih => exact ih hf
  | fails hc ha => cases hf
  | takes hc ha hl =>
    cases hf
    obtain ⟨hname, hfree⟩ := isCandidate_iff.mp hc
    exact available_iff.mpr ⟨wants_iff.mpr ⟨hname, ha⟩, hfree, hl⟩
  | loses hc ha hl h ih =>
    -- the id that the rival took makes no difference to the others
    rw [← available_mark hl]
    exact ih hf

/-- **A scan gets the first event that is to be had**, and nothing if there is none. -/
theorem found_iff (h : Course q r s events answers found s') (e : Event) :
    found = .event e ↔ events.find? (q.available r s) = some e := by
  obtain ⟨front, hends, hover, -⟩ := h.gone_over
  have hfront : front.find? (q.available r s) = none := by
    rw [List.find?_eq_none]
    intro y hy
    rw [hover y hy]
    exact Bool.false_ne_true
  cases found with
  | event x =>
    obtain ⟨rest, rfl⟩ := hends
    rw [List.find?_append, hfront, Option.none_or, List.find?_cons_of_pos h.available_of_found,
      Option.some.injEq, Found.event.injEq]
  | nothing =>
    obtain rfl : events = front := hends
    rw [hfront]
    exact ⟨nofun, nofun⟩
  | failed error =>
    -- a pattern over which the scan fails is wanted of no event, wherever that stands
    have hnone : events.find? (q.available r s) = none := by
      rw [List.find?_eq_none]
      intro y _
      rw [(not_reached (.inr (h.not_wants y))).1 r]
      exact Bool.false_ne_true
    rw [hnone]
    exact ⟨nofun, nofun⟩

end Course

/-- **The events that a scan goes over**, looking for the first one that is to be had. -/
def passed (q : Query) (r : Rivals) (s : Store) (events : List Event) : List Event :=
  events.takeWhile fun e => !q.available r s e

/-- They stand in front of every event that is to be had. -/
theorem mem_front_of_passed {q : Query} {r : Rivals} {s : Store} {front rest : List Event}
    {e y : Event} (he : q.available r s e = true) (hy : y ∈ q.passed r s (front ++ e :: rest)) :
    y ∈ front := by
  rw [passed, List.takeWhile_append, List.takeWhile_cons_of_neg (by simp [he]),
    List.append_nil] at hy
  split at hy
  · exact hy
  · exact List.takeWhile_subset _ hy

namespace Course

variable {q : Query} {r : Rivals} {s s' : Store} {events : List Event}
  {answers : List (Nat × Bool)} {found : Found}

/-- The ledger says yes for the event that the scan gets. -/
theorem mem_yes_iff (h : Course q r s events answers found s') (id : Nat) :
    (id, true) ∈ answers ↔ ∃ e, found = .event e ∧ e.id = id := by
  induction h with
  | ends s => simp
  | skips hc h ih => exact ih
  | declines hc ha h ih => exact ih
  | fails hc ha => simp
  | takes hc ha hl => simp [eq_comm]
  | loses hc ha hl h ih => simpa using ih

/-- It says no for those that rivals snatch from the scan on the way. -/
theorem mem_no_iff (h : Course q r s events answers found s') (id : Nat) :
    (id, false) ∈ answers ↔ ∃ x ∈ q.passed r s events, q.snatched r s x = true ∧ x.id = id := by
  obtain ⟨front, hends, hover, hrefused⟩ := h.gone_over
  rw [hrefused]
  have hfront : ∀ y ∈ front, (!q.available r s y) = true := by
    intro y hy
    rw [hover y hy]
    rfl
  cases found with
  | event e =>
    obtain ⟨rest, rfl⟩ := hends
    have hpassed : q.passed r s (front ++ e :: rest) = front := by
      rw [passed, List.takeWhile_append_of_pos hfront,
        List.takeWhile_cons_of_neg (by simp [h.available_of_found]), List.append_nil]
    rw [hpassed]
  | nothing =>
    obtain rfl : events = front := hends
    rw [passed, List.takeWhile_eq_self_iff.mpr hfront]
  | failed error =>
    -- nothing is snatched that is not wanted
    have hno (x : Event) : ¬ q.snatched r s x = true := by
      rw [(not_reached (.inr (h.not_wants x))).2 r]
      exact Bool.false_ne_true
    simp [hno]

end Course

/-! ## Section 3: What a scan leaves -/

/-- **The ledger behind a scan** among rivals that drop nothing. -/
theorem isConsumed_scan_iff {q : Query} {r : Rivals} {s : Store} (hr : r.resetAfter = [])
    (id : Int) :
    (q.scan r s).store.isConsumed id = true ↔ s.isConsumed id = true ∨
      (∃ e, (q.scan r s).found = .event e ∧ (e.id : Int) = id) ∨
      ∃ x ∈ q.passed r s (s.eventsSince q.baseline), q.snatched r s x = true ∧
        (x.id : Int) = id := by
  have hcourse := course_scan q r s
  have hyes := hcourse.mem_yes_iff
  have hno := hcourse.mem_no_iff
  have hasked : id ∈ ((q.scan r s).tally.answers.map fun a => (a.1 : Int)) ↔
      (∃ e, (q.scan r s).found = .event e ∧ (e.id : Int) = id) ∨
      ∃ x ∈ q.passed r s (s.eventsSince q.baseline), q.snatched r s x = true ∧
        (x.id : Int) = id := by
    rw [List.mem_map]
    constructor
    · rintro ⟨⟨n, answer⟩, hin, rfl⟩
      cases answer with
      | true =>
        obtain ⟨e, hfound, rfl⟩ := (hyes n).mp hin
        exact .inl ⟨e, hfound, rfl⟩
      | false =>
        obtain ⟨x, hx, hsnatched, rfl⟩ := (hno n).mp hin
        exact .inr ⟨x, hx, hsnatched, rfl⟩
    · rintro (⟨e, hfound, rfl⟩ | ⟨x, hx, hsnatched, rfl⟩)
      · exact ⟨(e.id, true), (hyes e.id).mpr ⟨e, hfound, rfl⟩, rfl⟩
      · exact ⟨(x.id, false), (hno x.id).mpr ⟨x, hx, hsnatched, rfl⟩, rfl⟩
  rw [Store.isConsumed_iff, hcourse.store_eq hr, List.mem_append, List.mem_reverse, hasked,
    Store.isConsumed_iff, or_comm]

/-- What the scan neither gets nor loses to a rival stays as it was. -/
theorem untouched_of_others {q : Query} {r : Rivals} {s : Store} (hr : r.resetAfter = [])
    {x : Event} (hfound : ∀ e, (q.scan r s).found = .event e → e.id ≠ x.id)
    (hsnatched : ∀ y ∈ q.passed r s (s.eventsSince q.baseline), q.snatched r s y = true →
      y.id ≠ x.id) : s.Untouched (q.scan r s).store x := by
  rw [Store.Untouched, Bool.eq_iff_iff, isConsumed_scan_iff hr]
  apply or_iff_left
  rintro (⟨e, he, hid⟩ | ⟨y, hy, hys, hid⟩)
  · exact hfound e he (Int.ofNat_inj.mp hid)
  · exact hsnatched y hy hys (Int.ofNat_inj.mp hid)

/-- What it gets or loses to a rival is wanted and stands behind the baseline. -/
theorem untouched_of_wanted {q : Query} {r : Rivals} {s : Store} (hr : r.resetAfter = [])
    {x : Event} (h : ∀ y ∈ s.eventsSince q.baseline, q.wants y = true → y.id ≠ x.id) :
    s.Untouched (q.scan r s).store x := by
  apply untouched_of_others hr
  · intro e he
    obtain ⟨hin, hwants, -⟩ := (he ▸ course_scan q r s).found_event
    exact h e hin hwants
  · intro y hy hsnatched
    exact h y (List.takeWhile_subset _ hy) (snatched_iff.mp hsnatched).1

/-- So events that it does not want stay as they were. -/
theorem untouched_of_unwanted {q : Query} {r : Rivals} {s : Store} (hr : r.resetAfter = [])
    (hs : s.Numbered) {x : Event} (hx : x ∈ s.events) (hno : q.wants x = false) :
    s.Untouched (q.scan r s).store x := by
  apply untouched_of_wanted hr
  intro y hy hwants hid
  -- ids are unique, so the wanted event would be this one
  obtain rfl := hs.eq_of_id_eq (s.mem_of_mem_eventsSince hy) hx hid
  rw [hno] at hwants
  cases hwants

/-- So do those in front of the baseline. -/
theorem untouched_before {q : Query} {r : Rivals} {s : Store} (hr : r.resetAfter = [])
    (hs : s.Numbered) {baseline : Nat} (hb : q.baseline = baseline) {x : Event}
    (hx : x ∈ s.events.take baseline) : s.Untouched (q.scan r s).store x := by
  have hsorted := hs.sorted
  rw [← List.take_append_drop baseline s.events, List.pairwise_append] at hsorted
  apply untouched_of_wanted hr
  intro y hy _
  rw [hb, Store.eventsSince_natCast] at hy
  exact (hsorted.2.2 x hx y hy).ne'

/-- So do those behind the one that it gets. -/
theorem untouched_behind {q : Query} {r : Rivals} {s : Store} (hr : r.resetAfter = [])
    (hs : s.Numbered) {front rest : List Event} {e x : Event}
    (hfound : (q.scan r s).found = .event e)
    (hsplit : s.eventsSince q.baseline = front ++ e :: rest) (hx : x ∈ rest) :
    s.Untouched (q.scan r s).store x := by
  have hsorted := hs.sorted_eventsSince q.baseline
  rw [hsplit, List.pairwise_append, List.pairwise_cons] at hsorted
  obtain ⟨-, ⟨hrest, -⟩, hfront⟩ := hsorted
  apply untouched_of_others hr
  · intro e' he'
    cases hfound.symm.trans he'
    exact (hrest x hx).ne
  · intro y hy _
    -- what a rival snatched stands in front of the event that the scan got
    have hhad : q.available r s e = true := (hfound ▸ course_scan q r s).available_of_found
    have hin : y ∈ front := mem_front_of_passed hhad (hsplit ▸ hy)
    exact (hfront y hin x (List.mem_cons_of_mem _ hx)).ne

/-- **A scan takes the first event that is to be had, and touches nothing else**, whatever was
    stored or consumed before, whatever the pattern is, and whichever ids are lost to rivals.

    It succeeds if and only if behind its baseline there is an event with its name and its
    pattern that is not consumed and not lost, and it gets the first of these. The ledger says
    yes for that event alone, and so never to a scan that gets nothing. Behind the scan the
    ledger holds in addition the id of that event and the ids that rivals snatched in front of it.
    The stored events stay. Those that the query does not want, those in front of the baseline,
    and those behind the one that the scan gets stay as they were. -/
theorem scan_takes_first (deeds : List Store.Deed) (name : String) (pattern : Option Value)
    (baseline : Nat) (lost : List Int) :
    let s := Store.empty.after deeds
    let q : Query := ⟨name, pattern, baseline⟩
    let r : Rivals := ⟨lost, []⟩
    let behind := s.events.drop baseline
    let scan := q.scan r s
    ((∃ e, scan.found = .event e) ↔ ∃ e ∈ behind, q.available r s e = true) ∧
    (∀ e, scan.found = .event e ↔ ∃ front rest, behind = front ++ e :: rest ∧
      q.available r s e = true ∧ ∀ x ∈ front, q.available r s x = false) ∧
    (∀ id, (id, true) ∈ scan.tally.answers ↔ ∃ e, scan.found = .event e ∧ e.id = id) ∧
    (∀ id, scan.store.isConsumed id = true ↔ s.isConsumed id = true ∨
      (∃ e, scan.found = .event e ∧ (e.id : Int) = id) ∨
      ∃ x ∈ q.passed r s behind, q.snatched r s x = true ∧ (x.id : Int) = id) ∧
    scan.store.events = s.events ∧ scan.store.nextId = s.nextId ∧
    (∀ x ∈ s.events, q.wants x = false → s.Untouched scan.store x) ∧
    (∀ x ∈ s.events.take baseline, s.Untouched scan.store x) ∧
    ∀ e front rest, scan.found = .event e → behind = front ++ e :: rest →
      ∀ x ∈ rest, s.Untouched scan.store x := by
  intro s q r behind scan
  have hnumbered : s.Numbered := Store.numbered_history deeds
  have hbehind : s.eventsSince q.baseline = behind := s.eventsSince_natCast baseline
  have hcourse : q.Course r s behind scan.tally.answers scan.found scan.store :=
    hbehind ▸ course_scan q r s
  have hstore := hcourse.store_eq rfl
  have hledger := isConsumed_scan_iff (q := q) (r := r) (s := s) rfl
  rw [hbehind] at hledger
  refine ⟨?_, ?_, hcourse.mem_yes_iff, hledger, ?_, ?_, ?_, ?_, ?_⟩
  · simp only [hcourse.found_iff, ← Option.isSome_iff_exists, List.find?_isSome]
  · intro e
    rw [hcourse.found_iff, List.find?_eq_some_iff_append]
    simp only [Bool.not_eq_true']
    constructor
    · rintro ⟨hhad, front, rest, hsplit, hfront⟩
      exact ⟨front, rest, hsplit, hhad, hfront⟩
    · rintro ⟨front, rest, hsplit, hhad, hfront⟩
      exact ⟨hhad, front, rest, hsplit, hfront⟩
  · rw [hstore]
  · rw [hstore]
  · intro x hx hno
    exact untouched_of_unwanted rfl hnumbered hx hno
  · intro x hx
    exact untouched_before rfl hnumbered rfl hx
  · intro e front rest he hsplit x hx
    exact untouched_behind rfl hnumbered he (hbehind.trans hsplit) hx

end Query

end EventCheck
