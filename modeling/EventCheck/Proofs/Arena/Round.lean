import EventCheck.Proofs.Arena.Basic
import EventCheck.Proofs.Watch.Scan

/-! # Rounds and moves

    - `Watch.poll_matched_iff` and `Watch.poll_expired` say how a round ends,
      `Poll.notes_of_matched` what it leaves in the trace when it ends with a match.
    - `Arena.Plays` says all that a round does: to its watch, to the store, to the
      trace, and to nothing else. Every round either plays or changes nothing
      (`step_round`).
    - `Arena.Change` says what a move can do, and `step_change` that every move does
      one of these things. What moves preserve is proved from it.
-/

namespace EventCheck

variable {τ : Type} [Time τ]

/-! ## Section 1: How a round ends -/

theorem Pace.rest_isOver_iff {p : Pace τ} {now : τ} :
    p.rest now = .isOver ↔ Time.le (Time.sub p.deadline now) Time.zero = true := by
  unfold Pace.rest
  dsimp only
  by_cases hle : Time.le (Time.sub p.deadline now) Time.zero = true
  · simp [hle]
  · rw [if_neg hle]
    by_cases hlt : Time.lt (if Time.lt (Time.sub p.deadline now) p.interval = true
        then Time.sub p.deadline now else p.interval) Time.zero = true <;> simp [hle, hlt]

namespace Watch

theorem poll_store (w : Watch τ) (r : Rivals) (now : τ) (s : Store) :
    (w.poll r now s).store = (w.query.scan r s).store := by
  unfold poll
  dsimp only
  split
  · rfl
  · rfl
  · split <;> rfl

theorem poll_tally (w : Watch τ) (r : Rivals) (now : τ) (s : Store) :
    (w.poll r now s).tally = (w.query.scan r s).tally := by
  unfold poll
  dsimp only
  split
  · rfl
  · rfl
  · split <;> rfl

/-- The course that the scan of a round runs. -/
theorem course_poll (w : Watch τ) (r : Rivals) (now : τ) (s : Store) :
    w.query.Course r s (s.eventsSince w.query.baseline) (w.poll r now s).tally.answers
      (w.query.scan r s).found (w.poll r now s).store := by
  rw [poll_store, poll_tally]
  exact w.query.course_scan r s

theorem giveUp_ne_matched (w : Watch τ) (tally : Tally) (now : τ) (e : Event) :
    w.giveUp tally now ≠ .matched e := by
  unfold giveUp
  cases w.query.pattern with
  | none => exact nofun
  | some pattern =>
    dsimp only
    cases pattern.serial <;> exact nofun

/-- A round ends with a match if and only if its scan got the event. -/
theorem poll_matched_iff {w : Watch τ} {r : Rivals} {now : τ} {s : Store} {e : Event} :
    (w.poll r now s).turn = .ended (.matched e) ↔ (w.query.scan r s).found = .event e := by
  unfold poll
  dsimp only
  cases (w.query.scan r s).found with
  | event x => simp
  | failed error => simp
  | nothing =>
    cases w.pace.rest now with
    | isOver => simpa using giveUp_ne_matched w _ now e
    | impossible => simp
    | sleep d => simp

/-- A watch that gives up has scanned without success and has seen its deadline. -/
theorem poll_expired {w : Watch τ} {r : Rivals} {now : τ} {s : Store} {error : NotFound τ}
    (h : (w.poll r now s).turn = .ended (.expired error)) :
    (w.query.scan r s).found = .nothing ∧
      Time.le (Time.sub w.pace.deadline now) Time.zero = true := by
  unfold poll at h
  dsimp only at h
  cases hf : (w.query.scan r s).found with
  | event x => simp [hf] at h
  | failed error => simp [hf] at h
  | nothing =>
    cases hrest : w.pace.rest now with
    | isOver => exact ⟨rfl, Pace.rest_isOver_iff.mp hrest⟩
    | impossible => simp [hf, hrest] at h
    | sleep d => simp [hf, hrest] at h

end Watch

/-- **What a round of a watch can be**: one that scans, or the crash of a watch whose pattern cannot
    be logged. -/
inductive Watch.Polls (w : Watch τ) (r : Rivals) (now : τ) (s : Store) : Poll τ → Prop where
  | scans : w.Polls r now s (w.poll r now s)
  | unlogged (h : w.query.isLoggable = false) : w.Polls r now s (.unlogged s)

theorem Check.Round.polls (round : Check.Round τ) (r : Rivals) (now : τ) (s : Store) :
    round.watch.Polls r now s (round.poll r now s) := by
  unfold Check.Round.poll
  split
  · next h =>
    rw [Bool.and_eq_true, Bool.not_eq_true'] at h
    exact .unlogged h.2
  · exact .scans

/-- A round that does not end with a crash has scanned. -/
theorem Watch.Polls.eq_poll {w : Watch τ} {r : Rivals} {now : τ} {s : Store} {p : Poll τ}
    (h : w.Polls r now s p) (hturn : ∀ error, p.turn ≠ .ended (.crashed error)) :
    p = w.poll r now s := by
  cases h with
  | scans => rfl
  | unlogged => exact absurd rfl (hturn .digits)

/-! ## Section 2: The notes of a round -/

namespace Poll

/-- The notes of a round that ends with a match: attempts that failed, the one that did not, and
    the end. -/
theorem notes_of_matched {w : Watch τ} {r : Rivals} {now : τ} {s : Store} {e : Event}
    (who : Watcher) (h : (w.poll r now s).turn = .ended (.matched e)) :
    ∃ lost : List (Nat × Bool), (∀ a ∈ lost, a.2 = false) ∧
      (w.poll r now s).notes r who =
        lost.flatMap (fun (id, answer) => Note.attempt (.watch who) true id answer)
          ++ .answered (.watch who) e.id true :: .ended who (.matched e) :: r.aftermath e.id := by
  have hcourse := w.course_poll r now s
  rw [Watch.poll_matched_iff.mp h] at hcourse
  obtain ⟨lost, hanswers, hlost⟩ := hcourse.answers_of_event
  refine ⟨lost, hlost, ?_⟩
  unfold notes
  rw [hanswers, h, List.flatMap_append, List.append_assoc]
  rfl

end Poll

/-! ## Section 3: What a round changes -/

namespace Arena

/-- **A round is played**: the watch had not ended; it is noted as begun if it was not under way;
    the store, the watch and the trace change as its poll says, and nothing else does. -/
structure Plays (a : Arena τ) (who : Watcher) (w : Watch τ) (p : Poll τ) (a' : Arena τ)
    (notes : List (Note τ)) : Prop where
  polled : w.Polls a.rivals a.clock a.store p
  notOver : a.isOver who = false
  opened : ∃ opening, notes = opening ++ p.notes a.rivals who ∧
    (a.underway? who = some w ∧ opening = [] ∨
      a.underway? who = none ∧ opening = [.began who w])
  store : a'.store = p.store
  rivals : a'.rivals = a.rivals
  clock : a'.clock = a.clock
  ended : ∀ outcome, p.turn = .ended outcome →
    a'.isOver who = true ∧ a'.underway? who = none
  sleeps : ∀ d, p.turn = .sleeps d →
    a'.isOver who = false ∧ a'.underway? who = some w
  others : ∀ other, other ≠ who →
    a'.isOver other = a.isOver other ∧ a'.underway? other = a.underway? other

theorem plays_foreground {a : Arena τ} {n : Nat} {w : Watch τ}
    (h : a.foreground[n]? = some ⟨w, none⟩) :
    a.Plays (.foreground n) w (w.poll a.rivals a.clock a.store) (a.roundForeground n).1
      (a.roundForeground n).2 := by
  have hlt : n < a.foreground.length := (List.getElem?_eq_some_iff.mp h).1
  have hstep : a.roundForeground n =
      ({ a with
          monitor := (a.monitor.poll w a.clock).2
          foreground := a.foreground.set n
            ⟨w, (w.poll a.rivals a.clock a.store).turn.outcome?⟩ },
        (w.poll a.rivals a.clock a.store).notes a.rivals (.foreground n)) := by
    simp only [roundForeground, h]
    rfl
  rw [hstep]
  refine ⟨.scans, ?_, ⟨[], rfl, .inl ⟨?_, rfl⟩⟩, rfl, rfl, rfl, ?_, ?_, ?_⟩
  · simp [isOver, h]
  · simp [underway?, h]
  · intro outcome hturn
    simp [isOver, underway?, hlt, hturn, Turn.outcome?]
  · intro d hturn
    simp [isOver, underway?, hlt, hturn, Turn.outcome?]
  · intro other hne
    cases other with
    | foreground k =>
      have hk : n ≠ k := fun hk => hne (by rw [hk])
      simp [isOver, underway?, hk]
    | background k => exact ⟨rfl, rfl⟩

/-- A check plays its first round when it is scheduled, and further ones while it watches. -/
theorem round?_cases {c : Check τ} {now : τ} {round : Check.Round τ}
    (h : c.round? now = some round) :
    (∃ interval, c.phase = .scheduled interval ∧ round.isFirst = true) ∨
      c.phase = .watching round.watch ∧ round.isFirst = false := by
  unfold Check.round? at h
  cases hphase : c.phase with
  | scheduled interval =>
    rw [hphase] at h
    cases h
    exact .inl ⟨interval, rfl, rfl⟩
  | watching watch =>
    rw [hphase] at h
    cases h
    exact .inr ⟨rfl, rfl⟩
  | idle => simp [hphase] at h
  | ended => simp [hphase] at h

/-- A round of a check leaves its store and its notes, and puts the check behind it. -/
theorem roundBackground_eq {a : Arena τ} {n : Nat} {c : Check τ} {round : Check.Round τ}
    (h : a.monitor.checks[n]? = some c) (hround : c.round? a.clock = some round) :
    a.roundBackground n =
      ({ a with
          monitor := Monitor.setCheck
            { a.monitor with store := (round.poll a.rivals a.clock a.store).store } n
            (c.after round.watch (round.poll a.rivals a.clock a.store).turn) },
        (if round.isFirst then [.began (.background n) round.watch] else [])
          ++ (round.poll a.rivals a.clock a.store).notes a.rivals (.background n)) := by
  simp only [roundBackground, Monitor.pollCheck, h, hround, Option.bind_eq_bind,
    Option.bind_some]
  rfl

theorem plays_background {a : Arena τ} {n : Nat} {c : Check τ} {round : Check.Round τ}
    (h : a.monitor.checks[n]? = some c) (hround : c.round? a.clock = some round) :
    a.Plays (.background n) round.watch (round.poll a.rivals a.clock a.store)
      (a.roundBackground n).1 (a.roundBackground n).2 := by
  have hlt : n < a.monitor.checks.length := (List.getElem?_eq_some_iff.mp h).1
  rw [roundBackground_eq h hround]
  refine ⟨round.polls _ _ _, ?_, ⟨_, rfl, ?_⟩, rfl, rfl, rfl, ?_, ?_, ?_⟩
  · rcases round?_cases hround with ⟨interval, hphase, -⟩ | ⟨hphase, -⟩ <;>
      simp [isOver, h, Check.isDone, hphase]
  · rcases round?_cases hround with ⟨interval, hphase, hfirst⟩ | ⟨hphase, hfirst⟩
    · exact .inr ⟨by simp [underway?, h, hphase], by simp [hfirst]⟩
    · exact .inl ⟨by simp [underway?, h, hphase], by simp [hfirst]⟩
  · intro outcome hturn
    have hphase : (c.after round.watch
        (round.poll a.rivals a.clock a.store).turn).phase = .ended := by
      rw [hturn]
      rfl
    simp [isOver, underway?, Monitor.setCheck, hlt, Check.isDone, hphase]
  · intro d hturn
    have hphase : (c.after round.watch
        (round.poll a.rivals a.clock a.store).turn).phase = .watching round.watch := by
      rw [hturn]
      rfl
    simp [isOver, underway?, Monitor.setCheck, hlt, Check.isDone, hphase]
  · intro other hne
    cases other with
    | foreground k => exact ⟨rfl, rfl⟩
    | background k =>
      have hk : n ≠ k := fun hk => hne (by rw [hk])
      simp [isOver, underway?, Monitor.setCheck, hk]

/-- Every round is played or changes nothing. -/
theorem step_round (a : Arena τ) (who : Watcher) :
    a.step (.round who) = (a, []) ∨
      ∃ w p, a.Plays who w p (a.step (.round who)).1 (a.step (.round who)).2 := by
  cases who with
  | foreground n =>
    cases h : a.foreground[n]? with
    | none => exact .inl (by simp [step, roundForeground, h])
    | some f =>
      obtain ⟨w, outcome⟩ := f
      cases outcome with
      | none => exact .inr ⟨w, _, plays_foreground h⟩
      | some outcome => exact .inl (by simp [step, roundForeground, h])
  | background n =>
    cases h : a.monitor.checks[n]? with
    | none => exact .inl (by simp [step, roundBackground, Monitor.pollCheck, h])
    | some c =>
      cases hround : c.round? a.clock with
      | none => exact .inl (by simp [step, roundBackground, Monitor.pollCheck, h, hround])
      | some round => exact .inr ⟨round.watch, _, plays_background h hround⟩

/-! ## Section 4: What a move changes -/

/-- All watches stand where they stood. -/
structure SameWatches (a a' : Arena τ) : Prop where
  isOver : ∀ who, a'.isOver who = a.isOver who
  underway : ∀ who, a'.underway? who = a.underway? who

omit [Time τ] in
theorem sameWatches_of_eq {a a' : Arena τ} (hf : a'.foreground = a.foreground)
    (hc : a'.monitor.checks = a.monitor.checks) : a.SameWatches a' := by
  constructor
  · intro who
    cases who <;> simp [isOver, hf, hc]
  · intro who
    cases who <;> simp [underway?, hf, hc]

/-- **What a move can do**, by the notes that it leaves. -/
inductive Change (a a' : Arena τ) : List (Note τ) → Prop where
  /-- The store stays as it is; at most time passes. -/
  | still (hs : a'.store = a.store) (hw : a.SameWatches a')
      (hc : a'.clock = a.clock ∨ Time.le a.clock a'.clock = true) : Change a a' []
  /-- An event is stored. -/
  | stores {offer : Incoming} {time : String} {event : Event}
      (hs : a.store.append offer time = .ok (a'.store, event)) (hw : a.SameWatches a')
      (hc : a'.clock = a.clock) : Change a a' [.stored event a.clock]
  /-- A watch in the foreground begins. -/
  | begins {who : Watcher} {w : Watch τ} (hnew : a.isOver who = false ∧ a.underway? who = none)
      (hs : a'.store = a.store) (ho : ∀ other, a'.isOver other = a.isOver other)
      (hw : ∀ other, a'.underway? other = if other = who then some w else a.underway? other)
      (hc : a'.clock = a.clock) : Change a a' [.began who w]
  /-- A watch plays a round. -/
  | plays {who : Watcher} {w : Watch τ} {p : Poll τ} {notes : List (Note τ)}
      (h : a.Plays who w p a' notes) : Change a a' notes
  /-- Somebody outside tries to consume an id. -/
  | attempts (id : Int) (hs : a'.store = (a.rivals.tryConsume a.store id).2)
      (hw : a.SameWatches a') (hc : a'.clock = a.clock) :
      Change a a' (Note.attempt .outsider (!a.store.isConsumed id) id
        (a.rivals.tryConsume a.store id).1
          ++ if (a.rivals.tryConsume a.store id).1 then a.rivals.aftermath id else [])
  /-- The store is reset. -/
  | resets (hs : a'.store = .empty) (hw : a.SameWatches a') (hc : a'.clock = a.clock) :
      Change a a' [.reset]

/-- A list with one more element at its end. -/
theorem getElem?_snoc {α : Type} (l : List α) (x : α) (n : Nat) :
    (l ++ [x])[n]? = if n = l.length then some x else l[n]? := by
  rcases Nat.lt_trichotomy n l.length with hlt | rfl | hgt
  · rw [List.getElem?_append_left hlt, if_neg (Nat.ne_of_lt hlt)]
  · simp
  · rw [if_neg (Nat.ne_of_gt hgt), List.getElem?_eq_none (Nat.le_of_lt hgt),
      List.getElem?_eq_none (by simp only [List.length_append, List.length_singleton]; omega)]

theorem change_watch (a : Arena τ) (query : Query) (timeout : Seconds τ) (interval : τ) :
    a.Change (a.step (.watch query timeout interval)).1
      (a.step (.watch query timeout interval)).2 := by
  by_cases hlog : query.isLoggable = true
  · simp only [step, if_pos hlog]
    refine .begins ⟨by simp [isOver], by simp [underway?]⟩ rfl ?_ ?_ rfl
    · intro other
      cases other with
      | foreground n =>
        by_cases hn : n = a.foreground.length <;> simp [isOver, getElem?_snoc, hn]
      | background n => rfl
    · intro other
      cases other with
      | foreground n =>
        by_cases hn : n = a.foreground.length <;> simp [underway?, getElem?_snoc, hn]
      | background n => simp [underway?]
  · -- the watch crashes before it begins
    simp only [step, if_neg hlog]
    exact .still rfl (sameWatches_of_eq rfl rfl) (.inl rfl)

theorem change_schedule (a : Arena τ) (name : String) (pattern : Option Value)
    (timeout : Seconds τ) (interval : τ) :
    a.Change (a.step (.schedule name pattern timeout interval)).1
      (a.step (.schedule name pattern timeout interval)).2 := by
  have hchecks : (a.step (.schedule name pattern timeout interval)).1.monitor.checks =
      a.monitor.checks ++ [.scheduled name pattern timeout a.store.size interval] := rfl
  refine .still rfl ⟨?_, ?_⟩ (.inl rfl)
  · intro who
    cases who with
    | foreground n => rfl
    | background n =>
      by_cases hn : n = a.monitor.checks.length <;>
        simp [isOver, hchecks, getElem?_snoc, hn, Check.scheduled, Check.isDone]
  · intro who
    cases who with
    | foreground n => rfl
    | background n =>
      by_cases hn : n = a.monitor.checks.length <;>
        simp [underway?, hchecks, getElem?_snoc, hn, Check.scheduled]

/-- Every move makes one of these changes. -/
theorem step_change (a : Arena τ) (move : Move τ) :
    a.Change (a.step move).1 (a.step move).2 := by
  cases move with
  | append offer time =>
    have hstep : a.step (.append offer time) =
        match a.store.append offer time with
        | .ok (store, event) =>
          ({ a with monitor := { a.monitor with store := store } }, [.stored event a.clock])
        | .error _ => (a, []) := by
      simp only [step, Monitor.append, store]
      cases a.monitor.store.append offer time <;> rfl
    rw [hstep]
    cases h : a.store.append offer time with
    | error fields => exact .still rfl (sameWatches_of_eq rfl rfl) (.inl rfl)
    | ok result => exact .stores h (sameWatches_of_eq rfl rfl) rfl
  | watch query timeout interval => exact a.change_watch query timeout interval
  | schedule name pattern timeout interval =>
    exact a.change_schedule name pattern timeout interval
  | round who =>
    rcases a.step_round who with hstep | ⟨w, p, hplays⟩
    · -- there is no such watch, or it has ended
      rw [hstep]
      exact .still rfl (sameWatches_of_eq rfl rfl) (.inl rfl)
    · exact .plays hplays
  | tryConsume id => exact .attempts id rfl (sameWatches_of_eq rfl rfl) rfl
  | reset => exact .resets rfl (sameWatches_of_eq rfl rfl) rfl
  | pass time =>
    -- time that would go backwards does not pass
    by_cases hle : Time.le a.clock time = true
    · simp only [step, hle, if_true]
      exact .still rfl (sameWatches_of_eq rfl rfl) (.inr hle)
    · simp only [step, hle, Bool.false_eq_true, if_false]
      exact .still rfl (sameWatches_of_eq rfl rfl) (.inl rfl)

/-- The clock stands or goes forwards. -/
theorem step_clock (a : Arena τ) (move : Move τ) :
    (a.step move).1.clock = a.clock ∨ Time.le a.clock (a.step move).1.clock = true := by
  have hchange := a.step_change move
  generalize (a.step move).1 = a', (a.step move).2 = notes at hchange
  cases hchange with
  | still hs hw hc => exact hc
  | stores hs hw hc => exact .inl hc
  | begins hnew hs ho hw hc => exact .inl hc
  | plays hp => exact .inl hp.clock
  | attempts id hs hw hc => exact .inl hc
  | resets hs hw hc => exact .inl hc

end Arena

end EventCheck
