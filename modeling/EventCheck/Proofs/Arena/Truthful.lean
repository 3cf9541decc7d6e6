import EventCheck.Proofs.Arena.Events
import EventCheck.Proofs.Watch.Tally
import Mathlib

/-! # What a watch says when it gives up

    A watch that finds nothing in time leaves a `NotFound`. It is made in the last
    round, from the tally of the last scan.

    - `Watch.error_of_expired`: what the error of a round holds.
    - `Arena.Started`: a watch began, and its deadline lies its timeout behind that.
    - `NotFound.Truthful`: the error agrees with the store of a scan.
    - `not_found_is_truthful`: in every run each error agrees with the store of the
      last scan of its watch.
-/

namespace EventCheck

variable {τ : Type} [Time τ]

/-! ## Section 1: The error of a round -/

namespace Watch

/-- The error of a watch that gives up holds what it was asked for and the tally of its last scan. -/
theorem error_of_expired {w : Watch τ} {r : Rivals} {now : τ} {s : Store} {error : NotFound τ}
    (h : (w.poll r now s).turn = .ended (.expired error)) :
    error = ⟨w.query.name, w.query.pattern, w.timeout, w.pace.elapsed now,
      (w.query.scan r s).tally.candidates, (w.query.scan r s).tally.last⟩ := by
  obtain ⟨hnothing, hlate⟩ := poll_expired h
  have hover : w.pace.rest now = .isOver := Pace.rest_isOver_iff.mpr hlate
  have hgiven : w.giveUp (w.query.scan r s).tally now = .expired error := by
    simpa [poll, hnothing, hover] using h
  unfold giveUp at hgiven
  cases hpattern : w.query.pattern with
  | none =>
    simp only [hpattern] at hgiven
    cases hgiven
    rfl
  | some pattern =>
    -- a pattern that cannot be written makes the watch crash instead
    simp only [hpattern] at hgiven
    cases hserial : pattern.serial with
    | error e => simp [hserial] at hgiven
    | ok v =>
      simp only [hserial] at hgiven
      cases hgiven
      rfl

end Watch

/-! ## Section 2: When a watch began -/

namespace Arena

/-- The first round of a check begins its watch. -/
theorem starting_of_first {c : Check τ} {now : τ} {round : Check.Round τ}
    (h : c.round? now = some round) (hfirst : round.isFirst = true) :
    ∃ interval, round.watch.pace = .starting now round.watch.timeout interval := by
  unfold Check.round? at h
  cases hphase : c.phase with
  | scheduled interval =>
    rw [hphase] at h
    cases h
    exact ⟨interval, rfl⟩
  | watching watch =>
    rw [hphase] at h
    cases h
    cases hfirst
  | idle => simp [hphase] at h
  | ended => simp [hphase] at h

/-- A watch that begins in a move has its deadline after its timeout. -/
theorem starting_of_began {a : Arena τ} {move : Move τ} {who : Watcher} {w : Watch τ}
    (h : .began who w ∈ (a.step move).2) :
    ∃ interval, w.pace = .starting a.clock w.timeout interval := by
  cases move with
  | append offer time =>
    simp only [step] at h
    split at h <;> simp at h
  | watch query timeout interval =>
    simp only [step] at h
    split at h
    · rw [List.mem_singleton, Note.began.injEq] at h
      obtain ⟨-, rfl⟩ := h
      exact ⟨interval, rfl⟩
    · cases h
  | schedule name pattern timeout interval => simp [step] at h
  | round other =>
    cases other with
    | foreground n =>
      simp only [step, roundForeground] at h
      split at h
      · exact absurd h Poll.began_not_mem_notes
      · simp at h
    | background n =>
      simp only [step, roundBackground] at h
      split at h
      · next round poll monitor hpoll =>
        rcases List.mem_append.mp h with hopening | hnotes
        · split at hopening
          · next hfirst =>
            cases List.mem_singleton.mp hopening
            simp only [Monitor.pollCheck, Option.bind_eq_bind, Option.bind_eq_some_iff] at hpoll
            obtain ⟨c, -, round', hround, hsame⟩ := hpoll
            cases hsame
            exact starting_of_first hround hfirst
          · simp at hopening
        · exact absurd hnotes Poll.began_not_mem_notes
      · simp at h
  | tryConsume id =>
    rcases Rivals.mem_attempt h with ⟨_, _, heq⟩ | heq <;> cases heq
  | reset => simp [step] at h
  | pass time => simp [step] at h

/-- **The watch started in these moves**: it is noted as begun, and its deadline lies its timeout
    behind the time of that. -/
def Started (a : Arena τ) (moves : List (Move τ)) (who : Watcher) (w : Watch τ) : Prop :=
  ∃ early move late, moves = early ++ move :: late ∧
    .began who w ∈ ((a.after early).step move).2 ∧
    ∃ interval, w.pace = .starting (a.after early).clock w.timeout interval

theorem started_of_began {a : Arena τ} {moves : List (Move τ)} {who : Watcher} {w : Watch τ}
    (h : .began who w ∈ a.trace moves) : a.Started moves who w := by
  obtain ⟨early, move, late, hmoves, hnote⟩ := exists_step_of_mem h
  exact ⟨early, move, late, hmoves, hnote, starting_of_began hnote⟩

/-- A watch that started in some moves has begun, whatever moves follow. -/
theorem Started.began {a : Arena τ} {moves : List (Move τ)} {who : Watcher} {w : Watch τ}
    (h : a.Started moves who w) (further : List (Move τ)) :
    .began who w ∈ a.trace (moves ++ further) := by
  obtain ⟨early, move, late, rfl, hnote, -⟩ := h
  rw [trace_append, trace_append, trace_cons]
  apply List.mem_append_left
  apply List.mem_append_right
  exact List.mem_append_left _ hnote

end Arena

/-! ## Section 3: Truthful errors -/

/-- **The error tells the truth** of a scan that its watch made of this store at this time, when
    others took these ids from it. -/
structure NotFound.Truthful (error : NotFound τ) (w : Watch τ) (s : Store) (now : τ)
    (lost : Nat → Prop) : Prop where
  /-- It says what the watch was asked for. -/
  asked : error.name = w.query.name ∧ error.pattern = w.query.pattern ∧ error.timeout = w.timeout
  elapsed : error.elapsed = w.pace.elapsed now
  /-- No time was left. -/
  late : Time.le (Time.sub w.pace.deadline now) Time.zero = true
  /-- Nothing was left that the watch could have taken. -/
  nothing_left : ∀ (i : Nat) (e : Event), s.events[i]? = some e → w.query.baseline ≤ i →
    e.name = w.query.name →
    (∀ pattern, w.query.pattern = some pattern →
      (Value.ofJson e.payload).contains pattern = .ok true) →
    s.isConsumed e.id = false → lost e.id
  /-- It counts the unconsumed events of the name. -/
  candidates : error.candidates =
    ((s.events.drop w.query.baseline.toNat).filter (w.query.isCandidate s)).length
  /-- It shows the last of them that lacks the pattern. -/
  last : error.last =
    (((s.events.drop w.query.baseline.toNat).filter (w.query.isCandidate s)).filter
      w.query.lacks).getLast?

/-- The error of a round tells the truth of its scan. What the scan lost is among its answers. -/
theorem Watch.truthful_of_expired {w : Watch τ} {r : Rivals} {now : τ} {s : Store}
    {error : NotFound τ} (hs : s.Numbered) (hbaseline : 0 ≤ w.query.baseline)
    (h : (w.poll r now s).turn = .ended (.expired error)) :
    error.Truthful w s now fun id => (id, false) ∈ (w.poll r now s).tally.answers := by
  obtain ⟨hnothing, hlate⟩ := poll_expired h
  have hscanned : s.eventsSince w.query.baseline = s.events.drop w.query.baseline.toNat :=
    if_pos hbaseline
  have hids : s.events.Pairwise fun x y => x.id ≠ y.id := hs.sorted.imp Nat.ne_of_lt
  obtain ⟨hcount, hlast⟩ := Query.tally_of_nothing hids hnothing
  obtain ⟨front, hends, hover⟩ := (w.course_poll r now s).passed_over
  rw [hnothing] at hends
  -- the scan went over all events behind the baseline
  obtain rfl : s.eventsSince w.query.baseline = front := hends
  rw [error_of_expired h]
  constructor
  case asked => exact ⟨rfl, rfl, rfl⟩
  case elapsed => rfl
  case late => exact hlate
  case nothing_left =>
    intro i e hi hle hname hcontains hfree
    have hin : e ∈ s.eventsSince w.query.baseline := by
      rw [hscanned, List.mem_drop_iff_getElem]
      obtain ⟨hlt, rfl⟩ := List.getElem?_eq_some_iff.mp hi
      have hplace : w.query.baseline.toNat + (i - w.query.baseline.toNat) = i := by omega
      exact ⟨i - w.query.baseline.toNat, by omega, by simp only [hplace]⟩
    have hwants : w.query.wants e = true := by
      refine Query.wants_iff.mpr ⟨hname, ?_⟩
      unfold Query.admits
      cases hpattern : w.query.pattern with
      | none => rfl
      | some pattern => exact hcontains pattern hpattern
    rcases hover e hin hwants with hconsumed | hlost
    · rw [hfree] at hconsumed
      cases hconsumed
    · exact hlost
  case candidates =>
    rw [← hscanned]
    exact hcount
  case last =>
    rw [← hscanned]
    exact hlast

namespace Arena

/-- An id that the scan of a round lost was refused to its watch, and a rival has taken it. -/
theorem Plays.mem_of_lost {a a' : Arena τ} {who : Watcher} {w : Watch τ} {p : Poll τ}
    {notes : List (Note τ)} (hp : a.Plays who w p a' notes) {id : Nat}
    (h : (id, false) ∈ p.tally.answers) :
    .answered (.watch who) id false ∈ notes ∧ .answered .rival id true ∈ notes := by
  obtain ⟨opening, rfl, -⟩ := hp.opened
  have hattempt : ∀ note : Note τ, note ∈ Note.attempt (.watch who) true id false →
      note ∈ opening ++ p.notes a.rivals who := by
    intro note hnote
    apply List.mem_append_right
    apply List.mem_append_left
    exact List.mem_flatMap.mpr ⟨_, h, hnote⟩
  constructor
  · apply hattempt
    simp [Note.attempt]
  · apply hattempt
    simp [Note.attempt]

/-- **A not-found result is truthful.** In every run a watch that ends with an error has scanned
    the store in its last round and then found its deadline past. In the store of that scan no
    event from the baseline on was free, had the name and contained the pattern, except for those
    that a rival took from the watch in that round. The error counts the free events with the
    name, and shows the last of them that did not contain the pattern, if there is one. -/
theorem not_found_is_truthful (r : Rivals) (clock : τ) (moves : List (Move τ)) (who : Watcher)
    (error : NotFound τ) (hended : .ended who (.expired error) ∈ (new r clock).trace moves) :
    ∃ before last behind w, moves = before ++ last :: behind ∧
      (new r clock).Started (before ++ [last]) who w ∧
      let a := (new r clock).after before
      .ended who (.expired error) ∈ (a.step last).2 ∧
      (a.step last).1.isOver who = true ∧
      (0 ≤ w.query.baseline → error.Truthful w a.store a.clock fun id =>
        .answered (.watch who) id false ∈ (a.step last).2 ∧
          .answered .rival id true ∈ (a.step last).2) := by
  obtain ⟨before, last, behind, hmoves, hnote⟩ := exists_step_of_mem hended
  obtain ⟨w, hplays, hturn⟩ := plays_of_ended hnote nofun
  refine ⟨before, last, behind, w, hmoves, ?_, hnote, (hplays.ended _ hturn).1, ?_⟩
  · apply started_of_began
    rw [trace_append, trace_cons, trace_nil, List.append_nil]
    exact hplays.began (life_run r clock before)
  · intro hbaseline
    have htruth := Watch.truthful_of_expired (numbered_run r clock before) hbaseline hturn
    refine { htruth with nothing_left := ?_ }
    intro i e hi hle hname hcontains hfree
    exact hplays.mem_of_lost (htruth.nothing_left i e hi hle hname hcontains hfree)

/-- A rival takes the third of the events. -/
def contested : Arena Rat := .new ⟨[3], []⟩ 0

/-- A watch for orders of seven, from the second event on. -/
def orderWatch : Watch Rat :=
  ⟨⟨"order", some (.obj [("item", .int 7)]), 1⟩, ⟨1, 0, 2⟩, .whole 2⟩

/-- Of the events from the second on, one lacks the pattern, one is lost to the rival, one is
    consumed, and one has another name. -/
def orderMoves : List (Move Rat) :=
  [.watch orderWatch.query (.whole 2) 1,
    .append (.plain "order" (.obj [("item", .int 7)]) none) "noon",
    .append (.plain "order" (.obj [("item", .int 8)]) none) "noon",
    .append (.plain "order" (.obj [("item", .int 7)]) none) "noon",
    .append (.plain "order" (.obj [("item", .int 7)]) none) "noon",
    .append (.plain "view" (.obj [("item", .int 7)]) none) "noon",
    .tryConsume 4, .pass 2, .round (.foreground 0)]

def missedOrder : NotFound Rat :=
  ⟨"order", some (.obj [("item", .int 7)]), .whole 2, 2, 2,
    some ⟨2, "order", .obj [("item", .int 8)], "noon", none⟩⟩

/-- The watch for orders ends with an error, and the error tells the truth. -/
theorem missedOrder_is_truthful :
    .ended (.foreground 0) (.expired missedOrder) ∈ contested.trace orderMoves ∧
      ∃ before last behind, orderMoves = before ++ last :: behind ∧
        let a := contested.after before
        missedOrder.Truthful orderWatch a.store a.clock fun id =>
          .answered (.watch (.foreground 0)) id false ∈ (a.step last).2 ∧
            .answered .rival id true ∈ (a.step last).2 := by
  have htrace : contested.trace orderMoves =
      [.began (.foreground 0) orderWatch,
        .stored ⟨1, "order", .obj [("item", .int 7)], "noon", none⟩ 0,
        .stored ⟨2, "order", .obj [("item", .int 8)], "noon", none⟩ 0,
        .stored ⟨3, "order", .obj [("item", .int 7)], "noon", none⟩ 0,
        .stored ⟨4, "order", .obj [("item", .int 7)], "noon", none⟩ 0,
        .stored ⟨5, "view", .obj [("item", .int 7)], "noon", none⟩ 0,
        .answered .outsider 4 true,
        .answered .rival 3 true,
        .answered (.watch (.foreground 0)) 3 false,
        .ended (.foreground 0) (.expired missedOrder)] := by
    cbv
  have hended : .ended (.foreground 0) (.expired missedOrder) ∈ contested.trace orderMoves := by
    rw [htrace]
    simp
  obtain ⟨before, last, behind, w, hmoves, hstarted, -, -, htruth⟩ :=
    not_found_is_truthful ⟨[3], []⟩ 0 orderMoves (.foreground 0) missedOrder hended
  have hbegan : .began (.foreground 0) w ∈ contested.trace orderMoves := by
    rw [hmoves, List.append_cons]
    exact hstarted.began behind
  obtain rfl : w = orderWatch := by
    rw [htrace] at hbegan
    simpa using hbegan
  exact ⟨hended, before, last, behind, hmoves, htruth (by decide)⟩

end Arena

end EventCheck
