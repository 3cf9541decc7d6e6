import EventCheck.Proofs.Arena.Events
import Mathlib

/-! # Watches that compete for events

    A `Contest` is a group of watches that look for the same events. It is fair when
    nobody else takes such an event, the store is not reset, and no watch of the
    group crashes.

    - `Fair.consumed_iff`: an event is consumed exactly when a watch of the group has
      won it.
    - `Fair.taken_first` and `Fair.taken_length`: the events that are taken come
      first, one for each winner.
    - `Fair.all_taken`: when a watch has given up, no event is left.
    - `shared_fairly` puts these together.
-/

namespace EventCheck

variable {τ : Type}

/-! ## Section 1: The contest -/

/-- Time is steady: once no time remains until a deadline, none will remain later, and what comes
    then does not come before the deadline. -/
structure Time.Steady (τ : Type) [Time τ] : Prop where
  over_of_le : ∀ deadline now later : τ, Time.le now later = true →
    Time.le (Time.sub deadline now) Time.zero = true →
    Time.le (Time.sub deadline later) Time.zero = true
  not_before : ∀ deadline now : τ, Time.le (Time.sub deadline now) Time.zero = true →
    Time.lt now deadline = false

theorem Time.steady_rat : Time.Steady Rat := by
  constructor
  · intro deadline now later hle hover
    simp only [Time.le, Time.sub, Time.zero, decide_eq_true_eq] at hle hover ⊢
    exact sub_nonpos.mpr ((sub_nonpos.mp hover).trans hle)
  · intro deadline now hover
    simp only [Time.le, Time.sub, Time.zero, Time.lt, decide_eq_true_eq,
      decide_eq_false_iff_not] at hover ⊢
    exact not_lt.mpr (sub_nonpos.mp hover)

/-- A deadline that has come stays over in every run. -/
theorem Arena.over_after [Time τ] (steady : Time.Steady τ) {deadline : τ} {a : Arena τ}
    (h : Time.le (Time.sub deadline a.clock) Time.zero = true) (moves : List (Move τ)) :
    Time.le (Time.sub deadline (a.after moves).clock) Time.zero = true := by
  induction moves generalizing a with
  | nil => exact h
  | cons move rest ih =>
    apply ih
    rcases a.step_clock move with hclock | hclock
    · rw [hclock]
      exact h
    · exact steady.over_of_le deadline a.clock _ hclock h

/-- What holds of each earlier element of a list if it holds of a later one holds of the elements
    in front. -/
theorem filter_prefix_of_pairwise {α : Type} {p : α → Bool} {l : List α}
    (h : l.Pairwise fun x y => p y = true → p x = true) : l.filter p <+: l := by
  induction l with
  | nil => exact List.prefix_refl _
  | cons x rest ih =>
    obtain ⟨hx, hrest⟩ := List.pairwise_cons.mp h
    cases hp : p x with
    | true =>
      rw [List.filter_cons_of_pos hp]
      exact List.cons_prefix_cons.mpr ⟨rfl, ih hrest⟩
    | false =>
      have hnone : rest.filter p = [] := by
        rw [List.filter_eq_nil_iff]
        intro y hy hpy
        rw [hx y hy hpy] at hp
        cases hp
      rw [List.filter_cons_of_neg (by simp [hp]), hnone]
      exact List.nil_prefix

/-- The event that the watch has won, if the note says so. -/
def Note.prize? (who : Watcher) : Note τ → Option Event
  | .ended other (.matched e) => if other = who then some e else none
  | _ => none

theorem Note.prize?_eq_some_iff {who : Watcher} {note : Note τ} {e : Event} :
    note.prize? who = some e ↔ note = .ended who (.matched e) := by
  unfold Note.prize?
  split
  · next other x =>
    by_cases hother : other = who <;> simp [hother]
  · next hnote =>
    constructor
    · exact nofun
    · intro heq
      exact absurd heq (hnote who e)

/-- A contest: a group of watches that all look for the same events, and what went on in the arena
    before it. -/
structure Contest (τ : Type) where
  rivals : Rivals
  clock : τ
  lead : List (Move τ)
  name : String
  pattern : Option Value
  baseline : Nat
  group : List Watcher

namespace Contest

variable [Time τ]

/-- What the watches of the group look for. -/
def query (c : Contest τ) : Query := ⟨c.name, c.pattern, c.baseline⟩

/-- The arena in which the contest starts. -/
def start (c : Contest τ) : Arena τ := (Arena.new c.rivals c.clock).after c.lead

/-- The arena behind some moves of the contest. -/
def arena (c : Contest τ) (moves : List (Move τ)) : Arena τ := c.start.after moves

/-- The notes of the contest. -/
def trace (c : Contest τ) (moves : List (Move τ)) : List (Note τ) := c.start.trace moves

/-- The stored events that the group looks for, in the order in which they came. -/
def matching (c : Contest τ) (moves : List (Move τ)) : List Event :=
  (c.arena moves).store.events.filter fun e => c.query.wants e && decide (c.baseline < e.id)

/-- Those of them that are consumed. -/
def taken (c : Contest τ) (moves : List (Move τ)) : List Event :=
  (c.matching moves).filter fun e => (c.arena moves).store.isConsumed e.id

/-- The event that a watch has won. -/
def prize? (c : Contest τ) (moves : List (Move τ)) (who : Watcher) : Option Event :=
  (c.trace moves).findSome? (Note.prize? who)

/-- The watches of the group that have succeeded. -/
def winners (c : Contest τ) (moves : List (Move τ)) : List Watcher :=
  c.group.filter fun who => (c.prize? moves who).isSome

/-- **A fair contest**: its watches begin in it and all look for the same; the store is not reset;
    no event that they look for is consumed at the start or by anybody else; none of them
    crashes. -/
structure Fair (c : Contest τ) (moves : List (Move τ)) : Prop where
  distinct : c.group.Nodup
  opened : ∀ who ∈ c.group, ∀ w, .began who w ∉ (Arena.new c.rivals c.clock).trace c.lead
  same : ∀ who ∈ c.group, ∀ w, .began who w ∈ c.trace moves → w.query = c.query
  noReset : .reset ∉ c.trace moves
  free : ∀ e ∈ c.matching moves, c.start.store.isConsumed e.id = false
  alone : ∀ e ∈ c.matching moves, ∀ caller, .answered caller e.id true ∈ c.trace moves →
    ∃ who ∈ c.group, caller = .watch who
  noCrash : ∀ who ∈ c.group, ∀ error, .ended who (.crashed error) ∉ c.trace moves

variable {c : Contest τ} {moves : List (Move τ)}

theorem mem_matching {e : Event} :
    e ∈ c.matching moves ↔
      e ∈ (c.arena moves).store.events ∧ c.query.wants e = true ∧ c.baseline < e.id := by
  simp [matching]

theorem numbered (c : Contest τ) (moves : List (Move τ)) : (c.arena moves).store.Numbered := by
  have h := Arena.numbered_run c.rivals c.clock (c.lead ++ moves)
  rw [Arena.after_append] at h
  exact h

theorem life (c : Contest τ) (moves : List (Move τ)) :
    Life (c.arena moves).isOver (c.arena moves).underway?
      ((Arena.new c.rivals c.clock).trace c.lead ++ c.trace moves) := by
  have h := Arena.life_run c.rivals c.clock (c.lead ++ moves)
  rw [Arena.after_append, Arena.trace_append] at h
  exact h

/-- The ids of the matching events grow. -/
theorem matching_sorted (c : Contest τ) (moves : List (Move τ)) :
    (c.matching moves).Pairwise fun x y => x.id < y.id :=
  (c.numbered moves).sorted.filter _

/-- What a watch of the group scans. -/
theorem mem_eventsSince {e : Event} :
    e ∈ (c.arena moves).store.eventsSince c.query.baseline ↔
      e ∈ (c.arena moves).store.events ∧ c.baseline < e.id := by
  rw [show c.query.baseline = (c.baseline : Int) from rfl, (c.numbered moves).eventsSince_eq]
  simp

/-- A scanned event with a smaller id stands in front. -/
theorem mem_front_of_lt {front rest : List Event} {x y : Event}
    (hscanned : (c.arena moves).store.eventsSince c.query.baseline = front ++ y :: rest)
    (hx : x ∈ (c.arena moves).store.eventsSince c.query.baseline) (hlt : x.id < y.id) :
    x ∈ front := by
  have hsorted : (front ++ y :: rest).Pairwise fun x y => x.id < y.id := by
    rw [← hscanned, show c.query.baseline = (c.baseline : Int) from rfl,
      (c.numbered moves).eventsSince_eq]
    exact (c.numbered moves).sorted.filter _
  rw [List.pairwise_append, List.pairwise_cons] at hsorted
  rw [hscanned] at hx
  rcases List.mem_append.mp hx with hin | hin
  · exact hin
  · rcases List.mem_cons.mp hin with rfl | hin
    · exact absurd hlt (Nat.lt_irrefl _)
    · exact absurd hlt (Nat.not_lt.mpr (Nat.le_of_lt (hsorted.2.1.1 x hin)))

/-! ## Section 2: Parts of a contest -/

theorem arena_append (c : Contest τ) (before behind : List (Move τ)) :
    c.arena (before ++ behind) = (c.arena before).after behind :=
  c.start.after_append before behind

theorem trace_append (c : Contest τ) (before behind : List (Move τ)) :
    c.trace (before ++ behind) = c.trace before ++ (c.arena before).trace behind :=
  c.start.trace_append before behind

theorem mem_trace_of_part {before : List (Move τ)} (hp : before <+: moves) {note : Note τ}
    (hn : note ∈ c.trace before) : note ∈ c.trace moves := by
  obtain ⟨behind, rfl⟩ := hp
  rw [trace_append]
  exact List.mem_append_left _ hn

theorem mem_trace_of_step {before behind : List (Move τ)} {move : Move τ} {note : Note τ}
    (hn : note ∈ ((c.arena before).step move).2) :
    note ∈ c.trace (before ++ move :: behind) := by
  rw [trace_append, Arena.trace_cons]
  exact List.mem_append_right _ (List.mem_append_left _ hn)

namespace Fair

theorem noReset_behind {before behind : List (Move τ)} (h : c.Fair (before ++ behind)) :
    .reset ∉ (c.arena before).trace behind := by
  intro hin
  apply h.noReset
  rw [trace_append]
  exact List.mem_append_right _ hin

theorem events_grow (h : c.Fair moves) {before : List (Move τ)} (hp : before <+: moves) :
    (c.arena before).store.events <+: (c.arena moves).store.events := by
  obtain ⟨behind, rfl⟩ := hp
  rw [arena_append]
  exact Arena.events_grow h.noReset_behind

theorem mem_matching_of_part (h : c.Fair moves) {before : List (Move τ)} (hp : before <+: moves)
    {e : Event} (he : e ∈ c.matching before) : e ∈ c.matching moves := by
  rw [mem_matching] at he ⊢
  exact ⟨(h.events_grow hp).subset he.1, he.2⟩

/-- Every part of a fair contest from its start is a fair contest. -/
theorem of_part (h : c.Fair moves) {before : List (Move τ)} (hp : before <+: moves) :
    c.Fair before where
  distinct := h.distinct
  opened := h.opened
  same who hwho w hin := h.same who hwho w (mem_trace_of_part hp hin)
  noReset hin := h.noReset (mem_trace_of_part hp hin)
  free e he := h.free e (h.mem_matching_of_part hp he)
  alone e he caller hin :=
    h.alone e (h.mem_matching_of_part hp he) caller (mem_trace_of_part hp hin)
  noCrash who hwho error hin := h.noCrash who hwho error (mem_trace_of_part hp hin)

/-- What is consumed in a fair contest stays so. -/
theorem isConsumed_of_part (h : c.Fair moves) {before : List (Move τ)} (hp : before <+: moves)
    {id : Int} (hid : (c.arena before).store.isConsumed id = true) :
    (c.arena moves).store.isConsumed id = true := by
  obtain ⟨behind, rfl⟩ := hp
  rw [arena_append, Store.isConsumed_iff]
  have haccepts := (c.arena before).accepts_run behind
  exact haccepts.mem_consumed h.noReset_behind (Store.isConsumed_iff.mp hid)

/-! ## Section 3: The last round of a watch -/

/-- A watch of the group that has ended has played its last round, and looked for what the group
    looks for. -/
theorem last_round (h : c.Fair moves) {who : Watcher} (hwho : who ∈ c.group)
    {outcome : Outcome τ} (hended : .ended who outcome ∈ c.trace moves) :
    ∃ before move behind w, moves = before ++ move :: behind ∧
      (c.arena before).Plays who w
        (w.poll (c.arena before).rivals (c.arena before).clock (c.arena before).store)
        ((c.arena before).step move).1 ((c.arena before).step move).2 ∧
      (w.poll (c.arena before).rivals (c.arena before).clock (c.arena before).store).turn =
        .ended outcome ∧
      .began who w ∈ c.trace moves ∧ w.query = c.query := by
  obtain ⟨before, move, behind, hmoves, hin⟩ := Arena.exists_step_of_mem hended
  obtain ⟨w, hplays, hturn⟩ := Arena.plays_of_ended hin fun error hcrashed =>
    h.noCrash who hwho error (hcrashed ▸ hended)
  have hbegan : .began who w ∈ c.trace moves := by
    -- it did not begin in the lead, so it began in the contest
    rcases List.mem_append.mp (hplays.began (c.life before)) with hfront | hnote
    · rcases List.mem_append.mp hfront with hlead | hfront
      · exact absurd hlead (h.opened who hwho w)
      · exact mem_trace_of_part ⟨move :: behind, hmoves.symm⟩ hfront
    · rw [hmoves]
      exact mem_trace_of_step hnote
  exact ⟨before, move, behind, w, hmoves, hplays, hturn, hbegan, h.same who hwho w hbegan⟩

/-- In a round of the group no matching event is lost to a rival. -/
theorem not_lost (h : c.Fair moves) {who : Watcher} {w : Watch τ}
    {before behind : List (Move τ)} {move : Move τ} (hmoves : moves = before ++ move :: behind)
    (hplays : (c.arena before).Plays who w
      (w.poll (c.arena before).rivals (c.arena before).clock (c.arena before).store)
      ((c.arena before).step move).1 ((c.arena before).step move).2) {e : Event} (he : e ∈ c.matching moves) :
    (e.id, false) ∉ (w.poll (c.arena before).rivals (c.arena before).clock
      (c.arena before).store).tally.answers := by
  intro hlost
  obtain ⟨opening, hnotes, -⟩ := hplays.opened
  have hrival : .answered .rival e.id true ∈ c.trace moves := by
    rw [hmoves]
    apply mem_trace_of_step
    rw [hnotes]
    apply List.mem_append_right
    apply List.mem_append_left
    exact List.mem_flatMap.mpr ⟨_, hlost, by simp [Note.attempt]⟩
  obtain ⟨other, -, heq⟩ := h.alone e he .rival hrival
  cases heq

/-- In front of the event that a round of the group gets, and everywhere if it ends with nothing,
    all matching events are consumed. -/
theorem front_consumed (h : c.Fair moves) {who : Watcher} {w : Watch τ}
    {before behind : List (Move τ)} {move : Move τ} (hmoves : moves = before ++ move :: behind)
    (hplays : (c.arena before).Plays who w
      (w.poll (c.arena before).rivals (c.arena before).clock (c.arena before).store)
      ((c.arena before).step move).1 ((c.arena before).step move).2) (hquery : w.query = c.query) :
    ∃ front, (w.query.scan (c.arena before).rivals (c.arena before).store).found.EndsBehind front
        ((c.arena before).store.eventsSince c.query.baseline) ∧
      ∀ x ∈ front, c.query.wants x = true →
        (c.arena before).store.isConsumed x.id = true := by
  have hcourse := w.course_poll (c.arena before).rivals (c.arena before).clock
    (c.arena before).store
  obtain ⟨front, hends, hover⟩ := hcourse.passed_over
  rw [hquery] at hends hover
  refine ⟨front, by rw [hquery]; exact hends, ?_⟩
  intro x hx hwants
  rcases hover x hx hwants with hcons | hlost
  · exact hcons
  · -- who loses an event loses it to a rival, and there is none
    have hscanned : x ∈ (c.arena before).store.eventsSince c.query.baseline :=
      hends.front_subset hx
    obtain ⟨hstored, hbehind⟩ := mem_eventsSince.mp hscanned
    have hmatching : x ∈ c.matching moves :=
      h.mem_matching_of_part ⟨move :: behind, hmoves.symm⟩
        (mem_matching.mpr ⟨hstored, hwants, hbehind⟩)
    exact absurd hlost (h.not_lost hmoves hplays hmatching)

/-- What a watch of the group has won is a matching event, and consumed. -/
theorem won_mem_taken (h : c.Fair moves) {who : Watcher} (hwho : who ∈ c.group) {e : Event}
    (hwon : .ended who (.matched e) ∈ c.trace moves) : e ∈ c.taken moves := by
  obtain ⟨before, move, behind, w, hmoves, hplays, hturn, hbegan, hquery⟩ :=
    h.last_round hwho hwon
  have hpart : before <+: moves := ⟨move :: behind, hmoves.symm⟩
  have hcourse := w.course_poll (c.arena before).rivals (c.arena before).clock
    (c.arena before).store
  rw [Watch.poll_matched_iff.mp hturn, hquery] at hcourse
  obtain ⟨hscanned, hwants, -⟩ := hcourse.found_event
  obtain ⟨hstored, hbehind⟩ := mem_eventsSince.mp hscanned
  refine List.mem_filter.mpr ⟨?_, ?_⟩
  · exact h.mem_matching_of_part hpart (mem_matching.mpr ⟨hstored, hwants, hbehind⟩)
  · rw [Store.isConsumed_iff]
    apply (c.start.accepts_run moves).mem_of_taken h.noReset (.watch who)
    obtain ⟨opening, hnotes, -⟩ := hplays.opened
    obtain ⟨lost, -, hpoll⟩ := Poll.notes_of_matched who hturn
    rw [hmoves]
    apply mem_trace_of_step
    rw [hnotes, hpoll]
    simp

/-- **A matching event is consumed exactly when a watch of the group has won it.** -/
theorem consumed_iff (h : c.Fair moves) {e : Event} (he : e ∈ c.matching moves) :
    (c.arena moves).store.isConsumed e.id = true ↔
      ∃ who ∈ c.group, .ended who (.matched e) ∈ c.trace moves := by
  have haccepts := c.start.accepts_run moves
  constructor
  · intro hcons
    rcases haccepts.taken_of_mem (Store.isConsumed_iff.mp hcons) with hstart | ⟨caller, htaken⟩
    · -- it was free at the start
      have hfree := Store.isConsumed_eq_false_iff.mp (h.free e he)
      exact absurd hstart hfree
    · -- whoever took it is in the group and has returned the event of that id
      obtain ⟨who, hwho, rfl⟩ := h.alone e he caller htaken
      obtain ⟨e', hid, hwon⟩ := haccepts.returned rfl htaken
      have hmatching : e' ∈ c.matching moves := (List.mem_filter.mp (h.won_mem_taken hwho hwon)).1
      have heq : e' = e := (c.numbered moves).eq_of_id_eq (mem_matching.mp hmatching).1
        (mem_matching.mp he).1 (Int.ofNat_inj.mp hid)
      exact ⟨who, hwho, heq ▸ hwon⟩
  · rintro ⟨who, hwho, hwon⟩
    exact (List.mem_filter.mp (h.won_mem_taken hwho hwon)).2

/-! ## Section 4: The events are shared in order -/

/-- Whoever has won an event has gone past the matching ones before it. -/
theorem earlier_consumed (h : c.Fair moves) {who : Watcher} (hwho : who ∈ c.group) {x y : Event}
    (hwon : .ended who (.matched y) ∈ c.trace moves) (hx : x ∈ c.matching moves)
    (hlt : x.id < y.id) : (c.arena moves).store.isConsumed x.id = true := by
  obtain ⟨before, move, behind, w, hmoves, hplays, hturn, hbegan, hquery⟩ :=
    h.last_round hwho hwon
  have hpart : before <+: moves := ⟨move :: behind, hmoves.symm⟩
  obtain ⟨front, hends, hfront⟩ := h.front_consumed hmoves hplays hquery
  rw [Watch.poll_matched_iff.mp hturn] at hends
  obtain ⟨rest, hscanned⟩ := hends
  have hy : y ∈ (c.arena before).store.eventsSince c.query.baseline := by
    rw [hscanned]
    simp
  obtain ⟨hxstored, hxwants, hxbehind⟩ := mem_matching.mp hx
  -- the earlier event was stored when the later one was won
  have hxbefore : x ∈ (c.arena before).store.events :=
    (c.numbered moves).mem_of_le (h.events_grow hpart) hxstored
      (mem_eventsSince.mp hy).1 (Nat.le_of_lt hlt)
  have hxfront : x ∈ front :=
    mem_front_of_lt hscanned (mem_eventsSince.mpr ⟨hxbefore, hxbehind⟩) hlt
  exact h.isConsumed_of_part hpart (hfront x hxfront hxwants)

/-- What is taken comes first. -/
theorem taken_first (h : c.Fair moves) : c.taken moves <+: c.matching moves := by
  apply filter_prefix_of_pairwise
  apply (c.matching_sorted moves).imp_of_mem
  intro x y hx hy hlt hcons
  obtain ⟨who, hwho, hwon⟩ := (h.consumed_iff hy).mp hcons
  exact h.earlier_consumed hwho hwon hx hlt

/-- An event has one winner. -/
theorem winner_unique (h : c.Fair moves) {who who' : Watcher} {e : Event}
    (hwon : .ended who (.matched e) ∈ c.trace moves)
    (hwon' : .ended who' (.matched e) ∈ c.trace moves) : who = who' := by
  have haccepts := c.start.accepts_run moves
  by_contra hne
  have hnotes : (.ended who (.matched e) : Note τ) ≠ .ended who' (.matched e) := by
    intro heq
    cases heq
    exact hne rfl
  rcases sameEpoch_of_mem h.noReset hwon hwon' hnotes with hs | hs
  · exact haccepts.not_returned_twice rfl hs rfl
  · exact haccepts.not_returned_twice rfl hs rfl

end Fair

theorem prize?_eq_some_iff {who : Watcher} {e : Event} :
    c.prize? moves who = some e ↔ .ended who (.matched e) ∈ c.trace moves := by
  constructor
  · intro hprize
    obtain ⟨note, hin, hnote⟩ := List.exists_of_findSome?_eq_some hprize
    rw [Note.prize?_eq_some_iff.mp hnote] at hin
    exact hin
  · intro hin
    cases hprize : c.prize? moves who with
    | none =>
      have hnone := List.findSome?_eq_none_iff.mp hprize _ hin
      rw [Note.prize?_eq_some_iff.mpr rfl] at hnone
      cases hnone
    | some x =>
      obtain ⟨note, hin', hnote⟩ := List.exists_of_findSome?_eq_some hprize
      rw [Note.prize?_eq_some_iff.mp hnote] at hin'
      -- a watch ends once
      have honce := (c.life moves).ended_once who (.matched x) (.matched e)
        (List.mem_append_right _ hin') (List.mem_append_right _ hin)
      cases honce
      rfl

namespace Fair

/-- One event is taken for each winner. -/
theorem taken_length (h : c.Fair moves) :
    (c.taken moves).length = (c.winners moves).length := by
  have hprizes : (c.group.filterMap (c.prize? moves)).Nodup := by
    apply h.distinct.filterMap
    intro who who' e he he'
    exact h.winner_unique (prize?_eq_some_iff.mp he) (prize?_eq_some_iff.mp he')
  have htaken : (c.taken moves).Nodup := by
    apply List.Nodup.filter
    exact (c.matching_sorted moves).imp fun hlt heq => Nat.ne_of_lt hlt (congrArg Event.id heq)
  have hmem : ∀ e, e ∈ c.taken moves ↔ e ∈ c.group.filterMap (c.prize? moves) := by
    intro e
    rw [List.mem_filterMap]
    constructor
    · intro he
      obtain ⟨hmatching, hcons⟩ := List.mem_filter.mp he
      obtain ⟨who, hwho, hwon⟩ := (h.consumed_iff hmatching).mp hcons
      exact ⟨who, hwho, prize?_eq_some_iff.mpr hwon⟩
    · rintro ⟨who, hwho, hprize⟩
      exact h.won_mem_taken hwho (prize?_eq_some_iff.mp hprize)
  calc (c.taken moves).length = (c.group.filterMap (c.prize? moves)).length :=
        ((List.perm_ext_iff_of_nodup htaken hprizes).mpr hmem).length_eq
    _ = (c.winners moves).length := by
        rw [List.length_filterMap_eq_countP, List.countP_eq_length_filter]
        rfl

/-! ## Section 5: No event is left over -/

/-- **When a watch has given up, no event is left**: all that were stored by then are consumed,
    and the others come too late. -/
theorem all_taken (h : c.Fair moves) (steady : Time.Steady τ) {who : Watcher}
    (hwho : who ∈ c.group) {error : NotFound τ}
    (hexpired : .ended who (.expired error) ∈ c.trace moves)
    (htime : ∀ w, .began who w ∈ c.trace moves → ∀ e time, .stored e time ∈ c.trace moves →
      e ∈ c.matching moves → Time.lt time w.pace.deadline = true) :
    c.taken moves = c.matching moves := by
  obtain ⟨before, move, behind, w, hmoves, hplays, hturn, hbegan, hquery⟩ :=
    h.last_round hwho hexpired
  have hpart : before <+: moves := ⟨move :: behind, hmoves.symm⟩
  obtain ⟨hnothing, hover⟩ := Watch.poll_expired hturn
  obtain ⟨front, hends, hfront⟩ := h.front_consumed hmoves hplays hquery
  rw [hnothing] at hends
  have hall : (c.arena before).store.eventsSince c.query.baseline = front := hends
  apply List.filter_eq_self.mpr
  intro e he
  obtain ⟨hstored, hwants, hbehind⟩ := mem_matching.mp he
  rw [hmoves, arena_append] at hstored
  rcases Arena.stored_of_mem hstored with hold | ⟨between, -, hnote⟩
  · -- the event was there in the last scan
    have hin : e ∈ front := by
      rw [← hall]
      exact mem_eventsSince.mpr ⟨hold, hbehind⟩
    exact h.isConsumed_of_part hpart (hfront e hin hwants)
  · -- the deadline had come when the event was stored
    have htrace : .stored e ((c.arena before).after between).clock ∈ c.trace moves := by
      rw [hmoves, trace_append]
      exact List.mem_append_right _ hnote
    have hlt := htime w hbegan e _ htrace he
    rw [steady.not_before _ _ (Arena.over_after steady hover between)] at hlt
    cases hlt

end Fair

/-! ## Section 6: Fairness without loss -/

/-- **Competing watches share the events fairly and without loss.** In a fair contest the consumed
    events come first among the matching ones at every point, and they are as many as the
    watches that have succeeded. If all matching events come before the deadlines, then as many
    watches as possible have succeeded once all have ended. -/
theorem shared_fairly (c : Contest τ) (moves : List (Move τ)) (h : c.Fair moves) :
    (∀ before, before <+: moves →
      c.taken before <+: c.matching before ∧
        (c.taken before).length = (c.winners before).length) ∧
    (Time.Steady τ →
      (∀ who ∈ c.group, ∀ w, .began who w ∈ c.trace moves →
        ∀ e time, .stored e time ∈ c.trace moves → e ∈ c.matching moves →
          Time.lt time w.pace.deadline = true) →
      (∀ who ∈ c.group, ∃ outcome, .ended who outcome ∈ c.trace moves) →
      (c.winners moves).length = min c.group.length (c.matching moves).length) := by
  constructor
  · intro before hpart
    exact ⟨(h.of_part hpart).taken_first, (h.of_part hpart).taken_length⟩
  · intro steady htime hended
    have hgroup : (c.winners moves).length ≤ c.group.length := List.length_filter_le _ _
    have hevents : (c.winners moves).length ≤ (c.matching moves).length := by
      rw [← h.taken_length]
      exact h.taken_first.length_le
    by_cases hall : ∀ who ∈ c.group, (c.prize? moves who).isSome = true
    · -- all have won
      have hwinners : c.winners moves = c.group := List.filter_eq_self.mpr hall
      rw [hwinners] at hevents ⊢
      exact (Nat.min_eq_left hevents).symm
    · -- somebody has given up, so no event is left
      push Not at hall
      obtain ⟨who, hwho, hlost⟩ := hall
      obtain ⟨outcome, hout⟩ := hended who hwho
      have htaken : c.taken moves = c.matching moves := by
        cases outcome with
        | matched e =>
          rw [prize?_eq_some_iff.mpr hout] at hlost
          exact absurd rfl hlost
        | expired error => exact h.all_taken steady hwho hout (htime who hwho)
        | crashed error => exact absurd hout (h.noCrash who hwho error)
      rw [← h.taken_length, htaken] at hgroup ⊢
      exact (Nat.min_eq_right hgroup).symm

/-- Three watches, one of them in the background, wait for payments of one order. -/
def payments : Contest Rat where
  rivals := .none
  clock := 0
  lead := [.schedule "paid" (some (.obj [("order", .int 7)])) (.whole 5) 1]
  name := "paid"
  pattern := some (.obj [("order", .int 7)])
  baseline := 0
  group := [.background 0, .foreground 0, .foreground 1]

/-- Two payments of the order come, and one of another order. -/
def paymentMoves : List (Move Rat) :=
  [.watch payments.query (.whole 5) 1,
    .append (.plain "paid" (.obj [("order", .int 8)]) none) "noon",
    .append (.plain "paid" (.obj [("order", .int 7)]) none) "noon",
    .round (.background 0), .round (.foreground 0), .pass 1,
    .watch payments.query (.whole 5) 1,
    .append (.plain "paid" (.obj [("order", .int 7)]) none) "noon",
    .round (.foreground 1), .pass 5, .round (.foreground 0)]

def payment (id : Nat) (order : Int) : Event :=
  ⟨id, "paid", .obj [("order", .int order)], "noon", none⟩

theorem trace_payments : payments.trace paymentMoves =
    [.began (.foreground 0) ⟨payments.query, ⟨1, 0, 5⟩, .whole 5⟩,
      .stored (payment 1 8) 0, .stored (payment 2 7) 0,
      .began (.background 0) ⟨payments.query, ⟨1, 0, 5⟩, .whole 5⟩,
      .answered (.watch (.background 0)) 2 true,
      .ended (.background 0) (.matched (payment 2 7)),
      .began (.foreground 1) ⟨payments.query, ⟨1, 1, 6⟩, .whole 5⟩,
      .stored (payment 3 7) 1,
      .answered (.watch (.foreground 1)) 3 true,
      .ended (.foreground 1) (.matched (payment 3 7)),
      .ended (.foreground 0)
        (.expired ⟨"paid", payments.pattern, .whole 5, 5, 1, some (payment 1 8)⟩)] := by
  cbv

theorem matching_payments : payments.matching paymentMoves = [payment 2 7, payment 3 7] := by
  cbv

theorem fair_payments : payments.Fair paymentMoves where
  distinct := by decide
  opened who hwho w := by
    have hlead : (Arena.new payments.rivals payments.clock).trace payments.lead = [] := by cbv
    rw [hlead]
    exact List.not_mem_nil
  same who hwho w hin := by
    rw [trace_payments] at hin
    simp only [List.mem_cons, Note.began.injEq, reduceCtorEq, false_or, or_false,
      List.not_mem_nil] at hin
    rcases hin with h | h | h <;> rw [h.2]
  noReset := by simp [trace_payments]
  free e he := rfl
  alone e he caller hin := by
    rw [trace_payments] at hin
    simp only [List.mem_cons, Note.answered.injEq, reduceCtorEq, false_or, or_false,
      List.not_mem_nil] at hin
    rcases hin with h | h
    · exact ⟨.background 0, by decide, h.1⟩
    · exact ⟨.foreground 1, by decide, h.1⟩
  noCrash who hwho error := by simp [trace_payments]

/-- Both payments are won, and one of the three watches goes without. -/
theorem shared_fairly_payments :
    payments.Fair paymentMoves ∧ (payments.winners paymentMoves).length = min 3 2 := by
  refine ⟨fair_payments, ?_⟩
  have hshared := (shared_fairly payments paymentMoves fair_payments).2 Time.steady_rat
  rw [matching_payments, trace_payments] at hshared
  apply hshared
  · intro who hwho w hbegan e time hstored he
    simp only [List.mem_cons, Note.began.injEq, Note.stored.injEq, reduceCtorEq, false_or, or_false,
      List.not_mem_nil] at hbegan hstored
    rcases hbegan with h | h | h <;> rw [h.2] <;> rcases hstored with h | h | h <;> rw [h.2] <;> cbv
  · intro who hwho
    rcases List.mem_cons.mp hwho with rfl | hwho
    · exact ⟨.matched (payment 2 7), by simp⟩
    rcases List.mem_cons.mp hwho with rfl | hwho
    · exact ⟨.expired ⟨"paid", payments.pattern, .whole 5, 5, 1, some (payment 1 8)⟩, by simp⟩
    rcases List.mem_cons.mp hwho with rfl | hwho
    · exact ⟨.matched (payment 3 7), by simp⟩
    · cases hwho

end Contest

end EventCheck
