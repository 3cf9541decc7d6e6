import EventCheck.Proofs.Arena.Round
import EventCheck.Session.Waiting
import Mathlib.Algebra.Order.Floor.Semiring
import Mathlib.Data.Rat.Floor
import Mathlib.Tactic.Linarith

/-! # When a watch ends that finds nothing

    A watch scans, sleeps and scans again. Left alone, and with nothing to be found, it ends
    at its deadline and not before.

    - **Loop**: `Watch.rounds` is the loop of a watch in any `Workplace`, which says how a
      round is made and how to sleep. The rounds in a session are this loop
      (`Act.rounds_eq`).
    - **Alone**: in a `Vigil` time is exact and only the sleeps of the watch move the clock.
      Others may do to the store what they like.
    - `Pace.rest_before` and `Pace.rest_behind`: whether the watch sleeps after a scan, and
      how long. `run_rounds` carries that through the loop, by induction on the rounds that
      are left: the scan with number `j` is made at `Vigil.tick`.
    - `ends_at_deadline` puts it together.
-/

namespace EventCheck

/-! ## Section 1: The loop -/

/-- Where a watch is at work: how it makes a round, and how it sleeps. -/
structure Workplace (m : Type → Type) (τ : Type) where
  poll : Watch τ → m (Poll τ)
  sleep : τ → m Unit

/-- **The rounds of a watch**, at most `count` of them; none are left only if the watch went on. -/
def Watch.rounds {m : Type → Type} [Monad m] {τ : Type} (w : Watch τ) (place : Workplace m τ) :
    Nat → m (Option (Outcome τ))
  | 0 => pure none
  | count + 1 => do
    let poll ← place.poll w
    match poll.turn with
    | .ended outcome => pure (some outcome)
    | .sleeps duration => do
      place.sleep duration
      w.rounds place count

namespace Act

/-- One round of a watch in a session, with its records. -/
def poll (watch : Watch Float) : Act (Poll Float) := do
  let s ← get
  let (poll, monitor) := s.monitor.poll watch s.clock
  set { s with monitor := monitor }
  logAll (Session.pollRecords s.monitor.rivals watch poll s.clock)
  pure poll

/-- A session as the place of a watch. Anything may come up while the watch sleeps. -/
def workplace : Workplace Act Float := ⟨poll, sleep⟩

/-- **The rounds in a session are the loop of a watch.** -/
theorem rounds_eq (watch : Watch Float) (count : Nat) :
    rounds watch count = watch.rounds workplace count := by
  induction count with
  | zero => rfl
  | succ count ih =>
    rw [rounds, Watch.rounds]
    simp only [workplace, poll, bind_assoc, pure_bind]
    refine bind_congr fun s => bind_congr fun _ => bind_congr fun _ => ?_
    cases (s.monitor.poll watch s.clock).1.turn with
    | ended outcome => rfl
    | sleeps duration => exact bind_congr fun _ => ih

end Act

/-! ## Section 2: A watch that is left alone -/

/-- A watch that is left alone: the clock, and the times of its scans and the lengths of its sleeps
    so far. -/
structure Vigil where
  clock : Rat
  scans : List Rat
  sleeps : List Rat

namespace Vigil

/-- The vigil of a watch that has not scanned yet. -/
def starting (clock : Rat) : Vigil := ⟨clock, [], []⟩

/-- A vigil as the place of a watch. Each scan finds the store as others have left it by then; the
    clock is moved by sleeps and nothing else. -/
def workplace (r : Rivals) (stores : Nat → Store) : Workplace (StateM Vigil) Rat where
  poll w := do
    let v ← get
    set { v with scans := v.scans ++ [v.clock] }
    pure (w.poll r v.clock (stores v.scans.length))
  sleep duration :=
    modify fun v => { v with clock := v.clock + duration, sleeps := v.sleeps ++ [duration] }

/-- The vigil behind a scan. -/
def scanned (v : Vigil) : Vigil := { v with scans := v.scans ++ [v.clock] }

/-- The vigil behind a sleep. -/
def slept (v : Vigil) (duration : Rat) : Vigil :=
  { v with clock := v.clock + duration, sleeps := v.sleeps ++ [duration] }

section Loop

variable {w : Watch Rat} {r : Rivals} {stores : Nat → Store} {v : Vigil}

/-- The loop ends with a round that ends. -/
theorem run_rounds_of_ended {outcome : Outcome Rat}
    (h : (w.poll r v.clock (stores v.scans.length)).turn = .ended outcome) (count : Nat) :
    (w.rounds (workplace r stores) (count + 1)).run v = (some outcome, v.scanned) := by
  have hpoll : ((workplace r stores).poll w).run v =
      (w.poll r v.clock (stores v.scans.length), v.scanned) := rfl
  rw [Watch.rounds, StateT.run_bind, hpoll]
  dsimp only [bind]
  rw [h]
  rfl

/-- Behind a sleep it goes on. -/
theorem run_rounds_of_sleeps {duration : Rat}
    (h : (w.poll r v.clock (stores v.scans.length)).turn = .sleeps duration) (count : Nat) :
    (w.rounds (workplace r stores) (count + 1)).run v =
      (w.rounds (workplace r stores) count).run (v.scanned.slept duration) := by
  have hpoll : ((workplace r stores).poll w).run v =
      (w.poll r v.clock (stores v.scans.length), v.scanned) := rfl
  rw [Watch.rounds, StateT.run_bind, hpoll]
  dsimp only [bind]
  rw [h]
  rfl

end Loop

/-- The time of the scan with this number, when the watch lasts so long. -/
def tick (started interval length : Rat) (j : Nat) : Rat := started + min (j * interval) length

/-- How long the watch sleeps behind that scan. -/
def nap (interval length : Rat) (j : Nat) : Rat := min interval (length - j * interval)

/-- A sleep leads from one scan to the next. -/
theorem tick_add_nap (started interval length : Rat) (j : Nat) (h : j * interval ≤ length) :
    tick started interval length j + nap interval length j =
      tick started interval length (j + 1) := by
  rw [tick, min_eq_left h, nap, tick, add_assoc, ← min_add_add_left, add_sub_cancel]
  congr 2
  push_cast
  ring

end Vigil

/-! ## Section 3: Sleeps and the deadline -/

/-- The watch that begins now. -/
def Watch.starting {τ : Type} [Time τ] (query : Query) (timeout : Seconds τ) (interval now : τ) :
    Watch τ := ⟨query, .starting now timeout interval, timeout⟩

/-- How often a watch sleeps before its deadline. -/
def Seconds.naps (timeout : Seconds Rat) (interval : Rat) : Nat := ⌈timeout.length / interval⌉₊

namespace Pace

variable {p : Pace Rat} {now : Rat}

/-- **Before the deadline a watch sleeps**, for its interval or up to the deadline. -/
theorem rest_before (hinterval : 0 < p.interval) (h : now < p.deadline) :
    p.rest now = .sleep (min p.interval (p.deadline - now)) := by
  have hremaining : 0 < p.deadline - now := sub_pos.mpr h
  have hduration : (if p.deadline - now < p.interval then p.deadline - now else p.interval) =
      min p.interval (p.deadline - now) := by
    rw [min_comm, min_def_lt]
  unfold rest
  simp only [Time.le, Time.sub, Time.zero, Time.lt, decide_eq_true_eq, not_le.mpr hremaining,
    if_false, hduration, not_lt.mpr (lt_min hinterval hremaining).le]

/-- **At the deadline and behind it a watch is over.** -/
theorem rest_behind (h : p.deadline ≤ now) : p.rest now = .isOver := by
  rw [rest_isOver_iff]
  exact decide_eq_true (sub_nonpos.mpr h)

end Pace

/-! ## Section 4: The rounds of a watch that is left alone -/

section Alone

variable {query : Query} {timeout : Seconds Rat} {interval started : Rat} {r : Rivals}
  {stores : Nat → Store}

/-- Before its deadline the watch has slept for less than its timeout. -/
theorem Seconds.lt_naps_iff (hinterval : 0 < interval) (timeout : Seconds Rat) (j : Nat) :
    j < timeout.naps interval ↔ j * interval < timeout.length := by
  rw [naps, Nat.lt_ceil, lt_div_iff₀ hinterval]

namespace Vigil

/-- **One round that finds nothing before the deadline** sleeps up to the time of the next scan. -/
theorem turn_before (hinterval : 0 < interval) (s : Store)
    (hnothing : (query.scan r s).found = .nothing) {j : Nat} (hj : j < timeout.naps interval) :
    ((Watch.starting query timeout interval started).poll r
        (tick started interval (max timeout.length 0) j) s).turn =
      .sleeps (nap interval (max timeout.length 0) j) := by
  have hlt := (timeout.lt_naps_iff hinterval j).mp hj
  have hpositive : 0 < timeout.length := (by positivity : (0 : Rat) ≤ j * interval).trans_lt hlt
  have hlength : max timeout.length 0 = timeout.length := max_eq_left hpositive.le
  have hnow : tick started interval timeout.length j = started + j * interval := by
    rw [tick, min_eq_left hlt.le]
  have hrest : (Pace.starting started timeout interval).rest (started + j * interval) =
      .sleep (nap interval timeout.length j) := by
    rw [Pace.rest_before hinterval (add_lt_add_right hlt started)]
    show Rest.sleep (min interval (started + timeout.length - (started + j * interval))) = _
    rw [add_sub_add_left_eq_sub, nap]
  rw [hlength, hnow]
  unfold Watch.poll
  simp only [Watch.starting, hnothing, hrest]

/-- **A round that finds nothing when the watch has slept as often as it does** is the last one. -/
theorem turn_behind (s : Store)
    (hnothing : (query.scan r s).found = .nothing) :
    let w := Watch.starting query timeout interval started
    let now := started + max timeout.length 0
    (w.poll r now s).turn = .ended (w.giveUp (query.scan r s).tally now) := by
  intro w now
  have hover : (Pace.starting started timeout interval).rest now = .isOver := by
    apply Pace.rest_behind
    exact add_le_add_right (le_max_left _ _) started
  unfold Watch.poll
  simp only [w, Watch.starting, hnothing, hover]

/-- The last scan is made at the deadline, or at once if that lies behind. -/
theorem tick_naps (hinterval : 0 < interval) :
    tick started interval (max timeout.length 0) (timeout.naps interval) =
      started + max timeout.length 0 := by
  have hle : timeout.length ≤ timeout.naps interval * interval :=
    not_lt.mp ((timeout.lt_naps_iff hinterval _).not.mp (lt_irrefl _))
  rw [tick, min_eq_right (max_le hle (by positivity))]

/-- **The rounds that are left** when as many scans have been made. By induction on how many may
    still be made. -/
theorem run_rounds (hinterval : 0 < interval)
    (hnothing : ∀ j, (query.scan r (stores j)).found = .nothing) (count : Nat) (v : Vigil)
    (hclock : v.clock = tick started interval (max timeout.length 0) v.scans.length)
    (hscans : v.scans.length ≤ timeout.naps interval)
    (hcount : timeout.naps interval < v.scans.length + count) :
    let w := Watch.starting query timeout interval started
    let n := timeout.naps interval
    let length := max timeout.length 0
    let left := List.range' v.scans.length (n - v.scans.length)
    (w.rounds (workplace r stores) count).run v =
      (some (w.giveUp (query.scan r (stores n)).tally (started + length)),
        ⟨started + length, v.scans ++ (left.map (tick started interval length) ++ [started + length]),
          v.sleeps ++ left.map (nap interval length)⟩) := by
  induction count generalizing v with
  | zero => omega
  | succ count ih =>
    intro w n length left
    rcases Nat.lt_or_eq_of_le hscans with hlt | heq
    · have hturn : (w.poll r (tick started interval length v.scans.length)
          (stores v.scans.length)).turn = .sleeps (nap interval length v.scans.length) :=
        turn_before hinterval _ (hnothing _) hlt
      rw [← hclock] at hturn
      have hbefore : v.scans.length * interval ≤ length :=
        ((timeout.lt_naps_iff hinterval _).mp hlt).le.trans (le_max_left _ _)
      have hscanned : (v.scanned.slept (nap interval length v.scans.length)).scans.length =
          v.scans.length + 1 := List.length_append
      have hleft : left = v.scans.length ::
          List.range' (v.scans.length + 1) (n - (v.scans.length + 1)) := by
        show List.range' _ (n - v.scans.length) = _
        rw [show n - v.scans.length = n - (v.scans.length + 1) + 1 by omega, List.range'_succ]
      rw [run_rounds_of_sleeps hturn, ih _ _ (by rw [hscanned]; omega) (by rw [hscanned]; omega),
        hscanned, hleft]
      · simp [scanned, slept, hclock, length, n, w]
      · rw [hscanned, ← tick_add_nap _ _ _ _ hbefore, ← hclock]
        rfl
    · -- the watch has slept as often as it does
      have hlast : v.clock = started + length := by
        rw [hclock, heq, tick_naps hinterval]
      have hturn : (w.poll r (started + length) (stores v.scans.length)).turn =
          .ended (w.giveUp (query.scan r (stores v.scans.length)).tally (started + length)) :=
        turn_behind _ (hnothing _)
      have hnone : left = [] := by
        show List.range' _ (n - v.scans.length) = []
        rw [heq, Nat.sub_self, List.range'_zero]
      rw [← hlast] at hturn
      rw [run_rounds_of_ended hturn, hnone, ← hlast, heq]
      simp only [scanned, List.map_nil, List.nil_append, List.append_nil]
      rfl

end Vigil

/-! ## Section 5: At the deadline -/

/-- Can the pattern be shown in an error? -/
def Query.Writable (query : Query) : Prop :=
  ∀ pattern, query.pattern = some pattern → ∃ v, pattern.serial = .ok v

/-- A watch whose pattern can be shown gives up with an error. -/
theorem Watch.giveUp_expired {w : Watch Rat} (h : w.query.Writable) (tally : Tally) (now : Rat) :
    ∃ error, w.giveUp tally now = .expired error := by
  unfold giveUp
  cases hpattern : w.query.pattern with
  | none => exact ⟨_, rfl⟩
  | some pattern =>
    obtain ⟨v, hv⟩ := h pattern hpattern
    simp only [hv]
    exact ⟨_, rfl⟩

/-- The error with which a watch gives up shows how long it has lasted. -/
theorem Watch.elapsed_of_giveUp {w : Watch Rat} {tally : Tally} {now : Rat} {error : NotFound Rat}
    (h : w.giveUp tally now = .expired error) : error.elapsed = w.pace.elapsed now := by
  unfold giveUp at h
  cases hpattern : w.query.pattern with
  | none =>
    simp only [hpattern] at h
    cases h
    rfl
  | some pattern =>
    simp only [hpattern] at h
    split at h
    · cases h
      rfl
    · cases h

namespace Vigil

/-- A sleep before the deadline takes time, and no more than the interval. -/
theorem nap_bounds (hinterval : 0 < interval) {j : Nat} (hj : j < timeout.naps interval) :
    0 < nap interval (max timeout.length 0) j ∧
      nap interval (max timeout.length 0) j ≤ interval := by
  have hbefore : j * interval < max timeout.length 0 :=
    ((timeout.lt_naps_iff hinterval j).mp hj).trans_le (le_max_left _ _)
  exact ⟨lt_min hinterval (sub_pos.mpr hbefore), min_le_left _ _⟩

/-- **A watch that finds nothing ends at its deadline.** It scans when it begins and then after
    each interval until its timeout is over, and once more exactly then. A timeout that is not
    positive is over at once. -/
theorem ends_at_deadline (started : Rat) (hinterval : 0 < interval)
    (hnothing : ∀ j, (query.scan r (stores j)).found = .nothing) {count : Nat}
    (hcount : timeout.naps interval < count) :
    let w := Watch.starting query timeout interval started
    ∃ outcome v, (w.rounds (workplace r stores) count).run (.starting started) = (some outcome, v) ∧
      v.scans = (List.range ⌈timeout.length / interval⌉₊).map (fun j : Nat => started + j * interval)
        ++ [started + max timeout.length 0] ∧
      v.sleeps.length = ⌈timeout.length / interval⌉₊ ∧
      (∀ duration ∈ v.sleeps, 0 < duration ∧ duration ≤ interval) ∧
      (timeout.length ≤ 0 → v.scans = [started] ∧ v.sleeps = []) ∧
      v.clock = started + max timeout.length 0 ∧
      w.pace.elapsed v.clock = max timeout.length 0 ∧
      (∀ error, outcome = .expired error → error.elapsed = max timeout.length 0) ∧
      (query.Writable → ∃ error, outcome = .expired error) := by
  intro w
  have hclock : (starting started).clock = tick started interval (max timeout.length 0) 0 := by
    simp [starting, tick]
  have hleft : timeout.naps interval < (starting started).scans.length + count := by
    simpa [starting] using hcount
  have hrun := run_rounds hinterval hnothing count _ hclock (Nat.zero_le _) hleft
  have helapsed : w.pace.elapsed (started + max timeout.length 0) = max timeout.length 0 :=
    add_sub_cancel_left _ _
  refine ⟨_, _, hrun, ?_, ?_, ?_, ?_, rfl, helapsed, ?_,
    fun hwritable => Watch.giveUp_expired hwritable _ _⟩
  · -- the scans before the last one are made before the deadline
    simp only [starting, List.nil_append, List.length_nil, Nat.sub_zero, ← List.range_eq_range']
    refine congrArg (· ++ _) (List.map_congr_left fun j hj => ?_)
    have hbefore := (timeout.lt_naps_iff hinterval j).mp (List.mem_range.mp hj)
    rw [tick, min_eq_left (hbefore.le.trans (le_max_left _ _))]
  · simp [starting, Seconds.naps]
  · intro duration hduration
    simp only [starting, List.nil_append, List.length_nil, Nat.sub_zero, ← List.range_eq_range',
      List.mem_map, List.mem_range] at hduration
    obtain ⟨j, hj, rfl⟩ := hduration
    exact nap_bounds hinterval hj
  · intro hover
    have hnaps : timeout.naps interval = 0 :=
      Nat.ceil_eq_zero.mpr (div_nonpos_of_nonpos_of_nonneg hover hinterval.le)
    simp [starting, hnaps, max_eq_right hover]
  · intro error herror
    rw [Watch.elapsed_of_giveUp herror, helapsed]

/-- A second is two intervals of 0.4 seconds and a rest of 0.2. -/
theorem ends_after_a_second :
    let query : Query := ⟨"paid", none, 0⟩
    let w := Watch.starting query (.whole 1) (2 / 5) 0
    (∀ j : Nat, (query.scan .none ((fun _ => Store.empty) j)).found = .nothing) ∧
      ∃ outcome v, (w.rounds (workplace .none fun _ => .empty) 4).run (.starting 0) =
        (some outcome, v) ∧ v.scans = [0, 2 / 5, 4 / 5, 1] := by
  intro query w
  have hlength : (Seconds.whole 1 : Seconds Rat).length = 1 := rfl
  have hceil : ⌈(Seconds.whole 1 : Seconds Rat).length / (2 / 5)⌉₊ = 3 := by
    rw [hlength]
    norm_num [Nat.ceil_eq_iff]
  have hinterval : (0 : Rat) < 2 / 5 := by norm_num
  have hnothing : ∀ j : Nat, (query.scan .none ((fun _ => Store.empty) j)).found = .nothing :=
    fun _ => rfl
  have hcount : (Seconds.whole 1 : Seconds Rat).naps (2 / 5) < 4 := by
    rw [Seconds.naps, hceil]
    decide
  obtain ⟨outcome, v, hrun, hscans, -⟩ := ends_at_deadline 0 hinterval hnothing hcount
  refine ⟨hnothing, outcome, v, hrun, ?_⟩
  rw [hscans, hceil, hlength]
  norm_num [List.range_succ]

end Vigil

end Alone

end EventCheck
