import EventCheck.Proofs.Barrier.Outcomes
import Mathlib.Algebra.Order.Ring.Rat
import Mathlib.Tactic.Linarith

/-! # Joins with a bound

    A join with a bound waits for its checks one after the other. It recomputes for each of
    them how long it still may, and so ends when the bound is over, however many they are.

    - `Barrier.Prompt` is all that is asked of the waits: none of them is refused, and time
      passes only while the joiner waits for a check, and not beyond the limit of that wait.
    - `Joiner.Bounded`: the limit of every wait is the deadline of the join, or the moment
      at which the wait began if that is later. Every move keeps it.
    - `Barrier.Answers` is what the joiner says of a check. A check that has ended before
      the deadline is never given up.
    - `bounded_join` puts it together.
-/

namespace EventCheck

/-! ## Section 1: Limits -/

/-- When a wait ends that begins now: at the deadline, or at once if that lies behind. -/
theorem patience_end (deadline now : Rat) :
    (patience (some deadline) now).map (Time.add now) = some (max deadline now) := by
  simp only [patience, Option.map_some, Time.lt, Time.sub, Time.zero, Time.add, sub_pos,
    decide_eq_true_eq]
  by_cases hlate : now < deadline
  · rw [if_pos hlate, add_sub_cancel, max_eq_left hlate.le]
  · rw [if_neg hlate, add_zero, max_eq_right (not_lt.mp hlate)]

/-- A wait is too long if too much time remains until the deadline. -/
theorem isOverlong_eq_false_iff {deadline now : Rat} :
    isOverlong (patience (some deadline) now) = false ↔ deadline - now ≤ longestWait := by
  have hpositive : (0 : Rat) ≤ longestWait := by norm_num [longestWait]
  simp only [patience, Option.map_some, isOverlong, Option.any_some, Time.lt, Time.ofInt, Time.sub,
    Time.zero, decide_eq_true_eq, decide_eq_false_iff_not, not_lt]
  split
  · exact Iff.rfl
  · next hover =>
    -- no time remains, and no wait is shorter than none
    exact iff_of_true hpositive ((not_lt.mp hover).trans hpositive)

/-- A turn leaves a join its bound and its deadline. -/
@[simp] theorem Join.turn_bound (j : Join Rat) (m : Monitor Rat) :
    (j.turn m).bound = j.bound := by
  unfold turn
  cases j.waiting <;> rfl

@[simp] theorem Join.turn_deadline (j : Join Rat) (m : Monitor Rat) :
    (j.turn m).deadline = j.deadline := by
  unfold turn
  cases j.waiting <;> rfl

namespace Joiner

/-- **A joiner with a bound**, which began then. It waits for its next check up to the deadline, or
    not at all if that was behind when the wait began. -/
structure Bounded (j : Joiner Rat) (bound : Seconds Rat) (started now : Rat) : Prop where
  given : j.join.bound = some bound
  deadline : j.join.deadline = some (started + bound.length)
  limit : ∃ since, started ≤ since ∧ since ≤ now ∧
    j.limit = some (max (started + bound.length) since)

variable {j : Joiner Rat} {bound : Seconds Rat} {started now : Rat}

theorem bounded_start (m : Monitor Rat) (bound : Seconds Rat) (now : Rat) :
    (Joiner.start m (some bound) now).Bounded bound now now :=
  ⟨rfl, rfl, now, le_refl _, le_refl _, patience_end _ _⟩

theorem Bounded.later (h : j.Bounded bound started now) {later : Rat} (hlater : now ≤ later) :
    j.Bounded bound started later := by
  obtain ⟨since, hstarted, hnow, hlimit⟩ := h.limit
  exact { h with limit := ⟨since, hstarted, hnow.trans hlater, hlimit⟩ }

/-- The next wait begins now. -/
theorem Bounded.settled (h : j.Bounded bound started now) (hstarted : started ≤ now)
    (c : Check Rat) (m : Monitor Rat) : (j.settled c m now).Bounded bound started now := by
  have hdeadline : (j.join.turn m).deadline = some (started + bound.length) :=
    (j.join.turn_deadline m).trans h.deadline
  refine ⟨(j.join.turn_bound m).trans h.given, hdeadline, now, hstarted, le_refl _, ?_⟩
  show ((j.join.turn m).patience now).map (Time.add now) = _
  rw [Join.patience, hdeadline, patience_end]

/-- No wait ends before the deadline, unless its check does. -/
theorem Bounded.done_of_isOver (h : j.Bounded bound started now) {c : Check Rat}
    (hover : j.isOver c now = true) (hearly : now < started + bound.length) : c.isDone = true := by
  obtain ⟨since, -, -, hlimit⟩ := h.limit
  have hbefore : ¬ max (started + bound.length) since ≤ now :=
    not_le.mpr (lt_max_of_lt_left hearly)
  simpa [isOver, hlimit, Time.le, hbefore] using hover

/-- Behind the deadline every wait is over. -/
theorem Bounded.isOver_behind (h : j.Bounded bound started now) (c : Check Rat)
    (hlate : started + bound.length ≤ now) : j.isOver c now = true := by
  obtain ⟨since, -, hsince, hlimit⟩ := h.limit
  have hbehind : max (started + bound.length) since ≤ now := max_le hlate hsince
  simp [isOver, hlimit, Time.le, hbehind]

/-- Behind the deadline no wait is refused. -/
theorem Bounded.granted_behind (h : j.Bounded bound started now) (c : Check Rat) (m : Monitor Rat)
    (hlate : started + bound.length ≤ now) : (j.settled c m now).fault = none := by
  have hdeadline : (j.join.turn m).deadline = some (started + bound.length) :=
    (j.join.turn_deadline m).trans h.deadline
  apply refusal_eq_none
  rw [Join.patience, hdeadline, isOverlong_eq_false_iff]
  exact (sub_nonpos.mpr hlate).trans (by norm_num [longestWait])

/-- May the clock be set to this time? The joiner has its verdict, or it waits for a check and the time
    is not beyond the limit of the wait. -/
def Permits (j : Joiner Rat) (time : Rat) : Prop :=
  j.verdict.isSome ∨ (j.join.waiting ≠ [] ∧ ∀ limit, j.limit = some limit → time ≤ limit)

/-- A wait does not last beyond the bound. -/
theorem Bounded.in_time (h : j.Bounded bound started now)
    (hnow : now ≤ started + max bound.length 0) {time : Rat} (hpermits : j.Permits time) :
    j.verdict.isSome ∨ time ≤ started + max bound.length 0 := by
  refine hpermits.imp_right fun ⟨_, hlimit⟩ => ?_
  obtain ⟨since, -, hsince, heq⟩ := h.limit
  have hdeadline : started + bound.length ≤ started + max bound.length 0 :=
    add_le_add_right (le_max_left _ _) started
  exact (hlimit _ heq).trans (max_le hdeadline (hsince.trans hnow))

end Joiner

namespace Barrier

/-! ## Section 2: Moves -/

/-- The joiner is not refused the wait that it is in. -/
def Grants (b : Barrier Rat) (k : Nat) : Prop :=
  ∀ j, b.joiners[k]? = some j → j.fault ≠ some .overlong

instance (b : Barrier Rat) (k : Nat) : Decidable (b.Grants k) :=
  decidable_of_iff ((b.joiners[k]?.all fun j => j.fault != some .overlong) = true) <| by
    unfold Grants
    cases b.joiners[k]? <;> simp

/-- **The waits of a joiner are prompt**: none is refused, and until the joiner has its verdict, time
    passes only while it waits for a check and not beyond the limit of that wait. -/
def Prompt (b : Barrier Rat) (k : Nat) : List (Move Rat) → Prop
  | [] => b.Grants k
  | move :: rest =>
    b.Grants k ∧
      (∀ time j, move = .act (.pass time) → b.joiners[k]? = some j → j.Permits time) ∧
      (b.step move).Prompt k rest

variable {b : Barrier Rat} {k : Nat} {j : Joiner Rat} {bound : Seconds Rat} {started : Rat}

/-- The clock stands, or time passes up to a later time. -/
theorem step_clock (b : Barrier Rat) (move : Move Rat) :
    (b.step move).arena.clock = b.arena.clock ∨
      ∃ time, move = .act (.pass time) ∧ b.arena.clock ≤ time ∧
        (b.step move).arena.clock = time := by
  cases move with
  | act move =>
    cases move with
    | pass time =>
      by_cases hle : b.arena.clock ≤ time
      · exact .inr ⟨time, rfl, hle, by simp [step, Arena.step, Time.le, hle]⟩
      · exact .inl (by simp [step, Arena.step, Time.le, hle])
    | round who =>
      left
      rcases b.arena.step_round who with hstep | ⟨w, p, hplays⟩
      · exact congrArg (·.1.clock) hstep
      · exact hplays.clock
    | append offer time =>
      left
      simp only [step, Arena.step]
      split <;> rfl
    | watch query timeout interval =>
      left
      simp only [step, Arena.step]
      split <;> rfl
    | _ => exact .inl rfl
  | join bound => exact .inl rfl
  | settle k =>
    left
    simp only [step]
    split <;> rfl
  | conclude k =>
    left
    simp only [step]
    split
    · split <;> rfl
    · rfl

theorem clock_le_step (b : Barrier Rat) (move : Move Rat) :
    b.arena.clock ≤ (b.step move).arena.clock := by
  rcases b.step_clock move with hclock | ⟨time, -, hle, hclock⟩
  · exact hclock.ge
  · exact hle.trans hclock.ge

theorem clock_le_after (b : Barrier Rat) (moves : List (Move Rat)) :
    b.arena.clock ≤ (b.after moves).arena.clock := by
  induction moves generalizing b with
  | nil => exact le_refl _
  | cons move rest ih => exact (b.clock_le_step move).trans (ih (b.step move))

/-- **Every move keeps a bounded joiner**, and lets it speak or leaves it time. -/
theorem bounded_step (hj : b.joiners[k]? = some j)
    (h : j.Bounded bound started b.arena.clock) (hstarted : started ≤ b.arena.clock)
    (move : Move Rat) :
    ∃ j', (b.step move).joiners[k]? = some j' ∧
      j'.Bounded bound started (b.step move).arena.clock ∧
      (j.verdict.isSome → j'.verdict.isSome) := by
  obtain ⟨j', hj', hchange⟩ := step_joiner hj move
  refine ⟨j', hj', ?_, hchange.keeps.2.2⟩
  have hlater := b.clock_le_step move
  cases hchange with
  | stays => exact h.later hlater
  | settles hwaiting hfault hc hover => exact (h.settled hstarted _ _).later hlater
  | concludes hwaiting hverdict => exact ⟨h.given, h.deadline, (h.later hlater).limit⟩

/-- Every run keeps it. -/
theorem bounded_after (hj : b.joiners[k]? = some j)
    (h : j.Bounded bound started b.arena.clock) (hstarted : started ≤ b.arena.clock)
    (moves : List (Move Rat)) :
    ∃ j', (b.after moves).joiners[k]? = some j' ∧
      j'.Bounded bound started (b.after moves).arena.clock := by
  induction moves generalizing b j with
  | nil => exact ⟨j, hj, h⟩
  | cons move rest ih =>
    obtain ⟨j', hj', h', -⟩ := bounded_step hj h hstarted move
    exact ih hj' h' (hstarted.trans (b.clock_le_step move))

/-- **Until it has its verdict, a bounded joiner is in time** when its waits are prompt. -/
theorem in_time (hj : b.joiners[k]? = some j)
    (h : j.Bounded bound started b.arena.clock) (hstarted : started ≤ b.arena.clock)
    (htime : j.verdict.isSome ∨ b.arena.clock ≤ started + max bound.length 0)
    {moves : List (Move Rat)} (hprompt : b.Prompt k moves) :
    ∃ j', (b.after moves).joiners[k]? = some j' ∧
      (j'.verdict.isSome ∨ (b.after moves).arena.clock ≤ started + max bound.length 0) := by
  induction moves generalizing b j with
  | nil => exact ⟨j, hj, htime⟩
  | cons move rest ih =>
    obtain ⟨-, hpass, hrest⟩ := hprompt
    obtain ⟨j', hj', h', hspoken⟩ := bounded_step hj h hstarted move
    refine ih hj' h' (hstarted.trans (b.clock_le_step move)) ?_ hrest
    rcases htime with hdone | hnow
    · exact .inl (hspoken hdone)
    · rcases b.step_clock move with hclock | ⟨time, hmove, -, hclock⟩
      · exact .inr (hclock.trans_le hnow)
      · rw [hclock]
        exact (h.in_time hnow (hpass time j hmove hj)).imp_left hspoken

/-! ## Section 3: At the deadline -/

/-- Behind the deadline the turn of the next check is over. -/
theorem settle_behind (hsound : b.Sound) (hj : b.joiners[k]? = some j)
    (h : j.Bounded bound started b.arena.clock) (hlate : started + bound.length ≤ b.arena.clock)
    (hfault : j.fault = none) {number : Nat} {rest : List Nat}
    (hwaiting : j.join.waiting = number :: rest) :
    ∃ j', (b.step (.settle k)).joiners[k]? = some j' ∧ j'.join.waiting = rest ∧
      j'.verdict = j.verdict ∧ j'.fault = none := by
  obtain ⟨settled, htaken, -⟩ := (hsound.kept j (List.mem_of_getElem? hj)).settled
  have hin : number ∈ b.taken k := mem_taken.mpr ⟨j, hj, by rw [htaken, hwaiting]; simp⟩
  -- the check is there, since it was taken
  have hlt : number < b.checks.length := by
    have hall : number ∈ b.joiners.flatMap Joiner.taken ++ b.registry := by
      obtain ⟨j₁, hj₁, hin₁⟩ := mem_taken.mp hin
      exact List.mem_append_left _ (List.mem_flatMap_of_mem (List.mem_of_getElem? hj₁) hin₁)
    rw [hsound.accounted] at hall
    exact List.mem_range.mp hall
  have hc : b.arena.monitor.checks[number]? = some b.checks[number] :=
    List.getElem?_eq_getElem hlt
  have hsettle : j.settle? b.arena.monitor b.arena.clock =
      some (j.settled b.checks[number] b.arena.monitor b.arena.clock) := by
    simp [Joiner.settle?, hwaiting, hc, hfault, h.isOver_behind _ hlate]
  refine ⟨j.settled b.checks[number] b.arena.monitor b.arena.clock, ?_, ?_, rfl,
    h.granted_behind _ _ hlate⟩
  · simp only [step, hj, Option.bind_some, hsettle]
    exact List.getElem?_set_self (List.getElem?_eq_some_iff.mp hj).1
  · simp only [Joiner.settled, Join.turn, hwaiting]

/-- **Behind the deadline a joiner can end at once.** By induction on the checks that it waits for. -/
theorem speaks_behind (hsound : b.Sound) (hj : b.joiners[k]? = some j)
    (h : j.Bounded bound started b.arena.clock) (hstarted : started ≤ b.arena.clock)
    (hlate : started + bound.length ≤ b.arena.clock) (hfault : j.fault = none)
    (hverdict : j.verdict = none) :
    ∃ j' v, (b.after (List.replicate j.join.waiting.length (.settle k))).Speaks k j' v := by
  generalize hwaiting : j.join.waiting = waiting
  induction waiting generalizing b j with
  | nil =>
    have hready : j.isReady = true := by simp [Joiner.isReady, hwaiting, hverdict]
    exact ⟨j, _, hj, hready, rfl⟩
  | cons number rest ih =>
    obtain ⟨j', hj', hrest, hsame, hgranted⟩ := settle_behind hsound hj h hlate hfault hwaiting
    obtain ⟨j₁, hj₁, h', -⟩ := bounded_step hj h hstarted (.settle k)
    cases hj'.symm.trans hj₁
    have hlater := b.clock_le_step (.settle k)
    exact ih (sound_step hsound _) hj' h' (hstarted.trans hlater) (hlate.trans hlater) hgranted
      (hsame.trans hverdict) hrest

/-- Prompt waits leave a joiner that is granted its wait. -/
theorem Prompt.grants {moves : List (Move Rat)} (h : b.Prompt k moves) :
    (b.after moves).Grants k := by
  induction moves generalizing b with
  | nil => exact h
  | cons move rest ih => exact ih h.2.2

/-- A joiner without a verdict that is granted its wait has no fault. -/
theorem Grants.fault_eq_none (hsound : b.Sound) (hj : b.joiners[k]? = some j) (h : b.Grants k)
    (hverdict : j.verdict = none) : j.fault = none := by
  cases hfault : j.fault with
  | none => rfl
  | some f =>
    rcases (hsound.kept j (List.mem_of_getElem? hj)).fault f hfault with ⟨rfl, -⟩ | ⟨-, hspoken⟩
    · exact absurd hfault (h j hj)
    · rw [hverdict] at hspoken
      cases hspoken

/-! ## Section 4: What is said of a check -/

/-- **What a joiner says of a check that it took**, when it has seen it like this. It gives up a
    check only if that has not ended when its turn is over. Of a check that has ended it tells the
    outcome; and a check that is over before the deadline has ended. -/
structure Answers (b : Barrier Rat) (moves : List (Move Rat)) (k : Nat) (bound : Seconds Rat)
    (deadline : Rat) (trace : List (Note Rat)) (place number : Nat) (c : Check Rat) : Prop where
  turn : b.TurnOver moves k place c
  unfinished : c.isDone = false → c.fault? (some bound) = some (c.unfinished bound)
  own : c.isDone = true → ∃ outcome, (∀ o, .ended (.background number) o ∈ trace ↔ o = outcome) ∧
    c.fault? (some bound) = c.failureOf outcome
  early : ∀ early late, moves = early ++ late →
    (b.after early).arena.isOver (.background number) = true →
    (b.after early).arena.clock < deadline → c.isDone = true

theorem isOver_background {a : Arena Rat} {n : Nat} :
    a.isOver (.background n) = true ↔ ∃ c, a.monitor.checks[n]? = some c ∧ c.isDone = true := by
  unfold Arena.isOver
  dsimp only
  cases a.monitor.checks[n]? <;> simp

theorem recorded_after (h : b.Recorded) (moves : List (Move Rat)) : (b.after moves).Recorded := by
  induction moves generalizing b with
  | nil => exact h
  | cons move rest ih => exact ih (recorded_step h move)

/-- A check that has ended keeps in a run what it holds. -/
theorem keeps_after (h : b.Recorded) {n : Nat} {c : Check Rat} (hc : b.checks[n]? = some c)
    (hdone : c.isDone = true) (moves : List (Move Rat)) :
    ∃ c', (b.after moves).checks[n]? = some c' ∧ c'.Keeps c := by
  induction moves generalizing b c with
  | nil => exact ⟨c, hc, .refl c⟩
  | cons move rest ih =>
    obtain ⟨c₁, hc₁, hkeeps₁⟩ := done_keeps h hc hdone move
    obtain ⟨c', hc', hkeeps⟩ := ih (recorded_step h move) hc₁ (hkeeps₁.isDone.trans hdone)
    exact ⟨c', hc', hkeeps.trans hkeeps₁⟩

/-- A failure that counts no others is the one that its outcome means. -/
theorem failure_of_shows {c : Check Rat} {outcome : Outcome Rat} (h : c.Shows outcome)
    (hfresh : c.Fresh) : c.failure = c.failureOf outcome := by
  rw [← h.2]
  cases hfailure : c.failure with
  | none => rfl
  | some f =>
    obtain ⟨name, pattern, fault, others⟩ := f
    cases hfresh _ hfailure
    rfl

/-- **A check that is seen as it has ended is told with its own outcome**, the only one that is ever
    noted of it. -/
theorem own_outcome (r : Rivals) (clock : Rat) (early late : List (Move Rat)) {number : Nat}
    {c : Check Rat} (hc : ((new r clock).after early).checks[number]? = some c)
    (hdone : c.isDone = true) (hfresh : c.Fresh) (bound : Option (Seconds Rat)) :
    ∃ outcome, (∀ o, .ended (.background number) o ∈ (new r clock).trace (early ++ late) ↔
        o = outcome) ∧ c.fault? bound = c.failureOf outcome := by
  obtain ⟨-, htold⟩ := told_run r clock (early ++ late)
  rw [after_append] at htold
  obtain ⟨c', hc', hkeeps⟩ := keeps_after (told_run r clock early).1 hc hdone late
  obtain ⟨outcome, hshows, hnoted⟩ :=
    htold.finished number c' hc' (hkeeps.isDone.trans hdone)
  refine ⟨outcome, hnoted, ?_⟩
  rw [Check.fault?, if_pos hdone, failure_of_shows (hshows.keeps hkeeps.symm) hfresh]

/-- When the turn of a check that a joiner took is over. -/
theorem turn_of_taken (hj : b.joiners[k]? = some j) {moves : List (Move Rat)} {place number : Nat}
    (hnumber : j.taken[place]? = some number) {c : Check Rat} (h : b.TurnOver moves k place c) :
    ∃ front behind j', moves = front ++ .settle k :: behind ∧
      (b.after front).joiners[k]? = some j' ∧ (b.after front).checks[number]? = some c ∧
      j'.isOver c (b.after front).arena.clock = true := by
  obtain ⟨front, behind, j', number', hsplit, hj', hnumber', -, hc, hover⟩ := h
  obtain ⟨j₁, hj₁, htaken, -⟩ := after_joiner hj front
  cases hj'.symm.trans hj₁
  rw [htaken, hnumber] at hnumber'
  cases hnumber'
  exact ⟨front, behind, j', hsplit, hj', hc, hover⟩

/-- **A check that is over before the deadline is seen as it has ended**: it has when its turn comes,
    and its turn is not over before. -/
theorem done_of_early (h : b.Recorded) (hj : b.joiners[k]? = some j)
    (hbounded : j.Bounded bound started b.arena.clock) (hstarted : started ≤ b.arena.clock)
    {moves early late : List (Move Rat)} {place number : Nat} {c : Check Rat}
    (hnumber : j.taken[place]? = some number) (hturn : b.TurnOver moves k place c)
    (hsplit : moves = early ++ late)
    (hover : (b.after early).arena.isOver (.background number) = true)
    (hearly : (b.after early).arena.clock < started + bound.length) : c.isDone = true := by
  obtain ⟨front, behind, j₁, rfl, hj₁, hc, hturn⟩ := turn_of_taken hj hnumber hturn
  obtain ⟨j₂, hj₂, hlimit⟩ := bounded_after hj hbounded hstarted front
  cases hj₁.symm.trans hj₂
  rcases List.append_eq_append_iff.mp hsplit with ⟨between, rfl, -⟩ | ⟨between, rfl, -⟩
  · -- the turn is over first, and so the check has ended
    refine hlimit.done_of_isOver hturn (lt_of_le_of_lt ?_ hearly)
    rw [after_append]
    exact clock_le_after _ between
  · -- the check ends first
    obtain ⟨c₁, hc₁, hdone⟩ := isOver_background.mp hover
    rw [after_append] at hc
    obtain ⟨c', hc', hkeeps⟩ := keeps_after (recorded_after h early) hc₁ hdone between
    cases hc.symm.trans hc'
    exact hkeeps.isDone.trans hdone

/-! ## Section 5: Joins in time -/

/-- **A join is bounded as a whole.** When its waits are prompt, it ends not later than the bound
    after it began, however many checks it took.
    - Until it has spoken its time is not up; and when it is, it needs no more to speak.
    - What it reports are the failures of the checks that it took, each with its answer: it gives up
      no check that has ended, and tells the outcome of every check that ends before its deadline. -/
theorem bounded_join (r : Rivals) (clock : Rat) (before mid : List (Move Rat))
    (bound : Seconds Rat) :
    let b := (new r clock).after before
    let k := b.joiners.length
    let begun := b.step (.join (some bound))
    let wait := begun.after mid
    let started := b.arena.clock
    begun.Prompt k mid →
      ∃ j, wait.joiners[k]? = some j ∧ j.taken = b.registry ∧
        (j.verdict = none → wait.arena.clock ≤ started + max bound.length 0 ∧
          (started + bound.length ≤ wait.arena.clock → ∃ j' v,
            (wait.after (List.replicate j.join.waiting.length (.settle k))).Speaks k j' v)) ∧
        ∀ v, wait.Speaks k j v →
          wait.arena.clock ≤ started + max bound.length 0 ∧
          v = .on j.taken.length (j.seen.filterMap (·.fault? (some bound))) ∧
          j.seen.length = j.taken.length ∧
          ∀ place number c, j.taken[place]? = some number → j.seen[place]? = some c →
            begun.Answers mid k bound (started + bound.length)
              ((new r clock).trace (before ++ .join (some bound) :: mid)) place number c := by
  intro b k begun wait started hprompt
  have hb : b.Sound := sound_run r clock before
  have hbegun : begun.Sound := sound_step hb _
  have hwait : wait.Sound := hbegun.after mid
  obtain ⟨hj₀, -, -⟩ := step_join b (some bound)
  have hbounded₀ := Joiner.bounded_start b.arena.monitor bound b.arena.clock
  have hpositive : started ≤ started + max bound.length 0 :=
    le_add_of_nonneg_right (le_max_right _ _)
  obtain ⟨j, hj, hbounded⟩ := bounded_after (b := begun) hj₀ hbounded₀ (le_refl _) mid
  obtain ⟨j', hj', htaken, -⟩ := after_joiner hj₀ mid
  cases hj.symm.trans hj'
  obtain ⟨j', hj', htime⟩ :=
    in_time (b := begun) hj₀ hbounded₀ (le_refl _) (.inr hpositive) hprompt
  cases hj.symm.trans hj'
  have hclock : j.verdict = none → wait.arena.clock ≤ started + max bound.length 0 :=
    fun hverdict => htime.resolve_left (by simp [hverdict])
  refine ⟨j, hj, htaken, fun hverdict => ⟨hclock hverdict, fun hlate => ?_⟩, ?_⟩
  · have hfault := hprompt.grants.fault_eq_none hwait hj hverdict
    exact speaks_behind hwait hj hbounded (clock_le_after begun mid) hlate hfault hverdict
  rintro v ⟨-, hready, rfl⟩
  have hkept := hwait.kept j (List.mem_of_getElem? hj)
  obtain ⟨hnone, hverdict⟩ : j.join.waiting = [] ∧ j.verdict = none := by
    simpa [Joiner.isReady] using hready
  obtain ⟨settled, hsettled, hlength, -⟩ := hkept.settled
  rw [hnone, List.append_nil] at hsettled
  subst hsettled
  refine ⟨hclock hverdict, ?_, hlength.symm, fun place number c hnumber hc => ?_⟩
  · rw [Join.verdict_eq, hkept.failures, hbounded.given, hkept.total]
  have hturn : begun.TurnOver mid k place c := by
    rcases seen_in_turn hbegun hj₀ hj hc with hearly | hturn
    · exact absurd hearly (by simp [Joiner.start])
    · exact hturn
  have hfresh := hkept.fresh c (List.mem_of_getElem? hc)
  have hnumber₀ : (Joiner.start b.arena.monitor (some bound) started).taken[place]? =
      some number := by
    rw [← htaken, hnumber]
  constructor
  case turn => exact hturn
  case unfinished =>
    intro hrun
    rw [Check.fault?, hrun]
    rfl
  case own =>
    intro hdone
    obtain ⟨front, behind, -, hsplit, -, hthen, -⟩ := turn_of_taken hj₀ hnumber₀ hturn
    have hseen : ((new r clock).after (before ++ .join (some bound) :: front)).checks[number]? =
        some c := by
      rw [after_append]
      exact hthen
    have hown := own_outcome r clock _ (.settle k :: behind) hseen hdone hfresh (some bound)
    rwa [List.append_assoc, List.cons_append, ← hsplit] at hown
  case early =>
    intro early late hsplit hover hearly
    exact done_of_early (recorded_step (told_run r clock before).1 _) hj₀ hbounded₀ (le_refl _)
      hnumber₀ hturn hsplit hover hearly

/-- A check that never ends, and one that has found nothing. A join has no time left for the second
    when it is done with the first, and tells its outcome all the same. -/
def stuckFirst : List (Move Rat) :=
  [.act (.schedule "paid" none (.whole 9) 1), .act (.schedule "sent" none (.whole 0) 1),
    .act (.round (.background 1))]

theorem stuckFirst_is_bounded :
    let begun := ((new .none 0).after stuckFirst).step (.join (some (.whole 1)))
    let mid := [.act (.pass 1), .settle 0, .settle 0]
    begun.Prompt 0 mid ∧ ∃ j v, (begun.after mid).Speaks 0 j v ∧
      v.failures.map CheckFailure.name = ["paid", "sent"] ∧
      (begun.after mid).arena.clock ≤ 0 + max (Seconds.whole (τ := Rat) 1).length 0 := by
  intro begun mid
  have hprompt : begun.Prompt 0 mid := by
    have hstart : begun.joiners[0]? =
        some (.start ((new .none 0).after stuckFirst).arena.monitor (some (.whole 1)) 0) := rfl
    have hgrants : begun.Grants 0 ∧ (begun.step (.act (.pass 1))).Grants 0 ∧
        ((begun.step (.act (.pass 1))).step (.settle 0)).Grants 0 ∧
        (((begun.step (.act (.pass 1))).step (.settle 0)).step (.settle 0)).Grants 0 := by
      decide +kernel
    obtain ⟨hbegun, hpassed, hsettled, hended⟩ := hgrants
    simp only [Prompt, mid, reduceCtorEq, false_implies, implies_true, true_and, Move.act.injEq,
      EventCheck.Move.pass.injEq, hstart]
    refine ⟨hbegun, ?_, hpassed, hsettled, hended⟩
    rintro time j rfl ⟨rfl⟩
    refine .inr ⟨nofun, fun limit hlimit => ?_⟩
    have hend := (patience_end (0 + (Seconds.whole (τ := Rat) 1).length) 0).symm.trans hlimit
    cases hend
    exact le_max_of_le_left (by norm_num [Seconds.length, Time.ofInt])
  have hends : (begun.after mid).joiners[0]?.map (fun j => (j.isReady,
      (j.join.verdict (begun.after mid).arena.monitor).1.failures.map CheckFailure.name)) =
        some (true, ["paid", "sent"]) := by
    decide +kernel
  obtain ⟨j, hj, -, -, hspeaks⟩ := bounded_join .none 0 stuckFirst mid (.whole 1) hprompt
  have hfirst : (begun.after mid).joiners[0]? = some j := hj
  rw [hfirst, Option.map_some, Option.some.injEq, Prod.mk.injEq] at hends
  have hspeak : (begun.after mid).Speaks 0 j
      (j.join.verdict (begun.after mid).arena.monitor).1 := ⟨hfirst, hends.1, rfl⟩
  exact ⟨hprompt, j, _, hspeak, hends.2, (hspeaks _ hspeak).1⟩

end Barrier

end EventCheck
