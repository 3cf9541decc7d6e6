import EventCheck.Proofs.Barrier.Bounded
import EventCheck.Proofs.Log.Values

/-! # What a join tells

    A join takes its checks out of the registry before it waits for them. From then on
    nobody else will tell their outcomes, and two things can keep the join from it: a wait
    is refused, or a failure cannot be written to the log.

    - `after_refused`: a join that is refused a wait stays as it is, whatever follows.
    - `refused_iff`: in exact time, a join is refused a wait if it has taken a check and its
      bound is too long, and then it is refused the first.
    - `tells_iff`: a join that comes to a verdict tells it if all failures can be logged.
    - `outcomes_told_iff` puts this together with the account of the join.
-/

namespace EventCheck.Barrier

variable {τ : Type} [Time τ]

/-- The joiner has told this verdict: it has come to it, and there was no fault. -/
def Tells (b : Barrier τ) (k : Nat) (v : Verdict τ) : Prop :=
  ∃ j, b.joiners[k]? = some j ∧ j.verdict = some v ∧ j.fault = none

/-! ## Section 1: Refused waits -/

omit [Time τ] in
theorem waiting_of_overlong {b : Barrier τ} (h : b.Sound) {k : Nat} {j : Joiner τ}
    (hj : b.joiners[k]? = some j) (hfault : j.fault = some .overlong) : j.join.waiting ≠ [] := by
  rcases (h.kept j (List.mem_of_getElem? hj)).fault _ hfault with ⟨-, hsome⟩ | ⟨heq, -⟩
  · exact hsome
  · cases heq

omit [Time τ] in
theorem taken_of_overlong {b : Barrier τ} (h : b.Sound) {k : Nat} {j : Joiner τ}
    (hj : b.joiners[k]? = some j) (hfault : j.fault = some .overlong) : j.taken ≠ [] := by
  obtain ⟨settled, hsettled, -⟩ := (h.kept j (List.mem_of_getElem? hj)).settled
  intro hnone
  rw [hsettled] at hnone
  exact waiting_of_overlong h hj hfault (List.append_eq_nil_iff.mp hnone).2

/-- No move is left to a joiner that is refused its wait. -/
theorem step_refused {b : Barrier τ} (h : b.Sound) {k : Nat} {j : Joiner τ}
    (hj : b.joiners[k]? = some j) (hfault : j.fault = some .overlong) (move : Move τ) :
    (b.step move).joiners[k]? = some j := by
  obtain ⟨j', hj', hchange⟩ := step_joiner hj move
  cases hchange with
  | stays => exact hj'
  | settles hwaiting hnone hc hover =>
    rw [hnone] at hfault
    cases hfault
  | concludes hwaiting hverdict =>
    -- it still waits for a check, so it does not conclude
    exact absurd hwaiting (waiting_of_overlong h hj hfault)

theorem after_refused {b : Barrier τ} (h : b.Sound) {k : Nat} {j : Joiner τ}
    (hj : b.joiners[k]? = some j) (hfault : j.fault = some .overlong) (moves : List (Move τ)) :
    (b.after moves).joiners[k]? = some j := by
  induction moves generalizing b with
  | nil => exact hj
  | cons move rest ih => exact ih (sound_step h move) (step_refused h hj hfault move)

/-- **Who is refused a wait tells nothing**, and keeps its checks from everybody else. -/
theorem refused_tells_nothing {b : Barrier τ} (h : b.Sound) {k : Nat} {j : Joiner τ}
    (hj : b.joiners[k]? = some j) (hfault : j.fault = some .overlong) (moves : List (Move τ)) :
    (∀ v, ¬ (b.after moves).Tells k v) ∧
      ∀ n ∈ j.taken, n ∉ (b.after moves).registry ∧
        ∀ k', n ∈ (b.after moves).taken k' ↔ k' = k := by
  have hstays := after_refused h hj hfault moves
  constructor
  · rintro v ⟨j', hj', -, hnone⟩
    cases hstays.symm.trans hj'
    rw [hnone] at hfault
    cases hfault
  · intro n hn
    have hin : n ∈ (b.after moves).taken k := mem_taken.mpr ⟨j, hstays, hn⟩
    have haccounted := (h.after moves).accounted
    exact ⟨fun hleft => (haccounted.mem_registry_iff.mp hleft).2 k hin,
      haccounted.mem_taken_iff hin⟩

/-! ## Section 2: Refusal in exact time -/

/-- A joiner whose waits are never too long is granted each of them. -/
theorem granted_after {b : Barrier Rat} {k : Nat} {j : Joiner Rat}
    (hj : b.joiners[k]? = some j) (hgranted : j.fault ≠ some .overlong)
    (hshort : ∀ now, b.arena.clock ≤ now → isOverlong (patience j.join.deadline now) = false)
    (moves : List (Move Rat)) : (b.after moves).Grants k := by
  induction moves generalizing b j with
  | nil =>
    intro j' hj'
    cases hj.symm.trans hj'
    exact hgranted
  | cons move rest ih =>
    obtain ⟨j', hj', hchange⟩ := step_joiner hj move
    have hlater := b.clock_le_step move
    cases hchange with
    | stays => exact ih hj' hgranted fun now hnow => hshort now (hlater.trans hnow)
    | settles hwaiting hnone hc hover =>
      have hdeadline := j.join.turn_deadline b.arena.monitor
      refine ih hj' ?_ fun now hnow => ?_
      · have hnext : isOverlong ((j.join.turn b.arena.monitor).patience b.arena.clock) = false := by
          rw [Join.patience, hdeadline]
          exact hshort _ (le_refl _)
        simp [Joiner.settled, Joiner.refusal_eq_none hnext]
      · show isOverlong (patience (j.join.turn b.arena.monitor).deadline now) = false
        rw [hdeadline]
        exact hshort now (hlater.trans hnow)
    | concludes hwaiting hverdict =>
      refine ih hj' ?_ fun now hnow => hshort now (hlater.trans hnow)
      simp only [Joiner.concluded]
      split <;> simp

/-- A join whose bound is too long is refused its first wait. -/
theorem start_refused {b : Barrier Rat} (hsome : b.registry ≠ []) {s : Seconds Rat}
    (hs : (longestWait : Rat) < s.length) :
    (Joiner.start b.arena.monitor (some s) b.arena.clock).fault = some .overlong := by
  have hpatience : isOverlong (patience (some (b.arena.clock + s.length)) b.arena.clock) = true := by
    rw [← Bool.not_eq_false, isOverlong_eq_false_iff, add_sub_cancel_left, not_le]
    exact hs
  refine if_pos ?_
  rw [Join.isRefused, Bool.and_eq_true]
  exact ⟨by simpa [Join.start, registry] using hsome, hpatience⟩

/-- One whose bound is not too long has no wait that is, now or later. -/
theorem start_short {b : Barrier Rat} {bound : Option (Seconds Rat)}
    (hbound : ∀ s, bound = some s → s.length ≤ longestWait) {now : Rat}
    (hnow : b.arena.clock ≤ now) :
    isOverlong (patience
      (Joiner.start b.arena.monitor bound b.arena.clock).join.deadline now) = false := by
  cases bound with
  | none => rfl
  | some s =>
    have hs : s.length ≤ longestWait := hbound s rfl
    refine isOverlong_eq_false_iff.mpr ?_
    show b.arena.clock + s.length - now ≤ longestWait
    linarith

/-- **A join is refused a wait if and only if it has taken a check and its bound is too long.** -/
theorem refused_iff (r : Rivals) (clock : Rat) (before mid : List (Move Rat))
    (bound : Option (Seconds Rat)) {j : Joiner Rat} :
    let b := (new r clock).after before
    ((b.step (.join bound)).after mid).joiners[b.joiners.length]? = some j →
      (j.fault = some .overlong ↔
        b.registry ≠ [] ∧ ∃ s, bound = some s ∧ (longestWait : Rat) < s.length) := by
  intro b hj
  have hbegun : (b.step (.join bound)).Sound := sound_step (sound_run r clock before) _
  obtain ⟨hstarted, -, -⟩ := step_join b bound
  by_cases hlong : ∃ s, bound = some s ∧ (longestWait : Rat) < s.length
  · rw [and_iff_left hlong]
    obtain ⟨s, rfl, hs⟩ := hlong
    constructor
    · intro hfault
      -- what it has taken is what was registered
      obtain ⟨j', hj', htaken, -⟩ := after_joiner hstarted mid
      cases hj.symm.trans hj'
      have hsome := taken_of_overlong (hbegun.after mid) hj hfault
      rwa [htaken] at hsome
    · intro hsome
      have hrefused := start_refused hsome hs
      cases hj.symm.trans (after_refused hbegun hstarted hrefused mid)
      exact hrefused
  · -- no wait is too long, and so none is refused
    refine iff_of_false ?_ fun h => hlong h.2
    have hbound : ∀ s, bound = some s → s.length ≤ (longestWait : Rat) :=
      fun s hs => not_lt.mp fun hlt => hlong ⟨s, hs, hlt⟩
    have hnone : (Joiner.start b.arena.monitor bound b.arena.clock).fault = none :=
      Joiner.refusal_eq_none (start_short hbound (le_refl _))
    exact granted_after hstarted (by simp [hnone]) (fun _ => start_short hbound) mid j hj

/-! ## Section 3: Verdicts that are told -/

theorem step_conclude {b : Barrier τ} {k : Nat} {j : Joiner τ} (hj : b.joiners[k]? = some j)
    (hready : j.isReady = true) :
    (b.step (.conclude k)).joiners[k]? = some (j.concluded b.arena.monitor) := by
  simp only [step, hj, if_pos hready]
  exact List.getElem?_set_self (List.getElem?_eq_some_iff.mp hj).1

/-- **A join tells the verdict that it comes to if and only if all failures can be logged.** -/
theorem tells_iff {b : Barrier τ} {k : Nat} {j : Joiner τ} {v : Verdict τ}
    (h : b.Speaks k j v) :
    (b.step (.conclude k)).Tells k v ↔ ∀ f ∈ v.failures, f.isLoggable = true := by
  obtain ⟨hj, hready, rfl⟩ := h
  have hends := step_conclude hj hready
  rw [← List.all_eq_true]
  constructor
  · rintro ⟨j', hj', -, hnone⟩
    cases hends.symm.trans hj'
    by_contra hloggable
    simp [Joiner.concluded, Verdict.isTellable, hloggable] at hnone
  · intro hloggable
    exact ⟨_, hends, rfl, if_pos hloggable⟩

/-! ## Section 4: Outcomes -/

/-- **An outcome is told once, unless its join fails first.**
    - A check stays in the registry until a join begins; the first that does takes it, and no
      other ever does.
    - A join that comes to a verdict has its account. It tells the verdict if and only if all
      failures can be logged.
    - A join that is refused a wait tells nothing, and neither does anybody else of its checks.
    - In exact time, that happens if and only if it has taken a check and its bound is too long.
    - Behind the message of the failure stands the number of the others. -/
theorem outcomes_told_iff (r : Rivals) (clock : τ) :
    (∀ (before behind : List (Move τ)) (name : String) (pattern : Option Value)
        (timeout : Seconds τ) (interval : τ),
      let b := (new r clock).after before
      let b' := b.step (.act (.schedule name pattern timeout interval))
      ((∀ bound, .join bound ∉ behind) →
        b.checks.length ∈ (b'.after behind).registry ∧
          ∀ k, b.checks.length ∉ (b'.after behind).taken k) ∧
      ∀ between bound rest, behind = between ++ .join bound :: rest →
        (∀ bound', .join bound' ∉ between) →
        ∀ k, b.checks.length ∈ (b'.after behind).taken k ↔
          k = (b'.after between).joiners.length) ∧
    (∀ (before mid : List (Move τ)) (bound : Option (Seconds τ)) (j : Joiner τ) (v : Verdict τ),
      let b := (new r clock).after before
      let k := b.joiners.length
      let begun := b.step (.join bound)
      let ended := (begun.after mid).step (.conclude k)
      (begun.after mid).Speaks k j v →
        b.Account begun ended mid bound j v ∧
        (ended.Tells k v ↔ ∀ f ∈ v.failures, f.isLoggable = true)) ∧
    (∀ (before mid rest : List (Move τ)) (bound : Option (Seconds τ)) (j : Joiner τ),
      let b := (new r clock).after before
      let k := b.joiners.length
      let wait := (b.step (.join bound)).after mid
      wait.joiners[k]? = some j → j.fault = some .overlong →
        j.taken = b.registry ∧ (∀ v, ¬ (wait.after rest).Tells k v) ∧
        ∀ n ∈ j.taken, n ∉ (wait.after rest).registry ∧
          ∀ k', n ∈ (wait.after rest).taken k' ↔ k' = k) ∧
    (∀ (start : Rat) (before mid : List (Move Rat)) (bound : Option (Seconds Rat))
        (j : Joiner Rat),
      let b := (new r start).after before
      ((b.step (.join bound)).after mid).joiners[b.joiners.length]? = some j →
        (j.fault = some .overlong ↔
          b.registry ≠ [] ∧ ∃ s, bound = some s ∧ (longestWait : Rat) < s.length)) ∧
    ∀ (f : CheckFailure Float) (others : Nat), f.others = 0 → others ≠ 0 →
      ({ f with others } : CheckFailure Float).message =
        f.message ++ ("\n(and " ++ toString others ++ " more failed event checks)") := by
  refine ⟨?taking, ?ending, ?refusing, ?refused, fun f others hf hothers =>
    CheckFailure.message_of_others hf hothers⟩
  case taking =>
    intro before behind name pattern timeout interval b b'
    have hsound : b'.Sound := sound_step (sound_run r clock before) _
    have hn : b.checks.length ∈ b'.registry := List.mem_append_right _ List.mem_cons_self
    constructor
    · intro hbehind
      have hin := registry_after hn hbehind
      exact ⟨hin, ((hsound.after behind).accounted.mem_registry_iff.mp hin).2⟩
    · rintro between bound rest rfl hbetween k
      exact taken_by_first hsound hn hbetween bound rest k
  case ending =>
    intro before mid bound j v b k begun ended hspeaks
    exact ⟨account_run r clock before mid bound hspeaks, tells_iff hspeaks⟩
  case refusing =>
    intro before mid rest bound j b k wait hj hfault
    have hbegun : (b.step (.join bound)).Sound := sound_step (sound_run r clock before) _
    obtain ⟨hstarted, -, -⟩ := step_join b bound
    obtain ⟨j', hj', htaken, -⟩ := after_joiner hstarted mid
    cases hj.symm.trans hj'
    exact ⟨htaken, refused_tells_nothing (hbegun.after mid) hj hfault rest⟩
  case refused =>
    intro start before mid bound j b hj
    exact refused_iff r start before mid bound hj

/-- A check that has found nothing. -/
def failedCheck : List (Move Rat) :=
  [.act (.schedule "paid" none (.whole 0) 1), .act (.round (.background 0))]

/-- A check for a number that is too long for the log. -/
def unloggedCheck : List (Move Rat) :=
  [.act (.schedule "paid" (some (.obj [("order", .int (10 ^ Json.maxDigits))])) (.whole 0) 1),
    .act (.round (.background 0)), .join none, .settle 0]

/-- The first check has failed, and a join with a bound of ten billion seconds takes it; but it tells
    nothing, whatever follows. The second check has failed as well, and a join has come to its
    verdict on it; but it does not tell that. -/
theorem failures_not_told :
    (let b := (new .none 0).after failedCheck
      let begun := b.step (.join (some (.whole 10000000000)))
      b.registry = [0] ∧ (b.checks[0]?.map Check.hasFailed) = some true ∧ begun.registry = [] ∧
        ∀ rest v, ¬ (begun.after rest).Tells 0 v) ∧
    (let wait := (new .none 0).after unloggedCheck
      ∃ j v, wait.Speaks 0 j v ∧ v.reported.isSome ∧ ¬ (wait.step (.conclude 0)).Tells 0 v) := by
  refine ⟨?overlong, ?unlogged⟩
  case overlong =>
    intro b begun
    have hbegun : begun.Sound := sound_step (sound_run .none 0 failedCheck) _
    have hstands : b.registry = [0] ∧ (b.checks[0]?.map Check.hasFailed) = some true ∧
        begun.registry = [] := by
      decide +kernel
    have hrefused : begun.joiners[0]?.map Joiner.fault = some (some .overlong) := by
      decide +kernel
    obtain ⟨j, hj, hfault⟩ := Option.map_eq_some_iff.mp hrefused
    exact ⟨hstands.1, hstands.2.1, hstands.2.2, fun rest =>
      (refused_tells_nothing hbegun hj hfault rest).1⟩
  case unlogged =>
    intro wait
    have hends : wait.joiners[0]?.map (fun j => (j.isReady,
        (j.join.verdict wait.arena.monitor).1.reported.isSome,
        (j.join.verdict wait.arena.monitor).1.isTellable)) = some (true, true, false) := by
      decide +kernel
    obtain ⟨j, hj, heq⟩ := Option.map_eq_some_iff.mp hends
    simp only [Prod.mk.injEq] at heq
    obtain ⟨hready, hreported, htellable⟩ := heq
    have hspeaks : wait.Speaks 0 j (j.join.verdict wait.arena.monitor).1 := ⟨hj, hready, rfl⟩
    refine ⟨j, _, hspeaks, hreported, fun htells => ?_⟩
    have htold := (tells_iff hspeaks).mp htells
    rw [← List.all_eq_true] at htold
    exact Bool.false_ne_true (htellable.symm.trans htold)

end EventCheck.Barrier
