import EventCheck.Proofs.Arena.Events

/-! # The checks of a run

    - `Arena.ChecksChange` says what a move does to the checks and to the registry:
      it leaves them, schedules one more check, or plays a round of one. Every move
      does one of these things (`step_checks`).
    - `Arena.Holds` ties a check to what it was scheduled for; `holds_run`: that stays
      so in every run.
    - `stays_done`: nothing happens any more to a check that has ended.
-/

namespace EventCheck

variable {τ : Type}

/-! ## Section 1: What a check looks for -/

namespace Check

/-- What the watch of a check looks for. -/
def query (c : Check τ) : Query := ⟨c.name, c.pattern, c.baseline⟩

/-- The watch of the check, if it is under way, looks for what the check does. -/
def Tends (c : Check τ) : Prop := ∀ w, c.phase = .watching w → w.query = c.query

@[simp] theorem after_query (c : Check τ) (w : Watch τ) (turn : Turn τ) :
    (c.after w turn).query = c.query := by
  cases turn <;> rfl

theorem tends_after {c : Check τ} {w : Watch τ} (h : w.query = c.query) (turn : Turn τ) :
    (c.after w turn).Tends := by
  intro w' hphase
  rw [after_query]
  cases turn with
  | sleeps d =>
    cases hphase
    exact h
  | ended outcome => cases hphase

theorem tends_scheduled (name : String) (pattern : Option Value) (timeout : Seconds τ)
    (stored : Nat) (interval : τ) :
    (Check.scheduled name pattern timeout stored interval).Tends := nofun

variable [Time τ]

/-- The watch of every round looks for what the check does. -/
theorem Tends.round {c : Check τ} (h : c.Tends) {now : τ} {round : Round τ}
    (hround : c.round? now = some round) : round.watch.query = c.query := by
  unfold round? at hround
  cases hphase : c.phase with
  | scheduled interval =>
    rw [hphase] at hround
    cases hround
    rfl
  | watching watch =>
    rw [hphase] at hround
    cases hround
    exact h watch hphase
  | idle => simp [hphase] at hround
  | ended => simp [hphase] at hround

end Check

namespace Arena

variable [Time τ]

/-! ## Section 2: What a move does to the checks -/

/-- **What a move does to the checks** and to the registry, with the notes that it leaves. -/
inductive ChecksChange (a a' : Arena τ) : Move τ → List (Note τ) → Prop where
  /-- They stay, and no check ends. -/
  | kept {move : Move τ} {notes : List (Note τ)}
      (hmove : ∀ name pattern timeout interval, move ≠ .schedule name pattern timeout interval)
      (hc : a'.monitor.checks = a.monitor.checks)
      (hr : a'.monitor.registry = a.monitor.registry)
      (hquiet : ∀ n outcome, .ended (.background n) outcome ∉ notes) : ChecksChange a a' move notes
  /-- One more check is scheduled. -/
  | scheduled (name : String) (pattern : Option Value) (timeout : Seconds τ) (interval : τ)
      (hc : a'.monitor.checks =
        a.monitor.checks ++ [.scheduled name pattern timeout a.store.size interval])
      (hr : a'.monitor.registry = a.monitor.registry ++ [a.monitor.checks.length]) :
      ChecksChange a a' (.schedule name pattern timeout interval) []
  /-- A check plays its next round. -/
  | played {n : Nat} {c : Check τ} {round : Check.Round τ}
      (h : a.monitor.checks[n]? = some c) (hround : c.round? a.clock = some round)
      (hc : a'.monitor.checks = a.monitor.checks.set n
        (c.after round.watch (round.poll a.rivals a.clock a.store).turn))
      (hr : a'.monitor.registry = a.monitor.registry) :
      ChecksChange a a' (.round (.background n))
        ((if round.isFirst then [.began (.background n) round.watch] else [])
          ++ (round.poll a.rivals a.clock a.store).notes a.rivals (.background n))

theorem step_checks (a : Arena τ) (move : Move τ) :
    a.ChecksChange (a.step move).1 move (a.step move).2 := by
  cases move with
  | append offer time =>
    simp only [step, Monitor.append]
    cases a.monitor.store.append offer time with
    | error fields => exact .kept (by rintro _ _ _ _ ⟨⟩) rfl rfl fun n outcome => List.not_mem_nil
    | ok result =>
      refine .kept (by rintro _ _ _ _ ⟨⟩) rfl rfl fun n outcome hin => ?_
      cases List.mem_singleton.mp hin
  | watch query timeout interval =>
    simp only [step]
    split
    · refine .kept (by rintro _ _ _ _ ⟨⟩) rfl rfl fun n outcome hin => ?_
      cases List.mem_singleton.mp hin
    · exact .kept (by rintro _ _ _ _ ⟨⟩) rfl rfl fun n outcome => List.not_mem_nil
  | schedule name pattern timeout interval => exact .scheduled name pattern timeout interval rfl rfl
  | round who =>
    cases who with
    | foreground n =>
      rcases a.step_round (.foreground n) with hstep | ⟨w, p, hplays⟩
      · rw [hstep]
        exact .kept (by rintro _ _ _ _ ⟨⟩) rfl rfl (by simp)
      · refine .kept (by rintro _ _ _ _ ⟨⟩) ?_ ?_ ?_
        · simp only [step, roundForeground]
          split <;> rfl
        · simp only [step, roundForeground]
          split <;> rfl
        · intro k outcome hin
          -- only the watch that plays can end
          obtain ⟨opening, hnotes, hopening⟩ := hplays.opened
          rw [hnotes] at hin
          rcases List.mem_append.mp hin with hin | hin
          · rcases hopening with ⟨-, rfl⟩ | ⟨-, rfl⟩ <;> simp at hin
          · cases (Poll.ended_mem_notes.mp hin).1
    | background n =>
      cases h : a.monitor.checks[n]? with
      | none =>
        have hstep : a.step (.round (.background n)) = (a, []) := by
          simp [step, roundBackground, Monitor.pollCheck, h]
        rw [hstep]
        exact .kept (by rintro _ _ _ _ ⟨⟩) rfl rfl (by simp)
      | some c =>
        cases hround : c.round? a.clock with
        | none =>
          have hstep : a.step (.round (.background n)) = (a, []) := by
            simp [step, roundBackground, Monitor.pollCheck, h, hround]
          rw [hstep]
          exact .kept (by rintro _ _ _ _ ⟨⟩) rfl rfl (by simp)
        | some round =>
          rw [step, roundBackground_eq h hround]
          exact .played h hround rfl rfl
  | tryConsume id =>
    refine .kept (by rintro _ _ _ _ ⟨⟩) rfl rfl fun n outcome hin => ?_
    rcases Rivals.mem_attempt hin with ⟨_, _, heq⟩ | heq <;> cases heq
  | reset =>
    refine .kept (by rintro _ _ _ _ ⟨⟩) rfl rfl fun n outcome hin => ?_
    cases List.mem_singleton.mp hin
  | pass time =>
    refine .kept (by rintro _ _ _ _ ⟨⟩) ?_ ?_ fun n outcome => List.not_mem_nil
    · simp only [step]
      split <;> rfl
    · simp only [step]
      split <;> rfl

/-- A check that ends in a move has played its last round in it. -/
theorem played_of_ended {a : Arena τ} {move : Move τ} {n : Nat} {outcome : Outcome τ}
    (h : .ended (.background n) outcome ∈ (a.step move).2) :
    ∃ c round, a.monitor.checks[n]? = some c ∧ c.round? a.clock = some round ∧
      (round.poll a.rivals a.clock a.store).turn = .ended outcome ∧
      (a.step move).2 = (if round.isFirst then [.began (.background n) round.watch] else [])
        ++ (round.poll a.rivals a.clock a.store).notes a.rivals (.background n) := by
  have hchange := a.step_checks move
  generalize (a.step move).1 = a', (a.step move).2 = notes at hchange h
  cases hchange with
  | kept hmove hc hr hquiet => exact absurd h (hquiet n outcome)
  | scheduled name pattern timeout interval hc hr => cases h
  | @played k c round hcheck hround hc hr =>
    rcases List.mem_append.mp h with hin | hin
    · split at hin <;> simp at hin
    · obtain ⟨heq, hturn⟩ := Poll.ended_mem_notes.mp hin
      cases heq
      exact ⟨c, round, hcheck, hround, hturn, rfl⟩

/-- If it has not crashed, it has scanned in that round. -/
theorem scanned_of_ended {a : Arena τ} {move : Move τ} {n : Nat} {outcome : Outcome τ}
    (h : .ended (.background n) outcome ∈ (a.step move).2)
    (hcrash : ∀ error, outcome ≠ .crashed error) :
    ∃ c round, a.monitor.checks[n]? = some c ∧ c.round? a.clock = some round ∧
      (round.watch.poll a.rivals a.clock a.store).turn = .ended outcome ∧
      (a.step move).2 = (if round.isFirst then [.began (.background n) round.watch] else [])
        ++ (round.watch.poll a.rivals a.clock a.store).notes a.rivals (.background n) := by
  obtain ⟨c, round, hc, hround, hturn, hnotes⟩ := played_of_ended h
  have hpoll : round.poll a.rivals a.clock a.store =
      round.watch.poll a.rivals a.clock a.store := by
    apply (round.polls a.rivals a.clock a.store).eq_poll
    intro error hcrashed
    exact hcrash error (Turn.ended.inj (hturn.symm.trans hcrashed))
  rw [hpoll] at hturn hnotes
  exact ⟨c, round, hc, hround, hturn, hnotes⟩

/-! ## Section 3: What stays of a check -/

/-- **What a move leaves of a check**: it stays, or it plays a round and is behind it. -/
theorem step_check {a : Arena τ} {n : Nat} {c : Check τ} (hc : a.monitor.checks[n]? = some c)
    (move : Move τ) :
    ∃ c', (a.step move).1.monitor.checks[n]? = some c' ∧
      (c' = c ∨ ∃ round turn, c.round? a.clock = some round ∧ c' = c.after round.watch turn) := by
  have hlt : n < a.monitor.checks.length := (List.getElem?_eq_some_iff.mp hc).1
  have hchange := a.step_checks move
  generalize (a.step move).1 = a', (a.step move).2 = notes at hchange
  cases hchange with
  | kept hmove hchecks hr hquiet => exact ⟨c, by rw [hchecks, hc], .inl rfl⟩
  | scheduled name pattern timeout interval hchecks hr =>
    exact ⟨c, by rw [hchecks, List.getElem?_append_left hlt, hc], .inl rfl⟩
  | @played k c' round hcheck hround hchecks hr =>
    by_cases hk : k = n
    · subst hk
      rw [hc] at hcheck
      cases hcheck
      exact ⟨_, by rw [hchecks, List.getElem?_set_self hlt], .inr ⟨round, _, hround, rfl⟩⟩
    · exact ⟨c, by rw [hchecks, List.getElem?_set_ne hk, hc], .inl rfl⟩

/-- A check of the arena behind a move was there before, or is just scheduled. -/
theorem check_of_step {a : Arena τ} {move : Move τ} {n : Nat} {c' : Check τ}
    (hc' : (a.step move).1.monitor.checks[n]? = some c') :
    (∃ c, a.monitor.checks[n]? = some c) ∨
      ∃ name pattern timeout interval,
        c' = .scheduled name pattern timeout a.store.size interval := by
  cases hc : a.monitor.checks[n]? with
  | some c => exact .inl ⟨c, rfl⟩
  | none =>
    right
    have hle := List.getElem?_eq_none_iff.mp hc
    have hchange := a.step_checks move
    generalize (a.step move).1 = a', (a.step move).2 = notes at hchange hc'
    cases hchange with
    | kept hmove hchecks hr hquiet => simp [hchecks, hc] at hc'
    | scheduled name pattern timeout interval hchecks hr =>
      rw [hchecks, List.getElem?_append_right hle] at hc'
      exact ⟨name, pattern, timeout, interval, List.mem_singleton.mp (List.mem_of_getElem? hc')⟩
    | played hcheck hround hchecks hr =>
      rw [hchecks, List.getElem?_eq_none (by rwa [List.length_set])] at hc'
      cases hc'

/-- **Nothing happens any more to a check that has ended.** -/
theorem stays_done {a : Arena τ} {n : Nat} {c : Check τ} (hc : a.monitor.checks[n]? = some c)
    (hdone : c.isDone = true) (move : Move τ) :
    (a.step move).1.monitor.checks[n]? = some c := by
  obtain ⟨c', hc', rfl | ⟨round, turn, hround, -⟩⟩ := step_check hc move
  · exact hc'
  · -- a check that has ended has no further round
    rcases round?_cases hround with ⟨interval, hphase, -⟩ | ⟨hphase, -⟩ <;>
      simp [Check.isDone, hphase] at hdone

/-- **The arena holds a check** under this number that looks for what the query says. -/
def Holds (a : Arena τ) (n : Nat) (q : Query) : Prop :=
  ∃ c, a.monitor.checks[n]? = some c ∧ c.query = q ∧ c.Tends

theorem holds_scheduled (a : Arena τ) (name : String) (pattern : Option Value)
    (timeout : Seconds τ) (interval : τ) :
    (a.step (.schedule name pattern timeout interval)).1.Holds a.monitor.checks.length
      ⟨name, pattern, a.store.size⟩ := by
  refine ⟨.scheduled name pattern timeout a.store.size interval, ?_, rfl,
    Check.tends_scheduled name pattern timeout a.store.size interval⟩
  have hchecks : (a.step (.schedule name pattern timeout interval)).1.monitor.checks =
      a.monitor.checks ++ [.scheduled name pattern timeout a.store.size interval] := rfl
  rw [hchecks, getElem?_snoc, if_pos rfl]

theorem holds_step {a : Arena τ} {n : Nat} {q : Query} (h : a.Holds n q) (move : Move τ) :
    (a.step move).1.Holds n q := by
  obtain ⟨c, hc, hq, ht⟩ := h
  obtain ⟨c', hc', rfl | ⟨round, turn, hround, rfl⟩⟩ := step_check hc move
  · exact ⟨c', hc', hq, ht⟩
  · exact ⟨_, hc', by rw [Check.after_query, hq], Check.tends_after (ht.round hround) turn⟩

theorem holds_run {a : Arena τ} {n : Nat} {q : Query} (h : a.Holds n q) (moves : List (Move τ)) :
    (a.after moves).Holds n q := by
  induction moves generalizing a with
  | nil => exact h
  | cons move rest ih => exact ih (holds_step h move)

/-- The watch in whose round a held check ends looks for what the check does. -/
theorem Holds.played {a : Arena τ} {n : Nat} {q : Query} (h : a.Holds n q) {c : Check τ}
    {round : Check.Round τ} (hc : a.monitor.checks[n]? = some c)
    (hround : c.round? a.clock = some round) : round.watch.query = q := by
  obtain ⟨c', hc', hq, ht⟩ := h
  rw [hc] at hc'
  cases hc'
  rw [ht.round hround, hq]

end Arena

end EventCheck
