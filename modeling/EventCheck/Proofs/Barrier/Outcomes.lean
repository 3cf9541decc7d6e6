import EventCheck.Proofs.Barrier.Accounting

/-! # The outcome of a check

    A check that has ended has one outcome, that of its watch. It shows it in two places: in
    its result and, unless an event was found, in its failure.

    - `Barrier.trace`: the notes that a run at a barrier leaves.
    - `Check.Shows`: result and failure of a check are what an outcome leaves of them.
    - `Barrier.Recorded`: what a join holds for the failure of a check is what that check
      has recorded. So a verdict adds nothing to a failure but the count of others.
    - `Barrier.CheckChange`: what a move makes of a check, with what is noted of it.
    - `Barrier.Told`: checks that run hold nothing, and checks that have ended show the
      outcome that was noted of them. Every move keeps it (`told_step`), so it holds of
      every run (`told_run`).
-/

namespace EventCheck

variable {τ : Type}

/-! ## Section 1: What a check holds of an outcome -/

/-- The failure without the count of others. -/
def CheckFailure.alone (f : CheckFailure τ) : CheckFailure τ := { f with others := 0 }

theorem CheckFailure.fields_of_alone {f : CheckFailure τ} {name : String} {pattern : Option Value}
    {fault : CheckFault τ} {others : Nat} (h : f.alone = ⟨name, pattern, fault, others⟩) :
    f.name = name ∧ f.pattern = pattern ∧ f.fault = fault := by
  obtain ⟨_, _, _, _⟩ := f
  cases h
  exact ⟨rfl, rfl, rfl⟩

namespace Check

/-- **What stays of a check** that is only joined: all it holds, up to the count of others in its
    failure. -/
structure Keeps (c' c : Check τ) : Prop where
  isDone : c'.isDone = c.isDone
  name : c'.name = c.name
  pattern : c'.pattern = c.pattern
  result : c'.result = c.result
  failure : c'.failure.map CheckFailure.alone = c.failure.map CheckFailure.alone

theorem Keeps.refl (c : Check τ) : c.Keeps c := ⟨rfl, rfl, rfl, rfl, rfl⟩

theorem Keeps.symm {c' c : Check τ} (h : c'.Keeps c) : c.Keeps c' :=
  ⟨h.isDone.symm, h.name.symm, h.pattern.symm, h.result.symm, h.failure.symm⟩

theorem Keeps.trans {c₂ c₁ c : Check τ} (h : c₂.Keeps c₁) (h' : c₁.Keeps c) : c₂.Keeps c :=
  ⟨h.isDone.trans h'.isDone, h.name.trans h'.name, h.pattern.trans h'.pattern,
    h.result.trans h'.result, h.failure.trans h'.failure⟩

/-- A check that has recorded a failure keeps it when it counts others. -/
theorem keeps_counting {c : Check τ} {f : CheckFailure τ}
    (h : c.failure.map CheckFailure.alone = some f.alone) (others : Nat) :
    ({ c with failure := some { f with others } } : Check τ).Keeps c :=
  ⟨rfl, rfl, rfl, rfl, h.symm⟩

/-- **The check shows an outcome**: it holds the result of it, and the failure that it means. -/
def Shows (c : Check τ) (outcome : Outcome τ) : Prop :=
  c.result = some outcome.result ∧ c.failure.map CheckFailure.alone = c.failureOf outcome

theorem shows_after (c : Check τ) (w : Watch τ) (outcome : Outcome τ) :
    (c.after w (.ended outcome)).Shows outcome := by
  cases outcome <;> exact ⟨rfl, rfl⟩

theorem Shows.keeps {c c' : Check τ} {outcome : Outcome τ} (h : c.Shows outcome)
    (hkeeps : c'.Keeps c) : c'.Shows outcome := by
  obtain ⟨hresult, hfailure⟩ := h
  have hmeans : c'.failureOf outcome = c.failureOf outcome := by
    cases outcome <;> simp [failureOf, hkeeps.name, hkeeps.pattern]
  constructor
  · rw [hkeeps.result, hresult]
  · rw [hkeeps.failure, hfailure, hmeans]

/-- **The check has this one coherent outcome.** It has a result, and no failure if and only if the
    result is a match. A match carries its event and the id of it; anything else comes with a
    failure that has the name and the pattern of the check, and its cause: the error of the
    result or, if there is none, what the watch crashed with. -/
structure Coherent (c : Check τ) (outcome : Outcome τ) : Prop where
  result : c.result = some outcome.result
  failure_iff : c.failure = none ↔ outcome.result.matched = true
  matched : outcome.result.matched = true →
    ∃ e, outcome = .matched e ∧ outcome.result = ⟨true, some e.id, none, some e⟩
  unmatched : outcome.result.matched = false →
    ∃ f, c.failure = some f ∧ f.name = c.name ∧ f.pattern = c.pattern ∧
      ((∃ error, outcome = .expired error ∧ outcome.result.error = some error ∧
          f.fault = .notFound error) ∨
        ∃ error, outcome = .crashed error ∧ outcome.result.error = none ∧
          f.fault = .crashed error)

/-- What is shown of an outcome is coherent. -/
theorem Shows.coherent {c : Check τ} {outcome : Outcome τ} (h : c.Shows outcome) :
    c.Coherent outcome := by
  obtain ⟨hresult, hfailure⟩ := h
  cases outcome with
  | matched e =>
    have hnone : c.failure = none := Option.map_eq_none_iff.mp hfailure
    exact ⟨hresult, iff_of_true hnone rfl, fun _ => ⟨e, rfl, rfl⟩, nofun⟩
  | expired error =>
    obtain ⟨f, hf, halone⟩ := Option.map_eq_some_iff.mp hfailure
    obtain ⟨hname, hpattern, hfault⟩ := CheckFailure.fields_of_alone halone
    refine ⟨hresult, iff_of_false (by simp [hf]) nofun, nofun, fun _ => ?_⟩
    exact ⟨f, hf, hname, hpattern, .inl ⟨error, rfl, rfl, hfault⟩⟩
  | crashed error =>
    obtain ⟨f, hf, halone⟩ := Option.map_eq_some_iff.mp hfailure
    obtain ⟨hname, hpattern, hfault⟩ := CheckFailure.fields_of_alone halone
    refine ⟨hresult, iff_of_false (by simp [hf]) nofun, nofun, fun _ => ?_⟩
    exact ⟨f, hf, hname, hpattern, .inr ⟨error, rfl, rfl, hfault⟩⟩

end Check

namespace Barrier

variable [Time τ]

/-! ## Section 2: Notes -/

/-- The notes that a move leaves: joins leave none. -/
def notes (b : Barrier τ) : Move τ → List (Note τ)
  | .act move => (b.arena.step move).2
  | _ => []

/-- The notes that a run leaves. -/
def trace (b : Barrier τ) : List (Move τ) → List (Note τ)
  | [] => []
  | move :: rest => b.notes move ++ (b.step move).trace rest

theorem trace_append (b : Barrier τ) (before behind : List (Move τ)) :
    b.trace (before ++ behind) = b.trace before ++ (b.after before).trace behind := by
  induction before generalizing b with
  | nil => rfl
  | cons move rest ih =>
    rw [List.cons_append, trace, trace, after_cons, ih, List.append_assoc]

/-- **A check that ends with an event has consumed it** in the same move. -/
theorem consumed_of_matched {b : Barrier τ} {move : Move τ} {n : Nat} {e : Event}
    (h : .ended (.background n) (.matched e) ∈ b.notes move) :
    .answered (.watch (.background n)) e.id true ∈ b.notes move := by
  cases move with
  | act move =>
    obtain ⟨c, round, hc, hround, hturn, hnotes⟩ := Arena.scanned_of_ended h nofun
    obtain ⟨lost, hlost, hpoll⟩ := Poll.notes_of_matched (.background n) hturn
    have hin : .answered (.watch (.background n)) e.id true ∈
        (round.watch.poll b.arena.rivals b.arena.clock b.arena.store).notes b.arena.rivals
          (.background n) := by
      rw [hpoll]
      exact List.mem_append_right _ List.mem_cons_self
    show _ ∈ (b.arena.step move).2
    rw [hnotes]
    exact List.mem_append_right _ hin
  | join bound => cases h
  | settle k => cases h
  | conclude k => cases h

theorem consumed_in_run {b : Barrier τ} {moves : List (Move τ)} {n : Nat} {e : Event}
    (h : .ended (.background n) (.matched e) ∈ b.trace moves) :
    .answered (.watch (.background n)) e.id true ∈ b.trace moves := by
  induction moves generalizing b with
  | nil => cases h
  | cons move rest ih =>
    rw [trace] at h ⊢
    rcases List.mem_append.mp h with h | h
    · exact List.mem_append_left _ (consumed_of_matched h)
    · exact List.mem_append_right _ (ih h)

/-! ## Section 3: What a move makes of a check -/

/-- **What joins hold is what checks have recorded**: a failure that came with the number of a check
    is the failure of that check, which has ended. -/
def Recorded (b : Barrier τ) : Prop :=
  ∀ j ∈ b.joiners, ∀ f n, (f, some n) ∈ j.join.failures →
    ∃ c, b.checks[n]? = some c ∧ c.isDone = true ∧
      c.failure.map CheckFailure.alone = some f.alone

omit [Time τ] in
/-- A verdict takes nothing from a check. -/
theorem Recorded.verdict {b : Barrier τ} (h : b.Recorded) {j : Joiner τ} (hj : j ∈ b.joiners)
    {n : Nat} {c : Check τ} (hc : b.checks[n]? = some c) :
    ∃ c', (j.join.verdict b.arena.monitor).2.checks[n]? = some c' ∧ c'.Keeps c := by
  rcases j.join.verdict_monitor b.arena.monitor with hsame |
    ⟨f, number, c₁, others, hf, hc₁, hset⟩
  · exact ⟨c, by rw [hsame]; exact hc, .refl c⟩
  rw [hset, Monitor.setCheck]
  dsimp only
  by_cases hn : number = n
  · subst hn
    cases hc.symm.trans hc₁
    have hlt : number < b.arena.monitor.checks.length := (List.getElem?_eq_some_iff.mp hc).1
    -- the failure that was reported is the one that the check had recorded
    obtain ⟨c₂, hc₂, -, hfailure⟩ := h j hj f number hf
    cases hc.symm.trans hc₂
    exact ⟨_, List.getElem?_set_self hlt, Check.keeps_counting hfailure others⟩
  · exact ⟨c, by rw [List.getElem?_set_ne hn]; exact hc, .refl c⟩

/-- **What a move makes of the check** that stands under a number behind it, and what it notes of
    the end of that check. -/
inductive CheckChange (b : Barrier τ) (n : Nat) (notes : List (Note τ)) (c' : Check τ) : Prop where
  /-- It was there, and keeps what it holds. -/
  | keeps {c : Check τ} (hc : b.checks[n]? = some c) (hkeeps : c'.Keeps c)
      (hquiet : ∀ outcome, .ended (.background n) outcome ∉ notes)
  /-- It is just scheduled. -/
  | scheduled {name : String} {pattern : Option Value} {timeout : Seconds τ} {stored : Nat}
      {interval : τ} (hn : b.checks.length ≤ n)
      (heq : c' = .scheduled name pattern timeout stored interval)
      (hquiet : ∀ outcome, .ended (.background n) outcome ∉ notes)
  /-- It has played a round. -/
  | plays {c : Check τ} {round : Check.Round τ} {turn : Turn τ} (hc : b.checks[n]? = some c)
      (hround : c.round? b.arena.clock = some round) (heq : c' = c.after round.watch turn)
      (hnotes : ∀ outcome, .ended (.background n) outcome ∈ notes ↔ turn = .ended outcome)

theorem check_change_act {b : Barrier τ} {move : EventCheck.Move τ} {n : Nat} {c' : Check τ}
    (hc' : (b.arena.step move).1.monitor.checks[n]? = some c') :
    b.CheckChange n (b.arena.step move).2 c' := by
  have hchange := b.arena.step_checks move
  generalize (b.arena.step move).1 = a', (b.arena.step move).2 = notes at hchange hc'
  cases hchange with
  | kept hmove hchecks hr hquiet =>
    rw [hchecks] at hc'
    exact .keeps hc' (.refl c') (hquiet n)
  | scheduled name pattern timeout interval hchecks hr =>
    rw [hchecks, Arena.getElem?_snoc] at hc'
    by_cases hn : n = b.arena.monitor.checks.length
    · rw [if_pos hn] at hc'
      cases hc'
      exact .scheduled (Nat.le_of_eq hn.symm) rfl fun outcome => List.not_mem_nil
    · rw [if_neg hn] at hc'
      exact .keeps hc' (.refl c') fun outcome => List.not_mem_nil
  | @played k c round hc hround hchecks hr =>
    -- a round notes the end of its own watch only
    have hnotes (who : Watcher) (outcome : Outcome τ) :
        .ended who outcome ∈ (if round.isFirst then [.began (.background k) round.watch] else [])
            ++ (round.poll b.arena.rivals b.arena.clock b.arena.store).notes b.arena.rivals
              (.background k) ↔
        who = .background k ∧
          (round.poll b.arena.rivals b.arena.clock b.arena.store).turn = .ended outcome := by
      rw [List.mem_append, Poll.ended_mem_notes]
      refine or_iff_right ?_
      split <;> simp
    rw [hchecks] at hc'
    by_cases hk : k = n
    · subst hk
      rw [List.getElem?_set_self (List.getElem?_eq_some_iff.mp hc).1] at hc'
      cases hc'
      refine .plays hc hround rfl fun outcome => ?_
      rw [hnotes, and_iff_right rfl]
    · rw [List.getElem?_set_ne hk] at hc'
      refine .keeps hc' (.refl c') fun outcome hin => ?_
      cases ((hnotes _ _).mp hin).1
      exact hk rfl

theorem check_change {b : Barrier τ} (h : b.Recorded) {move : Move τ} {n : Nat} {c' : Check τ}
    (hc' : (b.step move).checks[n]? = some c') : b.CheckChange n (b.notes move) c' := by
  have hleads := b.step_leads move
  generalize b.step move = b' at hleads hc'
  cases hleads with
  | acts move => exact check_change_act hc'
  | joins bound hchecks hregistry hjoiners =>
    rw [hchecks] at hc'
    exact .keeps hc' (.refl c') fun outcome => List.not_mem_nil
  | settles hj hwaiting hfault hc hover =>
    exact .keeps hc' (.refl c') fun outcome => List.not_mem_nil
  | @concludes k j _ hj hwaiting hverdict hchecks hregistry hjoiners =>
    rw [hchecks] at hc'
    have hlt : n < b.checks.length := by
      have hlt := (List.getElem?_eq_some_iff.mp hc').1
      rwa [Join.length_verdict] at hlt
    have hc : b.checks[n]? = some b.checks[n] := List.getElem?_eq_getElem hlt
    obtain ⟨c₁, hc₁, hkeeps⟩ := h.verdict (List.mem_of_getElem? hj) hc
    cases hc₁.symm.trans hc'
    exact .keeps hc hkeeps fun outcome => List.not_mem_nil
  | rests k move hmove =>
    refine .keeps hc' (.refl c') fun outcome hin => ?_
    rcases hmove with rfl | rfl <;> cases hin

/-- A check that has ended has no further round. -/
theorem not_done_of_round {c : Check τ} {now : τ} {round : Check.Round τ}
    (h : c.round? now = some round) : c.isDone = false := by
  rcases Arena.round?_cases h with ⟨interval, hphase, -⟩ | ⟨hphase, -⟩
  · rw [Check.isDone, hphase]
  · rw [Check.isDone, hphase]

/-- There are never fewer checks behind a move. -/
theorem length_le_step (b : Barrier τ) (move : Move τ) :
    b.checks.length ≤ (b.step move).checks.length := b.length_le_after [move]

/-- **A check that has ended keeps what it holds.** -/
theorem done_keeps {b : Barrier τ} (h : b.Recorded) {n : Nat} {c : Check τ}
    (hc : b.checks[n]? = some c) (hdone : c.isDone = true) (move : Move τ) :
    ∃ c', (b.step move).checks[n]? = some c' ∧ c'.Keeps c := by
  have hlt : n < b.checks.length := (List.getElem?_eq_some_iff.mp hc).1
  have hlt' : n < (b.step move).checks.length := Nat.lt_of_lt_of_le hlt (b.length_le_step move)
  have hc' : (b.step move).checks[n]? = some (b.step move).checks[n] :=
    List.getElem?_eq_getElem hlt'
  refine ⟨_, hc', ?_⟩
  cases check_change h hc' with
  | keeps hc₁ hkeeps hquiet =>
    cases hc.symm.trans hc₁
    exact hkeeps
  | scheduled hn heq hquiet => exact absurd hlt (Nat.not_lt.mpr hn)
  | plays hc₁ hround heq hnotes =>
    cases hc.symm.trans hc₁
    rw [not_done_of_round hround] at hdone
    cases hdone

theorem recorded_step {b : Barrier τ} (h : b.Recorded) (move : Move τ) :
    (b.step move).Recorded := by
  -- what was recorded before is recorded still
  have hold : ∀ j ∈ b.joiners, ∀ f n, (f, some n) ∈ j.join.failures →
      ∃ c, (b.step move).checks[n]? = some c ∧ c.isDone = true ∧
        c.failure.map CheckFailure.alone = some f.alone := by
    intro j hj f n hin
    obtain ⟨c, hc, hdone, hfailure⟩ := h j hj f n hin
    obtain ⟨c', hc', hkeeps⟩ := done_keeps h hc hdone move
    exact ⟨c', hc', hkeeps.isDone.trans hdone, hkeeps.failure.trans hfailure⟩
  have hleads := b.step_leads move
  generalize b.step move = b' at hleads hold
  intro j' hj' f n hin
  cases hleads with
  | acts move => exact hold j' hj' f n hin
  | joins bound hchecks hregistry hjoiners =>
    rw [hjoiners] at hj'
    rcases List.mem_append.mp hj' with hj' | hj'
    · exact hold j' hj' f n hin
    · rw [List.mem_singleton.mp hj'] at hin
      cases hin
  | @settles k number rest j c hj hwaiting hfault hc hover =>
    rcases List.mem_or_eq_of_mem_set hj' with hj' | rfl
    · exact hold j' hj' f n hin
    · have hfailures : (j.settled c b.arena.monitor b.arena.clock).join.failures =
          j.join.failures ++ (j.join.failure? b.arena.monitor number).toList := by
        simp only [Joiner.settled, Join.turn, hwaiting]
      rw [hfailures] at hin
      rcases List.mem_append.mp hin with hin | hin
      · exact hold j (List.mem_of_getElem? hj) f n hin
      · -- the failure is the one of the check that is settled
        have hgot : j.join.failure? b.arena.monitor number = some (f, some n) :=
          Option.mem_toList.mp hin
        obtain rfl := Join.recorder_of_failure? hgot
        have hc₁ : b.arena.monitor.checks[n]? = some c := hc
        simp only [Join.failure?, hc₁] at hgot
        by_cases hdone : c.isDone = true
        · rw [if_pos hdone] at hgot
          obtain ⟨failure, hfailure, heq⟩ := Option.map_eq_some_iff.mp hgot
          cases heq
          exact ⟨c, hc, hdone, by rw [hfailure]; rfl⟩
        · rw [if_neg hdone] at hgot
          obtain ⟨bound, -, heq⟩ := Option.map_eq_some_iff.mp hgot
          cases heq
  | @concludes k j _ hj hwaiting hverdict hchecks hregistry hjoiners =>
    rw [hjoiners] at hj'
    rcases List.mem_or_eq_of_mem_set hj' with hj' | rfl
    · exact hold j' hj' f n hin
    · exact hold j (List.mem_of_getElem? hj) f n hin
  | rests k move hmove => exact hold j' hj' f n hin

/-! ## Section 4: The invariant -/

/-- **What is told of checks**: those that run hold nothing and nothing is noted of their end; those
    that have ended show the one outcome that is noted of them. -/
structure Told (b : Barrier τ) (trace : List (Note τ)) : Prop where
  known : ∀ n outcome, .ended (.background n) outcome ∈ trace → n < b.checks.length
  running : ∀ n c, b.checks[n]? = some c → c.isDone = false →
    c.result = none ∧ c.failure = none ∧ ∀ outcome, .ended (.background n) outcome ∉ trace
  finished : ∀ n c, b.checks[n]? = some c → c.isDone = true →
    ∃ outcome, c.Shows outcome ∧ ∀ o, .ended (.background n) o ∈ trace ↔ o = outcome

/-- Only a check that is there can end. -/
theorem lt_of_ended {b : Barrier τ} {move : Move τ} {n : Nat} {outcome : Outcome τ}
    (h : .ended (.background n) outcome ∈ b.notes move) : n < b.checks.length := by
  cases move with
  | act move =>
    obtain ⟨c, round, hc, -⟩ := Arena.played_of_ended h
    exact (List.getElem?_eq_some_iff.mp hc).1
  | join bound => cases h
  | settle k => cases h
  | conclude k => cases h

/-- A check that runs behind a move has nothing to show, and did not before. -/
theorem Told.running_step {b : Barrier τ} {trace : List (Note τ)} (h : b.Told trace)
    (hrec : b.Recorded) {move : Move τ} {n : Nat} {c' : Check τ}
    (hc' : (b.step move).checks[n]? = some c') (hrun : c'.isDone = false) :
    c'.result = none ∧ c'.failure = none ∧
      ∀ outcome, .ended (.background n) outcome ∉ trace ++ b.notes move := by
  cases check_change hrec hc' with
  | @keeps c hc hkeeps hquiet =>
    obtain ⟨hresult, hfailure, hsilent⟩ := h.running n c hc (hkeeps.isDone.symm.trans hrun)
    have hnone : c'.failure.map CheckFailure.alone = none := by
      rw [hkeeps.failure, hfailure]
      rfl
    refine ⟨hkeeps.result.trans hresult, Option.map_eq_none_iff.mp hnone, fun outcome hin => ?_⟩
    rcases List.mem_append.mp hin with hin | hin
    · exact hsilent outcome hin
    · exact hquiet outcome hin
  | scheduled hn heq hquiet =>
    subst heq
    refine ⟨rfl, rfl, fun outcome hin => ?_⟩
    rcases List.mem_append.mp hin with hin | hin
    · exact absurd (h.known n outcome hin) (Nat.not_lt.mpr hn)
    · exact hquiet outcome hin
  | @plays c round turn hc hround heq hnotes =>
    subst heq
    obtain ⟨hresult, hfailure, hsilent⟩ := h.running n c hc (not_done_of_round hround)
    cases turn with
    | sleeps d =>
      refine ⟨hresult, hfailure, fun outcome hin => ?_⟩
      rcases List.mem_append.mp hin with hin | hin
      · exact hsilent outcome hin
      · cases (hnotes outcome).mp hin
    | ended outcome => cases hrun

/-- A check that has ended behind a move had ended before, or ends in it. -/
theorem Told.finished_step {b : Barrier τ} {trace : List (Note τ)} (h : b.Told trace)
    (hrec : b.Recorded) {move : Move τ} {n : Nat} {c' : Check τ}
    (hc' : (b.step move).checks[n]? = some c') (hdone : c'.isDone = true) :
    ∃ outcome, c'.Shows outcome ∧
      ∀ o, .ended (.background n) o ∈ trace ++ b.notes move ↔ o = outcome := by
  cases check_change hrec hc' with
  | @keeps c hc hkeeps hquiet =>
    obtain ⟨outcome, hshows, hnoted⟩ := h.finished n c hc (hkeeps.isDone.symm.trans hdone)
    refine ⟨outcome, hshows.keeps hkeeps, fun o => ?_⟩
    rw [List.mem_append, or_iff_left (hquiet o), hnoted]
  | scheduled hn heq hquiet =>
    subst heq
    cases hdone
  | @plays c round turn hc hround heq hnotes =>
    subst heq
    obtain ⟨-, -, hsilent⟩ := h.running n c hc (not_done_of_round hround)
    cases turn with
    | sleeps d =>
      -- a check that sleeps has not ended
      cases hdone
    | ended outcome =>
      refine ⟨outcome, c.shows_after round.watch outcome, fun o => ?_⟩
      rw [List.mem_append, or_iff_right (hsilent o), hnotes, Turn.ended.injEq, eq_comm]

/-- **A move keeps what is told.** -/
theorem told_step {b : Barrier τ} {trace : List (Note τ)} (h : b.Told trace) (hrec : b.Recorded)
    (move : Move τ) : (b.step move).Told (trace ++ b.notes move) where
  known n outcome hin := by
    refine Nat.lt_of_lt_of_le ?_ (b.length_le_step move)
    rcases List.mem_append.mp hin with hin | hin
    · exact h.known n outcome hin
    · exact lt_of_ended hin
  running n c' hc' hrun := h.running_step hrec hc' hrun
  finished n c' hc' hdone := h.finished_step hrec hc' hdone

/-- **Every run keeps what is told.** By induction from its end. -/
theorem told_run (r : Rivals) (clock : τ) (moves : List (Move τ)) :
    ((new r clock).after moves).Recorded ∧
      ((new r clock).after moves).Told ((new r clock).trace moves) := by
  induction moves using List.reverseRecOn with
  | nil =>
    have hempty (n : Nat) (c : Check τ) : (new r clock).checks[n]? ≠ some c := by
      simp [checks, new, Arena.new, Monitor.new]
    constructor
    · exact fun j hj => absurd hj List.not_mem_nil
    · exact ⟨fun n outcome hin => absurd hin List.not_mem_nil,
        fun n c hc => absurd hc (hempty n c), fun n c hc => absurd hc (hempty n c)⟩
  | append_singleton before move ih =>
    obtain ⟨hrec, htold⟩ := ih
    have htrace : (new r clock).trace (before ++ [move]) =
        (new r clock).trace before ++ ((new r clock).after before).notes move := by
      rw [trace_append, trace, trace, List.append_nil]
    rw [after_append, htrace]
    exact ⟨recorded_step hrec move, told_step htold hrec move⟩

/-! ## Section 5: One coherent outcome -/

/-- **Every check that has ended has one coherent outcome**, in every run of checks, joins and all
    else that can happen. It is the one with which its watch ended: result and failure say the
    same of it, also behind a join that reported the failure. If it is an event, the check got
    that event from the ledger. A check that has not ended holds no failure. -/
theorem finished_is_coherent (r : Rivals) (clock : τ) (moves : List (Move τ)) (n : Nat)
    (c : Check τ) (hc : ((new r clock).after moves).checks[n]? = some c) :
    (c.isDone = true → ∃ outcome, c.Coherent outcome ∧
      (∀ o, .ended (.background n) o ∈ (new r clock).trace moves ↔ o = outcome) ∧
      ∀ e, outcome = .matched e →
        .answered (.watch (.background n)) e.id true ∈ (new r clock).trace moves) ∧
    (c.isDone = false → c.failure = none ∧ c.result = none) := by
  obtain ⟨-, htold⟩ := told_run r clock moves
  constructor
  · intro hdone
    obtain ⟨outcome, hshows, hnoted⟩ := htold.finished n c hc hdone
    refine ⟨outcome, hshows.coherent, hnoted, fun e he => ?_⟩
    exact consumed_in_run ((hnoted _).mpr he.symm)
  · intro hrun
    obtain ⟨hresult, hfailure, -⟩ := htold.running n c hc hrun
    exact ⟨hfailure, hresult⟩

/-- Three checks and one event: the first check finds it, the second has no time, and the third
    cannot sleep. A join reports the second and counts the third. -/
def threeChecks : List (Move Rat) :=
  [.act (.schedule "paid" none (.whole 0) 1), .act (.schedule "sent" none (.whole 0) 1),
    .act (.schedule "seen" none (.whole 1) (-1)),
    .act (.append (.plain "paid" .null none) "noon"), .act (.round (.background 0)),
    .act (.round (.background 1)), .act (.round (.background 2)), .join none, .settle 0,
    .settle 0, .settle 0, .conclude 0]

/-- The second of the three behind the join. -/
def sentCheck : Check Rat :=
  let error : NotFound Rat := ⟨"sent", none, .whole 0, 0, 0, none⟩
  ⟨"sent", none, .whole 0, 0, .ended, some ⟨false, none, some error, none⟩,
    some ⟨"sent", none, .notFound error, 1⟩⟩

theorem sentCheck_is_coherent :
    ((new .none 0).after threeChecks).checks[1]? = some sentCheck ∧ sentCheck.isDone = true ∧
      ∃ outcome, sentCheck.Coherent outcome := by
  have hsent : ((new .none 0).after threeChecks).checks[1]? = some sentCheck := by with_unfolding_all rfl
  obtain ⟨outcome, hcoherent, -⟩ :=
    (finished_is_coherent .none 0 threeChecks 1 sentCheck hsent).1 rfl
  exact ⟨hsent, rfl, outcome, hcoherent⟩

end Barrier

end EventCheck
