import EventCheck.Proofs.Barrier.Invariant

/-! # The account of a join

    - `step_growth`, `scheduledIn_iff`: the checks that are scheduled in a run are those
      whose numbers were not given before it.
    - `taken_by_first`: a check is taken by the first join that begins behind its
      scheduling; without one it stays in the registry.
    - `seen_in_turn`: what a joiner has seen of a check is how the check stood when its
      turn was over.
    - `Account` is what is true of a join that comes to its verdict, and `account_run`
      says that it is.
-/

namespace EventCheck.Barrier

variable {τ : Type}

/-! ## Section 1: Who took a check -/

theorem mem_taken {b : Barrier τ} {n k : Nat} :
    n ∈ b.taken k ↔ ∃ j, b.joiners[k]? = some j ∧ n ∈ j.taken := by
  unfold taken
  cases b.joiners[k]? <;> simp

/-- A check that is in nobody's hands is in the registry. -/
theorem Accounted.mem_registry_iff {b : Barrier τ} (h : b.Accounted) {n : Nat} :
    n ∈ b.registry ↔ n < b.checks.length ∧ ∀ k, n ∉ b.taken k := by
  have hnobody : (∀ k, n ∉ b.taken k) ↔ ∀ j ∈ b.joiners, n ∉ j.taken := by
    constructor
    · intro h j hj hin
      obtain ⟨k, hk⟩ := List.mem_iff_getElem?.mp hj
      exact h k (mem_taken.mpr ⟨j, hk, hin⟩)
    · intro h k hin
      obtain ⟨j, hj, hin⟩ := mem_taken.mp hin
      exact h j (List.mem_of_getElem? hj) hin
  rw [h.mem_registry, hnobody]

/-- Who took a check is the only one who did. -/
theorem Accounted.mem_taken_iff {b : Barrier τ} (h : b.Accounted) {n k : Nat}
    (hn : n ∈ b.taken k) (k' : Nat) : n ∈ b.taken k' ↔ k' = k := by
  constructor
  · intro hn'
    obtain ⟨j, hj, hin⟩ := mem_taken.mp hn
    obtain ⟨j', hj', hin'⟩ := mem_taken.mp hn'
    exact h.unique hj' hin' hj hin
  · rintro rfl
    exact hn

variable [Time τ]

/-- A run leaves to a joiner what it took, and its bound. -/
theorem after_joiner {b : Barrier τ} {k : Nat} {j : Joiner τ} (hj : b.joiners[k]? = some j)
    (moves : List (Move τ)) :
    ∃ j', (b.after moves).joiners[k]? = some j' ∧ j'.taken = j.taken ∧
      j'.join.bound = j.join.bound := by
  induction moves generalizing b j with
  | nil => exact ⟨j, hj, rfl, rfl⟩
  | cons move rest ih =>
    obtain ⟨j₁, hj₁, hchange⟩ := step_joiner hj move
    obtain ⟨htaken₁, hbound₁, -⟩ := hchange.keeps
    obtain ⟨j', hj', htaken, hbound⟩ := ih hj₁
    exact ⟨j', hj', htaken.trans htaken₁, hbound.trans hbound₁⟩

theorem taken_after {b : Barrier τ} {n k : Nat} (h : n ∈ b.taken k) (moves : List (Move τ)) :
    n ∈ (b.after moves).taken k := by
  obtain ⟨j, hj, hin⟩ := mem_taken.mp h
  obtain ⟨j', hj', htaken, -⟩ := after_joiner hj moves
  exact mem_taken.mpr ⟨j', hj', htaken ▸ hin⟩

theorem step_join (b : Barrier τ) (bound : Option (Seconds τ)) :
    (b.step (.join bound)).joiners[b.joiners.length]? =
        some (.start b.arena.monitor bound b.arena.clock) ∧
      (b.step (.join bound)).registry = [] ∧ (b.step (.join bound)).checks = b.checks := by
  refine ⟨?_, rfl, rfl⟩
  have hjoiners : (b.step (.join bound)).joiners =
      b.joiners ++ [.start b.arena.monitor bound b.arena.clock] := rfl
  rw [hjoiners, Arena.getElem?_snoc, if_pos rfl]

/-- Only a join takes checks out of the registry. -/
theorem registry_step {b : Barrier τ} {n : Nat} (hn : n ∈ b.registry) {move : Move τ}
    (hmove : ∀ bound, move ≠ .join bound) : n ∈ (b.step move).registry := by
  have hleads := b.step_leads move
  generalize b.step move = b' at hleads
  cases hleads with
  | acts move =>
    have hchange := b.arena.step_checks move
    dsimp only [registry] at hn ⊢
    generalize (b.arena.step move).1 = a', (b.arena.step move).2 = notes at hchange
    cases hchange with
    | kept hmove hc hr hquiet => rwa [hr]
    | scheduled name pattern timeout interval hc hr =>
      rw [hr]
      exact List.mem_append_left _ hn
    | played hcheck hround hc hr => rwa [hr]
  | joins bound hchecks hregistry hjoiners => exact absurd rfl (hmove bound)
  | settles hj hwaiting hfault hc hover => exact hn
  | concludes hj hwaiting hverdict hchecks hregistry hjoiners => rwa [hregistry]
  | rests k move _ => exact hn

theorem registry_after {b : Barrier τ} {n : Nat} (hn : n ∈ b.registry) {moves : List (Move τ)}
    (hmoves : ∀ bound, .join bound ∉ moves) : n ∈ (b.after moves).registry := by
  induction moves generalizing b with
  | nil => exact hn
  | cons move rest ih =>
    refine ih (registry_step hn ?_) fun bound hin => hmoves bound (List.mem_cons_of_mem _ hin)
    rintro bound rfl
    exact hmoves bound List.mem_cons_self

/-- **A registered check is taken by the first join that begins.** -/
theorem taken_by_first {b : Barrier τ} (h : b.Sound) {n : Nat} (hn : n ∈ b.registry)
    {between : List (Move τ)} (hbetween : ∀ bound, .join bound ∉ between)
    (bound : Option (Seconds τ)) (rest : List (Move τ)) (k : Nat) :
    n ∈ (b.after (between ++ .join bound :: rest)).taken k ↔
      k = (b.after between).joiners.length := by
  refine ((h.after _).accounted.mem_taken_iff ?_ k)
  rw [after_append, after_cons]
  refine taken_after (mem_taken.mpr ⟨_, (step_join (b.after between) bound).1, ?_⟩) rest
  exact registry_after hn hbetween

/-! ## Section 2: When a check was scheduled -/

/-- The check with this number is scheduled in a run. -/
def ScheduledIn (b : Barrier τ) (moves : List (Move τ)) (n : Nat) : Prop :=
  ∃ early name pattern timeout interval late,
    moves = early ++ .act (.schedule name pattern timeout interval) :: late ∧
      (b.after early).checks.length = n

/-- **There is one check more behind a move that schedules one, and as many behind any other.** -/
theorem step_growth (b : Barrier τ) (move : Move τ) :
    (∃ name pattern timeout interval, move = .act (.schedule name pattern timeout interval) ∧
        (b.step move).checks.length = b.checks.length + 1) ∨
      (∀ name pattern timeout interval, move ≠ .act (.schedule name pattern timeout interval)) ∧
        (b.step move).checks.length = b.checks.length := by
  have hleads := b.step_leads move
  generalize b.step move = b' at hleads
  cases hleads with
  | acts move =>
    have hchange := b.arena.step_checks move
    dsimp only [checks]
    generalize (b.arena.step move).1 = a', (b.arena.step move).2 = notes at hchange
    cases hchange with
    | kept hmove hc hr hquiet =>
      refine .inr ⟨?_, by rw [hc]⟩
      rintro name pattern timeout interval ⟨⟩
      exact hmove name pattern timeout interval rfl
    | scheduled name pattern timeout interval hc hr =>
      exact .inl ⟨name, pattern, timeout, interval, rfl, by rw [hc, List.length_append]; rfl⟩
    | played hcheck hround hc hr => exact .inr ⟨nofun, by rw [hc, List.length_set]⟩
  | joins bound hchecks hregistry hjoiners => exact .inr ⟨nofun, by rw [hchecks]⟩
  | settles hj hwaiting hfault hc hover => exact .inr ⟨nofun, rfl⟩
  | concludes hj hwaiting hverdict hchecks hregistry hjoiners =>
    exact .inr ⟨nofun, by rw [hchecks, Join.length_verdict]; rfl⟩
  | rests k move hmove =>
    refine .inr ⟨?_, rfl⟩
    rintro name pattern timeout interval rfl
    rcases hmove with hmove | hmove <;> cases hmove

theorem length_le_after (b : Barrier τ) (moves : List (Move τ)) :
    b.checks.length ≤ (b.after moves).checks.length := by
  induction moves generalizing b with
  | nil => exact Nat.le_refl _
  | cons move rest ih =>
    refine Nat.le_trans ?_ (ih (b.step move))
    rcases b.step_growth move with ⟨name, pattern, timeout, interval, -, hlength⟩ | ⟨-, hlength⟩
    · rw [hlength]
      exact Nat.le_succ _
    · exact Nat.le_of_eq hlength.symm

theorem scheduledIn_cons {b : Barrier τ} {move : Move τ} {rest : List (Move τ)} {n : Nat} :
    b.ScheduledIn (move :: rest) n ↔
      ((∃ name pattern timeout interval, move = .act (.schedule name pattern timeout interval)) ∧
        b.checks.length = n) ∨ (b.step move).ScheduledIn rest n := by
  constructor
  · rintro ⟨early, name, pattern, timeout, interval, late, hsplit, hn⟩
    cases early with
    | nil =>
      cases hsplit
      exact .inl ⟨⟨name, pattern, timeout, interval, rfl⟩, hn⟩
    | cons first early =>
      cases hsplit
      exact .inr ⟨early, name, pattern, timeout, interval, late, rfl, hn⟩
  · rintro (⟨⟨name, pattern, timeout, interval, rfl⟩, hn⟩ |
      ⟨early, name, pattern, timeout, interval, late, rfl, hn⟩)
    · exact ⟨[], name, pattern, timeout, interval, rest, rfl, hn⟩
    · exact ⟨move :: early, name, pattern, timeout, interval, late, rfl, hn⟩

/-- **The numbers given in a run** are those from the checks before it on. -/
theorem scheduledIn_iff (b : Barrier τ) (moves : List (Move τ)) (n : Nat) :
    b.ScheduledIn moves n ↔ b.checks.length ≤ n ∧ n < (b.after moves).checks.length := by
  induction moves generalizing b with
  | nil =>
    constructor
    · rintro ⟨early, name, pattern, timeout, interval, late, hsplit, -⟩
      simp at hsplit
    · intro h
      exact absurd (Nat.lt_of_le_of_lt h.1 h.2) (Nat.lt_irrefl _)
  | cons move rest ih =>
    have hgrows := (b.step move).length_le_after rest
    rw [scheduledIn_cons, ih, after_cons]
    rcases b.step_growth move with ⟨name, pattern, timeout, interval, hmove, hlength⟩ |
      ⟨hmove, hlength⟩
    · have hschedules : ∃ name pattern timeout interval,
          move = .act (.schedule name pattern timeout interval) :=
        ⟨name, pattern, timeout, interval, hmove⟩
      simp only [hschedules, true_and]
      omega
    · have hschedules : ¬ ∃ name pattern timeout interval,
          move = .act (.schedule name pattern timeout interval) := by
        rintro ⟨name, pattern, timeout, interval, heq⟩
        exact hmove name pattern timeout interval heq
      simp only [hschedules, false_and, false_or]
      omega

/-! ## Section 3: What a joiner has seen -/

/-- In a run the turn of the check in this place is over for a joiner, and the check stands like
    this when it is. -/
def TurnOver (b : Barrier τ) (moves : List (Move τ)) (k place : Nat) (c : Check τ) : Prop :=
  ∃ early late j number, moves = early ++ .settle k :: late ∧
    (b.after early).joiners[k]? = some j ∧ j.taken[place]? = some number ∧
    j.join.waiting.head? = some number ∧ (b.after early).checks[number]? = some c ∧
    j.isOver c (b.after early).arena.clock = true

/-- A joiner sees nothing more in a move, or the check in the next place when its turn is over. -/
theorem seen_step {b : Barrier τ} (h : b.Sound) {k : Nat} {j : Joiner τ}
    (hj : b.joiners[k]? = some j) (move : Move τ) :
    ∃ j', (b.step move).joiners[k]? = some j' ∧
      (j'.seen = j.seen ∨ ∃ c, j'.seen = j.seen ++ [c] ∧ b.TurnOver [move] k j.seen.length c) := by
  obtain ⟨j', hj', hchange⟩ := step_joiner hj move
  refine ⟨j', hj', ?_⟩
  cases hchange with
  | stays => exact .inl rfl
  | @settles number rest c hwaiting hfault hc hover =>
    obtain ⟨settled, htaken, hlength, -⟩ := (h.kept j (List.mem_of_getElem? hj)).settled
    -- the next check stands behind those that were seen
    have hplace : j.taken[j.seen.length]? = some number := by
      rw [htaken, hwaiting, ← hlength, List.getElem?_append_right (Nat.le_refl _), Nat.sub_self]
      rfl
    have hnext : j.join.waiting.head? = some number := by
      rw [hwaiting]
      rfl
    exact .inr ⟨c, rfl, [], [], j, number, rfl, hj, hplace, hnext, hc, hover⟩
  | concludes hwaiting hverdict => exact .inl rfl

theorem TurnOver.of_step {b : Barrier τ} {move : Move τ} {rest : List (Move τ)} {k place : Nat}
    {c : Check τ} (h : (b.step move).TurnOver rest k place c) :
    b.TurnOver (move :: rest) k place c := by
  obtain ⟨early, late, j, number, rfl, hj⟩ := h
  exact ⟨move :: early, late, j, number, rfl, hj⟩

theorem TurnOver.first {b : Barrier τ} {move : Move τ} {k place : Nat} {c : Check τ}
    (h : b.TurnOver [move] k place c) (rest : List (Move τ)) :
    b.TurnOver (move :: rest) k place c := by
  obtain ⟨early, late, j, number, hsplit, hj⟩ := h
  exact ⟨early, late ++ rest, j, number,
    by rw [← List.singleton_append, hsplit, List.append_assoc]; rfl, hj⟩

/-- **A joiner has seen each check as it stood when its turn was over.** -/
theorem seen_in_turn {b : Barrier τ} (h : b.Sound) {k : Nat} {j j' : Joiner τ}
    (hj : b.joiners[k]? = some j) {moves : List (Move τ)}
    (hj' : (b.after moves).joiners[k]? = some j') {place : Nat} {c : Check τ}
    (hc : j'.seen[place]? = some c) :
    j.seen[place]? = some c ∨ b.TurnOver moves k place c := by
  induction moves generalizing b j with
  | nil =>
    cases hj.symm.trans hj'
    exact .inl hc
  | cons move rest ih =>
    obtain ⟨j₁, hj₁, hseen⟩ := seen_step h hj move
    rcases ih (sound_step h move) hj₁ hj' with hc₁ | hlater
    · rcases hseen with hsame | ⟨c₁, hmore, hturn⟩
      · exact .inl (hsame ▸ hc₁)
      · -- it was seen before, or in this move
        rw [hmore, Arena.getElem?_snoc] at hc₁
        by_cases hplace : place = j.seen.length
        · rw [if_pos hplace] at hc₁
          cases hc₁
          subst hplace
          exact .inr (hturn.first rest)
        · rw [if_neg hplace] at hc₁
          exact .inl hc₁
    · exact .inr hlater.of_step

/-! ## Section 4: Joins that end -/

/-- A joiner comes to this verdict when it concludes now. -/
def Speaks (b : Barrier τ) (k : Nat) (j : Joiner τ) (v : Verdict τ) : Prop :=
  b.joiners[k]? = some j ∧ j.isReady = true ∧ v = (j.join.verdict b.arena.monitor).1

/-- **What is left when a join ends** are the checks that were scheduled since it began and that
    nobody else took. -/
theorem left_behind {b : Barrier τ} (h : b.Sound) (bound : Option (Seconds τ))
    (mid : List (Move τ)) (k n : Nat) :
    let begun := b.step (.join bound)
    let ended := (begun.after mid).step (.conclude k)
    n ∈ ended.registry ↔ begun.ScheduledIn mid n ∧ ∀ k', n ∉ ended.taken k' := by
  intro begun ended
  have hbegun : begun.Sound := sound_step h _
  have hended : ended.Sound := sound_step (hbegun.after mid) _
  have hrun : ended = begun.after (mid ++ [.conclude k]) := by rw [after_append]; rfl
  have hlength : ended.checks.length = (begun.after mid).checks.length := by
    rcases (begun.after mid).step_growth (.conclude k) with ⟨_, _, _, _, hmove, -⟩ | ⟨-, hlength⟩
    · cases hmove
    · exact hlength
  rw [hended.accounted.mem_registry_iff, scheduledIn_iff, hlength]
  constructor
  · rintro ⟨hlt, hnobody⟩
    refine ⟨⟨?_, hlt⟩, hnobody⟩
    -- all checks from before are in the hands of some joiner since the join began
    rcases Nat.lt_or_ge n begun.checks.length with hearly | hlate
    · have hout : n ∉ begun.registry := by
        rw [(step_join b bound).2.1]
        exact List.not_mem_nil
      rw [hbegun.accounted.mem_registry_iff, not_and_or] at hout
      rcases hout with hout | hout
      · exact absurd hearly hout
      · obtain ⟨k', hk'⟩ := not_forall_not.mp hout
        exact absurd (hrun ▸ taken_after hk' (mid ++ [.conclude k])) (hnobody k')
    · exact hlate
  · rintro ⟨⟨-, hlt⟩, hnobody⟩
    exact ⟨hlt, hnobody⟩

/-- **The account of a join** that has come to this verdict. It began at the first of these
    barriers, and has just ended at the last one. -/
structure Account (b begun ended : Barrier τ) (mid : List (Move τ)) (bound : Option (Seconds τ))
    (j : Joiner τ) (v : Verdict τ) : Prop where
  /-- It has taken what was registered when it began, in the order of scheduling. -/
  taken : j.taken = b.registry ∧ j.taken.Pairwise (· < ·)
  /-- It has seen each of these checks as it stood when its turn was over. -/
  seen : j.seen.length = j.taken.length ∧
    ∀ place c, j.seen[place]? = some c → begun.TurnOver mid b.joiners.length place c
  /-- The verdict reports what there is to report of them. -/
  reports : v.Reports j.seen bound
  /-- What was scheduled meanwhile, and not taken by another join, is left in the registry. -/
  left : ∀ n, n ∈ ended.registry ↔ begun.ScheduledIn mid n ∧ ∀ k, n ∉ ended.taken k
  /-- A join without a bound leaves no check of its own running. -/
  done : bound = none → ∀ n ∈ j.taken, ∃ c, ended.checks[n]? = some c ∧ c.isDone = true

/-- **Every join that comes to a verdict has this account.** -/
theorem account_run (r : Rivals) (clock : τ) (before mid : List (Move τ))
    (bound : Option (Seconds τ)) {j : Joiner τ} {v : Verdict τ} :
    let b := (new r clock).after before
    let begun := b.step (.join bound)
    (begun.after mid).Speaks b.joiners.length j v →
      b.Account begun ((begun.after mid).step (.conclude b.joiners.length)) mid bound j v := by
  rintro b begun ⟨hj, hready, rfl⟩
  have hb : b.Sound := sound_run r clock before
  have hbegun : begun.Sound := sound_step hb _
  have hwait := hbegun.after mid
  have hkept := hwait.kept j (List.mem_of_getElem? hj)
  obtain ⟨hstarted, -, -⟩ := step_join b bound
  obtain ⟨j', hj', htaken, hbound⟩ := after_joiner hstarted mid
  cases hj.symm.trans hj'
  have hwaiting : j.join.waiting = [] := by
    have hboth := hready
    simp only [Joiner.isReady, Bool.and_eq_true, List.isEmpty_iff] at hboth
    exact hboth.1
  obtain ⟨settled, hsettled, hlength, hends⟩ := hkept.settled
  rw [hwaiting, List.append_nil] at hsettled
  subst hsettled
  constructor
  case taken => exact ⟨htaken, hwait.accounted.ordered (List.mem_of_getElem? hj)⟩
  case seen =>
    refine ⟨hlength.symm, fun place c hc => ?_⟩
    rcases seen_in_turn hbegun hstarted hj hc with hearly | hturn
    · exact absurd hearly (by simp [Joiner.start])
    · exact hturn
  case reports =>
    have hbound' : j.join.bound = bound := hbound
    rw [Join.verdict_eq, hkept.failures, hbound']
    exact Verdict.on_reports _ hkept.fresh fun hnone =>
      (hkept.unbounded (hbound'.trans hnone)).2.2
  case left => exact left_behind hb bound mid b.joiners.length
  case done =>
    intro hnone n hn
    have hnone' : j.join.bound = none := Eq.trans hbound hnone
    obtain ⟨c, hc, hdone⟩ := hends hnone' n hn
    exact done_step hc hdone (.conclude b.joiners.length)

/-- Two checks that find nothing. The later ends first, while the join waits for the earlier. -/
def twoChecks : List (Move Rat) :=
  [.act (.schedule "paid" none (.whole 0) 1), .act (.schedule "sent" none (.whole 0) 1),
    .join none, .act (.round (.background 1)), .settle 0, .act (.round (.background 0)),
    .settle 0, .settle 0, .conclude 0]

example :
    (((new .none 0).after twoChecks).joiners[0]?.bind Joiner.verdict).map (fun v =>
      (v.total, v.reported.map fun f => (f.name, f.others))) = some (2, some ("paid", 1)) := by
  cbv

end EventCheck.Barrier
