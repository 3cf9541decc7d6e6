import EventCheck.Proofs.Barrier.Verdict

/-! # What every run keeps of checks and joins

    - `Barrier.Accounted`: the checks that the joiners took, one joiner after the other,
      and behind them those in the registry are all checks in the order of scheduling.
    - `Joiner.Kept`: a joiner settles its checks in that order, and its failures are
      those of the checks it has seen.
    - `Barrier.JoinerChange` says what a move leaves of a joiner.
    - `Barrier.Sound` puts it together, and says that a failure counts others only if
      its joiner has come to its verdict. `sound_run`: this holds in every run.
-/

namespace EventCheck

variable {τ : Type}

/-! ## Section 1: Joiners -/

/-- **What is kept of a joiner**, at a barrier with these checks. -/
structure Joiner.Kept (j : Joiner τ) (checks : List (Check τ)) : Prop where
  settled : ∃ settled, j.taken = settled ++ j.join.waiting ∧ settled.length = j.seen.length ∧
    (j.join.bound = none → ∀ n ∈ settled, ∃ c, checks[n]? = some c ∧ c.isDone = true)
  total : j.join.total = j.taken.length
  failures : j.join.failures.map Prod.fst = j.seen.filterMap (·.fault? j.join.bound)
  recorders : ∀ f n, (f, some n) ∈ j.join.failures → n ∈ j.taken
  fresh : ∀ c ∈ j.seen, c.Fresh
  unbounded : j.join.bound = none →
    j.join.deadline = none ∧ j.limit = none ∧ ∀ c ∈ j.seen, c.isDone = true
  verdict : ∀ v, j.verdict = some v →
    j.join.waiting = [] ∧ v = Verdict.on j.join.total (j.join.failures.map Prod.fst)
  fault : ∀ f, j.fault = some f →
    f = .overlong ∧ j.join.waiting ≠ [] ∨ f = .digits ∧ j.verdict.isSome

namespace Joiner

/-- Checks may come and go on as long as those that have ended stay ended. -/
theorem Kept.mono {j : Joiner τ} {checks checks' : List (Check τ)} (h : j.Kept checks)
    (hdone : ∀ (n : Nat) (c : Check τ), checks[n]? = some c → c.isDone = true →
      ∃ c' : Check τ, checks'[n]? = some c' ∧ c'.isDone = true) : j.Kept checks' := by
  obtain ⟨settled, htaken, hlength, hends⟩ := h.settled
  refine { h with settled := ⟨settled, htaken, hlength, fun hbound n hn => ?_⟩ }
  obtain ⟨c, hc, hd⟩ := hends hbound n hn
  exact hdone n c hc hd

variable [Time τ]

/-- Only a join that has a check to wait for is refused a wait. -/
theorem waiting_of_refusal {join : Join τ} {now : τ} {f : Join.Fault}
    (h : refusal join now = some f) : f = .overlong ∧ join.waiting ≠ [] := by
  unfold refusal at h
  split at h
  · next hrefused =>
    cases h
    exact ⟨rfl, fun hwaiting => by simp [Join.isRefused, hwaiting] at hrefused⟩
  · cases h

theorem refusal_eq_none {join : Join τ} {now : τ}
    (h : isOverlong (join.patience now) = false) : refusal join now = none := by
  simp [refusal, Join.isRefused, h]

theorem kept_start (m : Monitor τ) (bound : Option (Seconds τ)) (now : τ) :
    (Joiner.start m bound now).Kept m.checks := by
  constructor
  case settled => exact ⟨[], rfl, rfl, fun _ _ hn => absurd hn List.not_mem_nil⟩
  case total => rfl
  case failures => rfl
  case recorders => exact fun f n hin => absurd hin List.not_mem_nil
  case fresh => exact fun c hin => absurd hin List.not_mem_nil
  case unbounded =>
    rintro (rfl : bound = none)
    exact ⟨rfl, rfl, fun c hin => absurd hin List.not_mem_nil⟩
  case verdict =>
    intro v hv
    have hnone : (Joiner.start m bound now).verdict = none := rfl
    rw [hnone] at hv
    cases hv
  case fault => exact fun f hf => .inl (waiting_of_refusal hf)

/-- **A turn keeps it.** The check that is settled has to be as it was when it was scheduled, or
    to have recorded a failure of its own since. -/
theorem Kept.settled_next {j : Joiner τ} {m : Monitor τ} (h : j.Kept m.checks) {number : Nat}
    {rest : List Nat} {c : Check τ} {now : τ} (hwaiting : j.join.waiting = number :: rest)
    (hc : m.checks[number]? = some c) (hover : j.isOver c now = true) (hfresh : c.Fresh) :
    (j.settled c m now).Kept m.checks := by
  have hturn : j.join.turn m = { j.join with
      waiting := rest
      failures := j.join.failures ++ (j.join.failure? m number).toList } := by
    simp only [Join.turn, hwaiting]
  obtain ⟨settled, htaken, hlength, hends⟩ := h.settled
  -- without a limit only the end of the check ends its turn
  have hdone : j.join.bound = none → c.isDone = true := fun hbound => by
    simpa [isOver, (h.unbounded hbound).2.1] using hover
  unfold Joiner.settled
  rw [hturn]
  refine ⟨⟨settled ++ [number], ?_, ?_, ?_⟩, h.total, ?_, ?_, ?_, ?_, ?_,
    fun f hf => .inl (waiting_of_refusal hf)⟩
  · rw [htaken, hwaiting, List.append_assoc]
    rfl
  · simp [hlength]
  · intro hbound n hn
    rcases List.mem_append.mp hn with hn | hn
    · exact hends hbound n hn
    · rw [List.mem_singleton.mp hn]
      exact ⟨c, hc, hdone hbound⟩
  · have hfault := Join.map_fst_failure? (j := j.join) hc
    rw [List.map_append, h.failures, List.filterMap_append, ← Option.toList_map, hfault]
    simp only [List.filterMap_cons, List.filterMap_nil]
    cases c.fault? j.join.bound <;> rfl
  · intro f n hin
    rcases List.mem_append.mp hin with hin | hin
    · exact h.recorders f n hin
    · rw [Join.recorder_of_failure? (Option.mem_toList.mp hin), htaken, hwaiting]
      simp
  · intro c' hin
    rcases List.mem_append.mp hin with hin | hin
    · exact h.fresh c' hin
    · rw [List.mem_singleton.mp hin]
      exact hfresh
  · intro hbound
    obtain ⟨hdeadline, -, hseen⟩ := h.unbounded hbound
    refine ⟨hdeadline, by simp [Join.patience, EventCheck.patience, hdeadline], ?_⟩
    intro c' hin
    rcases List.mem_append.mp hin with hin | hin
    · exact hseen c' hin
    · rw [List.mem_singleton.mp hin]
      exact hdone hbound
  · intro v hv
    -- a joiner that has spoken waits for nothing
    rw [(h.verdict v hv).1] at hwaiting
    cases hwaiting

omit [Time τ] in
theorem Kept.concluded {j : Joiner τ} {checks : List (Check τ)} (h : j.Kept checks)
    (hwaiting : j.join.waiting = []) (m : Monitor τ) :
    (j.concluded m).Kept checks where
  settled := h.settled
  total := h.total
  failures := h.failures
  recorders := h.recorders
  fresh := h.fresh
  unbounded := h.unbounded
  verdict := by
    rintro v ⟨⟩
    exact ⟨hwaiting, j.join.verdict_eq m⟩
  fault := by
    intro f hf
    unfold Joiner.concluded at hf
    dsimp only at hf
    split at hf
    · cases hf
    · cases hf
      exact .inr ⟨rfl, rfl⟩

end Joiner

namespace Barrier

/-- Has the joiner that took this check come to its verdict? -/
def Spoken (b : Barrier τ) (n : Nat) : Prop :=
  ∃ (k : Nat) (j : Joiner τ), b.joiners[k]? = some j ∧ n ∈ j.taken ∧ j.verdict.isSome

/-! ## Section 2: Accounts -/

/-- **Every check is accounted for once**: by one joiner, or by the registry; and the joiners took
    them in the order of scheduling. -/
def Accounted (b : Barrier τ) : Prop :=
  b.joiners.flatMap Joiner.taken ++ b.registry = List.range b.checks.length

theorem Accounted.increasing {b : Barrier τ} (h : b.Accounted) :
    (b.joiners.flatMap Joiner.taken ++ b.registry).Pairwise (· < ·) := by
  rw [h]
  exact List.pairwise_lt_range

/-- A joiner took its checks in the order of scheduling. -/
theorem Accounted.ordered {b : Barrier τ} (h : b.Accounted) {j : Joiner τ} (hj : j ∈ b.joiners) :
    j.taken.Pairwise (· < ·) :=
  (List.pairwise_flatMap.mp (List.pairwise_append.mp h.increasing).1).1 j hj

/-- No check is taken by two joiners. -/
theorem Accounted.unique {b : Barrier τ} (h : b.Accounted) {n k k' : Nat} {j j' : Joiner τ}
    (hj : b.joiners[k]? = some j) (hn : n ∈ j.taken) (hj' : b.joiners[k']? = some j')
    (hn' : n ∈ j'.taken) : k = k' := by
  have hapart := (List.pairwise_flatMap.mp (List.pairwise_append.mp h.increasing).1).2
  obtain ⟨hlt, rfl⟩ := List.getElem?_eq_some_iff.mp hj
  obtain ⟨hlt', rfl⟩ := List.getElem?_eq_some_iff.mp hj'
  rw [List.pairwise_iff_getElem] at hapart
  rcases Nat.lt_trichotomy k k' with hless | rfl | hless
  · exact absurd (hapart k k' hlt hlt' hless n hn n hn') (Nat.lt_irrefl n)
  · rfl
  · exact absurd (hapart k' k hlt' hlt hless n hn' n hn) (Nat.lt_irrefl n)

/-- A check that no joiner took is in the registry, and no other is. -/
theorem Accounted.mem_registry {b : Barrier τ} (h : b.Accounted) {n : Nat} :
    n ∈ b.registry ↔ n < b.checks.length ∧ ∀ j ∈ b.joiners, n ∉ j.taken := by
  have hall : n ∈ b.joiners.flatMap Joiner.taken ++ b.registry ↔ n < b.checks.length := by
    rw [h, List.mem_range]
  have hapart := (List.pairwise_append.mp h.increasing).2.2
  constructor
  · intro hn
    refine ⟨hall.mp (List.mem_append_right _ hn), fun j hj hin => ?_⟩
    exact absurd (hapart n (List.mem_flatMap_of_mem hj hin) n hn) (Nat.lt_irrefl n)
  · rintro ⟨hlt, hnone⟩
    rcases List.mem_append.mp (hall.mpr hlt) with hin | hin
    · obtain ⟨j, hj, hin⟩ := List.mem_flatMap.mp hin
      exact absurd hin (hnone j hj)
    · exact hin

/-- The account knows of a joiner only what it took. -/
theorem flatMap_set_taken {joiners : List (Joiner τ)} {k : Nat} {j : Joiner τ}
    (hj : joiners[k]? = some j) (j' : Joiner τ) (h : j'.taken = j.taken) :
    (joiners.set k j').flatMap Joiner.taken = joiners.flatMap Joiner.taken := by
  obtain ⟨hlt, rfl⟩ := List.getElem?_eq_some_iff.mp hj
  have hsame : (joiners.map Joiner.taken).set k joiners[k].taken = joiners.map Joiner.taken := by
    have hlt' : k < (joiners.map Joiner.taken).length := by rwa [List.length_map]
    rw [← List.getElem_map Joiner.taken (h := hlt'), List.set_getElem_self]
  rw [List.flatMap_def, List.flatMap_def, List.map_set, h, hsame]

variable [Time τ]

theorem accounted_step {b : Barrier τ} (h : b.Accounted) (move : Move τ) :
    (b.step move).Accounted := by
  have hleads := b.step_leads move
  generalize b.step move = b' at hleads
  unfold Accounted at h ⊢
  cases hleads with
  | acts move =>
    have hchange := b.arena.step_checks move
    dsimp only [registry, checks] at h ⊢
    generalize (b.arena.step move).1 = a', (b.arena.step move).2 = notes at hchange
    cases hchange with
    | kept hmove hc hr hquiet => rw [hc, hr, h]
    | scheduled name pattern timeout interval hc hr =>
      rw [hc, hr, ← List.append_assoc, h, List.length_append, List.length_singleton,
        List.range_succ]
    | played hcheck hround hc hr => rw [hc, hr, List.length_set, h]
  | joins bound hchecks hregistry hjoiners =>
    rw [hchecks, hregistry, hjoiners, List.flatMap_append, List.append_nil, List.flatMap_singleton]
    exact h
  | @settles k number rest j c hj hwaiting hfault hc hover =>
    have htaken := flatMap_set_taken hj (j.settled c b.arena.monitor b.arena.clock) rfl
    exact (congrArg (· ++ b.registry) htaken).trans h
  | @concludes k j _ hj hwaiting hverdict hchecks hregistry hjoiners =>
    have htaken := flatMap_set_taken hj (j.concluded b.arena.monitor) rfl
    rw [hchecks, hregistry, hjoiners, htaken, Join.length_verdict]
    exact h
  | rests k move hmove => exact h

/-! ## Section 3: What stays -/

/-- **What a move leaves of a joiner**: it stays, settles its next check, or comes to its verdict. -/
inductive JoinerChange (b : Barrier τ) (k : Nat) (j : Joiner τ) : Move τ → Joiner τ → Prop where
  | stays (move : Move τ) : JoinerChange b k j move j
  | settles {number : Nat} {rest : List Nat} {c : Check τ}
      (hwaiting : j.join.waiting = number :: rest) (hfault : j.fault = none)
      (hc : b.checks[number]? = some c) (hover : j.isOver c b.arena.clock = true) :
      JoinerChange b k j (.settle k) (j.settled c b.arena.monitor b.arena.clock)
  | concludes (hwaiting : j.join.waiting = []) (hverdict : j.verdict = none) :
      JoinerChange b k j (.conclude k) (j.concluded b.arena.monitor)

theorem step_joiner {b : Barrier τ} {k : Nat} {j : Joiner τ} (hj : b.joiners[k]? = some j)
    (move : Move τ) : ∃ j', (b.step move).joiners[k]? = some j' ∧ b.JoinerChange k j move j' := by
  have hlt : k < b.joiners.length := (List.getElem?_eq_some_iff.mp hj).1
  -- a joiner stays when another one is put in its place
  have hother : ∀ {i : Nat} {j₂ : Joiner τ}, i ≠ k → (b.joiners.set i j₂)[k]? = some j :=
    fun hi => by rw [List.getElem?_set_ne hi, hj]
  have hleads := b.step_leads move
  generalize b.step move = b' at hleads
  cases hleads with
  | acts move => exact ⟨j, hj, .stays _⟩
  | joins bound hchecks hregistry hjoiners =>
    exact ⟨j, by rw [hjoiners, List.getElem?_append_left hlt, hj], .stays _⟩
  | @settles i number rest j₁ c hj₁ hwaiting hfault hc hover =>
    by_cases hi : i = k
    · subst hi
      cases hj.symm.trans hj₁
      exact ⟨_, List.getElem?_set_self hlt, .settles hwaiting hfault hc hover⟩
    · exact ⟨j, hother hi, .stays _⟩
  | @concludes i j₁ _ hj₁ hwaiting hverdict hchecks hregistry hjoiners =>
    rw [hjoiners]
    by_cases hi : i = k
    · subst hi
      cases hj.symm.trans hj₁
      exact ⟨_, List.getElem?_set_self hlt, .concludes hwaiting hverdict⟩
    · exact ⟨j, hother hi, .stays _⟩
  | rests i move hmove => exact ⟨j, hj, .stays _⟩

/-- No move takes from a joiner what it took, its bound, or what it has spoken. -/
theorem JoinerChange.keeps {b : Barrier τ} {k : Nat} {j j' : Joiner τ} {move : Move τ}
    (h : b.JoinerChange k j move j') :
    j'.taken = j.taken ∧ j'.join.bound = j.join.bound ∧
      (j.verdict.isSome → j'.verdict.isSome) := by
  cases h with
  | stays => exact ⟨rfl, rfl, id⟩
  | settles hwaiting hfault hc hover =>
    refine ⟨rfl, ?_, id⟩
    simp only [Joiner.settled, Join.turn, hwaiting]
  | concludes hwaiting hverdict => exact ⟨rfl, rfl, fun _ => rfl⟩

theorem Spoken.step {b : Barrier τ} {n : Nat} (h : b.Spoken n) (move : Move τ) :
    (b.step move).Spoken n := by
  obtain ⟨k, j, hj, hn, hv⟩ := h
  obtain ⟨j', hj', hchange⟩ := step_joiner hj move
  obtain ⟨htaken, -, hspoken⟩ := hchange.keeps
  exact ⟨k, j', hj', htaken ▸ hn, hspoken hv⟩

/-- A check that has ended has ended for good. -/
theorem done_step {b : Barrier τ} {n : Nat} {c : Check τ} (hc : b.checks[n]? = some c)
    (hdone : c.isDone = true) (move : Move τ) :
    ∃ c', (b.step move).checks[n]? = some c' ∧ c'.isDone = true := by
  have hleads := b.step_leads move
  generalize b.step move = b' at hleads
  cases hleads with
  | acts move => exact ⟨c, Arena.stays_done hc hdone move, hdone⟩
  | joins bound hchecks hregistry hjoiners => exact ⟨c, by rw [hchecks, hc], hdone⟩
  | settles hj hwaiting hfault hc' hover => exact ⟨c, hc, hdone⟩
  | @concludes k j _ hj hwaiting hverdict hchecks hregistry hjoiners =>
    obtain ⟨c', hc', hsame, -⟩ := j.join.verdict_check b.arena.monitor hc
    exact ⟨c', by rw [hchecks, hc'], hsame.trans hdone⟩
  | rests k move hmove => exact ⟨c, hc, hdone⟩

/-! ## Section 4: The invariant -/

/-- **What every run keeps.** -/
structure Sound (b : Barrier τ) : Prop where
  accounted : b.Accounted
  kept : ∀ j ∈ b.joiners, j.Kept b.checks
  fresh : ∀ n c, b.checks[n]? = some c → c.Fresh ∨ b.Spoken n

omit [Time τ] in
theorem sound_new (r : Rivals) (clock : τ) : (new r clock).Sound := by
  constructor
  case accounted => rfl
  case kept => exact fun j hj => absurd hj List.not_mem_nil
  case fresh =>
    intro n c hc
    have hempty : (new r clock).checks = [] := rfl
    simp [hempty] at hc

omit [Time τ] in
/-- A joiner settles a check as it was recorded, since only its own verdict changes that. -/
theorem Sound.fresh_of_waiting {b : Barrier τ} (h : b.Sound) {k number : Nat} {rest : List Nat}
    {j : Joiner τ} {c : Check τ} (hj : b.joiners[k]? = some j)
    (hwaiting : j.join.waiting = number :: rest) (hc : b.checks[number]? = some c) : c.Fresh := by
  rcases h.fresh number c hc with hfresh | ⟨k', j', hj', hn', hspoken⟩
  · exact hfresh
  · have hkept := h.kept j (List.mem_of_getElem? hj)
    obtain ⟨settled, htaken, -⟩ := hkept.settled
    have hn : number ∈ j.taken := by
      rw [htaken, hwaiting]
      simp
    have hk := h.accounted.unique hj hn hj' hn'
    subst hk
    rw [hj] at hj'
    cases hj'
    obtain ⟨v, hv⟩ := Option.isSome_iff_exists.mp hspoken
    rw [(hkept.verdict v hv).1] at hwaiting
    cases hwaiting

theorem kept_step {b : Barrier τ} (h : b.Sound) (move : Move τ) :
    ∀ j ∈ (b.step move).joiners, j.Kept (b.step move).checks := by
  -- who was there already keeps what is kept of it
  have hold : ∀ j ∈ b.joiners, j.Kept (b.step move).checks := fun j hj =>
    (h.kept j hj).mono fun n c hc hdone => done_step hc hdone move
  have hleads := b.step_leads move
  generalize b.step move = b' at hleads hold
  intro j' hj'
  cases hleads with
  | acts move => exact hold j' hj'
  | joins bound hchecks hregistry hjoiners =>
    rw [hjoiners] at hj'
    rcases List.mem_append.mp hj' with hj' | hj'
    · exact hold j' hj'
    · rw [List.mem_singleton.mp hj', hchecks]
      exact Joiner.kept_start b.arena.monitor bound b.arena.clock
  | settles hj hwaiting hfault hc hover =>
    rcases List.mem_or_eq_of_mem_set hj' with hj' | rfl
    · exact hold j' hj'
    · exact (h.kept _ (List.mem_of_getElem? hj)).settled_next hwaiting hc hover
        (h.fresh_of_waiting hj hwaiting hc)
  | concludes hj hwaiting hverdict hchecks hregistry hjoiners =>
    rw [hjoiners] at hj'
    rcases List.mem_or_eq_of_mem_set hj' with hj' | rfl
    · exact hold j' hj'
    · exact (hold _ (List.mem_of_getElem? hj)).concluded hwaiting b.arena.monitor
  | rests k move hmove => exact hold j' hj'

theorem fresh_step {b : Barrier τ} (h : b.Sound) (move : Move τ) (n : Nat) (c' : Check τ)
    (hc' : (b.step move).checks[n]? = some c') : c'.Fresh ∨ (b.step move).Spoken n := by
  have hspoken : b.Spoken n → (b.step move).Spoken n := fun hs => hs.step move
  have hleads := b.step_leads move
  generalize b.step move = b' at hleads hspoken hc'
  cases hleads with
  | acts move =>
    rcases Arena.check_of_step hc' with ⟨c, hc⟩ | ⟨name, pattern, timeout, interval, rfl⟩
    · obtain ⟨c₁, hc₁, hplay⟩ := Arena.step_check hc move
      cases hc₁.symm.trans hc'
      rcases hplay with rfl | ⟨round, turn, -, rfl⟩
      · exact (h.fresh n _ hc).imp_right hspoken
      · exact (h.fresh n c hc).imp (·.after round.watch turn) hspoken
    · exact .inl (Check.fresh_scheduled name pattern timeout b.arena.store.size interval)
  | joins bound hchecks hregistry hjoiners =>
    rw [hchecks] at hc'
    exact (h.fresh n c' hc').imp_right hspoken
  | settles hj hwaiting hfault hc hover => exact (h.fresh n c' hc').imp_right hspoken
  | @concludes k j _ hj hwaiting hverdict hchecks hregistry hjoiners =>
    rw [hchecks] at hc'
    have hlt : n < b.checks.length := by
      have hlt := (List.getElem?_eq_some_iff.mp hc').1
      rwa [Join.length_verdict] at hlt
    obtain ⟨c₁, hc₁, -, hkeeps⟩ :=
      j.join.verdict_check b.arena.monitor (List.getElem?_eq_getElem hlt)
    cases hc₁.symm.trans hc'
    rcases hkeeps with heq | ⟨f, hf⟩
    · rw [heq]
      exact (h.fresh n _ (List.getElem?_eq_getElem hlt)).imp_right hspoken
    · -- the joiner that speaks took the check
      right
      refine ⟨k, j.concluded b.arena.monitor, ?_,
        (h.kept j (List.mem_of_getElem? hj)).recorders f n hf, rfl⟩
      rw [hjoiners]
      exact List.getElem?_set_self (List.getElem?_eq_some_iff.mp hj).1
  | rests k move hmove => exact (h.fresh n c' hc').imp_right hspoken

/-- **A move keeps the invariant.** -/
theorem sound_step {b : Barrier τ} (h : b.Sound) (move : Move τ) : (b.step move).Sound where
  accounted := accounted_step h.accounted move
  kept := kept_step h move
  fresh := fresh_step h move

/-- **Every run keeps the invariant.** -/
theorem Sound.after {b : Barrier τ} (h : b.Sound) (moves : List (Move τ)) :
    (b.after moves).Sound := by
  induction moves generalizing b with
  | nil => exact h
  | cons move rest ih => exact ih (sound_step h move)

theorem sound_run (r : Rivals) (clock : τ) (moves : List (Move τ)) :
    ((new r clock).after moves).Sound := (sound_new r clock).after moves

end Barrier

end EventCheck
