import EventCheck.Proofs.Arena.Checks

/-! # Joins at work on one arena

    A `Barrier` is an arena at which any number of joins wait for the background checks.

    - **State**: the arena and the joiners. A `Joiner` is a join with what is remembered
      of it: the checks that it took, until when it waits for the next of them, each
      check as it stood when its turn was over, the verdict, and the fault that keeps
      it from telling that.
    - **Moves**: anything that can happen in the arena, a join begins, the turn of the
      next check of a join is over, a join comes to its verdict. Moves come in any order:
      a join gives way to everything else, other joins included, whenever it waits.

    `Barrier.Leads` says what a move does; the rest of the theory needs nothing else.
-/

namespace EventCheck

variable {τ : Type}

/-! ## Section 1: Joiners -/

/-- A join with its history. Once it has come to its verdict it tells that, unless there is a
    fault. -/
structure Joiner (τ : Type) where
  join : Join τ
  taken : List Nat
  limit : Option τ
  seen : List (Check τ)
  verdict : Option (Verdict τ)
  fault : Option Join.Fault

/-- An arena with the joins that wait in it. -/
structure Barrier (τ : Type) where
  arena : Arena τ
  joiners : List (Joiner τ)

/-- What can happen at a barrier. -/
inductive Barrier.Move (τ : Type) where
  | act (move : EventCheck.Move τ)
  | join (bound : Option (Seconds τ))
  | settle (joiner : Nat)
  | conclude (joiner : Nat)

namespace Joiner

variable [Time τ]

/-- The fault of a join that is refused its next wait. -/
def refusal (join : Join τ) (now : τ) : Option Join.Fault :=
  if join.isRefused now then some .overlong else none

/-- The joiner of a join that begins now. -/
def start (m : Monitor τ) (bound : Option (Seconds τ)) (now : τ) : Joiner τ :=
  let join := (Join.start m bound now).1
  ⟨join, join.waiting, (join.patience now).map (Time.add now), [], none, refusal join now⟩

/-- Is the turn of a check over? It is when the check has ended, or when its time is up. -/
def isOver (j : Joiner τ) (c : Check τ) (now : τ) : Bool :=
  c.isDone || j.limit.any fun limit => Time.le limit now

/-- The joiner behind the turn of its next check, which stands like this. -/
def settled (j : Joiner τ) (c : Check τ) (m : Monitor τ) (now : τ) : Joiner τ :=
  let join := j.join.turn m
  { j with
    join
    limit := (join.patience now).map (Time.add now)
    seen := j.seen ++ [c]
    fault := refusal join now }

/-- The joiner behind the turn of its next check, if that turn is over. A join that was refused
    the wait has no such turn. -/
def settle? (j : Joiner τ) (m : Monitor τ) (now : τ) : Option (Joiner τ) := do
  let number ← j.join.waiting.head?
  let c ← m.checks[number]?
  if j.fault.isNone && j.isOver c now then some (j.settled c m now) else none

/-- Has the joiner settled all its checks without having come to its verdict? -/
def isReady (j : Joiner τ) : Bool := j.join.waiting.isEmpty && j.verdict.isNone

/-- The joiner that has come to its verdict. -/
def concluded (j : Joiner τ) (m : Monitor τ) : Joiner τ :=
  let verdict := (j.join.verdict m).1
  { j with
    verdict := some verdict
    fault := if verdict.isTellable then none else some .digits }

end Joiner

/-! ## Section 2: Moves and runs -/

namespace Barrier

/-- The barrier of a new test. -/
def new (r : Rivals) (clock : τ) : Barrier τ := ⟨.new r clock, []⟩

def checks (b : Barrier τ) : List (Check τ) := b.arena.monitor.checks

/-- The checks that no join has taken. -/
def registry (b : Barrier τ) : List Nat := b.arena.monitor.registry

/-- The checks that a joiner took. -/
def taken (b : Barrier τ) (k : Nat) : List Nat := (b.joiners[k]?.map Joiner.taken).getD []

variable [Time τ]

/-- **One move.** A move that is not possible changes nothing. -/
def step (b : Barrier τ) : Move τ → Barrier τ
  | .act move => { b with arena := (b.arena.step move).1 }
  | .join bound =>
    let monitor := (Join.start b.arena.monitor bound b.arena.clock).2
    ⟨{ b.arena with monitor },
      b.joiners ++ [.start b.arena.monitor bound b.arena.clock]⟩
  | .settle k =>
    match b.joiners[k]?.bind fun j => j.settle? b.arena.monitor b.arena.clock with
    | some j => { b with joiners := b.joiners.set k j }
    | none => b
  | .conclude k =>
    match b.joiners[k]? with
    | some j =>
      if j.isReady then
        ⟨{ b.arena with monitor := (j.join.verdict b.arena.monitor).2 },
          b.joiners.set k (j.concluded b.arena.monitor)⟩
      else b
    | none => b

/-- The barrier behind a run. -/
def after (b : Barrier τ) : List (Move τ) → Barrier τ
  | [] => b
  | move :: rest => (b.step move).after rest

@[simp] theorem after_nil (b : Barrier τ) : b.after [] = b := rfl

@[simp] theorem after_cons (b : Barrier τ) (move : Move τ) (rest : List (Move τ)) :
    b.after (move :: rest) = (b.step move).after rest := rfl

theorem after_append (b : Barrier τ) (before behind : List (Move τ)) :
    b.after (before ++ behind) = (b.after before).after behind := by
  induction before generalizing b with
  | nil => rfl
  | cons move rest ih => exact ih (b.step move)

/-! ## Section 3: What a move does -/

/-- **What a move does.** -/
inductive Leads (b : Barrier τ) : Move τ → Barrier τ → Prop where
  /-- The arena moves. -/
  | acts (move : EventCheck.Move τ) :
      Leads b (.act move) { b with arena := (b.arena.step move).1 }
  /-- A join begins and takes the registry as it is. -/
  | joins (bound : Option (Seconds τ)) {b' : Barrier τ}
      (hchecks : b'.checks = b.checks) (hregistry : b'.registry = [])
      (hjoiners : b'.joiners = b.joiners ++ [.start b.arena.monitor bound b.arena.clock]) :
      Leads b (.join bound) b'
  /-- The turn of a check is over, for a joiner that waits for it. -/
  | settles {k number : Nat} {rest : List Nat} {j : Joiner τ} {c : Check τ}
      (hj : b.joiners[k]? = some j) (hwaiting : j.join.waiting = number :: rest)
      (hfault : j.fault = none) (hc : b.checks[number]? = some c)
      (hover : j.isOver c b.arena.clock = true) :
      Leads b (.settle k)
        { b with joiners := b.joiners.set k (j.settled c b.arena.monitor b.arena.clock) }
  /-- A joiner that waits for no check any more comes to its verdict. -/
  | concludes {k : Nat} {j : Joiner τ} {b' : Barrier τ} (hj : b.joiners[k]? = some j)
      (hwaiting : j.join.waiting = []) (hverdict : j.verdict = none)
      (hchecks : b'.checks = (j.join.verdict b.arena.monitor).2.checks)
      (hregistry : b'.registry = b.registry)
      (hjoiners : b'.joiners = b.joiners.set k (j.concluded b.arena.monitor)) :
      Leads b (.conclude k) b'
  /-- Nothing happens to checks and joins. -/
  | rests (k : Nat) (move : Move τ) (hmove : move = .settle k ∨ move = .conclude k) :
      Leads b move b

end Barrier

/-- **What a verdict changes**: nothing, or the failure of one check that had recorded its own. That
    one then counts others as well. -/
theorem Join.verdict_monitor (j : Join τ) (m : Monitor τ) :
    (j.verdict m).2 = m ∨ ∃ f number c others, (f, some number) ∈ j.failures ∧
      m.checks[number]? = some c ∧
      (j.verdict m).2 = m.setCheck number { c with failure := some { f with others } } := by
  unfold verdict
  cases hfailures : j.failures with
  | nil => exact .inl rfl
  | cons first rest =>
    obtain ⟨failure, recorder⟩ := first
    cases recorder with
    | none => exact .inl rfl
    | some number =>
      dsimp only
      cases hc : m.checks[number]? with
      | none => exact .inl rfl
      | some c =>
        obtain ⟨others, hreported⟩ : ∃ others, (if rest.isEmpty = true then failure
            else { failure with others := rest.length }) = { failure with others } := by
          by_cases hrest : rest.isEmpty = true
          · exact ⟨failure.others, if_pos hrest⟩
          · exact ⟨rest.length, if_neg hrest⟩
        rw [hreported]
        dsimp only
        split
        · exact .inr ⟨failure, number, c, others, List.mem_cons_self, hc, rfl⟩
        · -- a verdict that cannot be told is recorded nowhere
          exact .inl rfl

@[simp] theorem Join.verdict_registry (j : Join τ) (m : Monitor τ) :
    (j.verdict m).2.registry = m.registry := by
  rcases j.verdict_monitor m with h | ⟨f, number, c, others, -, -, h⟩ <;> rw [h]
  rfl

theorem Barrier.step_leads [Time τ] (b : Barrier τ) (move : Move τ) :
    b.Leads move (b.step move) := by
  cases move with
  | act move => exact .acts move
  | join bound => exact .joins bound rfl rfl rfl
  | settle k =>
    cases hj : b.joiners[k]? with
    | none =>
      have hstep : b.step (.settle k) = b := by simp [step, hj]
      rw [hstep]
      exact .rests k _ (.inl rfl)
    | some j =>
      cases hsettle : j.settle? b.arena.monitor b.arena.clock with
      | none =>
        have hstep : b.step (.settle k) = b := by simp [step, hj, hsettle]
        rw [hstep]
        exact .rests k _ (.inl rfl)
      | some j' =>
        have hstep : b.step (.settle k) = { b with joiners := b.joiners.set k j' } := by
          simp [step, hj, hsettle]
        rw [hstep]
        simp only [Joiner.settle?, Option.bind_eq_bind, Option.bind_eq_some_iff] at hsettle
        obtain ⟨number, hhead, c, hc, hif⟩ := hsettle
        obtain ⟨rest, hwaiting⟩ := List.head?_eq_some_iff.mp hhead
        split at hif
        · rename_i hboth
          cases hif
          rw [Bool.and_eq_true, Option.isNone_iff_eq_none] at hboth
          exact .settles hj hwaiting hboth.1 hc hboth.2
        · cases hif
  | conclude k =>
    cases hj : b.joiners[k]? with
    | none =>
      have hstep : b.step (.conclude k) = b := by simp [step, hj]
      rw [hstep]
      exact .rests k _ (.inr rfl)
    | some j =>
      cases hready : j.isReady with
      | false =>
        have hstep : b.step (.conclude k) = b := by simp [step, hj, hready]
        rw [hstep]
        exact .rests k _ (.inr rfl)
      | true =>
        have hstep : b.step (.conclude k) =
            ⟨{ b.arena with monitor := (j.join.verdict b.arena.monitor).2 },
              b.joiners.set k (j.concluded b.arena.monitor)⟩ := by
          simp [step, hj, hready]
        rw [hstep]
        obtain ⟨hwaiting, hverdict⟩ : j.join.waiting = [] ∧ j.verdict = none := by
          simpa [Joiner.isReady] using hready
        exact .concludes hj hwaiting hverdict rfl (Join.verdict_registry _ _) rfl

end EventCheck
