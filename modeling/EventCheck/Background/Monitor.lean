import EventCheck.Background.Check

/-! # The monitor

    The monitor of a test holds its store, all its background checks and the
    registry of those that no join has taken yet.

    - Checks are known by their number, in the order in which they were made.
    - A join takes the registry as it is, waits for the checks in turn, and ends
      with the first failure, if there is one. `Join` is a join under way: each
      `Join.turn` settles one check, `Join.verdict` is what it says at its end.
    - `Join.Fault` says why a join may fail to say it. By then it has taken its checks
      from the registry.
-/

namespace EventCheck

/-- Store, checks and registry of a test. -/
structure Monitor (τ : Type) where
  store : Store
  rivals : Rivals
  checks : List (Check τ)
  registry : List Nat

namespace Monitor

variable {τ : Type}

/-- The monitor of a new test. -/
def new (rivals : Rivals) : Monitor τ := ⟨.empty, rivals, [], []⟩

/-! ## The store -/

/-- Stores what is offered, or names the fields that do not fit. -/
def append (m : Monitor τ) (offer : Incoming) (now : String) :
    Except (List EventField) (Event × Monitor τ) :=
  (m.store.append offer now).map fun (store, event) => (event, { m with store := store })

/-- Consumes an id and tells whether it was still to be had. -/
def tryConsume (m : Monitor τ) (id : Int) : Bool × Monitor τ :=
  let (fresh, store) := m.rivals.tryConsume m.store id
  (fresh, { m with store := store })

def reset (m : Monitor τ) : Monitor τ := { m with store := m.store.reset }

/-! ## Watches and checks -/

/-- Puts another check in the place of one. -/
def setCheck (m : Monitor τ) (number : Nat) (c : Check τ) : Monitor τ :=
  { m with checks := m.checks.set number c }

/-- Adds a check that is not registered. -/
def addCheck (m : Monitor τ) (c : Check τ) : Nat × Monitor τ :=
  (m.checks.length, { m with checks := m.checks ++ [c] })

/-- Schedules a check for events that come from now on. No event comes between the counting of
    those that are stored and the scheduling. -/
def schedule (m : Monitor τ) (name : String) (pattern : Option Value) (timeout : Seconds τ)
    (interval : τ) : Nat × Monitor τ :=
  let (number, m) := m.addCheck (.scheduled name pattern timeout m.store.size interval)
  (number, { m with registry := m.registry ++ [number] })

variable [Time τ]

/-- One round of a watch in the foreground. -/
def poll (m : Monitor τ) (w : Watch τ) (now : τ) : Poll τ × Monitor τ :=
  let poll := w.poll m.rivals now m.store
  (poll, { m with store := poll.store })

/-- The next round of a check, if it has one, what came of it, and the monitor behind it. -/
def pollCheck (m : Monitor τ) (number : Nat) (now : τ) :
    Option (Check.Round τ × Poll τ × Monitor τ) := do
  let c ← m.checks[number]?
  let round ← c.round? now
  let poll := round.poll m.rivals now m.store
  let m := { m with store := poll.store }
  pure (round, poll, m.setCheck number (c.after round.watch poll.turn))

end Monitor

/-! ## Joining -/

/-- A join under way: the bound that it was given, the deadline that follows from it, the checks
    that it took and has not settled yet, and the failures of those that it has. A failure that
    its check recorded comes with the number of that check. -/
structure Join (τ : Type) where
  bound : Option (Seconds τ)
  deadline : Option τ
  total : Nat
  waiting : List Nat
  failures : List (CheckFailure τ × Option Nat)

/-- What a join says at its end: how many checks it took, their failures in the order of
    scheduling, and the first of them as it is reported. -/
structure Verdict (τ : Type) where
  total : Nat
  failures : List (CheckFailure τ)
  reported : Option (CheckFailure τ)

/-- Can the verdict be told? Before the first failure is reported, all of them are written to the
    log. -/
def Verdict.isTellable {τ : Type} (v : Verdict τ) : Bool := v.failures.all CheckFailure.isLoggable

/-- Why a join fails without its verdict: it would have to wait longer than can be waited, or a
    failure cannot be written to the log. -/
inductive Join.Fault where
  | overlong
  | digits
  deriving DecidableEq, Repr

def Join.Fault.message : Join.Fault → String
  | .overlong => "timestamp out of range for platform time_t"
  | .digits => Log.Obstacle.digits.message

namespace Join

variable {τ : Type} [Time τ]

/-- A join that begins now takes all registered checks. -/
def start (m : Monitor τ) (bound : Option (Seconds τ)) (now : τ) : Join τ × Monitor τ :=
  (⟨bound, bound.map fun bound => Time.add now bound.length, m.registry.length, m.registry, []⟩,
    { m with registry := [] })

/-- How long the join waits for its next check; none stands for as long as the check lasts. -/
def patience (j : Join τ) (now : τ) : Option τ := EventCheck.patience j.deadline now

/-- Is the join refused its next wait? -/
def isRefused (j : Join τ) (now : τ) : Bool := !j.waiting.isEmpty && isOverlong (j.patience now)

/-- The failure with which a check is settled when the join has stopped waiting for it. -/
def failure? (j : Join τ) (m : Monitor τ) (number : Nat) :
    Option (CheckFailure τ × Option Nat) :=
  match m.checks[number]? with
  | none => none
  | some c =>
    if c.isDone then c.failure.map fun failure => (failure, some number)
    else j.bound.map fun bound => (c.unfinished bound, none)

/-- Settles the next check. -/
def turn (j : Join τ) (m : Monitor τ) : Join τ :=
  match j.waiting with
  | [] => j
  | number :: rest =>
    { j with waiting := rest, failures := j.failures ++ (j.failure? m number).toList }

/-- The verdict on all checks. The failure that is reported counts the others, and so does the
    check that recorded it from then on, if the verdict can be told. -/
def verdict (j : Join τ) (m : Monitor τ) : Verdict τ × Monitor τ :=
  let failures := j.failures.map Prod.fst
  match j.failures with
  | [] => (⟨j.total, [], none⟩, m)
  | (first, recorder) :: rest =>
    let reported :=
      if rest.isEmpty then first else { first with others := rest.length }
    let v : Verdict τ := ⟨j.total, failures, some reported⟩
    let m :=
      match recorder with
      | none => m
      | some number =>
        match m.checks[number]? with
        | none => m
        | some c =>
          if v.isTellable then m.setCheck number { c with failure := some reported } else m
    (v, m)

end Join

end EventCheck
