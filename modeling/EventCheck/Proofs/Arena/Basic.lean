import EventCheck.Background.Monitor

/-! # Watches at work on one store

    An `Arena` is a store at which any number of watches work side by side.

    - **State**: the monitor with its store, rivals and background checks, the
      watches in the foreground, and the clock.
    - **Moves**: an event is offered, a watch begins or is scheduled, a watch makes
      its next round, somebody outside tries to consume an id, the store is reset,
      time passes. Moves come in any order: a watch gives way to the others
      whenever it sleeps, so a round is one move.
    - **Trace**: each move leaves `Note`s of what was stored, which watch began or
      ended, how the ledger answered, and when the store was reset.

    A run is a list of moves. `Arena.after` is the arena behind it, `Arena.trace`
    the notes that it leaves.
-/

namespace EventCheck

/-! ## Section 1: Notes -/

/-- A watch: the one with this number in the foreground, or that of the check with this number in
    the background. -/
inductive Watcher where
  | foreground (number : Nat)
  | background (number : Nat)
  deriving DecidableEq, Repr

/-- Who tries to consume an id. -/
inductive Caller where
  | watch (who : Watcher)
  | rival
  | outsider
  deriving DecidableEq, Repr

/-- What is noted of a run. -/
inductive Note (τ : Type) where
  | stored (event : Event) (time : τ)
  | began (who : Watcher) (watch : Watch τ)
  | answered (caller : Caller) (id : Int) (answer : Bool)
  | ended (who : Watcher) (outcome : Outcome τ)
  | reset

namespace Note

variable {τ : Type}

/-- One attempt to consume an id. Who is refused an id that was free has lost it to a rival. -/
def attempt (caller : Caller) (free : Bool) (id : Int) (answer : Bool) : List (Note τ) :=
  (if free && !answer then [.answered .rival id true] else []) ++ [.answered caller id answer]

end Note

/-- The reset with which a rival follows the consumption of an id. -/
def Rivals.aftermath {τ : Type} (r : Rivals) (id : Int) : List (Note τ) :=
  if r.resetAfter.contains id then [.reset] else []

/-- The notes of a round at its end. -/
def Turn.notes {τ : Type} (r : Rivals) (who : Watcher) : Turn τ → List (Note τ)
  | .sleeps _ => []
  | .ended (.matched event) => .ended who (.matched event) :: r.aftermath event.id
  | .ended outcome => [.ended who outcome]

/-- The notes of a round: its attempts, and how it ends. A scan reaches for free ids only. -/
def Poll.notes {τ : Type} (p : Poll τ) (r : Rivals) (who : Watcher) : List (Note τ) :=
  p.tally.answers.flatMap (fun (id, answer) => Note.attempt (.watch who) true id answer)
    ++ p.turn.notes r who

/-! ## Section 2: State and moves -/

/-- A watch in the foreground, with its outcome when it has ended. -/
structure Foreground (τ : Type) where
  watch : Watch τ
  outcome : Option (Outcome τ)

/-- The outcome of a watch that has ended with this turn. -/
def Turn.outcome? {τ : Type} : Turn τ → Option (Outcome τ)
  | .sleeps _ => none
  | .ended outcome => some outcome

/-- A store with the watches that work at it, and the clock. -/
structure Arena (τ : Type) where
  monitor : Monitor τ
  foreground : List (Foreground τ)
  clock : τ

/-- What can happen in an arena. -/
inductive Move (τ : Type) where
  | append (offer : Incoming) (time : String)
  | watch (query : Query) (timeout : Seconds τ) (interval : τ)
  | schedule (name : String) (pattern : Option Value) (timeout : Seconds τ) (interval : τ)
  | round (who : Watcher)
  | tryConsume (id : Int)
  | reset
  | pass (time : τ)

namespace Arena

variable {τ : Type}

/-- The arena of a new test. -/
def new (r : Rivals) (clock : τ) : Arena τ := ⟨.new r, [], clock⟩

def store (a : Arena τ) : Store := a.monitor.store

def rivals (a : Arena τ) : Rivals := a.monitor.rivals

/-- The watch that is under way: it has begun and not ended. -/
def underway? (a : Arena τ) : Watcher → Option (Watch τ)
  | .foreground n =>
    match a.foreground[n]? with
    | some ⟨watch, none⟩ => some watch
    | _ => none
  | .background n =>
    match a.monitor.checks[n]? with
    | some c =>
      match c.phase with
      | .watching watch => some watch
      | _ => none
    | none => none

/-- Has the watch ended? -/
def isOver (a : Arena τ) : Watcher → Bool
  | .foreground n => (a.foreground[n]?.bind Foreground.outcome).isSome
  | .background n => (a.monitor.checks[n]?.map Check.isDone).getD false

variable [Time τ]

/-- The next round of a watch in the foreground, unless it has ended. -/
def roundForeground (a : Arena τ) (n : Nat) : Arena τ × List (Note τ) :=
  match a.foreground[n]? with
  | some ⟨watch, none⟩ =>
    let (poll, monitor) := a.monitor.poll watch a.clock
    ({ a with monitor, foreground := a.foreground.set n ⟨watch, poll.turn.outcome?⟩ },
      poll.notes a.rivals (.foreground n))
  | _ => (a, [])

/-- The next round of a check in the background, if it has one. -/
def roundBackground (a : Arena τ) (n : Nat) : Arena τ × List (Note τ) :=
  match a.monitor.pollCheck n a.clock with
  | some (round, poll, monitor) =>
    ({ a with monitor },
      (if round.isFirst then [.began (.background n) round.watch] else [])
        ++ poll.notes a.rivals (.background n))
  | none => (a, [])

/-- **One move**: the arena behind it and its notes. A move that is not possible changes nothing;
    time passes forwards only, and a watch whose pattern cannot be logged never begins. -/
def step (a : Arena τ) : Move τ → Arena τ × List (Note τ)
  | .append offer time =>
    match a.monitor.append offer time with
    | .ok (event, monitor) => ({ a with monitor }, [.stored event a.clock])
    | .error _ => (a, [])
  | .watch query timeout interval =>
    if query.isLoggable then
      let watch : Watch τ := ⟨query, .starting a.clock timeout interval, timeout⟩
      ({ a with foreground := a.foreground ++ [⟨watch, none⟩] },
        [.began (.foreground a.foreground.length) watch])
    else (a, [])
  | .schedule name pattern timeout interval =>
    ({ a with monitor := (a.monitor.schedule name pattern timeout interval).2 }, [])
  | .round (.foreground n) => a.roundForeground n
  | .round (.background n) => a.roundBackground n
  | .tryConsume id =>
    let (answer, monitor) := a.monitor.tryConsume id
    ({ a with monitor },
      Note.attempt .outsider (!a.store.isConsumed id) id answer
        ++ if answer then a.rivals.aftermath id else [])
  | .reset => ({ a with monitor := a.monitor.reset }, [.reset])
  | .pass time => (if Time.le a.clock time then { a with clock := time } else a, [])

/-! ## Section 3: Runs -/

/-- The arena behind a run. -/
def after (a : Arena τ) : List (Move τ) → Arena τ
  | [] => a
  | move :: rest => (a.step move).1.after rest

/-- The notes of a run. -/
def trace (a : Arena τ) : List (Move τ) → List (Note τ)
  | [] => []
  | move :: rest => (a.step move).2 ++ (a.step move).1.trace rest

@[simp] theorem after_nil (a : Arena τ) : a.after [] = a := rfl

@[simp] theorem trace_nil (a : Arena τ) : a.trace [] = [] := rfl

@[simp] theorem after_cons (a : Arena τ) (move : Move τ) (rest : List (Move τ)) :
    a.after (move :: rest) = (a.step move).1.after rest := rfl

@[simp] theorem trace_cons (a : Arena τ) (move : Move τ) (rest : List (Move τ)) :
    a.trace (move :: rest) = (a.step move).2 ++ (a.step move).1.trace rest := rfl

theorem after_append (a : Arena τ) (before behind : List (Move τ)) :
    a.after (before ++ behind) = (a.after before).after behind := by
  induction before generalizing a with
  | nil => rfl
  | cons move rest ih => exact ih (a.step move).1

theorem trace_append (a : Arena τ) (before behind : List (Move τ)) :
    a.trace (before ++ behind) = a.trace before ++ (a.after before).trace behind := by
  induction before generalizing a with
  | nil => rfl
  | cons move rest ih =>
    rw [List.cons_append, trace_cons, trace_cons, after_cons, ih, List.append_assoc]

end Arena

end EventCheck
