/-! # Agendas

    An agenda holds tasks with their times. The earliest comes up first, and of
    those with the same time the one that was put on the agenda first.
-/

namespace EventCheck

/-- A task with its time and its place in the order in which tasks were put on the agenda. -/
structure Agenda.Entry (α : Type) where
  time : Float
  ticket : Nat
  task : α

structure Agenda (α : Type) where
  entries : List (Agenda.Entry α)
  nextTicket : Nat

namespace Agenda

variable {α : Type}

def empty : Agenda α := ⟨[], 0⟩

/-- Does the one entry come up before the other? -/
def Entry.isBefore (a b : Entry α) : Bool :=
  if a.time < b.time then true
  else if b.time < a.time then false
  else a.ticket < b.ticket

/-- Puts an entry into a list in which earlier ones stand in front. -/
def insert (e : Entry α) : List (Entry α) → List (Entry α)
  | [] => [e]
  | first :: rest => if e.isBefore first then e :: first :: rest else first :: insert e rest

/-- Puts a task on the agenda and gives its ticket. -/
def put (a : Agenda α) (time : Float) (task : α) : Nat × Agenda α :=
  (a.nextTicket, ⟨insert ⟨time, a.nextTicket, task⟩ a.entries, a.nextTicket + 1⟩)

/-- Takes the entry that comes up next. -/
def pop? (a : Agenda α) : Option (Entry α × Agenda α) :=
  match a.entries with
  | [] => none
  | first :: rest => some (first, { a with entries := rest })

end Agenda

end EventCheck
