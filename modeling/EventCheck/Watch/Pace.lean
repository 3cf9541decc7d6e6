import EventCheck.Number.Binary64

/-! # The pace of a watch

    A watch scans, sleeps and scans again until its deadline has come.

    The rules hold for any kind of time with zero, sum, difference and order:
    doubles when checks run, rational numbers when they are reasoned about.
-/

namespace EventCheck

/-- What the rules of waiting ask of time. -/
class Time (τ : Type) where
  zero : τ
  ofInt : Int → τ
  add : τ → τ → τ
  sub : τ → τ → τ
  le : τ → τ → Bool
  lt : τ → τ → Bool

instance : Time Float where
  zero := 0
  ofInt := Binary64.ofInt
  add := (· + ·)
  sub := (· - ·)
  le a b := a ≤ b
  lt a b := a < b

instance : Time Rat where
  zero := 0
  ofInt n := n
  add := (· + ·)
  sub := (· - ·)
  le a b := a ≤ b
  lt a b := a < b

/-- A length of time in seconds, whole or fractional; messages show it as it was given. -/
inductive Seconds (τ : Type) where
  | whole (n : Int)
  | fractional (x : τ)
  deriving Inhabited

/-- The length as a time. -/
def Seconds.length {τ : Type} [Time τ] : Seconds τ → τ
  | .whole n => Time.ofInt n
  | .fractional x => x

/-- When a watch scans: how long it sleeps at most, when it began and when its deadline is. -/
structure Pace (τ : Type) where
  interval : τ
  started : τ
  deadline : τ

/-- What a watch does after a scan that found nothing. -/
inductive Rest (τ : Type) where
  | isOver
  | sleep (duration : τ)
  | impossible

namespace Pace

variable {τ : Type} [Time τ]

/-- The pace of a watch that begins now. -/
def starting (now : τ) (timeout : Seconds τ) (interval : τ) : Pace τ :=
  ⟨interval, now, Time.add now timeout.length⟩

/-- A watch sleeps for its interval, but not beyond its deadline. At the deadline it is over; it
    cannot sleep for less than no time. -/
def rest (p : Pace τ) (now : τ) : Rest τ :=
  let remaining := Time.sub p.deadline now
  if Time.le remaining Time.zero then .isOver
  else
    let duration := if Time.lt remaining p.interval then remaining else p.interval
    if Time.lt duration Time.zero then .impossible else .sleep duration

/-- How long the watch has lasted. -/
def elapsed (p : Pace τ) (now : τ) : τ := Time.sub now p.started

end Pace

/-- No wait may have a bound of more seconds than this. -/
def longestWait : Int := 9223372036

/-- Is the bound of a wait, if it has one, too long? Such a wait is refused, also for something that
    has ended already. -/
def isOverlong {τ : Type} [Time τ] (bound : Option τ) : Bool :=
  bound.any fun bound => Time.lt (Time.ofInt longestWait) bound

/-- How long one of several waits may last when all of them together end at a deadline. -/
def patience {τ : Type} [Time τ] (deadline : Option τ) (now : τ) : Option τ :=
  deadline.map fun deadline =>
    let remaining := Time.sub deadline now
    if Time.lt Time.zero remaining then remaining else Time.zero

end EventCheck
