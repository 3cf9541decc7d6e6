import EventCheck.Number.Binary64

/-! # Moments

    A session begins at midnight at the start of the year 2024. `Moment.text`
    writes the moment that lies some seconds behind that.
-/

namespace EventCheck

namespace Moment

/-- A number with at least this many digits. -/
def padded (width n : Nat) : String :=
  let digits := toString n
  String.ofList (List.replicate (width - digits.length) '0') ++ digits

/-- The whole number nearest to a number, ties to even; its sign is left out. -/
def nearest (x : Float) : Nat :=
  match Binary64.parts x with
  | none => 0
  | some p =>
    let (num, den) := Binary64.scale p.mantissa 1 p.exponent
    roundHalfEven num den

/-- The microseconds in a number of seconds. Those of the fraction are rounded to a double first and
    to a whole number then. -/
def microseconds (seconds : Float) : Int :=
  match Binary64.parts seconds with
  | none => 0
  | some p =>
    let (num, den) := Binary64.scale p.mantissa 1 p.exponent
    let fraction := Binary64.ofRatio false (num % den * 1000000) den
    let size := num / den * 1000000 + nearest fraction
    if p.negative then -(size : Int) else size

/-- The days from the first of March of year zero to the start of the session. -/
def epoch : Int := 739191

/-- Year, month and day that lie some days behind the first of March of year zero. Years are
    counted from March, so that a leap day is the last of its year. -/
def date (days : Int) : Int × Int × Int :=
  let era := days.fdiv 146097
  let inEra := days.fmod 146097
  let yearInEra := (inEra - inEra / 1460 + inEra / 36524 - inEra / 146096) / 365
  let inYear := inEra - (365 * yearInEra + yearInEra / 4 - yearInEra / 100)
  let month := (5 * inYear + 2) / 153
  let day := inYear - (153 * month + 2) / 5 + 1
  let year := yearInEra + era * 400
  if month < 10 then (year, month + 3, day) else (year + 1, month - 9, day)

/-- The moment that lies some seconds behind the start of the session. A fraction of a second is
    shown only if there is one. -/
def text (seconds : Float) : String :=
  let total := microseconds seconds
  let (year, month, day) := date (epoch + total.fdiv 86400000000)
  let inDay := (total.fmod 86400000000).toNat
  let second := inDay / 1000000
  let fraction := inDay % 1000000
  padded 4 year.toNat ++ "-" ++ padded 2 month.toNat ++ "-" ++ padded 2 day.toNat ++ "T"
    ++ padded 2 (second / 3600) ++ ":" ++ padded 2 (second / 60 % 60) ++ ":"
    ++ padded 2 (second % 60)
    ++ (if fraction = 0 then "" else "." ++ padded 6 fraction) ++ "+00:00"

end Moment

end EventCheck
