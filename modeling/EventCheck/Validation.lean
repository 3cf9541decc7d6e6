import EventCheck.Json.Value

/-! # Violations

    When data does not fit a record, each misfit is a `Violation`: the path to
    the field and what is wrong there.
-/

namespace EventCheck

/-- What is wrong with a field. -/
inductive Misfit where
  | missing | extra
  | notRecord | notMapping | notList
  | notText | brokenText
  | notNumber | unreadableNumber
  | notWhole | unreadableWhole | fractional | notFinite
  | notFlag | unreadableFlag
  | tooLong
  deriving DecidableEq, Repr

/-- The name under which a misfit is reported. -/
def Misfit.code : Misfit → String
  | .missing => "missing"
  | .extra => "extra_forbidden"
  | .notRecord => "model_type"
  | .notMapping => "dict_type"
  | .notList => "list_type"
  | .notText => "string_type"
  | .brokenText => "string_unicode"
  | .notNumber => "float_type"
  | .unreadableNumber => "float_parsing"
  | .notWhole => "int_type"
  | .unreadableWhole => "int_parsing"
  | .fractional => "int_from_float"
  | .notFinite => "finite_number"
  | .notFlag => "bool_type"
  | .unreadableFlag => "bool_parsing"
  | .tooLong => "int_parsing_size"

/-- A misfit and the path to it. -/
structure Violation where
  path : List String
  misfit : Misfit
  deriving DecidableEq, Repr

namespace Violation

def text (v : Violation) : String := ".".intercalate v.path ++ ":" ++ v.misfit.code

/-- All violations in one line. -/
def message (vs : List Violation) : String := "; ".intercalate (vs.map text)

/-- The same violation inside a record or a list. -/
def under (step : String) (v : Violation) : Violation := ⟨step :: v.path, v.misfit⟩

end Violation

/-- A checked value or the violations that were found, never both. -/
abbrev Checked (α : Type) := Except (List Violation) α

namespace Checked

def misfit {α : Type} (m : Misfit) : Checked α := .error [⟨[], m⟩]

/-- Puts a step in front of the paths of all violations. -/
def under {α : Type} (step : String) : Checked α → Checked α
  | .ok a => .ok a
  | .error vs => .error (vs.map (Violation.under step))

/-- Both values, or the violations of either, those of the first in front. -/
def both {α β : Type} (a : Checked α) (b : Checked β) : Checked (α × β) :=
  match a, b with
  | .ok a, .ok b => .ok (a, b)
  | .error vs, .ok _ => .error vs
  | .ok _, .error ws => .error ws
  | .error vs, .error ws => .error (vs ++ ws)

/-- All values of a list, or the violations of all. -/
def all {α : Type} : List (Checked α) → Checked (List α)
  | [] => .ok []
  | a :: rest => (both a (all rest)).map fun (a, rest) => a :: rest

end Checked

end EventCheck
