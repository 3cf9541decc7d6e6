/-! # Sets of characters given by runs

    `inRanges` looks a character up in a list of runs of code points.
-/

namespace EventCheck

/-- Does one of the runs, given by its first and its last code point, hold the character? -/
def inRanges (runs : List (Nat × Nat)) (c : Char) : Bool :=
  runs.any fun (first, last) => first ≤ c.toNat && c.toNat ≤ last

end EventCheck
