/-! # Parts of texts

    `isPart` decides whether a text occurs inside another one.
-/

namespace EventCheck

/-- Does the list occur, unbroken, in the other list? -/
def isPartOf (part : List Char) : List Char → Bool
  | [] => part.isEmpty
  | c :: rest => part.isPrefixOf (c :: rest) || isPartOf part rest

/-- Does the text occur inside the other text? -/
def isPart (part whole : String) : Bool := isPartOf part.toList whole.toList

theorem isPartOf_iff (part whole : List Char) : isPartOf part whole = true ↔ part <:+: whole := by
  induction whole with
  | nil => simp [isPartOf, List.infix_nil]
  | cons c rest ih => simp [isPartOf, ih, List.infix_cons_iff]

end EventCheck
