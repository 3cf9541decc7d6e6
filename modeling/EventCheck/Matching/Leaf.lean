import EventCheck.Json.Writer
import EventCheck.Text.Parts

/-! # Matching leaves

    Leaves are compared by their content: the text of a string as it is, and
    the JSON text of any other leaf. So `3` and `"3"` are the same.

    A leaf of a pattern is a `LeafRule`:
    - `"*"` accepts any leaf,
    - `""` accepts an empty content,
    - `"~part"` accepts a content in which the part occurs,
    - anything else accepts the same content.

    Two things are left aside. A whole number has a content however many digits it has, though
    none of more than 4300 can come out of a text. And texts hold no single halves of
    surrogate pairs: the reader puts U+FFFD in their place, so texts that differ only in such
    halves have the same content.
-/

namespace EventCheck

/-- What a leaf says in a comparison. The limit on digits that texts have when they are read is left
    aside here. -/
def Json.content : Json → String
  | .str s => s
  | v => v.writeLeaf true

/-- What a leaf of a pattern asks of a content. -/
inductive LeafRule where
  | anything
  | nothing
  | contains (part : String)
  | exactly (content : String)
  deriving DecidableEq, Repr

namespace LeafRule

/-- The rule that a text in a pattern stands for. -/
def ofText (s : String) : LeafRule :=
  if s = "*" then .anything
  else
    match s.toList with
    | [] => .nothing
    | '~' :: part => .contains (String.ofList part)
    | _ => .exactly s

/-- The rule that a leaf of a pattern stands for. -/
def of : Json → LeafRule
  | .str s => ofText s
  | v => .exactly v.content

def accepts (content : String) : LeafRule → Bool
  | .anything => true
  | .nothing => content = ""
  | .contains part => isPart part content
  | .exactly expected => content = expected

end LeafRule

/-- Does the leaf of an event satisfy the leaf of a pattern? -/
def Json.leafMatches (event pattern : Json) : Bool := (LeafRule.of pattern).accepts event.content

end EventCheck
