import EventCheck.Json.Reader
import EventCheck.Matching.Leaf

/-! # Matching structures

    A pattern describes part of an event's data.

    - A leaf of the pattern asks for a leaf, by its `LeafRule`.
    - An object asks for an object with its keys, each with a matching value;
      further keys do not matter.
    - An array asks for an array; each of its elements has to match some element,
      in any place.
    - Where the pattern has a container and the event a string, the string is
      decoded, as often as that gives a string again (`Json.opened?`).

    How deep a text may nest is limited where it is read. Matching itself goes as deep as the
    pattern and the event do, here as in the search for fields and the listing of items: that
    the stack may not suffice for values which no text or store allows is left aside.
-/

namespace EventCheck

namespace Json

/-- The value with strings decoded until it is none, in at most `rounds` rounds. -/
def openedWithin : Nat → Json → Option Json
  | 0, _ => none
  | rounds + 1, .str s => (read? s).bind (openedWithin rounds)
  | _ + 1, v => some v

/-- The value with strings decoded until it is none; none if one of them is not JSON. Decoding
    shrinks, so the size of the value bounds the rounds. -/
def opened? (v : Json) : Option Json := openedWithin v.size v

/-- Rounds beyond the size of the value change nothing. -/
theorem openedWithin_eq {v : Json} {m n : Nat} (hm : v.size ≤ m) (hn : v.size ≤ n) :
    openedWithin m v = openedWithin n v := by
  induction m generalizing v n with
  | zero => have := one_le_size v; omega
  | succ m ih =>
    cases n with
    | zero => have := one_le_size v; omega
    | succ n =>
      cases v with
      | str s =>
        simp only [openedWithin]
        cases hr : read? s with
        | none => rfl
        | some inner =>
          have := size_le_of_read? hr
          simp only [size] at hm hn
          exact ih (by omega) (by omega)
      | _ => rfl

theorem opened?_str (s : String) : (Json.str s).opened? = (read? s).bind opened? := by
  simp only [opened?, size, Nat.add_comm 1 s.length, openedWithin]
  cases hr : read? s with
  | none => rfl
  | some inner => exact openedWithin_eq (size_le_of_read? hr) (Nat.le_refl _)

theorem opened?_of_not_string {v : Json} (h : ∀ s, v ≠ .str s) : v.opened? = some v := by
  unfold opened?
  have := one_le_size v
  cases hs : v.size with
  | zero => omega
  | succ n =>
    cases v with
    | str s => exact absurd rfl (h s)
    | _ => rfl

mutual

/-- Does the value satisfy the pattern? However deep both nest, there is an answer. -/
def satisfies (event : Json) : Json → Bool
  | .obj wanted =>
    match event.opened? with
    | some (.obj fields) => fieldsSatisfy fields wanted
    | _ => false
  | .arr wanted =>
    match event.opened? with
    | some (.arr items) => itemsSatisfy items wanted
    | _ => false
  | leaf => event.isLeaf && event.leafMatches leaf

/-- Has an object all of these fields? -/
def fieldsSatisfy (fields : Fields) : Fields → Bool
  | [] => true
  | (key, wanted) :: rest =>
    (match Keyed.get? fields key with
      | some value => value.satisfies wanted
      | none => false) && fieldsSatisfy fields rest

/-- Has an array an element for each of these? -/
def itemsSatisfy (items : List Json) : List Json → Bool
  | [] => true
  | wanted :: rest => (items.any fun item => item.satisfies wanted) && itemsSatisfy items rest

end

end Json

end EventCheck
