import EventCheck.Regex.Basic

/-! # Searching with regular expressions

    The search tries one choice after the other and goes back to the last choice
    that is left when it gets no further.

    Every round of a repetition but the last takes a character, once it has been
    there as often as it has to. So the weight of the expression and the length of
    the text bound the depth of the search (`Regex.depth`).
-/

namespace EventCheck

namespace Regex

/-- The groups that have matched, the last match of a group first: number, start and end. -/
abbrev Groups := List (Nat × Nat × Nat)

/-- A place in the text that a match has reached, and the groups on the way. -/
abbrev Reached := Nat × Groups

/-- Where a group matched last. -/
def Groups.find? (groups : Groups) (number : Nat) : Option (Nat × Nat) :=
  (List.find? (fun (n, _) => n == number) groups).map Prod.snd

/-- Is the character at a place part of a word? -/
def inWord (text : Array Char) (asciiOnly : Bool) (place : Nat) : Bool :=
  match text[place]? with
  | some c => Class.word.holds asciiOnly c
  | none => false

/-- Does the condition hold at a place? An empty text has no place inside or outside of words. -/
def Edge.holds (text : Array Char) (place : Nat) : Edge → Bool
  | .textStart => place == 0
  | .textEnd => place == text.size
  | .lineStart => place == 0 || text[place - 1]? == some '\n'
  | .lineEnd => place == text.size || text[place]? == some '\n'
  | .lastLineEnd =>
    place == text.size || (place + 1 == text.size && text[place]? == some '\n')
  | .wordEdge asciiOnly negated =>
    let before := place != 0 && inWord text asciiOnly (place - 1)
    !text.isEmpty && (before != inWord text asciiOnly place) != negated

/-- Do the characters from a place on repeat those of a group? -/
def repeats (text : Array Char) (fold : Fold) (start place : Nat) : Nat → Bool
  | 0 => true
  | count + 1 =>
    match text[start]?, text[place]? with
    | some a, some b =>
      fold.lower a == fold.lower b && repeats text fold (start + 1) (place + 1) count
    | _, _ => false

mutual

/-- Matches an expression at a place, then whatever comes behind it. -/
def run (text : Array Char) : Nat → Regex → Nat → Groups → (Nat → Groups → Option Reached) →
    Option Reached
  | 0, _, _, _, _ => none
  | depth + 1, e, p, g, next =>
    match e with
    | .empty => next p g
    | .char test =>
      match text[p]? with
      | some c => if test.accepts c then next (p + 1) g else none
      | none => none
    | .edge condition => if condition.holds text p then next p g else none
    | .seq a b => run text depth a p g fun p g => run text depth b p g next
    | .either a b =>
      match run text depth a p g next with
      | some reached => some reached
      | none => run text depth b p g next
    | .group number body => run text depth body p g fun q g => next q ((number, p, q) :: g)
    | .repeated low high greed body => rounds text depth low high greed body 0 none p g next
    | .atomic body =>
      match run text depth body p g fun p g => some (p, g) with
      | some (p, g) => next p g
      | none => none
    | .ahead wanted body =>
      match run text depth body p g fun p g => some (p, g) with
      | some (_, g') => if wanted then next p g' else none
      | none => if wanted then none else next p g
    | .behind wanted width body =>
      if p < width then if wanted then none else next p g
      else
        match run text depth body (p - width) g fun p g => some (p, g) with
        | some (_, g') => if wanted then next p g' else none
        | none => if wanted then none else next p g
    | .again number fold =>
      match g.find? number with
      | some (start, stop) =>
        if repeats text fold start p (stop - start) then next (p + (stop - start)) g else none
      | none => none
    | .ifGroup number yes no =>
      if (g.find? number).isSome then run text depth yes p g next
      else run text depth no p g next

/-- Matches the rounds of a repetition behind `count` others, the last of which that did not have
    to be there began at `last`. A round that takes nothing is the last one. -/
def rounds (text : Array Char) : Nat → Nat → Option Nat → Greed → Regex → Nat → Option Nat → Nat →
    Groups → (Nat → Groups → Option Reached) → Option Reached
  | 0, _, _, _, _, _, _, _, _, _ => none
  | depth + 1, low, high, greed, body, count, last, p, g, next =>
    let isFull := match high with
      | some high => high ≤ count
      | none => false
    if count < low then
      match greed with
      | .possessive =>
        match run text depth body p g fun p g => some (p, g) with
        | some (p, g) => rounds text depth low high greed body (count + 1) last p g next
        | none => none
      | _ =>
        run text depth body p g fun q g =>
          rounds text depth low high greed body (count + 1) last q g next
    else if isFull || last == some p then next p g
    else
      match greed with
      | .greedy =>
        match run text depth body p g fun q g =>
            rounds text depth low high greed body (count + 1) (some p) q g next with
        | some reached => some reached
        | none => next p g
      | .lazy =>
        match next p g with
        | some reached => some reached
        | none =>
          run text depth body p g fun q g =>
            rounds text depth low high greed body (count + 1) (some p) q g next
      | .possessive =>
        match run text depth body p g fun p g => some (p, g) with
        | some (q, g) => rounds text depth low high greed body (count + 1) (some p) q g next
        | none => next p g

end

/-- A bound on the depth of the search in a text of this length. -/
def depth (e : Regex) (length : Nat) : Nat := (e.weight + 1) * (length + 5)

/-- Does the expression match at a place? -/
def matchesAt (e : Regex) (text : Array Char) (place : Nat) : Bool :=
  (run text (e.depth text.size) e place [] fun p g => some (p, g)).isSome

/-- Does the expression match anywhere in the text? -/
def occursIn (e : Regex) (s : String) : Bool :=
  let text := s.toList.toArray
  (List.range (text.size + 1)).any (e.matchesAt text)

end Regex

end EventCheck
