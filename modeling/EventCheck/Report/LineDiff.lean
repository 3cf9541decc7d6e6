import EventCheck.Text.Lines

/-! # Line differences

    `LineDiff.unified` writes the difference between two texts: changed lines with
    three common lines around them.

    - The longest block of common lines is kept, and both sides of it are
      compared in the same way (`blocks`). Of several longest blocks the first
      counts.
    - In a new text of 200 lines or more, lines that occur too often do not
      start a block; a block only grows over them.
    - Equal texts have no difference.
-/

namespace EventCheck

namespace LineDiff

/-! ## Common blocks -/

/-- As many equal lines from `old` in the one text and from `new` in the other. -/
structure Block where
  old : Nat
  new : Nat
  length : Nat
  deriving DecidableEq, Repr, Inhabited

/-- The parts of two texts that are compared: from a line on, and up to a line. -/
structure Window where
  oldFrom : Nat
  oldTo : Nat
  newFrom : Nat
  newTo : Nat

/-- From this many lines on, lines may be too frequent. -/
def frequencyMatters : Nat := 200

/-- Does the line occur in the text more often than once in a hundred lines? -/
def isFrequent (text : Array String) (line : String) : Bool :=
  frequencyMatters ≤ text.size
    && text.size / 100 + 1 < (text.toList.filter (· == line)).length

/-- The places of a line in a text, from the given one on. -/
def placesFrom (line : String) (place : Nat) : List String → List Nat
  | [] => []
  | l :: rest => if l == line then place :: placesFrom line (place + 1) rest
      else placesFrom line (place + 1) rest

/-- For each line of the old text its places in the new one; none if it is too frequent there. -/
def places (old new : Array String) : Array (List Nat) :=
  old.map fun line => if isFrequent new line then [] else placesFrom line 0 new.toList

/-- The lengths of the blocks that end at the given places of the new text, in order, when those
    that end one line earlier are known. -/
def runs (before : List (Nat × Nat)) : List Nat → List (Nat × Nat)
  | [] => []
  | place :: rest =>
    let before := before.dropWhile fun (p, _) => p + 1 < place
    let length :=
      match before with
      | (p, k) :: _ => if p + 1 = place then k + 1 else 1
      | [] => 1
    (place, length) :: runs before rest

/-- The better of a block and those that end at a line of the old text. -/
def better (line : Nat) (best : Block) (ends : List (Nat × Nat)) : Block :=
  ends.foldl (fun best (place, length) =>
    if best.length < length then ⟨line + 1 - length, place + 1 - length, length⟩ else best) best

/-- The best block that ends at one of the next `count` lines of the old text, or the one that is
    known so far. -/
def sweep (places : Array (List Nat)) (w : Window) (line : Nat) (before : List (Nat × Nat))
    (best : Block) : Nat → Block
  | 0 => best
  | count + 1 =>
    let inside := (places.getD line []).filter fun p => w.newFrom ≤ p && p < w.newTo
    let ends := runs before inside
    sweep places w (line + 1) ends (better line best ends) count

/-- The block with the equal lines in front of it, at most `count` of them. -/
def growBack (old new : Array String) (w : Window) (b : Block) : Nat → Block
  | 0 => b
  | count + 1 =>
    if w.oldFrom < b.old && w.newFrom < b.new
        && old.getD (b.old - 1) "" == new.getD (b.new - 1) "" then
      growBack old new w ⟨b.old - 1, b.new - 1, b.length + 1⟩ count
    else b

/-- The block with the equal lines behind it, at most `count` of them. -/
def growOn (old new : Array String) (w : Window) (b : Block) : Nat → Block
  | 0 => b
  | count + 1 =>
    if b.old + b.length < w.oldTo && b.new + b.length < w.newTo
        && old.getD (b.old + b.length) "" == new.getD (b.new + b.length) "" then
      growOn old new w ⟨b.old, b.new, b.length + 1⟩ count
    else b

/-- The longest block within a window. -/
def longest (old new : Array String) (places : Array (List Nat)) (w : Window) : Block :=
  let found := sweep places w w.oldFrom [] ⟨w.oldFrom, w.newFrom, 0⟩ (w.oldTo - w.oldFrom)
  let back := growBack old new w found (w.oldTo - w.oldFrom)
  growOn old new w back (w.oldTo - w.oldFrom)

/-- The blocks within a window, in order. A window that is compared has at least one line less
    than the one it is part of, so as many rounds as lines are enough. -/
def blocksWithin (old new : Array String) (places : Array (List Nat)) :
    Nat → Window → List Block
  | 0, _ => []
  | rounds + 1, w =>
    let b := longest old new places w
    if b.length = 0 then []
    else
      blocksWithin old new places rounds ⟨w.oldFrom, b.old, w.newFrom, b.new⟩
        ++ b :: blocksWithin old new places rounds
            ⟨b.old + b.length, w.oldTo, b.new + b.length, w.newTo⟩

/-- Blocks with those that touch made one. -/
def joined : List Block → List Block
  | [] => []
  | b :: rest =>
    match joined rest with
    | [] => [b]
    | next :: more =>
      if b.old + b.length = next.old && b.new + b.length = next.new then
        ⟨b.old, b.new, b.length + next.length⟩ :: more
      else b :: next :: more

/-- The common blocks of two texts. -/
def blocks (old new : Array String) : List Block :=
  joined (blocksWithin old new (places old new) (old.size + 1) ⟨0, old.size, 0, new.size⟩)

/-! ## Stretches -/

/-- A stretch of both texts, common or changed. -/
structure Stretch where
  common : Bool
  oldFrom : Nat
  oldTo : Nat
  newFrom : Nat
  newTo : Nat

/-- What lies between two blocks, if anything does. -/
def gap (oldFrom oldTo newFrom newTo : Nat) : List Stretch :=
  if oldFrom < oldTo || newFrom < newTo then [⟨false, oldFrom, oldTo, newFrom, newTo⟩] else []

/-- The stretches from a pair of places on. -/
def stretchesFrom (old new : Array String) (oldFrom newFrom : Nat) : List Block → List Stretch
  | [] => gap oldFrom old.size newFrom new.size
  | b :: rest =>
    gap oldFrom b.old newFrom b.new
      ++ ⟨true, b.old, b.old + b.length, b.new, b.new + b.length⟩
      :: stretchesFrom old new (b.old + b.length) (b.new + b.length) rest

def stretches (old new : Array String) : List Stretch :=
  stretchesFrom old new 0 0 (blocks old new)

/-! ## Hunks -/

/-- How many common lines stand around a change. -/
def margin : Nat := 3

/-- The end of a common stretch. -/
def Stretch.ending (s : Stretch) : Stretch :=
  { s with
    oldFrom := max s.oldFrom (s.oldTo - margin)
    newFrom := max s.newFrom (s.newTo - margin) }

/-- The beginning of a common stretch. -/
def Stretch.beginning (s : Stretch) : Stretch :=
  { s with oldTo := min s.oldTo (s.oldFrom + margin), newTo := min s.newTo (s.newFrom + margin) }

/-- The stretches with a common one at the front cut down to its end. -/
def trimFront : List Stretch → List Stretch
  | s :: rest => (if s.common then s.ending else s) :: rest
  | [] => []

/-- The stretches with a common one at the back cut down to its beginning. -/
def trimBack : List Stretch → List Stretch
  | [] => []
  | [s] => [if s.common then s.beginning else s]
  | s :: rest => s :: trimBack rest

/-- The stretches in groups: a long common stretch ends one group and begins the next. -/
def group (current : List Stretch) : List Stretch → List (List Stretch)
  | [] =>
    match current with
    | [] => []
    | [s] => if s.common then [] else [[s]]
    | _ => [current]
  | s :: rest =>
    if s.common && 2 * margin < s.oldTo - s.oldFrom then
      (current ++ [s.beginning]) :: group [s.ending] rest
    else group (current ++ [s]) rest

def hunks (old new : Array String) : List (List Stretch) :=
  group [] (trimBack (trimFront (stretches old new)))

/-! ## Writing -/

/-- The lines of a hunk as its head names them: the first one and, unless it is one, how many. -/
def span (start stop : Nat) : String :=
  match stop - start with
  | 1 => toString (start + 1)
  | 0 => toString start ++ ",0"
  | n => toString (start + 1) ++ "," ++ toString n

/-- Some lines of a text, each behind a mark. -/
def marked (mark : String) (text : Array String) (start stop : Nat) : String :=
  String.join ((text.extract start stop).toList.map fun line => mark ++ line)

def writeStretch (old new : Array String) (s : Stretch) : String :=
  if s.common then marked " " old s.oldFrom s.oldTo
  else marked "-" old s.oldFrom s.oldTo ++ marked "+" new s.newFrom s.newTo

def writeHunk (old new : Array String) (hunk : List Stretch) : String :=
  match hunk, hunk.getLast? with
  | first :: _, some last =>
    "@@ -" ++ span first.oldFrom last.oldTo ++ " +" ++ span first.newFrom last.newTo ++ " @@\n"
      ++ String.join (hunk.map (writeStretch old new))
  | _, _ => ""

/-- The difference between two texts; empty if there is none. -/
def unified (oldName newName old new : String) : String :=
  let old := (Lines.splitAll old).toArray
  let new := (Lines.splitAll new).toArray
  match hunks old new with
  | [] => ""
  | hunks =>
    "--- " ++ oldName ++ "\n+++ " ++ newName ++ "\n"
      ++ String.join (hunks.map (writeHunk old new))

end LineDiff

end EventCheck
