import EventCheck.Yaml.Cursor

/-! # Scalars in a text

    How the four sorts of scalar are read: plain ones, quoted ones, and blocks.

    - Lines of plain and quoted scalars are folded: one break becomes a blank, of
      several all but the first stay.
    - A block keeps its breaks, or folds those between lines that begin with
      neither blank nor tab.
-/

namespace EventCheck

namespace Yaml

/-- Breaks between two lines, folded: the first and the others. -/
def folded (first : Char) (others : List Char) : List Char :=
  (if first != '\n' then [first] else if others.isEmpty then [' '] else []) ++ others

/-! ## Quoted scalars -/

/-- The character that a letter behind a backslash stands for. -/
def escape? : Char → Option Char
  | '0' => some '\x00'
  | 'a' => some '\x07'
  | 'b' => some '\x08'
  | 't' => some '\t'
  | '\t' => some '\t'
  | 'n' => some '\n'
  | 'v' => some '\x0b'
  | 'f' => some '\x0c'
  | 'r' => some '\r'
  | 'e' => some '\x1b'
  | ' ' => some ' '
  | '"' => some '"'
  | '\\' => some '\\'
  | '/' => some '/'
  | 'N' => some '\u0085'
  | '_' => some '\u00a0'
  | 'L' => some '\u2028'
  | 'P' => some '\u2029'
  | _ => none

/-- How many digits follow a letter behind a backslash. -/
def codeLength? : Char → Option Nat
  | 'x' => some 2
  | 'u' => some 4
  | 'U' => some 8
  | _ => none

def hexDigit? (c : Char) : Option Nat :=
  if '0' ≤ c && c ≤ '9' then some (c.toNat - 48)
  else if 'a' ≤ c && c ≤ 'f' then some (c.toNat - 87)
  else if 'A' ≤ c && c ≤ 'F' then some (c.toNat - 55)
  else none

/-- The character that hexadecimal digits write. -/
def charOfCode? (cs : List Char) : Option Char :=
  (cs.foldlM (fun n c => (hexDigit? c).map (n * 16 + ·)) 0).bind fun n =>
    if n < 0xD800 || (0xE000 ≤ n && n < 0x110000) then some (Char.ofNat n)
    else if n < 0xE000 then some '\ufffd'
    else none

/-- The empty lines behind a break in a quoted scalar; a line that separates documents may not
    stand there. -/
def quotedBreaks : Nat → Cursor → Option (List Char × Cursor)
  | 0, _ => none
  | steps + 1, c =>
    if c.isSeparator then none
    else
      let c := c.skipWhile fun ch => ch == ' ' || ch == '\t'
      match c.break? with
      | none => some ([], c)
      | some (ch, c) => (quotedBreaks steps c).map fun (more, c) => (ch :: more, c)

/-- The rest of a quoted scalar and the place behind its closing quote. -/
def quotedRest (quote : Char) : Nat → Cursor → Option (List Char × Cursor)
  | 0, _ => none
  | steps + 1, c =>
    let more (cs : List Char) (c : Cursor) : Option (List Char × Cursor) :=
      (quotedRest quote steps c).map fun (rest, c) => (cs ++ rest, c)
    match c.rest with
    | [] => none
    | ch :: next =>
      if ch == quote then
        if quote == '\'' && next.head? == some '\'' then more ['\''] (c.forward 2)
        else some ([], c.forward 1)
      else if ch == '\\' && quote == '"' then
        let c := c.forward 1
        match c.break? with
        | some (_, c) =>
          match quotedBreaks steps c with
          | some (breaks, c) => more breaks c
          | none => none
        | none =>
          match next with
          | [] => none
          | letter :: _ =>
            match escape? letter, codeLength? letter with
            | some ch, _ => more [ch] (c.forward 1)
            | none, some count =>
              let digits := (c.rest.drop 1).take count
              if digits.length = count then
                match charOfCode? digits with
                | some ch => more [ch] (c.forward (count + 1))
                | none => none
              else none
            | none, none => none
      else if ch == ' ' || ch == '\t' || isBreak ch then
        let (blanks, c) := c.takeWhile fun ch => ch == ' ' || ch == '\t'
        match c.break? with
        | some (first, c) =>
          match quotedBreaks steps c with
          | some (others, c) => more (folded first others) c
          | none => none
        | none => if c.atEnd then none else more blanks c
      else more [ch] (c.forward 1)

/-- A quoted scalar. -/
def quoted (steps : Nat) (c : Cursor) : Option (String × Cursor) :=
  match c.rest with
  | quote :: _ => (quotedRest quote steps (c.forward 1)).map fun (cs, c) => (String.ofList cs, c)
  | [] => none

/-! ## Plain scalars -/

/-- Does a character that ends a plain scalar inside brackets come next? -/
def isFlowMark (c : Char) : Bool := c == ',' || c == '[' || c == ']' || c == '\x7b' || c == '\x7d'

/-- The word of a plain scalar that comes next. -/
def plainWord (inFlow : Bool) : List Char → List Char
  | [] => []
  | ch :: rest =>
    let colonEnds :=
      match rest with
      | [] => true
      | next :: _ => isGap next || (inFlow && isFlowMark next)
    if isGap ch || (ch == ':' && colonEnds) || (inFlow && (isFlowMark ch || ch == '?')) then []
    else ch :: plainWord inFlow rest

/-- The empty lines and the blanks behind a break in a plain scalar; none at a line that separates
    documents. -/
def plainBreaks : Nat → Cursor → Option (List Char) × Cursor
  | 0, c => (none, c)
  | steps + 1, c =>
    let c := c.skipWhile (· == ' ')
    match c.break? with
    | none => (some [], c)
    | some (ch, c) =>
      if c.isSeparator then (none, c)
      else
        let (more, c) := plainBreaks steps c
        (more.map (ch :: ·), c)

/-- What separates a word of a plain scalar from what follows: the characters, if the scalar may
    go on, the place behind them, and whether a line ended. -/
def plainSpaces (steps : Nat) (c : Cursor) : Option (List Char) × Cursor × Bool :=
  let (blanks, c) := c.takeWhile (· == ' ')
  match c.break? with
  | none => (some blanks, c, false)
  | some (first, c) =>
    if c.isSeparator then (none, c, true)
    else
      let (others, c) := plainBreaks steps c
      (others.map (folded first), c, true)

/-- The words of a plain scalar behind some separation, the place behind them, and whether the
    last thing was the end of a line. Outside of brackets it goes on only at `indent` or deeper. -/
def plainWords (inFlow : Bool) (indent : Nat) : Nat → List Char → Bool → Cursor →
    List Char × Cursor × Bool
  | 0, _, ended, c => ([], c, ended)
  | steps + 1, spaces, ended, c =>
    let word := if c.isAt '#' then [] else plainWord inFlow c.rest
    if word.isEmpty then ([], c, ended)
    else
      let (next, c, ended) := plainSpaces steps (c.forward word.length)
      match next with
      | none => (spaces ++ word, c, ended)
      | some next =>
        if next.isEmpty || c.isAt '#' || (!inFlow && c.column < indent) then
          (spaces ++ word, c, ended)
        else
          let (more, c, ended) := plainWords inFlow indent steps next ended c
          (spaces ++ word ++ more, c, ended)

/-! ## Blocks -/

/-- What becomes of the breaks at the end of a block. -/
inductive Chomping where
  | strip | clip | keep
  deriving DecidableEq, Repr

def chomping? : Char → Option Chomping
  | '+' => some .keep
  | '-' => some .strip
  | _ => none

def indentation? (c : Char) : Option Nat :=
  if '1' ≤ c && c ≤ '9' then some (c.toNat - 48) else none

/-- The marks behind the sign of a block: its chomping and its depth, in either order. -/
def blockMarks (c : Cursor) : Chomping × Option Nat × Cursor :=
  match (c.peek? 0).bind chomping? with
  | some chomping =>
    match (c.peek? 1).bind indentation? with
    | some depth => (chomping, some depth, c.forward 2)
    | none => (chomping, none, c.forward 1)
  | none =>
    match (c.peek? 0).bind indentation? with
    | some depth =>
      match (c.peek? 1).bind chomping? with
      | some chomping => (chomping, some depth, c.forward 2)
      | none => (.clip, some depth, c.forward 1)
    | none => (.clip, none, c)

/-- The empty lines in front of a line of a block that begins in column `indent`. -/
def blockBreaks (indent : Nat) : Nat → Cursor → List Char × Cursor
  | 0, c => ([], c)
  | steps + 1, c =>
    let blanks := (c.rest.take (indent - c.column)).takeWhile (· == ' ')
    let c := c.forward blanks.length
    match c.break? with
    | none => ([], c)
    | some (ch, c) =>
      let (more, c) := blockBreaks indent steps c
      (ch :: more, c)

/-- The empty lines at the start of a block, and the greatest column in them. -/
def blockStart : Nat → Cursor → List Char × Nat × Cursor
  | 0, c => ([], 0, c)
  | steps + 1, c =>
    let c := c.skipWhile (· == ' ')
    match c.break? with
    | none => ([], c.column, c)
    | some (ch, next) =>
      let (more, deepest, next) := blockStart steps next
      (ch :: more, max c.column deepest, next)

/-- The lines of a block from a line on, with the breaks in front of it. -/
def blockLines (fold : Bool) (indent : Nat) (chomping : Chomping) : Nat → List Char → Cursor →
    List Char × Cursor
  | 0, _, c => ([], c)
  | steps + 1, breaks, c =>
    if c.column = indent && !c.atEnd then
      let opensPlain := !(c.isAt ' ' || c.isAt '\t')
      let (line, c) := c.takeWhile fun ch => !isBreak ch
      let (ended, c) :=
        match c.break? with
        | some (ch, c) => ([ch], c)
        | none => ([], c)
      let (next, c) := blockBreaks indent steps c
      if c.column = indent && !c.atEnd then
        let joint :=
          if fold && ended == ['\n'] && opensPlain && !(c.isAt ' ' || c.isAt '\t') then
            if next.isEmpty then [' '] else []
          else ended
        let (more, c) := blockLines fold indent chomping steps next c
        (breaks ++ line ++ joint ++ more, c)
      else
        let ending :=
          match chomping with
          | .strip => []
          | .clip => ended
          | .keep => ended ++ next
        (breaks ++ line ++ ending, c)
    else (if chomping = .keep then breaks else [], c)

/-- A block, behind its sign. `parent` is the column of the collection it stands in. -/
def block (fold : Bool) (parent : Int) (steps : Nat) (c : Cursor) : Option (String × Cursor) :=
  let (chomping, depth, c) := blockMarks c
  if !c.endsAt 0 fun ch => ch == ' ' || isBreak ch then none
  else
    let c := c.skipWhile (· == ' ')
    let c := if c.isAt '#' then c.skipWhile fun ch => !isBreak ch else c
    let next :=
      match c.break? with
      | some (_, c) => some c
      | none => if c.atEnd then some c else none
    next.map fun c =>
      let least := (max (parent + 1) 1).toNat
      match depth with
      | none =>
        let (breaks, deepest, c) := blockStart steps c
        let (cs, c) := blockLines fold (max least deepest) chomping steps breaks c
        (String.ofList cs, c)
      | some depth =>
        let indent := least + depth - 1
        let (breaks, c) := blockBreaks indent steps c
        let (cs, c) := blockLines fold indent chomping steps breaks c
        (String.ofList cs, c)

end Yaml

end EventCheck
