import EventCheck.Keyed
import EventCheck.Regex.Basic

/-! # Reading regular expressions

    `Regex.read` gives the expression that a text writes.

    - Options in front, `(?i)`, hold for the whole expression, `(?i:...)` for a
      part: `i` either letter case, `m` ends of lines, `s` a point for line feeds
      too, `x` blanks and comments, `a` ASCII, `u` Unicode.
    - What looks behind has to have a width of its own, and a group can be
      referred to only when it is complete.
    - Every step takes at least one token, so their number bounds the steps.
-/

namespace EventCheck

namespace Regex

/-! ## Tokens -/

/-- A character, as it is or behind a backslash. -/
inductive Token where
  | plain (c : Char)
  | escaped (c : Char)
  deriving DecidableEq, Repr

/-- The tokens of a text; none if a backslash is the last character. -/
def tokens? : List Char → Option (List Token)
  | [] => some []
  | ['\\'] => none
  | '\\' :: c :: rest => (tokens? rest).map (.escaped c :: ·)
  | c :: rest => (tokens? rest).map (.plain c :: ·)

def Token.chars : Token → List Char
  | .plain c => [c]
  | .escaped c => ['\\', c]

/-! ## Options and progress -/

structure Options where
  eitherCase : Bool
  multiline : Bool
  pointForAll : Bool
  verbose : Bool
  asciiOnly : Bool
  unicode : Bool
  deriving DecidableEq, Repr, Inhabited

namespace Options

def none : Options := ⟨false, false, false, false, false, false⟩

/-- The option of a letter, set; another letter is no option. -/
def set? (o : Options) : Char → Option Options
  | 'i' => some { o with eitherCase := true }
  | 'm' => some { o with multiline := true }
  | 's' => some { o with pointForAll := true }
  | 'x' => some { o with verbose := true }
  | 'a' => some { o with asciiOnly := true }
  | 'u' => some { o with unicode := true }
  | _ => Option.none

def union (a b : Options) : Options :=
  ⟨a.eitherCase || b.eitherCase, a.multiline || b.multiline, a.pointForAll || b.pointForAll,
    a.verbose || b.verbose, a.asciiOnly || b.asciiOnly, a.unicode || b.unicode⟩

/-- Is an option in both? -/
def meets (a b : Options) : Bool :=
  (a.eitherCase && b.eitherCase) || (a.multiline && b.multiline)
    || (a.pointForAll && b.pointForAll) || (a.verbose && b.verbose)

/-- The options inside a part that sets some and takes others back. A part is for ASCII or for
    Unicode, if it says so. -/
def within (o add remove : Options) : Options :=
  { eitherCase := (o.eitherCase || add.eitherCase) && !remove.eitherCase
    multiline := (o.multiline || add.multiline) && !remove.multiline
    pointForAll := (o.pointForAll || add.pointForAll) && !remove.pointForAll
    verbose := (o.verbose || add.verbose) && !remove.verbose
    asciiOnly := if add.asciiOnly then true else if add.unicode then false else o.asciiOnly
    unicode := false }

def fold (o : Options) : Fold :=
  if o.eitherCase then if o.asciiOnly then .ascii else .unicode else .exact

end Options

/-- Why a text is no regular expression. The last two are faults of another sort than the rest. -/
inductive Error where
  | malformed
  | tooManyRounds
  | mixedAlphabets
  deriving DecidableEq, Repr

/-- How far the reading is: the widths of the groups so far, without one while the group is open;
    their names; how many groups there were in front of what looks behind; the numbers of groups
    that were asked about; the options of the whole expression; and the tokens that are left. -/
structure Progress where
  widths : List (Option (Nat × Nat))
  names : Keyed Nat
  limit : Option Nat
  asked : List Nat
  options : Options
  rest : List Token

abbrev Read := StateT Progress (Except Error)

namespace Read

def fail {α : Type} : Read α := throw .malformed

/-- The next token, taken. -/
def next? : Read (Option Token) := do
  let s ← get
  match s.rest with
  | [] => pure none
  | t :: rest =>
    set { s with rest := rest }
    pure (some t)

def next : Read Token := do
  match ← next? with
  | some t => pure t
  | none => fail

def peek? : Read (Option Token) := do pure (← get).rest.head?

/-- Takes a character if it comes next. -/
def takes (c : Char) : Read Bool := do
  match ← peek? with
  | some t =>
    if t = .plain c then
      let _ ← next?
      pure true
    else pure false
  | none => pure false

def expect (c : Char) : Read Unit := do
  if ← takes c then pure () else fail

/-- The characters of a set at the front of some tokens, at most `count`, and the rest. -/
def front (accepts : Char → Bool) : Nat → List Token → List Char × List Token
  | count + 1, .plain c :: rest =>
    if accepts c then
      let (cs, rest) := front accepts count rest
      (c :: cs, rest)
    else ([], .plain c :: rest)
  | _, rest => ([], rest)

/-- Takes characters of a set, at most `count`. -/
def takeWhile (count : Nat) (accepts : Char → Bool) : Read (List Char) := do
  let s ← get
  let (cs, rest) := front accepts count s.rest
  set { s with rest := rest }
  pure cs

/-- The characters up to a closing one, and the rest behind that. -/
def untilClosing (closing : Char) : List Token → Option (List Char × List Token)
  | [] => none
  | t :: rest =>
    if t = .plain closing then some ([], rest)
    else (untilClosing closing rest).map fun (cs, rest) => (t.chars ++ cs, rest)

/-- Takes a name, which may not be empty, and what closes it. -/
def name (closing : Char) : Read String := do
  let s ← get
  match untilClosing closing s.rest with
  | none => fail
  | some (cs, rest) =>
    if cs.isEmpty then fail
    else
      set { s with rest := rest }
      pure (String.ofList cs)

end Read

/-! ## Escapes -/

def isOctal (c : Char) : Bool := '0' ≤ c && c ≤ '7'

def digitValue (c : Char) : Nat :=
  if '0' ≤ c && c ≤ '9' then c.toNat - 48
  else if 'a' ≤ c && c ≤ 'f' then c.toNat - 87
  else if 'A' ≤ c && c ≤ 'F' then c.toNat - 55
  else 0

def isHex (c : Char) : Bool := c.isDigit || ('a' ≤ c && c ≤ 'f') || ('A' ≤ c && c ≤ 'F')

def valueOf (base : Nat) (cs : List Char) : Nat := cs.foldl (fun n c => n * base + digitValue c) 0

/-- The character that a letter behind a backslash stands for. -/
def control? : Char → Option Nat
  | 'a' => some 7
  | 'b' => some 8
  | 'f' => some 12
  | 'n' => some 10
  | 'r' => some 13
  | 't' => some 9
  | 'v' => some 11
  | '\\' => some 92
  | _ => none

/-- The class that a letter behind a backslash stands for. -/
def class? : Char → Option (Class × Bool)
  | 'd' => some (.digit, false)
  | 'D' => some (.digit, true)
  | 's' => some (.space, false)
  | 'S' => some (.space, true)
  | 'w' => some (.word, false)
  | 'W' => some (.word, true)
  | _ => none

/-- A code of this many hexadecimal digits. -/
def hexCode (count : Nat) : Read Nat := do
  let cs ← Read.takeWhile count isHex
  if cs.length = count && valueOf 16 cs < 0x110000 then pure (valueOf 16 cs) else Read.fail

/-- A code of octal digits, the first of which is known. -/
def octalCode (first : Char) : Read Nat := do
  let cs ← Read.takeWhile 2 isOctal
  let code := valueOf 8 (first :: cs)
  if code ≤ 0o377 then pure code else Read.fail

/-- The code that an escape stands for wherever it is; digits are left out. -/
def codeEscape (c : Char) : Read Nat :=
  match c with
  | 'x' => hexCode 2
  | 'u' => hexCode 4
  | 'U' => hexCode 8
  | c => if c.isAlpha then Read.fail else pure c.toNat

/-! ## Sets -/

/-- One character of a set as a code, or a class. -/
def memberOf (t : Token) : Read (Nat ⊕ Class × Bool) := do
  match t with
  | .plain c => pure (.inl c.toNat)
  | .escaped c =>
    match control? c, class? c with
    | some code, _ => pure (.inl code)
    | none, some cls => pure (.inr cls)
    | none, none =>
      if isOctal c then pure (.inl (← octalCode c))
      else if c.isDigit then Read.fail
      else pure (.inl (← codeEscape c))

def single : Nat ⊕ Class × Bool → Member
  | .inl code => .range code code
  | .inr (cls, negated) => .cls cls negated

/-- The members of a set up to its closing bracket; a bracket in the first place is a member. -/
def members : Nat → List Member → Read (List Member)
  | 0, _ => Read.fail
  | steps + 1, found => do
    let t ← Read.next
    if t = .plain ']' && !found.isEmpty then pure found
    else
      let first ← memberOf t
      if ← Read.takes '-' then
        let t ← Read.next
        if t = .plain ']' then pure (found ++ [single first, .range 45 45])
        else
          match first, ← memberOf t with
          | .inl a, .inl b =>
            if b < a then Read.fail else members steps (found ++ [.range a b])
          | _, _ => Read.fail
      else members steps (found ++ [single first])

/-! ## Groups -/

/-- Opens a group and gives its number. -/
def openGroup (name : Option String) : Read Nat := do
  let s ← get
  let number := s.widths.length + 1
  match name with
  | none => set { s with widths := s.widths ++ [none] }
  | some name =>
    if (Keyed.get? s.names name).isSome then Read.fail
    else set { s with widths := s.widths ++ [none], names := s.names ++ [(name, number)] }
  pure number

/-- The width of a group that is complete. -/
def Progress.widthOf? (s : Progress) (number : Nat) : Option (Nat × Nat) :=
  if number = 0 then none else (s.widths[number - 1]?).join

def widthNow (e : Regex) : Read (Nat × Nat) := do
  let s ← get
  pure (e.width fun number => (s.widthOf? number).getD (0, 0))

def closeGroup (number : Nat) (body : Regex) : Read Unit := do
  let width ← widthNow body
  modify fun s => { s with widths := s.widths.set (number - 1) (some width) }

/-- What looks behind may speak only of groups in front of it. -/
def checkLimit (number : Nat) : Read Unit := do
  let s ← get
  match s.limit with
  | none => pure ()
  | some limit =>
    if (s.widthOf? number).isSome && number ≤ limit then pure () else Read.fail

/-- A reference to a group that is complete. -/
def reference (o : Options) (number : Nat) : Read Regex := do
  let s ← get
  if (s.widthOf? number).isSome then
    checkLimit number
    pure (.again number o.fold)
  else Read.fail

/-- Can the text be a name? -/
def isName (s : String) : Bool :=
  match s.toList with
  | [] => false
  | c :: rest => Word.holds c && (decimalDigit? c).isNone && rest.all Word.holds

/-- The number of the group that a name or a number denotes. -/
def groupAsked (name : String) : Read Nat := do
  let s ← get
  if isName name then
    match Keyed.get? s.names name with
    | some number => pure number
    | none => Read.fail
  else
    match Numeral.int? name with
    | some n =>
      if n ≤ 0 then Read.fail
      else
        set { s with asked := n.toNat :: s.asked }
        pure n.toNat
    | none => Read.fail

/-! ## Options in the expression -/

/-- Sets the options of some letters, the first of which is known, and gives the character behind
    them. An option that cannot be set in this place fails. -/
def letters (typed : Bool) : Nat → Char → Options → Read (Options × Char)
  | 0, _, _ => Read.fail
  | steps + 1, c, o => do
    match o.set? c with
    | none => Read.fail
    | some o =>
      if o.asciiOnly && o.unicode then Read.fail
      else if !typed && (o.asciiOnly || o.unicode) then Read.fail
      else
        match ← Read.next with
        | .plain c =>
          if c == ')' || c == '-' || c == ':' then pure (o, c) else letters typed steps c o
        | .escaped _ => Read.fail

/-- The options of a part: those that it sets and those that it takes back; or, for the whole
    expression, those that it sets. -/
def partOptions (steps : Nat) (first : Char) : Read (Options ⊕ Options × Options) := do
  let (add, c) ←
    if first == '-' then pure (Options.none, '-') else letters true steps first Options.none
  if c == ')' then pure (.inl add)
  else if c == ':' then pure (.inr (add, Options.none))
  else
    match ← Read.next with
    | .plain c =>
      let (remove, c) ← letters false steps c Options.none
      if c == ':' && !add.meets remove then pure (.inr (add, remove)) else Read.fail
    | .escaped _ => Read.fail

/-! ## Expressions -/

/-- May a repetition follow the item? -/
inductive Repeatable where
  | yes | edge | repetition
  deriving DecidableEq, Repr

/-- The items of a sequence, the last one first. -/
abbrev Items := List (Regex × Repeatable)

def Items.regex (items : Items) : Regex :=
  items.foldl (fun e (item, _) =>
    match e with
    | .empty => item
    | e => .seq item e) .empty

def test (o : Options) (negated : Bool) (members : List Member) : Regex :=
  .char ⟨negated, members, o.fold, o.asciiOnly⟩

/-- A number of rounds that is too great to be counted. -/
def maxRounds : Nat := 4294967295

/-- The bounds in braces, if that is what comes next. -/
def bounds? : Read (Option (Nat × Option Nat)) := do
  let s ← get
  let low ← Read.takeWhile s.rest.length Char.isDigit
  let high ←
    if ← Read.takes ',' then Read.takeWhile s.rest.length Char.isDigit
    else pure low
  if ← Read.takes '}' then
    let l := valueOf 10 low
    let h := valueOf 10 high
    if maxRounds ≤ l || maxRounds ≤ h then throw .tooManyRounds
    if !high.isEmpty && h < l then Read.fail
    pure (some (l, if high.isEmpty then none else some h))
  else
    set s
    pure none

/-- The sign behind a repetition, if there is one. -/
def greed : Read Greed := do
  if ← Read.takes '?' then return .lazy
  if ← Read.takes '+' then return .possessive
  return .greedy

/-- The items with a repetition of the last one. -/
def repeatLast (low : Nat) (high : Option Nat) (items : Items) : Read Items := do
  match items with
  | (e, .yes) :: before =>
    let greed ← greed
    pure ((.repeated low high greed e, .repetition) :: before)
  | _ => Read.fail

/-- The item that an escape outside of sets stands for. -/
def escape (o : Options) (c : Char) : Read (Regex × Repeatable) := do
  let code (n : Nat) : Regex × Repeatable := (test o false [.range n n], .yes)
  match c with
  | 'A' => pure (.edge .textStart, .edge)
  | 'Z' => pure (.edge .textEnd, .edge)
  | 'b' => pure (.edge (.wordEdge o.asciiOnly false), .edge)
  | 'B' => pure (.edge (.wordEdge o.asciiOnly true), .edge)
  | '0' => pure (code (← do pure (valueOf 8 (← Read.takeWhile 2 isOctal))))
  | c =>
    match class? c, control? c with
    | some (cls, negated), _ => pure (test o false [.cls cls negated], .yes)
    | none, some n => pure (code n)
    | none, none =>
      if c.isDigit then
        let second ← Read.takeWhile 1 Char.isDigit
        let third ←
          if isOctal c && !second.isEmpty && second.all isOctal then Read.takeWhile 1 isOctal
          else pure []
        if third.isEmpty then pure (← reference o (valueOf 10 (c :: second)), .yes)
        else
          let n := valueOf 8 (c :: second ++ third)
          if n ≤ 0o377 then pure (code n) else Read.fail
      else pure (code (← codeEscape c))

/-- Skips a comment up to the end of its line. -/
def skipLine : Read Unit :=
  modify fun s => { s with rest := (s.rest.dropWhile (· != .plain '\n')).drop 1 }

mutual

/-- Alternatives, up to a closing parenthesis or the end. At the top the options of the whole
    expression hold. -/
def alternatives (top : Bool) : Nat → Options → Read Regex
  | 0, _ => Read.fail
  | steps + 1, o => do
    let first ← sequence top steps o []
    if ← Read.takes '|' then
      let s ← get
      let rest ← moreAlternatives top steps (if top then s.options else o)
      pure (.either first rest)
    else pure first

/-- Alternatives behind the first one. -/
def moreAlternatives (top : Bool) : Nat → Options → Read Regex
  | 0, _ => Read.fail
  | steps + 1, o => do
    let first ← sequence false steps o []
    if ← Read.takes '|' then
      let rest ← moreAlternatives top steps o
      pure (.either first rest)
    else pure first

/-- A sequence of items. At the very front it may set options for the whole expression. -/
def sequence (front : Bool) : Nat → Options → Items → Read Regex
  | 0, _, _ => Read.fail
  | steps + 1, o, items => do
    match ← Read.peek? with
    | none | some (.plain '|') | some (.plain ')') => pure items.regex
    | some t =>
      let _ ← Read.next?
      match t with
      | .escaped c => sequence front steps o ((← escape o c) :: items)
      | .plain c =>
        if o.verbose && Blank.ascii c then sequence front steps o items
        else if o.verbose && c == '#' then
          skipLine
          sequence front steps o items
        else
          match c with
          | '.' =>
            let members := if o.pointForAll then [] else [Member.range 10 10]
            sequence front steps o ((test o true members, .yes) :: items)
          | '^' =>
            let edge := if o.multiline then Edge.lineStart else Edge.textStart
            sequence front steps o ((.edge edge, .edge) :: items)
          | '$' =>
            let edge := if o.multiline then Edge.lineEnd else Edge.lastLineEnd
            sequence front steps o ((.edge edge, .edge) :: items)
          | '[' =>
            let negated ← Read.takes '^'
            let members ← members steps []
            sequence front steps o ((test o negated members, .yes) :: items)
          | '?' => sequence front steps o (← repeatLast 0 (some 1) items)
          | '*' => sequence front steps o (← repeatLast 0 none items)
          | '+' => sequence front steps o (← repeatLast 1 none items)
          | '\x7b' =>
            let literal := (test o false [.range c.toNat c.toNat], Repeatable.yes)
            if (← Read.peek?) = some (.plain '\x7d') then sequence front steps o (literal :: items)
            else
              match ← bounds? with
              | none => sequence front steps o (literal :: items)
              | some (low, high) => sequence front steps o (← repeatLast low high items)
          | '(' =>
            if ← Read.takes '?' then
              match ← extension (front && items.isEmpty) steps o with
              | .inl o => sequence front steps o items
              | .inr e => sequence front steps o ((e, .yes) :: items)
            else
              let e ← capture none steps o
              sequence front steps o ((e, .yes) :: items)
          | c => sequence front steps o ((test o false [.range c.toNat c.toNat], .yes) :: items)

/-- A group behind its opening parenthesis. -/
def capture (name : Option String) : Nat → Options → Read Regex
  | 0, _ => Read.fail
  | steps + 1, o => do
    let number ← openGroup name
    let body ← alternatives false steps o
    Read.expect ')'
    closeGroup number body
    pure (.group number body)

/-- What looks ahead or behind, from the sign on. -/
def look (wanted behind : Bool) : Nat → Options → Read Regex
  | 0, _ => Read.fail
  | steps + 1, o => do
    let outer := (← get).limit
    if behind && outer.isNone then modify fun s => { s with limit := some s.widths.length }
    let body ← alternatives false steps o
    if behind then modify fun s => { s with limit := outer }
    Read.expect ')'
    if behind then
      let (low, high) ← widthNow body
      if low = high then pure (.behind wanted low body) else Read.fail
    else pure (.ahead wanted body)

/-- A group with a name, or a reference to one. -/
def named : Nat → Options → Read Regex
  | 0, _ => Read.fail
  | steps + 1, o => do
    match ← Read.next with
    | .plain '<' =>
      let name ← Read.name '>'
      if isName name then capture (some name) steps o else Read.fail
    | .plain '=' =>
      let name ← Read.name ')'
      match Keyed.get? (← get).names name with
      | some number => reference o number
      | none => Read.fail
    | _ => Read.fail

/-- What follows an opening parenthesis and a question mark: options for the rest of the whole
    expression, where they may stand, or an item. A comment leaves the options as they are. -/
def extension (first : Bool) : Nat → Options → Read (Options ⊕ Regex)
  | 0, _ => Read.fail
  | steps + 1, o => do
    match ← Read.next with
    | .escaped _ => Read.fail
    | .plain c =>
      match c with
      | 'P' => pure (.inr (← named steps o))
      | ':' =>
        let e ← alternatives false steps o
        Read.expect ')'
        pure (.inr e)
      | '#' =>
        match Read.untilClosing ')' (← get).rest with
        | some (_, rest) =>
          modify fun s => { s with rest := rest }
          pure (.inl o)
        | none => Read.fail
      | '=' => pure (.inr (← look true false steps o))
      | '!' => pure (.inr (← look false false steps o))
      | '<' =>
        match ← Read.next with
        | .plain '=' => pure (.inr (← look true true steps o))
        | .plain '!' => pure (.inr (← look false true steps o))
        | _ => Read.fail
      | '(' =>
        let number ← groupAsked (← Read.name ')')
        checkLimit number
        let yes ← sequence false steps o []
        let no ←
          if ← Read.takes '|' then sequence false steps o [] else pure Regex.empty
        Read.expect ')'
        pure (.inr (.ifGroup number yes no))
      | '>' =>
        let e ← alternatives false steps o
        Read.expect ')'
        pure (.inr (.atomic e))
      | c =>
        match ← partOptions steps c with
        | .inl add =>
          if first then
            modify fun s => { s with options := s.options.union add }
            pure (.inl (← get).options)
          else Read.fail
        | .inr (add, remove) =>
          let e ← alternatives false steps (o.within add remove)
          Read.expect ')'
          pure (.inr e)

end

/-- The whole expression. -/
def whole (steps : Nat) : Read Regex := do
  let e ← alternatives true steps Options.none
  let s ← get
  if s.options.asciiOnly && s.options.unicode then throw .mixedAlphabets
  if !s.rest.isEmpty then Read.fail
  if s.asked.any fun number => s.widths.length < number then Read.fail
  pure e

/-- The expression that a text writes. -/
def read (s : String) : Except Error Regex :=
  match tokens? s.toList with
  | none => .error .malformed
  | some tokens =>
    let start : Progress := ⟨[], [], none, [], Options.none, tokens⟩
    ((whole (4 * tokens.length + 8)).run start).map Prod.fst

end Regex

end EventCheck
