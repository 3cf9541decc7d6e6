import EventCheck.Text.Utf8
import EventCheck.Yaml.Scalar

/-! # Tokens of a text

    A text as a line of tokens: scalars, the marks between them, and the ends of
    collections, which for those in blocks only the indentation shows.

    - That something is a key is seen at the colon behind it. So the place where a
      key may begin is kept (`Token.Opening`), and at the colon a token for the key
      is put in there.
    - A key lies on one line and within 1024 characters. What begins a line at the
      depth of a mapping has to be one.
    - `Token.all?` is the whole line, or none if the text is malformed.
-/

namespace EventCheck

namespace Yaml

/-- A line in front of a document that says how to read it. -/
inductive Directive where
  | version (major : Nat)
  | handle (name stem : String)
  | other

/-- A tag as it is written: a handle, unless the name is written out, and what follows it. -/
structure TagText where
  handle : Option String
  suffix : String

inductive Token where
  | directive (directive : Directive)
  | documentStart | documentEnd | textEnd
  | blockSequence | blockMapping | blockEnd
  | flowSequence | flowSequenceEnd | flowMapping | flowMappingEnd | flowEntry
  | blockEntry | key | value
  | reference (name : String)
  | anchor (name : String)
  | tag (tag : TagText)
  | scalar (text : String) (isPlain : Bool)

namespace Token

/-! ## Names -/

def isNameChar (c : Char) : Bool := c.isAlphanum || c == '-' || c == '_'

/-- A name of at least one character. -/
def name? (c : Cursor) : Option (String × Cursor) :=
  match c.takeWhile isNameChar with
  | ([], _) => none
  | (cs, c) => some (String.ofList cs, c)

/-- Does a space, the end of the line or that of the text come next? -/
def endsWord (c : Cursor) : Bool := c.endsAt 0 fun ch => ch == ' ' || isBreak ch

/-- May the character stand behind the name of an anchor? -/
def endsAnchor (ch : Char) : Bool :=
  isGap ch || ['?', ':', ',', ']', '\x7d', '%', '@', '\x60'].contains ch

/-- The name of an anchor or of a reference to one, behind its mark. -/
def anchorName? (c : Cursor) : Option (String × Cursor) :=
  (name? c).bind fun (name, c) => if c.endsAt 0 endsAnchor then some (name, c) else none

/-! ## Tags -/

def isTagChar (c : Char) : Bool := c.isAlphanum || "-;/?:@&=+$,_.!~*'()[]".toList.contains c

/-- The bytes that percent signs with two digits write. -/
def escapedBytes : Nat → Cursor → Option (List UInt8 × Cursor)
  | 0, _ => none
  | steps + 1, c =>
    match c.rest with
    | '%' :: high :: low :: _ => do
      let high ← hexDigit? high
      let low ← hexDigit? low
      let (more, c) ← escapedBytes steps (c.forward 3)
      pure (UInt8.ofNat (high * 16 + low) :: more, c)
    | '%' :: _ => none
    | _ => some ([], c)

/-- The characters of a tag. -/
def tagChars : Nat → Cursor → Option (List Char × Cursor)
  | 0, _ => none
  | steps + 1, c =>
    if c.isAt '%' then do
      let (bytes, c) ← escapedBytes steps c
      let text ← (Utf8.strict bytes).toOption
      let (more, c) ← tagChars steps c
      pure (text.toList ++ more, c)
    else
      match c.takeWhile isTagChar with
      | ([], _) => some ([], c)
      | (cs, c) => (tagChars steps c).map fun (more, c) => (cs ++ more, c)

/-- The name of a tag, or its end behind a handle. -/
def tagName? (steps : Nat) (c : Cursor) : Option (String × Cursor) :=
  match tagChars steps c with
  | none | some ([], _) => none
  | some (cs, c) => some (String.ofList cs, c)

/-- A handle: an exclamation mark, or a name between two of them. -/
def handle? (c : Cursor) : Option (String × Cursor) :=
  let (name, next) := (c.forward 1).takeWhile isNameChar
  if !c.isAt '!' then none
  else if next.isAt '!' then some (String.ofList ('!' :: name ++ ['!']), next.forward 1)
  else if name.isEmpty && next.isAt ' ' then some ("!", next)
  else none

/-- Does the word that comes next have an exclamation mark behind its first character? -/
def hasHandle (c : Cursor) : Bool :=
  ((c.rest.drop 1).takeWhile fun ch => ch != ' ' && !isBreak ch).contains '!'

/-- A tag. -/
def tag? (steps : Nat) (c : Cursor) : Option (TagText × Cursor) := do
  let (read, c) ←
    if c.peek? 1 == some '<' then do
      let (name, c) ← tagName? steps (c.forward 2)
      if c.isAt '>' then pure ((⟨none, name⟩ : TagText), c.forward 1) else none
    else if c.endsAt 1 isGap then pure (⟨none, "!"⟩, c.forward 1)
    else do
      let (handle, c) ← if hasHandle c then handle? c else pure ("!", c.forward 1)
      let (suffix, c) ← tagName? steps c
      pure (⟨some handle, suffix⟩, c)
  if endsWord c then pure (read, c) else none

/-! ## Directives -/

def spaces (c : Cursor) : Cursor := c.skipWhile (· == ' ')

def number? (c : Cursor) : Option (Nat × Cursor) :=
  match c.takeWhile Char.isDigit with
  | ([], _) => none
  | (ds, c) => some (ds.foldl (fun n d => n * 10 + (d.toNat - 48)) 0, c)

/-- The version of the format that a document is written in. -/
def version? (c : Cursor) : Option (Directive × Cursor) := do
  let (major, c) ← number? (spaces c)
  if !c.isAt '.' then none
  else do
    let (_, c) ← number? (c.forward 1)
    if endsWord c then pure (.version major, c) else none

/-- What a handle stands for. -/
def handleDirective? (steps : Nat) (c : Cursor) : Option (Directive × Cursor) := do
  let (name, c) ← handle? (spaces c)
  if !c.isAt ' ' then none
  else do
    let (stem, c) ← tagName? steps (spaces c)
    if endsWord c then pure (.handle name stem, c) else none

/-- A directive and the place behind its line. -/
def directive? (steps : Nat) (c : Cursor) : Option (Directive × Cursor) := do
  let (name, c) ← name? (c.forward 1)
  if !endsWord c then none
  else do
    let (read, c) ←
      match name with
      | "YAML" => version? c
      | "TAG" => handleDirective? steps c
      | _ => pure (.other, c.skipWhile fun ch => !isBreak ch)
    let c := spaces c
    let c := if c.isAt '#' then c.skipWhile fun ch => !isBreak ch else c
    match c.break? with
    | some (_, c) => pure (read, c)
    | none => if c.atEnd then pure (read, c) else none

/-! ## Progress -/

/-- A place where a key may have begun: how many tokens lie before it, whether there has to be a
    key, and where it is. -/
structure Opening where
  tokens : Nat
  isRequired : Bool
  index : Nat
  line : Nat
  column : Nat

/-- How far a text is read: the columns of the open blocks, the innermost in front; the place where
    a key may have begun inside the innermost brackets, and those outside of them; and whether a
    key may begin here. -/
structure Progress where
  cursor : Cursor
  tokens : Array Token
  indents : List Nat
  opening : Option Opening
  outer : List (Option Opening)
  mayOpen : Bool

abbrev Read := StateT Progress Option

/-- Is this place inside brackets? -/
def Progress.inFlow (p : Progress) : Bool := !p.outer.isEmpty

/-- The column of the innermost block; outside of all blocks it lies before the first column. -/
def Progress.indent (p : Progress) : Int :=
  match p.indents with
  | [] => -1
  | column :: _ => column

/-- A bound on how many things can follow. -/
def Progress.steps (p : Progress) : Nat := p.cursor.rest.length + 1

def emit (t : Token) : Read Unit := modify fun p => { p with tokens := p.tokens.push t }

/-- Puts a token in behind some others. -/
def emitAt (place : Nat) (t : Token) : Read Unit :=
  modify fun p => { p with tokens := p.tokens.insertIdxIfInBounds place t }

def moveTo (c : Cursor) : Read Unit := modify fun p => { p with cursor := c }

/-- Sets whether a key may begin here. -/
def setMayOpen (b : Bool) : Read Unit := modify fun p => { p with mayOpen := b }

/-- Gives up the place where a key may have begun. -/
def forget : Read Unit := do
  let p ← get
  if p.opening.any (·.isRequired) then failure
  else set { p with opening := none }

/-- Notes that a key may begin here. -/
def note : Read Unit := do
  let p ← get
  if p.mayOpen then do
    forget
    let c := p.cursor
    let isRequired := !p.inFlow && p.indent == (c.column : Int)
    modify fun p =>
      { p with opening := some ⟨p.tokens.size, isRequired, c.index, c.line, c.column⟩ }
  else pure ()

/-- How long a key may be. -/
def maxKeyLength : Nat := 1024

/-- Can what began there no longer be a key? -/
def isStale (c : Cursor) (o : Opening) : Bool :=
  o.line != c.line || maxKeyLength < c.index - o.index

/-- Gives up the places where no key can have begun. -/
def dropStale : Read Unit := do
  let p ← get
  let isStale (o : Opening) := isStale p.cursor o
  if (p.opening :: p.outer).any fun o => o.any fun o => isStale o && o.isRequired then failure
  else
    let fresh (o : Option Opening) := o.filter fun o => !isStale o
    set { p with opening := fresh p.opening, outer := p.outer.map fresh }

/-- Ends all blocks that satisfy a condition on their column, from the innermost on. -/
def endBlocks (isOver : Nat → Bool) : Read Unit :=
  modify fun p =>
    if p.inFlow then p
    else
      let ended := p.indents.takeWhile isOver
      { p with
        indents := p.indents.drop ended.length,
        tokens := p.tokens ++ (ended.map fun _ => Token.blockEnd).toArray }

/-- Begins a block in a column, unless one has begun there; tells whether it did. -/
def deepen (column : Nat) : Read Bool := do
  let p ← get
  if p.indent < column then do
    set { p with indents := column :: p.indents }
    pure true
  else pure false

/-- Outside of brackets, begins a block of a sort here if that is due. -/
def beginBlock (t : Token) : Read Unit := do
  let p ← get
  if p.inFlow then pure ()
  else if !p.mayOpen then failure
  else
    let deeper ← deepen p.cursor.column
    if deeper then emit t else pure ()

/-! ## Single tokens -/

/-- Passes spaces, comments and the ends of lines. -/
def skipGaps : Nat → Read Unit
  | 0 => pure ()
  | steps + 1 => do
    let p ← get
    let c := spaces p.cursor
    let c := if c.isAt '#' then c.skipWhile fun ch => !isBreak ch else c
    match c.break? with
    | none => moveTo c
    | some (_, c) => do
      moveTo c
      if !p.inFlow then setMayOpen true
      skipGaps steps

/-- Passes a mark of some characters that is a token. -/
def mark (t : Token) (length : Nat) : Read Unit := do
  let p ← get
  moveTo (p.cursor.forward length)
  emit t

/-- Passes what was read as a token. -/
def take (read : Option (Token × Cursor)) : Read Unit := do
  let (t, c) ← read
  moveTo c
  emit t

/-- A line that separates documents. -/
def separator (t : Token) : Read Unit := do
  endBlocks fun _ => true
  forget
  setMayOpen false
  mark t 3

def openBracket (t : Token) : Read Unit := do
  note
  modify fun p => { p with opening := none, outer := p.opening :: p.outer, mayOpen := true }
  mark t 1

def closeBracket (t : Token) : Read Unit := do
  forget
  let p ← get
  match p.outer with
  | [] => failure
  | opening :: outer => do
    set { p with opening := opening, outer := outer, mayOpen := false }
    mark t 1

/-- The colon behind a key. -/
def colon : Read Unit := do
  let p ← get
  match p.opening with
  | some o => do
    set { p with opening := none, mayOpen := false }
    emitAt o.tokens .key
    if !p.inFlow then
      let deeper ← deepen o.column
      if deeper then emitAt o.tokens .blockMapping
  | none => do
    beginBlock .blockMapping
    setMayOpen !p.inFlow
  mark .value 1

/-- A scalar in one of the forms that can be keys. -/
def scalarToken (read : Progress → Option (Token × Cursor × Bool)) : Read Unit := do
  note
  let (t, c, mayOpen) ← read (← get)
  setMayOpen mayOpen
  moveTo c
  emit t

def plain (p : Progress) : Option (Token × Cursor × Bool) :=
  let (cs, c, ended) :=
    plainWords p.inFlow (p.indent + 1).toNat p.steps [] false p.cursor
  some (.scalar (String.ofList cs) true, c, ended)

def quotedScalar (p : Progress) : Option (Token × Cursor × Bool) :=
  (quoted p.steps p.cursor).map fun (text, c) => (.scalar text false, c, false)

/-- A block scalar, from its sign on. -/
def blockScalar (fold : Bool) : Read Unit := do
  forget
  setMayOpen true
  let p ← get
  take <| (block fold p.indent p.steps (p.cursor.forward 1)).map fun (text, c) =>
    (.scalar text false, c)

/-- An anchor, a reference to one or a tag; it can begin a key. -/
def property (read : Progress → Option (Token × Cursor)) : Read Unit :=
  scalarToken fun p => (read p).map fun (t, c) => (t, c, false)

/-- May a plain scalar begin here? -/
def beginsPlain (p : Progress) (ch : Char) : Bool :=
  let special := ['-', '?', ':', ',', '[', ']', '\x7b', '\x7d', '#', '&', '*', '!', '|', '>', '\'',
    '"', '%', '@', '\x60']
  (!isGap ch && !special.contains ch)
    || (!p.cursor.endsAt 1 isGap && (ch == '-' || (!p.inFlow && (ch == '?' || ch == ':'))))

/-- The token that begins with a character. -/
def beginningWith (ch : Char) (p : Progress) : Read Unit :=
  let c := p.cursor
  let atMargin := c.column == 0
  let alone := c.endsAt 1 isGap
  if ch == '%' && atMargin then do
    endBlocks fun _ => true
    forget
    setMayOpen false
    take ((directive? p.steps c).map fun (d, c) => (.directive d, c))
  else if ch == '-' && atMargin && c.isSeparator then separator .documentStart
  else if ch == '.' && atMargin && c.isSeparator then separator .documentEnd
  else if ch == '[' then openBracket .flowSequence
  else if ch == '\x7b' then openBracket .flowMapping
  else if ch == ']' then closeBracket .flowSequenceEnd
  else if ch == '\x7d' then closeBracket .flowMappingEnd
  else if ch == ',' then do
    forget
    setMayOpen true
    mark .flowEntry 1
  else if ch == '-' && alone then do
    beginBlock .blockSequence
    forget
    setMayOpen true
    mark .blockEntry 1
  else if ch == '?' && (p.inFlow || alone) then do
    beginBlock .blockMapping
    forget
    setMayOpen !p.inFlow
    mark .key 1
  else if ch == ':' && (p.inFlow || alone) then colon
  else if ch == '*' then
    property fun p => (anchorName? (p.cursor.forward 1)).map fun (n, c) => (.reference n, c)
  else if ch == '&' then
    property fun p => (anchorName? (p.cursor.forward 1)).map fun (n, c) => (.anchor n, c)
  else if ch == '!' then
    property fun p => (tag? p.steps p.cursor).map fun (t, c) => (.tag t, c)
  else if ch == '|' && !p.inFlow then blockScalar false
  else if ch == '>' && !p.inFlow then blockScalar true
  else if ch == '\'' || ch == '"' then scalarToken quotedScalar
  else if beginsPlain p ch then scalarToken plain
  else failure

/-- The tokens of the rest of a text; each is at least one character long. -/
def rest : Nat → Read Unit
  | 0 => failure
  | steps + 1 => do
    let p ← get
    skipGaps p.steps
    dropStale
    let p ← get
    endBlocks fun column => p.cursor.column < column
    let p ← get
    match p.cursor.rest with
    | [] => do
      endBlocks fun _ => true
      forget
      emit .textEnd
    | ch :: _ => do
      beginningWith ch p
      rest steps

/-- The tokens of a text, if it is well formed so far. A mark of byte order in front of it does not
    count. -/
def all? (text : List Char) : Option (List Token) :=
  if text.all isPrintable then
    let c := Cursor.start text
    let c := if c.isAt '\ufeff' then c.forward 1 else c
    ((rest (text.length + 2)).run ⟨c, #[], [], none, [], true⟩).map fun (_, p) => p.tokens.toList
  else none

end Token

end Yaml

end EventCheck
