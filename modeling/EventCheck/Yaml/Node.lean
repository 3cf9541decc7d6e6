import EventCheck.Keyed
import EventCheck.Yaml.Tag
import EventCheck.Yaml.Token

/-! # Nodes

    A document as a tree of scalars, sequences and mappings.

    - A reference stands for the node with its anchor. Inside of that node there is
      nothing to stand for yet: `Node.enclosing` takes its place.
    - The entries of a merged mapping stand in front of a mapping's own
      (`Node.merged?`).
    - `Node.ofText?` is the only document of a text; a text with several is malformed.
-/

namespace EventCheck

namespace Yaml

inductive Node where
  | scalar (tag : Tag) (text : String)
  | sequence (tag : Tag) (items : List Node)
  | mapping (tag : Tag) (entries : List (Node × Node))
  | enclosing (isMapping : Bool)
  deriving Inhabited

namespace Node

/-! ## Merging -/

/-- The entries of a node that is merged into a mapping. -/
def entries? : Node → Option (List (Node × Node))
  | .mapping _ entries => some entries
  | .enclosing true => some []
  | _ => none

/-- The entries of all the nodes that the value of a merge names; those of later ones come first,
    so that an earlier one counts. -/
def merging? : Node → Option (List (Node × Node))
  | .sequence _ items => (items.reverse.mapM entries?).map List.flatten
  | .enclosing false => some []
  | node => node.entries?

def isMerge : Node → Bool
  | .scalar tag _ => tag == .merge
  | _ => false

/-- A key; the sign for a value is a text there. -/
def asKey : Node → Node
  | .scalar .value text => .scalar .text text
  | node => node

/-- The entries of a mapping, with those that are merged into it in front. -/
def merged? (entries : List (Node × Node)) : Option (List (Node × Node)) := do
  let merged ← (entries.filter fun (k, _) => k.isMerge).mapM fun (_, v) => v.merging?
  let own := (entries.filter fun (k, _) => !k.isMerge).map fun (k, v) => (k.asKey, v)
  pure (merged.flatten ++ own)

/-! ## Reading tokens -/

/-- What is left of the tokens, the nodes with anchors, and what the handles stand for. -/
structure Progress where
  tokens : List Token
  anchors : Keyed Node
  handles : Keyed String

abbrev Read := StateT Progress Option

def peek? : Read (Option Token) := do pure (← get).tokens.head?

def pass : Read Unit := modify fun p => { p with tokens := p.tokens.drop 1 }

def next? : Read (Option Token) := do
  let t ← peek?
  pass
  pure t

/-- The node that nothing stands for. -/
def absent : Node := .scalar .nothing ""

/-- The node that comes next; one that nothing stands for if a token of some sort comes next. -/
def nodeUnless (isOver : Token → Bool) (read : Read Node) : Read Node := do
  match ← peek? with
  | some t => if isOver t then pure absent else read
  | none => failure

/-- Is the value of an entry here? Its mark is passed. -/
def hasValue : Read Bool := do
  match ← peek? with
  | some .value => do
    pass
    pure true
  | _ => pure false

def endsEntry : Token → Bool
  | .blockEntry | .blockEnd => true
  | _ => false

def endsListEntry : Token → Bool
  | .blockEntry | .key | .value | .blockEnd => true
  | _ => false

def endsPairPart : Token → Bool
  | .key | .value | .blockEnd => true
  | _ => false

def endsFlowItem : Token → Bool
  | .value | .flowEntry | .flowSequenceEnd => true
  | _ => false

def endsFlowPart : Token → Bool
  | .value | .flowEntry | .flowMappingEnd => true
  | _ => false

/-! ## Properties -/

def anchorHere : Read (Option String) := do
  match ← peek? with
  | some (.anchor name) => do
    pass
    pure (some name)
  | _ => pure none

def tagHere : Read (Option TagText) := do
  match ← peek? with
  | some (.tag tag) => do
    pass
    pure (some tag)
  | _ => pure none

/-- An anchor and a tag in either order. -/
def properties : Read (Option String × Option TagText) := do
  let anchor ← anchorHere
  let tag ← tagHere
  match anchor, tag with
  | none, some tag => do pure (← anchorHere, some tag)
  | _, _ => pure (anchor, tag)

/-- The name of a tag. -/
def nameOf (tag : TagText) : Read String := do
  match tag.handle with
  | none => pure tag.suffix
  | some handle =>
    match Keyed.get? (← get).handles handle with
    | some stem => pure (stem ++ tag.suffix)
    | none => failure

/-- The tag that leaves open what a node is. -/
def openTag : String := "!"

/-- What is written of a tag: nothing, that it is open, or the tag. -/
inductive Given where
  | nothing
  | isOpen
  | named (tag : Tag)

def givenBy (tag : Option TagText) : Read Given := do
  match tag with
  | none => pure .nothing
  | some tag =>
    let name ← nameOf tag
    pure (if name == openTag then .isOpen else .named (.ofName name))

/-- The tag of a scalar. -/
def Given.ofScalar (g : Given) (text : String) (isPlain : Bool) : Tag :=
  match g with
  | .nothing => if isPlain then .ofPlain text else .text
  | .isOpen => .ofPlain text
  | .named tag => tag

/-- The tag of a collection that without one is of a sort. -/
def Given.orElse (g : Given) (sort : Tag) : Tag :=
  match g with
  | .named tag => tag
  | _ => sort

/-! ## Anchors -/

/-- Gives a node its anchor, which no other node may have. -/
def anchorAs (anchor : Option String) (node : Node) : Read Unit := do
  match anchor with
  | none => pure ()
  | some name =>
    let p ← get
    if (Keyed.get? p.anchors name).isSome then failure
    else set { p with anchors := (name, node) :: p.anchors }

/-- Puts a node that is complete in the place of what its anchor meant so far. -/
def complete (anchor : Option String) (node : Node) : Read Node := do
  match anchor with
  | none => pure node
  | some name => do
    modify fun p => { p with anchors := (name, node) :: p.anchors }
    pure node

def sequenceOf (anchor : Option String) (given : Given) (items : Read (List Node)) :
    Read Node := do
  pass
  anchorAs anchor (.enclosing false)
  let items ← items
  complete anchor (.sequence (given.orElse .list) items)

def mappingOf (anchor : Option String) (given : Given) (entries : Read (List (Node × Node))) :
    Read Node := do
  pass
  anchorAs anchor (.enclosing true)
  let entries ← entries
  complete anchor (.mapping (given.orElse .mapping) (← merged? entries))

def scalarOf (anchor : Option String) (given : Given) (text : String) (isPlain : Bool) :
    Read Node := do
  let node := Node.scalar (given.ofScalar text isPlain) text
  anchorAs anchor node
  pure node

/-! ## Nodes

    Every function is bounded by a number of steps, for which the number of
    tokens is enough.
-/

mutual

/-- The node that comes next. In a block it may be a block itself; as part of a pair there it may be
    a list whose entries are not set in. -/
def node (inBlock inPair : Bool) : Nat → Read Node
  | 0 => failure
  | steps + 1 => do
    match ← peek? with
    | some (.reference name) => do
      pass
      match Keyed.get? (← get).anchors name with
      | some node => pure node
      | none => failure
    | _ => do
      let (anchor, tag) ← properties
      let given ← givenBy tag
      match ← peek?, inBlock, inPair with
      | some (.scalar text isPlain), _, _ => do
        pass
        scalarOf anchor given text isPlain
      | some .flowSequence, _, _ => sequenceOf anchor given (flowItems true steps)
      | some .flowMapping, _, _ => mappingOf anchor given (flowPairs true steps)
      | some .blockSequence, true, _ => sequenceOf anchor given (blockItems steps)
      | some .blockMapping, true, _ => mappingOf anchor given (blockPairs steps)
      | some .blockEntry, _, true => sequenceOf anchor given (firstListItem steps)
      | _, _, _ =>
        if anchor.isSome || tag.isSome then scalarOf anchor given "" true else failure

/-- The items of a list in a block. -/
def blockItems : Nat → Read (List Node)
  | 0 => failure
  | steps + 1 => do
    match ← next? with
    | some .blockEntry => do
      let item ← nodeUnless endsEntry (node true false steps)
      pure (item :: (← blockItems steps))
    | some .blockEnd => pure []
    | _ => failure

/-- The items of a list that is not set in, behind the mark of its first one. -/
def firstListItem : Nat → Read (List Node)
  | 0 => failure
  | steps + 1 => do
    let item ← nodeUnless endsListEntry (node true false steps)
    match ← peek? with
    | some .blockEntry => do
      pass
      pure (item :: (← firstListItem steps))
    | _ => pure [item]

/-- The entries of a mapping in a block. -/
def blockPairs : Nat → Read (List (Node × Node))
  | 0 => failure
  | steps + 1 => do
    match ← next? with
    | some .key => do
      let key ← nodeUnless endsPairPart (node true true steps)
      let value ←
        match ← hasValue with
        | true => nodeUnless endsPairPart (node true true steps)
        | false => pure absent
      pure ((key, value) :: (← blockPairs steps))
    | some .blockEnd => pure []
    | _ => failure

/-- The items of a list in brackets; a pair is an item with one entry. -/
def flowItems (isFirst : Bool) : Nat → Read (List Node)
  | 0 => failure
  | steps + 1 => do
    match ← peek?, isFirst with
    | some .flowSequenceEnd, _ => do
      pass
      pure []
    | some .flowEntry, false => do
      pass
      flowItems true steps
    | _, false => failure
    | some .key, true => do
      pass
      let key ← nodeUnless endsFlowItem (node false false steps)
      let value ←
        match ← hasValue with
        | true => nodeUnless endsFlowItem (node false false steps)
        | false => pure absent
      let entries ← merged? [(key, value)]
      pure (.mapping .mapping entries :: (← flowItems false steps))
    | _, true => do
      let item ← node false false steps
      pure (item :: (← flowItems false steps))

/-- The entries of a mapping in brackets. -/
def flowPairs (isFirst : Bool) : Nat → Read (List (Node × Node))
  | 0 => failure
  | steps + 1 => do
    match ← peek?, isFirst with
    | some .flowMappingEnd, _ => do
      pass
      pure []
    | some .flowEntry, false => do
      pass
      flowPairs true steps
    | _, false => failure
    | some .key, true => do
      pass
      let key ← nodeUnless endsFlowPart (node false false steps)
      let value ←
        match ← hasValue with
        | true => nodeUnless endsFlowPart (node false false steps)
        | false => pure absent
      pure ((key, value) :: (← flowPairs false steps))
    | _, true => do
      let key ← node false false steps
      pure ((key, absent) :: (← flowPairs false steps))

end

/-! ## Documents -/

/-- What the usual handles stand for. -/
def usualHandles : Keyed String := [("!", "!"), ("!!", Tag.stem)]

/-- The directives in front of a document, and what its handles stand for. A version or a handle
    may be given once, and only the first version is known. -/
def directives (hasVersion : Bool) (handles : Keyed String) : List Token →
    Option (Keyed String × List Token)
  | .directive (.version major) :: rest =>
    if hasVersion || major != 1 then none else directives true handles rest
  | .directive (.handle name stem) :: rest =>
    if (Keyed.get? handles name).isSome then none
    else directives hasVersion ((name, stem) :: handles) rest
  | .directive .other :: rest => directives hasVersion handles rest
  | rest => some (handles ++ usualHandles, rest)

/-- Do the tokens behind a document end the text? -/
def endsText : List Token → Bool
  | .documentEnd :: rest => endsText rest
  | [.textEnd] => true
  | _ => false

def isOutside : Token → Bool
  | .directive _ | .documentStart | .documentEnd | .textEnd => true
  | _ => false

/-- The node of the document that the tokens are. -/
def readDocument (handles : Keyed String) (tokens : List Token) (mayBeAbsent : Bool) :
    Option Node := do
  let steps := tokens.length + 2
  let read :=
    if mayBeAbsent then nodeUnless isOutside (node true false steps) else node true false steps
  let (root, p) ← read.run ⟨tokens, [], handles⟩
  if endsText p.tokens then pure root else none

/-- The document that tokens are, if they are one; no tokens are no document. -/
def ofTokens? (tokens : List Token) : Option (Option Node) :=
  match tokens with
  | [.textEnd] => some none
  | .directive _ :: _ | .documentStart :: _ =>
    match directives false [] tokens with
    | some (handles, .documentStart :: rest) => (readDocument handles rest true).map some
    | _ => none
  | _ => (readDocument usualHandles tokens false).map some

/-- The document that a text is, if it is well formed. -/
def ofText? (text : String) : Option (Option Node) := (Token.all? text.toList).bind ofTokens?

end Node

end Yaml

end EventCheck
