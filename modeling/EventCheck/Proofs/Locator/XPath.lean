import EventCheck.Json.Reader
import EventCheck.Text.Ranges

/-! # Expressions of XPath 1.0

    What the expressions of locators mean, as far as their grammar says it.

    - `lex` cuts a text into tokens, each as long as it can be.
    - `Tree` is the syntax tree of an expression. It keeps abbreviations and
      parentheses, so it determines the tokens (`Tree.tokens`).
    - `Is` says which trees the productions of the grammar give. A text reads as a tree
      (`Reads`) if it has the tokens of the tree and the tree is an expression.
    - `Tree.value?` is the string that an expression stands for, where functions and
      variables mean anything.
-/

namespace EventCheck

namespace XPath

/-! ## Section 1: Tokens -/

/-- A name, with the prefix in front of its colon. -/
structure Name where
  qualifier : Option String
  localPart : String
  deriving DecidableEq, Repr

/-- The operators between expressions. -/
inductive Operator where
  | or | and | equal | unequal | less | atMost | greater | atLeast
  | plus | minus | times | div | mod | union
  deriving DecidableEq, Repr

/-- What stands between the steps of a path: a slash, or two for steps any number of levels
    down. -/
inductive Separator where
  | child | descend
  deriving DecidableEq, Repr

inductive Token where
  | parenLeft | parenRight | bracketLeft | bracketRight
  | dot | twoDots | atSign | comma | colons
  | wildcard (qualifier : Option String)
  | name (name : Name)
  | literal (s : String)
  | number (text : String)
  | reference (name : Name)
  | separator (separator : Separator)
  | operator (op : Operator)
  deriving DecidableEq, Repr

/-- Does something end with the token, so that an operator has to follow? Behind such a token a star
    multiplies, and a name is that of an operator. -/
def Token.endsOperand : Token → Bool
  | .atSign | .colons | .parenLeft | .bracketLeft | .comma | .separator _ | .operator _ => false
  | _ => true

/-! ## Section 2: From texts to tokens -/

/-- Can a name begin with the character? -/
def isNameStart (c : Char) : Bool :=
  c.isAlpha || c == '_' || inRanges
    [(0xC0, 0xD6), (0xD8, 0xF6), (0xF8, 0x2FF), (0x370, 0x37D), (0x37F, 0x1FFF),
      (0x200C, 0x200D), (0x2070, 0x218F), (0x2C00, 0x2FEF), (0x3001, 0xD7FF),
      (0xF900, 0xFDCF), (0xFDF0, 0xFFFD), (0x10000, 0xEFFFF)] c

/-- Can the character stand in a name? -/
def isNameChar (c : Char) : Bool :=
  isNameStart c || c.isDigit || c == '-' || c == '.'
    || inRanges [(0xB7, 0xB7), (0x300, 0x36F), (0x203F, 0x2040)] c

/-- A literal behind its opening quote, up to the next such quote, and what follows. There is no
    way to write that quote in it. -/
def literal? (quote : Char) (cs : List Char) : Option (Token × List Char) :=
  match cs.dropWhile (· != quote) with
  | [] => none
  | _ :: rest => some (.literal (String.ofList (cs.takeWhile (· != quote))), rest)

/-- The name at the front, with a prefix if it has one, and what follows. -/
def qualified (cs : List Char) : Name × List Char :=
  let first := String.ofList (cs.takeWhile isNameChar)
  match cs.dropWhile isNameChar with
  | ':' :: c :: r =>
    if isNameStart c then
      (⟨some first, String.ofList ((c :: r).takeWhile isNameChar)⟩, (c :: r).dropWhile isNameChar)
    else (⟨none, first⟩, ':' :: c :: r)
  | rest => (⟨none, first⟩, rest)

/-- A name at the front, or a star behind a prefix, and what follows. Behind an operand it has to be
    the name of an operator. -/
def nameToken? (afterOperand : Bool) (cs : List Char) : Option (Token × List Char) :=
  let rest := cs.dropWhile isNameChar
  let first := String.ofList (cs.takeWhile isNameChar)
  if afterOperand then
    if first = "or" then some (.operator .or, rest)
    else if first = "and" then some (.operator .and, rest)
    else if first = "mod" then some (.operator .mod, rest)
    else if first = "div" then some (.operator .div, rest)
    else none
  else
    match rest with
    | ':' :: '*' :: r => some (.wildcard (some first), r)
    | _ =>
      let (name, r) := qualified cs
      some (.name name, r)

/-- The number at the front, and what follows. -/
def number (cs : List Char) : Token × List Char :=
  let whole := cs.takeWhile Char.isDigit
  match cs.dropWhile Char.isDigit with
  | '.' :: r =>
    (.number (String.ofList (whole ++ '.' :: r.takeWhile Char.isDigit)), r.dropWhile Char.isDigit)
  | rest => (.number (String.ofList whole), rest)

/-- What begins with a point: a point, two of them, or a number; and what follows. -/
def point (r : List Char) : Token × List Char :=
  match r with
  | '.' :: r => (.twoDots, r)
  | c :: _ =>
    if c.isDigit then
      (.number (String.ofList ('.' :: r.takeWhile Char.isDigit)), r.dropWhile Char.isDigit)
    else (.dot, r)
  | [] => (.dot, [])

/-- The name of a variable, and what follows. -/
def reference? (cs : List Char) : Option (Token × List Char) :=
  match cs with
  | c :: _ =>
    if isNameStart c then some (.reference (qualified cs).1, (qualified cs).2) else none
  | [] => none

/-- The symbol at the front, and what follows. -/
def symbol? (afterOperand : Bool) : List Char → Option (Token × List Char)
  | '(' :: r => some (.parenLeft, r)
  | ')' :: r => some (.parenRight, r)
  | '[' :: r => some (.bracketLeft, r)
  | ']' :: r => some (.bracketRight, r)
  | '@' :: r => some (.atSign, r)
  | ',' :: r => some (.comma, r)
  | ':' :: ':' :: r => some (.colons, r)
  | '/' :: '/' :: r => some (.separator .descend, r)
  | '/' :: r => some (.separator .child, r)
  | '|' :: r => some (.operator .union, r)
  | '+' :: r => some (.operator .plus, r)
  | '-' :: r => some (.operator .minus, r)
  | '=' :: r => some (.operator .equal, r)
  | '!' :: '=' :: r => some (.operator .unequal, r)
  | '<' :: '=' :: r => some (.operator .atMost, r)
  | '<' :: r => some (.operator .less, r)
  | '>' :: '=' :: r => some (.operator .atLeast, r)
  | '>' :: r => some (.operator .greater, r)
  | '*' :: r => some (if afterOperand then .operator .times else .wildcard none, r)
  | _ => none

/-- The token at the front of a text that does not begin with a blank, and what follows. -/
def token? (afterOperand : Bool) (cs : List Char) : Option (Token × List Char) :=
  match symbol? afterOperand cs with
  | some found => some found
  | none =>
    match cs with
    | [] => none
    | c :: r =>
      if c = '"' ∨ c = '\'' then literal? c r
      else if c = '.' then some (point r)
      else if c = '$' then reference? r
      else if c.isDigit then some (number cs)
      else if isNameStart c then nameToken? afterOperand cs
      else none

/-! A token takes at least one character. -/

theorem length_dropWhile_le (p : Char → Bool) (cs : List Char) :
    (cs.dropWhile p).length ≤ cs.length := (List.dropWhile_sublist p).length_le

theorem length_dropWhile_lt {p : Char → Bool} {c : Char} (hc : p c = true) (r : List Char) :
    ((c :: r).dropWhile p).length < (c :: r).length := by
  rw [List.dropWhile_cons_of_pos hc, List.length_cons]
  exact Nat.lt_succ_of_le (length_dropWhile_le p r)

theorem length_le_of_literal? {quote : Char} {cs rest : List Char} {t : Token}
    (h : literal? quote cs = some (t, rest)) : rest.length ≤ cs.length := by
  have hle := length_dropWhile_le (· != quote) cs
  unfold literal? at h
  split at h
  · cases h
  · next heq =>
    cases h
    rw [heq, List.length_cons] at hle
    omega

theorem length_qualified_le (cs : List Char) :
    (qualified cs).2.length ≤ (cs.dropWhile isNameChar).length := by
  unfold qualified
  split
  · next c r heq =>
    rw [heq]
    split
    · have := length_dropWhile_le isNameChar (c :: r)
      simp only [List.length_cons] at *
      omega
    · exact Nat.le_refl _
  · exact Nat.le_refl _

theorem length_number_le (cs : List Char) :
    (number cs).2.length ≤ (cs.dropWhile Char.isDigit).length := by
  unfold number
  split
  · next r heq =>
    have := length_dropWhile_le Char.isDigit r
    simp only [heq, List.length_cons]
    omega
  · next heq => exact Nat.le_refl _

theorem length_le_of_nameToken? {afterOperand : Bool} {cs rest : List Char} {t : Token}
    (h : nameToken? afterOperand cs = some (t, rest)) :
    rest.length ≤ (cs.dropWhile isNameChar).length := by
  unfold nameToken? at h
  dsimp only at h
  split at h
  · repeat' split at h
    all_goals cases h; try exact Nat.le_refl _
  · split at h
    · next heq =>
      cases h
      rw [heq, List.length_cons, List.length_cons]
      omega
    · cases h
      exact length_qualified_le cs

theorem length_point_le (r : List Char) : (point r).2.length ≤ r.length := by
  unfold point
  split
  · exact Nat.le_succ _
  · next c rest =>
    split
    · exact length_dropWhile_le Char.isDigit _
    · exact Nat.le_refl _
  · exact Nat.le_refl _

theorem length_le_of_reference? {cs rest : List Char} {t : Token}
    (h : reference? cs = some (t, rest)) : rest.length ≤ cs.length := by
  unfold reference? at h
  split at h
  · next c r =>
    split at h
    · cases h
      exact Nat.le_trans (length_qualified_le _) (length_dropWhile_le isNameChar _)
    · cases h
  · cases h

theorem length_lt_of_symbol? {afterOperand : Bool} {cs rest : List Char} {t : Token}
    (h : symbol? afterOperand cs = some (t, rest)) : rest.length < cs.length := by
  unfold symbol? at h
  split at h <;> cases h <;> simp only [List.length_cons] <;> omega

theorem length_lt_of_token? {afterOperand : Bool} {cs rest : List Char} {t : Token}
    (h : token? afterOperand cs = some (t, rest)) : rest.length < cs.length := by
  unfold token? at h
  split at h
  · next hsymbol =>
    cases h
    exact length_lt_of_symbol? hsymbol
  split at h
  · cases h
  next c r _ =>
  split at h
  · exact Nat.lt_succ_of_le (length_le_of_literal? h)
  split at h
  · have hle := length_point_le r
    rw [Option.some.inj h] at hle
    exact Nat.lt_succ_of_le hle
  split at h
  · exact Nat.lt_succ_of_le (length_le_of_reference? h)
  split at h
  · next hdigit =>
    have hle := length_number_le (c :: r)
    rw [Option.some.inj h] at hle
    exact Nat.lt_of_le_of_lt hle (length_dropWhile_lt hdigit r)
  split at h
  · next hstart =>
    have hchar : isNameChar c = true := by simp [isNameChar, hstart]
    exact Nat.lt_of_le_of_lt (length_le_of_nameToken? h) (length_dropWhile_lt hchar r)
  · cases h

/-- The tokens of a text, of which each is as long as it can be. Blanks may stand between them. -/
def tokens? (afterOperand : Bool) (cs : List Char) : Option (List Token) :=
  match hblank : Json.skipBlanks cs with
  | [] => some []
  | c :: r =>
    match htoken : token? afterOperand (c :: r) with
    | none => none
    | some (t, rest) =>
      have hless : rest.length < cs.length := by
        have := length_lt_of_token? htoken
        have := Json.length_skipBlanks_le cs
        rw [hblank] at this
        omega
      (tokens? t.endsOperand rest).map (t :: ·)
  termination_by cs.length

/-- The tokens of a whole text. -/
def lex (text : String) : Option (List Token) := tokens? false text.toList

theorem tokens?_eq (afterOperand : Bool) (cs : List Char) : tokens? afterOperand cs =
    match Json.skipBlanks cs with
    | [] => some []
    | c :: r => (token? afterOperand (c :: r)).bind fun (t, rest) =>
      (tokens? t.endsOperand rest).map (t :: ·) := by
  rw [tokens?]
  split
  · next hblank => rw [hblank]
  · next c r hblank =>
    split
    · next hnone => simp only [hblank, hnone, Option.bind_none]
    · next hsome => simp only [hblank, hsome, Option.bind_some]

/-- The tokens of a text: the one at the front, behind blanks, and those of the rest. -/
theorem tokens?_cons {afterOperand : Bool} {cs rest : List Char} {t : Token}
    (h : token? afterOperand (Json.skipBlanks cs) = some (t, rest)) :
    tokens? afterOperand cs = (tokens? t.endsOperand rest).map (t :: ·) := by
  rw [tokens?_eq]
  split
  · next hblank =>
    rw [hblank] at h
    cases h
  · next hblank =>
    rw [hblank] at h
    rw [h, Option.bind_some]

/-- Blanks in front of a text make no difference. -/
theorem tokens?_blank {c : Char} (hc : Json.isBlank c = true) (afterOperand : Bool)
    (cs : List Char) : tokens? afterOperand (c :: cs) = tokens? afterOperand cs := by
  have hskip : Json.skipBlanks (c :: cs) = Json.skipBlanks cs := List.dropWhile_cons_of_pos hc
  rw [tokens?_eq, hskip, ← tokens?_eq]

/-! ## Section 3: Syntax trees -/

/-- How the axis of a step is written: not at all, by an at sign, or by its name. -/
inductive Axis where
  | implied | attribute
  | named (name : String)
  deriving DecidableEq, Repr

/-- Which nodes of the axis a step goes to. -/
inductive NodeTest where
  | wildcard (qualifier : Option String)
  | name (name : Name)
  | type (type : String)
  | instruction (target : String)
  deriving DecidableEq, Repr

/-- The syntax tree of an expression, with its parentheses. -/
inductive Tree where
  | literal (s : String)
  | number (text : String)
  | reference (name : Name)
  | group (e : Tree)
  | call (function : Name) (arguments : List Tree)
  | select (e predicate : Tree)
  | self
  | parent
  | step (axis : Axis) (test : NodeTest) (predicates : List Tree)
  | join (path : Tree) (separator : Separator) (rest : Tree)
  | root
  | rooted (separator : Separator) (path : Tree)
  | negate (e : Tree)
  | binary (left : Tree) (op : Operator) (right : Tree)

/-- The name without a prefix. -/
def simple (name : String) : Name := ⟨none, name⟩

def Axis.tokens : Axis → List Token
  | .implied => []
  | .attribute => [.atSign]
  | .named name => [.name (simple name), .colons]

def NodeTest.tokens : NodeTest → List Token
  | .wildcard qualifier => [.wildcard qualifier]
  | .name n => [.name n]
  | .type t => [.name (simple t), .parenLeft, .parenRight]
  | .instruction target =>
    [.name (simple "processing-instruction"), .parenLeft, .literal target, .parenRight]

namespace Tree

mutual

/-- **The tokens of a tree.** -/
def tokens : Tree → List Token
  | .literal s => [.literal s]
  | .number text => [.number text]
  | .reference name => [.reference name]
  | .group e => .parenLeft :: (e.tokens ++ [.parenRight])
  | .call function arguments =>
    .name function :: .parenLeft :: (argumentTokens arguments ++ [.parenRight])
  | .select e predicate => e.tokens ++ .bracketLeft :: (predicate.tokens ++ [.bracketRight])
  | .self => [.dot]
  | .parent => [.twoDots]
  | .step axis test predicates => axis.tokens ++ test.tokens ++ predicateTokens predicates
  | .join path separator rest => path.tokens ++ .separator separator :: rest.tokens
  | .root => [.separator .child]
  | .rooted separator path => .separator separator :: path.tokens
  | .negate e => .operator .minus :: e.tokens
  | .binary left op right => left.tokens ++ .operator op :: right.tokens

def argumentTokens : List Tree → List Token
  | [] => []
  | [e] => e.tokens
  | e :: rest => e.tokens ++ .comma :: argumentTokens rest

def predicateTokens : List Tree → List Token
  | [] => []
  | e :: rest => .bracketLeft :: (e.tokens ++ .bracketRight :: predicateTokens rest)

end

/-- A tree has at least one token. -/
theorem tokens_ne_nil (e : Tree) : e.tokens ≠ [] := by
  cases e with
  | step axis test predicates => cases test <;> simp [tokens, NodeTest.tokens]
  | _ => simp [tokens]

end Tree

/-! ## Section 4: The grammar -/

/-- What an expression may be, from the loosest binding to the tightest, and the parts of paths. -/
inductive Category where
  | or | and | equality | relational | additive | multiplicative | unary | union | path
  | filter | primary | relative | step
  deriving DecidableEq, Repr

/-- What is an expression of the category as it stands. -/
def Category.inner : Category → List Category
  | .or => [.and]
  | .and => [.equality]
  | .equality => [.relational]
  | .relational => [.additive]
  | .additive => [.multiplicative]
  | .multiplicative => [.unary]
  | .unary => [.union]
  | .union => [.path]
  | .path => [.relative, .filter]
  | .filter => [.primary]
  | .relative => [.step]
  | .primary | .step => []

def Operator.category : Operator → Category
  | .or => .or
  | .and => .and
  | .equal | .unequal => .equality
  | .less | .atMost | .greater | .atLeast => .relational
  | .plus | .minus => .additive
  | .times | .div | .mod => .multiplicative
  | .union => .union

def axisNames : List String :=
  ["ancestor", "ancestor-or-self", "attribute", "child", "descendant", "descendant-or-self",
    "following", "following-sibling", "namespace", "parent", "preceding", "preceding-sibling",
    "self"]

def nodeTypes : List String := ["comment", "text", "processing-instruction", "node"]

def Axis.isKnown : Axis → Bool
  | .named name => axisNames.contains name
  | _ => true

def NodeTest.isKnown : NodeTest → Bool
  | .type t => nodeTypes.contains t
  | _ => true

/-- **The productions of the grammar.** Operators bind to the left; an expression of a tighter
    category may stand for one of a looser category. -/
inductive Is : Category → Tree → Prop where
  | lift {outer : Category} (inner : Category) {e : Tree} (hinner : inner ∈ outer.inner)
      (h : Is inner e) : Is outer e
  | literal (s : String) : Is .primary (.literal s)
  | number (text : String) : Is .primary (.number text)
  | reference (name : Name) : Is .primary (.reference name)
  | group {e : Tree} (h : Is .or e) : Is .primary (.group e)
  | call {function : Name} {arguments : List Tree}
      (hfunction : ∀ type ∈ nodeTypes, function ≠ simple type)
      (h : ∀ e ∈ arguments, Is .or e) : Is .primary (.call function arguments)
  | select {e predicate : Tree} (he : Is .filter e) (hpredicate : Is .or predicate) :
      Is .filter (.select e predicate)
  | self : Is .step .self
  | parent : Is .step .parent
  | step {axis : Axis} {test : NodeTest} {predicates : List Tree} (haxis : axis.isKnown = true)
      (htest : test.isKnown = true) (h : ∀ e ∈ predicates, Is .or e) :
      Is .step (.step axis test predicates)
  | onward {path rest : Tree} (separator : Separator) (hpath : Is .relative path)
      (hrest : Is .step rest) : Is .relative (.join path separator rest)
  | root : Is .path .root
  | rooted {path : Tree} (separator : Separator) (h : Is .relative path) :
      Is .path (.rooted separator path)
  | follow {path rest : Tree} (separator : Separator) (hpath : Is .filter path)
      (hrest : Is .relative rest) : Is .path (.join path separator rest)
  | negate {e : Tree} (h : Is .unary e) : Is .unary (.negate e)
  | binary (op : Operator) (inner : Category) {left right : Tree}
      (hinner : inner ∈ op.category.inner) (hleft : Is op.category left) (hright : Is inner right) :
      Is op.category (.binary left op right)

/-- **The text reads as the expression.** -/
def Reads (text : String) (e : Tree) : Prop := lex text = some e.tokens ∧ Is .or e

/-! ## Section 5: Strings -/

/-- What functions and variables stand for where an expression is used. -/
structure Meaning where
  call : Name → List Tree → Option String
  reference : Name → Option String

/-- **The string that an expression stands for.** Numbers, conditions and sets of nodes are no
    strings. -/
def Tree.value? (m : Meaning) : Tree → Option String
  | .literal s => some s
  | .group e => e.value? m
  | .call function arguments => m.call function arguments
  | .reference name => m.reference name
  | .number _ | .select _ _ | .self | .parent | .step _ _ _ | .join _ _ _ | .root | .rooted _ _
  | .negate _ | .binary _ _ _ => none

/-- A string that begins with a literal is that literal. -/
theorem value?_of_literal {m : Meaning} {e : Tree} {s v : String} {rest : List Token}
    (htokens : e.tokens = .literal s :: rest) (hvalue : e.value? m = some v) : v = s := by
  cases e with
  | literal s' =>
    cases htokens
    cases hvalue
    rfl
  | group e => cases htokens
  | call function arguments => cases htokens
  | reference name => cases htokens
  | _ => cases hvalue

end XPath

end EventCheck
