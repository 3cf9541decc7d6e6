import EventCheck.Session.Verifier
import EventCheck.Proofs.Locator.XPath

/-! # What locators denote

    A locator is an expression of XPath in which the name of an item stands between
    apostrophes. It is the expression that it should be, with the name in it, exactly
    if there is no apostrophe in the name (`PageElement.shows_name_iff`).

    - `Locator.Shows`: the locator reads as an expression of the shape that it should
      have, with a string in it that is the name.
    - `XPath.tokens?_literal`: a literal ends at the first apostrophe.
    - `XPath.Frame.value?_ne_of_mem`: so whatever follows, the string that begins there
      is no more than what stands before that apostrophe.
-/

namespace EventCheck

namespace XPath

/-! ## Section 1: Literals in texts -/

/-- **A literal ends at the first apostrophe.** -/
theorem tokens?_literal {s : List Char} (hs : '\'' ∉ s) (rest : List Char) :
    tokens? false ('\'' :: (s ++ '\'' :: rest)) =
      (tokens? true rest).map (.literal (String.ofList s) :: ·) := by
  have hother : ∀ c ∈ s, (c != '\'') = true := by
    intro c hin
    rw [bne_iff_ne]
    rintro rfl
    exact hs hin
  have hdrop : (s ++ '\'' :: rest).dropWhile (· != '\'') = '\'' :: rest := by
    rw [List.dropWhile_append_of_pos hother]
    rfl
  have htake : (s ++ '\'' :: rest).takeWhile (· != '\'') = s := by
    rw [List.takeWhile_append_of_pos hother]
    exact List.append_nil s
  have htoken : token? false ('\'' :: (s ++ '\'' :: rest)) =
      some (.literal (String.ofList s), rest) := by
    show literal? '\'' (s ++ '\'' :: rest) = _
    rw [literal?, hdrop, htake]
  exact tokens?_cons htoken

/-- **A frame for a literal**: the texts before and behind it, the shape that an expression has
    which stands there, and the tokens of that shape. -/
structure Frame where
  before : String
  behind : String
  front : List Token
  back : List Token
  shape : Tree → Tree
  tokens_shape : ∀ e, (shape e).tokens = front ++ (e.tokens ++ back)
  tokens_before : ∀ rest, tokens? false (before.toList ++ '\'' :: rest) =
    (tokens? false ('\'' :: rest)).map (front ++ ·)
  tokens_behind : tokens? true behind.toList = some back
  is_shape : ∀ s, Is .or (shape (.literal s))

namespace Frame

/-- The frame with a text between apostrophes. -/
def filled (frame : Frame) (text : String) : String :=
  frame.before ++ "'" ++ text ++ "'" ++ frame.behind

variable {frame : Frame} {text : String}

theorem toList_filled (frame : Frame) (text : String) : (frame.filled text).toList =
    frame.before.toList ++ '\'' :: (text.toList ++ '\'' :: frame.behind.toList) := by
  have hquote : "'".toList = ['\''] := rfl
  simp only [filled, String.toList_append, hquote, List.append_assoc, List.singleton_append]
  rfl

/-- **A text without apostrophes is read as the literal that it should be.** -/
theorem reads_filled (h : '\'' ∉ text.toList) :
    Reads (frame.filled text) (frame.shape (.literal text)) := by
  refine ⟨?_, frame.is_shape text⟩
  rw [lex, toList_filled, frame.tokens_before, tokens?_literal h, frame.tokens_behind,
    frame.tokens_shape, String.ofList_toList]
  rfl

/-- In a text with an apostrophe the literal ends there, and the rest of the text is read as a part
    of the expression. -/
theorem lex_filled {start others : List Char} (htext : text.toList = start ++ '\'' :: others)
    (hstart : '\'' ∉ start) : lex (frame.filled text) =
      (tokens? true (others ++ '\'' :: frame.behind.toList)).map
        fun rest => frame.front ++ .literal (String.ofList start) :: rest := by
  have hchars : (frame.filled text).toList = frame.before.toList ++
      '\'' :: (start ++ '\'' :: (others ++ '\'' :: frame.behind.toList)) := by
    rw [toList_filled, htext, List.append_assoc, List.cons_append]
  rw [lex, hchars, frame.tokens_before, tokens?_literal hstart, Option.map_map]
  rfl

/-- **Of a text with an apostrophe, no more than what stands before it is in the string**, whatever
    else the expression may be read as. -/
theorem value?_ne_of_mem {m : Meaning} {e : Tree} (h : '\'' ∈ text.toList)
    (hlex : lex (frame.filled text) = some (frame.shape e).tokens) :
    e.value? m ≠ some text := by
  intro hvalue
  obtain ⟨start, others, htext, hstart⟩ := List.eq_append_cons_of_mem h
  rw [lex_filled htext hstart, Option.map_eq_some_iff] at hlex
  obtain ⟨rest, -, htokens⟩ := hlex
  rw [frame.tokens_shape] at htokens
  have hinner : e.tokens ++ frame.back = .literal (String.ofList start) :: rest :=
    (List.append_cancel_left htokens).symm
  obtain ⟨t, ts, he⟩ := List.exists_cons_of_ne_nil e.tokens_ne_nil
  rw [he, List.cons_append] at hinner
  rw [(List.cons.inj hinner).1] at he
  -- so the string is what stands before the apostrophe, which is not the whole text
  have hshort : text.toList = start := by
    rw [value?_of_literal he hvalue, String.toList_ofList]
  rw [hshort] at htext
  have hlength := congrArg List.length htext
  rw [List.length_append, List.length_cons] at hlength
  omega

/-- **A text in its frame is read as the string that it is, exactly if no apostrophe is in it.** -/
theorem shows_iff (frame : Frame) (text : String) (m : Meaning) :
    (∃ e, Reads (frame.filled text) (frame.shape e) ∧ e.value? m = some text) ↔
      '\'' ∉ text.toList := by
  constructor
  · rintro ⟨e, ⟨hlex, -⟩, hvalue⟩ hin
    exact value?_ne_of_mem hin hlex hvalue
  · exact fun h => ⟨.literal text, reads_filled h, rfl⟩

end Frame

/-! ## Section 2: The shapes of locators -/

namespace Is

variable {e : Tree}

/-- A path is an expression of every category up to a comparison. -/
theorem relational (h : Is .path e) : Is .relational e :=
  .lift .additive (by decide) <| .lift .multiplicative (by decide) <|
    .lift .unary (by decide) <| .lift .union (by decide) <|
    .lift .path (by decide) h

/-- What is no looser than an equation is an expression. -/
theorem expression (h : Is .equality e) : Is .or e :=
  .lift .and (by decide) <| .lift .equality (by decide) h

theorem ofRelative (h : Is .relative e) : Is .path e := .lift .relative (by decide) h

theorem ofPrimary (h : Is .primary e) : Is .path e :=
  .lift .filter (by decide) <| .lift .primary (by decide) h

theorem ofStep (h : Is .step e) : Is .relative e := .lift .step (by decide) h

/-- A step to an attribute. -/
theorem toAttribute (name : String) :
    Is .relational (.step .attribute (.name (simple name)) []) :=
  relational (ofRelative (ofStep (.step rfl rfl nofun)))

theorem ofLiteral (s : String) : Is .relational (.literal s) := relational (ofPrimary (.literal s))

/-- An attribute is said to be a string. -/
theorem equation (name s : String) : Is .equality
    (.binary (.step .attribute (.name (simple name)) []) .equal (.literal s)) :=
  .binary .equal .relational (by decide) (.lift .relational (by decide) (toAttribute name))
    (ofLiteral s)

/-- Any element further down for which the predicate holds. -/
theorem elements {predicate : Tree} (h : Is .or predicate) :
    Is .or (.join .self .descend (.step .implied (.wildcard none) [predicate])) := by
  have hstep : Is .step (.step .implied (.wildcard none) [predicate]) := by
    refine .step rfl rfl fun e hin => ?_
    rw [List.mem_singleton.mp hin]
    exact h
  have hpath : Is .relative (.join .self .descend (.step .implied (.wildcard none) [predicate])) :=
    .onward .descend (ofStep .self) hstep
  exact expression (.lift .relational (by decide) (relational (ofRelative hpath)))

end Is

/-- The shape of a locator by text: any element whose text is the string. -/
def withText (string : Tree) : Tree :=
  .join .self .descend (.step .implied (.wildcard none)
    [.binary (.step .attribute (.name (simple "text")) []) .equal string])

/-- The shape of a locator by label: any element in whose label the string occurs. -/
def withLabel (string : Tree) : Tree :=
  .join .self .descend (.step .implied (.wildcard none)
    [.call (simple "contains") [.step .attribute (.name (simple "label")) [], string]])

/-- The frame of a locator by text. -/
def textFrame : Frame where
  before := ".//*[@text = "
  behind := "]"
  front := [.dot, .separator .descend, .wildcard none, .bracketLeft, .atSign,
    .name (simple "text"), .operator .equal]
  back := [.bracketRight]
  shape := withText
  tokens_shape := fun e => rfl
  tokens_before := by
    intro rest
    have hchars : ".//*[@text = ".toList ++ '\'' :: rest = '.' :: '/' :: '/' :: '*' :: '[' ::
        '@' :: 't' :: 'e' :: 'x' :: 't' :: ' ' :: '=' :: ' ' :: '\'' :: rest := rfl
    rw [hchars, tokens?_cons (t := .dot) rfl, tokens?_cons (t := .separator .descend) rfl,
      tokens?_cons (t := .wildcard none) rfl, tokens?_cons (t := .bracketLeft) rfl,
      tokens?_cons (t := .atSign) rfl, tokens?_cons (t := .name (simple "text")) rfl,
      tokens?_cons (t := .operator .equal) rfl, tokens?_blank rfl]
    simp only [Option.map_map]
    rfl
  tokens_behind := by
    rw [tokens?_cons (t := .bracketRight) rfl, tokens?_eq]
    rfl
  is_shape := fun s => Is.elements (Is.equation "text" s).expression

/-- The frame of a locator by label. -/
def labelFrame : Frame where
  before := ".//*[contains(@label,"
  behind := ")]"
  front := [.dot, .separator .descend, .wildcard none, .bracketLeft, .name (simple "contains"),
    .parenLeft, .atSign, .name (simple "label"), .comma]
  back := [.parenRight, .bracketRight]
  shape := withLabel
  tokens_shape := by
    intro e
    simp [withLabel, Tree.tokens, Tree.argumentTokens, Tree.predicateTokens, Axis.tokens,
      NodeTest.tokens]
  tokens_before := by
    intro rest
    have hchars : ".//*[contains(@label,".toList ++ '\'' :: rest =
        '.' :: '/' :: '/' :: '*' :: '[' :: 'c' :: 'o' :: 'n' :: 't' :: 'a' :: 'i' :: 'n' :: 's' ::
          '(' :: '@' :: 'l' :: 'a' :: 'b' :: 'e' :: 'l' :: ',' :: '\'' :: rest := rfl
    rw [hchars, tokens?_cons (t := .dot) rfl, tokens?_cons (t := .separator .descend) rfl,
      tokens?_cons (t := .wildcard none) rfl, tokens?_cons (t := .bracketLeft) rfl,
      tokens?_cons (t := .name (simple "contains")) rfl, tokens?_cons (t := .parenLeft) rfl,
      tokens?_cons (t := .atSign) rfl, tokens?_cons (t := .name (simple "label")) rfl,
      tokens?_cons (t := .comma) rfl]
    simp only [Option.map_map]
    rfl
  tokens_behind := by
    rw [tokens?_cons (t := .parenRight) rfl, tokens?_cons (t := .bracketRight) rfl, tokens?_eq]
    rfl
  is_shape := by
    intro s
    have hcall : Is .primary (.call (simple "contains")
        [.step .attribute (.name (simple "label")) [], .literal s]) := by
      refine .call (by decide) fun e hin => ?_
      simp only [List.mem_cons, List.not_mem_nil, or_false] at hin
      rcases hin with rfl | rfl
      · exact Is.expression (.lift .relational (by decide) (Is.toAttribute "label"))
      · exact Is.expression (.lift .relational (by decide) (Is.ofLiteral s))
    have hrelational : Is .relational _ := Is.relational (Is.ofPrimary hcall)
    exact Is.elements (Is.expression (.lift .relational (by decide) hrelational))

end XPath

/-! ## Section 3: Locators -/

open XPath

/-- **The locator shows a name**: it is an expression of XPath of this shape, with a string in it
    that is the name. -/
def Locator.Shows (m : Meaning) (shape : Tree → Tree) (name : String) (locator : Locator) : Prop :=
  locator.strategy = "xpath" ∧
    ∃ e, Reads locator.expression (shape e) ∧ e.value? m = some name

namespace Locator

theorem expression_byText (text : String) :
    (byText text).expression = textFrame.filled text := by
  simp [byText, textFrame, Frame.filled, String.append_assoc]

theorem expression_byLabel (label : String) :
    (byLabel label).expression = labelFrame.filled label := by
  simp [byLabel, labelFrame, Frame.filled, String.append_assoc]

theorem byText_shows_iff {m : Meaning} {text : String} :
    (byText text).Shows m withText text ↔ '\'' ∉ text.toList := by
  rw [Shows, expression_byText]
  exact (and_iff_right rfl).trans (textFrame.shows_iff text m)

theorem byLabel_shows_iff {m : Meaning} {label : String} :
    (byLabel label).Shows m withLabel label ↔ '\'' ∉ label.toList := by
  rw [Shows, expression_byLabel]
  exact (and_iff_right rfl).trans (labelFrame.shows_iff label m)

end Locator

namespace PageElement

/-- **The locators of an element show its name exactly if no apostrophe is in the name.** The
    element for an event has the locators for the name of the item that was found. -/
theorem shows_name_iff (m : Meaning) :
    (∀ name : String,
      ((Locator.byText name).Shows m withText name ↔ '\'' ∉ name.toList) ∧
      ((Locator.byLabel name).Shows m withLabel name ↔ '\'' ∉ name.toList) ∧
      (named name).locator (some "android") = .ok (.byText name) ∧
      (named name).locator (some "ios") = .ok (.byLabel name)) ∧
    ∀ (expected : Expectation) (position : String), Act.pageElement expected position =
      (fun found => named found.2.plain) <$> Act.matchedItem expected position := by
  constructor
  · intro name
    exact ⟨Locator.byText_shows_iff, Locator.byLabel_shows_iff, rfl, rfl⟩
  · intro expected position
    rfl

/-- With an apostrophe in the name, a locator may be no expression at all, or one with a condition
    more than it should have. -/
theorem apostrophe_ends_literal :
    (∀ e, ¬ Reads (Locator.byText "it's").expression e) ∧
      (∀ e, ¬ Reads (Locator.byLabel "it's").expression e) ∧
      Reads (Locator.byText "x' or '1").expression
        (.join .self .descend (.step .implied (.wildcard none)
          [.binary (.binary (.step .attribute (.name (simple "text")) []) .equal (.literal "x"))
            .or (.literal "1")])) := by
  have hits : "it's".toList = ['i', 't'] ++ '\'' :: ['s'] := rfl
  have hor : "x' or '1".toList = ['x'] ++ '\'' :: [' ', 'o', 'r', ' ', '\'', '1'] := rfl
  refine ⟨?_, ?_, ?_, ?_⟩
  · rintro e ⟨hlex, -⟩
    rw [Locator.expression_byText, Frame.lex_filled hits (by decide), tokens?_eq] at hlex
    cases hlex
  · rintro e ⟨hlex, -⟩
    rw [Locator.expression_byLabel, Frame.lex_filled hits (by decide), tokens?_eq] at hlex
    cases hlex
  · rw [Locator.expression_byText, Frame.lex_filled hor (by decide)]
    show (tokens? true [' ', 'o', 'r', ' ', '\'', '1', '\'', ']']).map _ = _
    rw [tokens?_cons (t := .operator .or) rfl, tokens?_cons (t := .literal "1") rfl,
      tokens?_cons (t := .bracketRight) rfl, tokens?_eq]
    rfl
  · have hone : Is .and (.literal "1") := .lift .equality (by decide) <|
      .lift .relational (by decide) (Is.ofLiteral "1")
    exact Is.elements (.binary .or .and (by decide) (Is.equation "text" "x").expression hone)

end PageElement

end EventCheck
