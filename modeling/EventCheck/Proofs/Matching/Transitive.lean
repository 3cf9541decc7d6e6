import EventCheck.Proofs.Json.Contents
import EventCheck.Proofs.Matching.Reflexive
import Mathlib.Data.List.Basic

/-! # Matching goes through literal patterns

    A pattern without operators says what a value is, as far as it goes. What it asks for,
    and what a value that satisfies it has, go together.

    - `Literal`: no string inside the pattern is read as an operator.
    - `leafMatches_iff_of_literal`: a literal leaf asks for the same content.
    - `eq_of_content`: a leaf that says the text of a container is that text.
    - `satisfies_trans`: who satisfies a literal pattern satisfies what that one
      satisfies. By induction on the last of the three; a string in the middle that
      opens to a container has the same string on its left.
-/

namespace EventCheck

namespace LeafRule

/-- Is the text of a pattern an operator: any leaf, or a part? The empty text is none, since
    it asks for the content that it is. -/
def isOperator (s : String) : Prop := s = "*" ∨ ∃ part, s.toList = '~' :: part

/-- A text that is no operator accepts what it says. -/
theorem accepts_ofText_iff {s content : String} (h : ¬ isOperator s) :
    (ofText s).accepts content = true ↔ content = s := by
  unfold ofText
  rw [if_neg fun hany => h (.inl hany)]
  split
  · next hempty =>
    have hs : s = "" := String.toList_inj.mp hempty
    simp [accepts, hs]
  · next part htilde => exact absurd (.inr ⟨part, htilde⟩) h
  · simp [accepts]

end LeafRule

namespace Json

/-! ## Section 1: Literal patterns -/

/-- **The pattern is literal**: no string inside it is an operator. Strings are not entered. -/
def Literal (p : Json) : Prop := ∀ path s, p.Leads path (.str s) → ¬ LeafRule.isOperator s

theorem Literal.field {fields : Fields} {key : String} {v : Json} (h : (Json.obj fields).Literal)
    (hin : (key, v) ∈ fields) : v.Literal := by
  intro path s hleads
  exact h _ s (.field hin hleads)

theorem Literal.item {items : List Json} {v : Json} (h : (Json.arr items).Literal)
    (hin : v ∈ items) : v.Literal := by
  intro path s hleads
  obtain ⟨index, hi⟩ := List.mem_iff_getElem?.mp hin
  exact h _ s (.item hi hleads)

/-- **A literal leaf asks for the content that it has.** -/
theorem leafMatches_iff_of_literal {event p : Json} (hp : p.Literal) :
    event.leafMatches p = true ↔ event.content = p.content := by
  cases p with
  | str s => exact LeafRule.accepts_ofText_iff (hp [] s (.here _))
  | _ => simp [leafMatches, LeafRule.of, LeafRule.accepts]

/-! ## Section 2: Strings that open to containers -/

/-- **A leaf that says the text of a container is that text.** Numbers and words say no such
    text. -/
theorem eq_of_content {leaf v : Json} {s : String} (hleaf : leaf.isLeaf = true)
    (hwords : leaf.content = s) (hopen : (Json.str s).Opens v) (hv : v.isLeaf = false) :
    leaf = .str s := by
  rcases string_or_bare hleaf with ⟨t, rfl⟩ | hbare
  · exact congrArg Json.str hwords
  · exfalso
    have hbegins := begins_content hbare
    rw [hwords] at hbegins
    cases hopen with
    | itself hstring => exact hstring s rfl
    | @decoded _ inner _ hread hinner =>
      have hinnerBare := bare_of_read? hbegins hread
      -- a bare leaf opens to itself, and is no container
      cases hinner with
      | itself hstring =>
        rw [hinnerBare.1] at hv
        cases hv
      | decoded hread' _ => exact hinnerBare.2 _ rfl

/-- What satisfies a literal string that opens to a container is that string. -/
theorem eq_of_satisfies_text {event v : Json} {s : String} (hp : (Json.str s).Literal)
    (hs : event.satisfies (.str s) = true) (hopen : (Json.str s).Opens v)
    (hv : v.isLeaf = false) : event = .str s := by
  rw [satisfies_leaf rfl, Bool.and_eq_true, leafMatches_iff_of_literal hp] at hs
  exact eq_of_content hs.1 hs.2 hopen hv

/-! ## Section 3: Three values -/

/-- **Who satisfies a literal pattern satisfies what that one satisfies.** -/
theorem satisfies_trans {e p q : Json} (hp : p.Literal) (hep : e.satisfies p = true)
    (hpq : p.satisfies q = true) : e.satisfies q = true := by
  induction q using tree_induction generalizing e p with
  | leaf leaf hleaf =>
    rw [satisfies_leaf hleaf, Bool.and_eq_true] at hpq
    obtain ⟨hpleaf, hmatch⟩ := hpq
    rw [satisfies_leaf hpleaf, Bool.and_eq_true, leafMatches_iff_of_literal hp] at hep
    obtain ⟨heleaf, hcontent⟩ := hep
    -- leaves with one content satisfy the same leaves
    have hsame : e.leafMatches leaf = p.leafMatches leaf := by
      unfold leafMatches
      rw [hcontent]
    rw [satisfies_leaf hleaf, heleaf, hsame, hmatch]
    rfl
  | obj wanted ih =>
    obtain ⟨middle, hopen, hall⟩ := satisfies_obj_iff.mp hpq
    cases hopen with
    | @decoded s _ _ hread hinner =>
      rw [eq_of_satisfies_text hp hep (.decoded hread hinner) rfl]
      exact hpq
    | itself =>
      obtain ⟨fields, hopen', hall'⟩ := satisfies_obj_iff.mp hep
      refine satisfies_obj_iff.mpr ⟨fields, hopen', ?_⟩
      intro key w hin
      obtain ⟨v, hget, hvw⟩ := hall key w hin
      have hmem : (key, v) ∈ middle := Keyed.mem_of_get? hget
      obtain ⟨value, hvalue, hsat⟩ := hall' key v hmem
      exact ⟨value, hvalue, ih (key, w) hin (hp.field hmem) hsat hvw⟩
  | arr wanted ih =>
    obtain ⟨middle, hopen, hall⟩ := satisfies_arr_iff.mp hpq
    cases hopen with
    | @decoded s _ _ hread hinner =>
      rw [eq_of_satisfies_text hp hep (.decoded hread hinner) rfl]
      exact hpq
    | itself =>
      obtain ⟨items, hopen', hall'⟩ := satisfies_arr_iff.mp hep
      refine satisfies_arr_iff.mpr ⟨items, hopen', ?_⟩
      intro w hin
      obtain ⟨v, hmem, hvw⟩ := hall w hin
      obtain ⟨item, hitem, hsat⟩ := hall' v hmem
      exact ⟨item, hitem, ih w hin (hp.item hmem) hsat hvw⟩

end Json

/-! ## Section 4: Matching as a relation -/

namespace Value

/-- **Matching is reflexive, and transitive through literal patterns.** Every value without repeated
    keys satisfies itself, whatever its strings are read as. An event that satisfies a pattern
    without operators satisfies all that this pattern satisfies. -/
theorem matching_reflexive_transitive :
    (∀ v : Json, v.Sound → (ofJson v).satisfies (ofJson v) = .ok true) ∧
    (∀ e p q : Json, p.Literal → (ofJson e).satisfies (ofJson p) = .ok true →
      (ofJson p).satisfies (ofJson q) = .ok true →
      (ofJson e).satisfies (ofJson q) = .ok true) := by
  simp only [satisfies_ofJson, Except.ok.injEq]
  exact ⟨fun v hv => Json.satisfies_self hv, fun e p q hp hep hpq => Json.satisfies_trans hp hep hpq⟩

/-- A letter whose body is JSON inside a string. -/
def letter : Json :=
  .obj [("number", .str "7"), ("body", .str "[1, \x7b\"note\": \"~late\"\x7d]"), ("read", .null)]

/-- The letter as a pattern without operators: its number is a number, its body a string. -/
def template : Json :=
  .obj [("body", .str "[1, \x7b\"note\": \"~late\"\x7d]"), ("number", .int 7)]

/-- Any letter about what is late. -/
def latecomers : Json :=
  .obj [("body", .arr [.obj [("note", .str "~late")]]), ("number", .str "*")]

/-- The operators inside the body are not read, as strings are not entered. -/
theorem template_literal : template.Literal := by
  intro path s hleads
  cases hleads with
  | field hin hrest =>
    rcases List.mem_cons.mp hin with heq | hin
    · cases heq
      cases hrest
      rintro (hany | ⟨part, htilde⟩)
      · exact absurd hany (by decide)
      · cases htilde
    · cases List.mem_singleton.mp hin
      cases hrest

theorem letter_goes_through_template :
    template.Literal ∧ (ofJson letter).satisfies (ofJson latecomers) = .ok true := by
  have hletter : (ofJson letter).satisfies (ofJson template) = .ok true := by cbv
  have htemplate : (ofJson template).satisfies (ofJson latecomers) = .ok true := by cbv
  exact ⟨template_literal,
    matching_reflexive_transitive.2 letter template latecomers template_literal hletter htemplate⟩

end Value

end EventCheck
