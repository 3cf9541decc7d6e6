import EventCheck.Proofs.Matching.Search
import EventCheck.Proofs.Matching.Transitive

/-! # The sort of a leaf does not show

    Leaves are compared by what they say. So a number may stand for its text and the other
    way round, in an event as well as in a pattern, at any depth.

    - `Json.spelled`: the value with every leaf replaced by what it says, as a string.
    - `Bare.literal`: what a number or a word says is no operator, so a pattern of it asks
      for just that (`leafMatches_spelled`).
    - `opens_spelled_iff`: nor is it the text of a container, so nothing opens to a
      container that did not before.
    - `spelled_satisfies`, `satisfies_spelled`, `spelled_contains` and `contains_spelled`:
      spelling out the one side or the other changes no answer.
-/

namespace EventCheck

namespace Json

/-! ## Section 1: Spelling out leaves -/

mutual

/-- **The value with its leaves spelled out**: each leaf is the string that it says. Strings are
    what they are, and keys stay. -/
def spelled : Json → Json
  | .arr items => .arr (spelledItems items)
  | .obj fields => .obj (spelledFields fields)
  | leaf => .str leaf.content

def spelledItems : List Json → List Json
  | [] => []
  | v :: rest => v.spelled :: spelledItems rest

def spelledFields : Fields → Fields
  | [] => []
  | (k, v) :: rest => (k, v.spelled) :: spelledFields rest

end

theorem spelled_leaf {leaf : Json} (h : leaf.isLeaf = true) : leaf.spelled = .str leaf.content := by
  cases leaf with
  | arr items => cases h
  | obj fields => cases h
  | _ => rfl

theorem spelledItems_eq_map (items : List Json) : spelledItems items = items.map spelled := by
  induction items with
  | nil => rfl
  | cons v rest ih => rw [spelledItems, ih, List.map_cons]

theorem spelledFields_eq_map (fields : Fields) :
    spelledFields fields = fields.map fun field => (field.1, field.2.spelled) := by
  induction fields with
  | nil => rfl
  | cons field rest ih =>
    obtain ⟨k, v⟩ := field
    rw [spelledFields, ih, List.map_cons]

/-- Each key has the value that it had, spelled out. -/
theorem get?_spelledFields (fields : Fields) (key : String) :
    Keyed.get? (spelledFields fields) key = (Keyed.get? fields key).map spelled := by
  induction fields with
  | nil => rfl
  | cons field rest ih =>
    obtain ⟨k, v⟩ := field
    by_cases hk : k = key
    · simp [spelledFields, Keyed.get?, hk]
    · simp [spelledFields, Keyed.get?, hk, ih]

example : spelled (.obj [("count", .int 3), ("tags", .arr [.null, .bool true, .str "*"])]) =
    .obj [("count", .str "3"), ("tags", .arr [.str "null", .str "true", .str "*"])] := by
  cbv

/-! ## Section 2: What leaves say, as patterns and as texts -/

/-- What a bare leaf says is no operator: it begins as a number or a word. -/
theorem not_isOperator_content {leaf : Json} (h : leaf.Bare) :
    ¬ LeafRule.isOperator leaf.content := by
  obtain ⟨c, rest, htext, hc⟩ := begins_content h
  rintro (hany | ⟨part, hpart⟩)
  · have hstar : leaf.content.toList = ['*'] := by rw [hany]; rfl
    rw [htext] at hstar
    obtain ⟨rfl, -⟩ := List.cons.inj hstar
    exact absurd hc (by decide)
  · rw [htext] at hpart
    obtain ⟨rfl, -⟩ := List.cons.inj hpart
    exact absurd hc (by decide)

/-- A bare leaf is a literal pattern, and so is its text. -/
theorem Bare.literal {leaf : Json} (h : leaf.Bare) :
    leaf.Literal ∧ (Json.str leaf.content).Literal := by
  constructor
  · intro path s hleads
    exact absurd (leads_of_leaf h.1 hleads).2.symm (h.2 s)
  · intro path s hleads
    obtain ⟨-, hs⟩ := leads_of_leaf rfl hleads
    rw [Json.str.inj hs]
    exact not_isOperator_content h

/-- A leaf of a pattern asks for the same when it is spelled out. -/
theorem leafMatches_spelled {event leaf : Json} (h : leaf.isLeaf = true) :
    event.leafMatches leaf.spelled = event.leafMatches leaf := by
  rw [spelled_leaf h]
  rcases string_or_bare h with ⟨s, rfl⟩ | hbare
  · rfl
  · obtain ⟨hleaf, htext⟩ := hbare.literal
    rw [Bool.eq_iff_iff, leafMatches_iff_of_literal hleaf, leafMatches_iff_of_literal htext]
    rfl

/-- **A leaf that is spelled out opens to the containers that it did before.** For a bare leaf
    there is none before, and none after. -/
theorem opens_spelled_iff {leaf v : Json} (hleaf : leaf.isLeaf = true) (hv : v.isLeaf = false) :
    leaf.spelled.Opens v ↔ leaf.Opens v := by
  rw [spelled_leaf hleaf]
  rcases string_or_bare hleaf with ⟨s, rfl⟩ | hbare
  · rfl
  constructor
  · intro hopen
    -- only the text of a container opens to one
    have htext : leaf = .str leaf.content := eq_of_content hleaf rfl hopen hv
    exact absurd htext (hbare.2 _)
  · intro hopen
    cases hopen with
    | itself hstring =>
      rw [hbare.1] at hv
      cases hv
    | decoded hread hinner => exact absurd rfl (hbare.2 _)

/-! ## Section 3: Matching -/

theorem satisfies_obj_obj (fields wanted : Fields) :
    (Json.obj fields).satisfies (.obj wanted) = fieldsSatisfy fields wanted := by
  rw [satisfies, opened?_of_not_string (by simp)]

theorem satisfies_arr_arr (items wanted : List Json) :
    (Json.arr items).satisfies (.arr wanted) = itemsSatisfy items wanted := by
  rw [satisfies, opened?_of_not_string (by simp)]

/-- **Spelling out the event changes no match.** By induction on the pattern, for all events. -/
theorem spelled_satisfies (event pattern : Json) :
    event.spelled.satisfies pattern = event.satisfies pattern := by
  induction pattern using tree_induction generalizing event with
  | leaf leaf hleaf =>
    rw [satisfies_leaf hleaf, satisfies_leaf hleaf]
    by_cases hevent : event.isLeaf = true
    · rw [spelled_leaf hevent, hevent]
      rfl
    · -- a container stays one, and satisfies no leaf
      have hspelled : event.spelled.isLeaf = event.isLeaf := by
        cases event with
        | arr items => rfl
        | obj fields => rfl
        | _ => exact absurd rfl hevent
      rw [Bool.not_eq_true] at hevent
      rw [hspelled, hevent]
      rfl
  | obj wanted ih =>
    by_cases hevent : event.isLeaf = true
    · rw [Bool.eq_iff_iff, satisfies_obj_iff, satisfies_obj_iff]
      exact exists_congr fun fields => and_congr_left' (opens_spelled_iff hevent rfl)
    · cases event with
      | arr items =>
        have hnever (items : List Json) : (Json.arr items).satisfies (.obj wanted) = false := by
          rw [satisfies, opened?_of_not_string (by simp)]
        rw [spelled, hnever, hnever]
      | obj fields =>
        rw [spelled, satisfies_obj_obj, satisfies_obj_obj, Bool.eq_iff_iff, fieldsSatisfy_iff,
          fieldsSatisfy_iff]
        refine forall_congr' fun key => forall_congr' fun w => forall_congr' fun hin => ?_
        -- what the pattern asks for is met under the same key
        have hsame := ih (key, w) hin
        rw [get?_spelledFields]
        simp only [Option.map_eq_some_iff, exists_exists_and_eq_and, hsame]
      | _ => exact absurd rfl hevent
  | arr wanted ih =>
    by_cases hevent : event.isLeaf = true
    · rw [Bool.eq_iff_iff, satisfies_arr_iff, satisfies_arr_iff]
      exact exists_congr fun items => and_congr_left' (opens_spelled_iff hevent rfl)
    · cases event with
      | obj fields =>
        have hnever (fields : Fields) : (Json.obj fields).satisfies (.arr wanted) = false := by
          rw [satisfies, opened?_of_not_string (by simp)]
        rw [spelled, hnever, hnever]
      | arr items =>
        rw [spelled, satisfies_arr_arr, satisfies_arr_arr, Bool.eq_iff_iff, itemsSatisfy_iff,
          itemsSatisfy_iff, spelledItems_eq_map]
        refine forall_congr' fun w => forall_congr' fun hin => ?_
        have hsame := ih w hin
        simp only [List.mem_map, exists_exists_and_eq_and, hsame]
      | _ => exact absurd rfl hevent

/-- **Spelling out the pattern changes no match.** -/
theorem satisfies_spelled (event pattern : Json) :
    event.satisfies pattern.spelled = event.satisfies pattern := by
  induction pattern using tree_induction generalizing event with
  | leaf leaf hleaf =>
    have hspelled : leaf.spelled.isLeaf = true := by
      rw [spelled_leaf hleaf]
      rfl
    rw [satisfies_leaf hspelled, satisfies_leaf hleaf, leafMatches_spelled hleaf]
  | obj wanted ih =>
    rw [spelled, Bool.eq_iff_iff, satisfies_obj_iff, satisfies_obj_iff, spelledFields_eq_map]
    refine exists_congr fun fields => and_congr_right fun _ => ?_
    constructor
    · intro hall key w hin
      obtain ⟨value, hget, hsat⟩ := hall key w.spelled (List.mem_map_of_mem hin)
      exact ⟨value, hget, (ih (key, w) hin value).symm.trans hsat⟩
    · intro hall key w' hin'
      obtain ⟨⟨k, w⟩, hin, heq⟩ := List.mem_map.mp hin'
      cases heq
      obtain ⟨value, hget, hsat⟩ := hall k w hin
      exact ⟨value, hget, (ih (k, w) hin value).trans hsat⟩
  | arr wanted ih =>
    rw [spelled, Bool.eq_iff_iff, satisfies_arr_iff, satisfies_arr_iff, spelledItems_eq_map]
    refine exists_congr fun items => and_congr_right fun _ => ?_
    rw [List.forall_mem_map]
    refine forall_congr' fun w => forall_congr' fun hin => ?_
    simp only [ih w hin]

/-! ## Section 4: Searching -/

/-- A leaf has no fields. -/
theorem hasField_leaf {leaf : Json} (h : leaf.isLeaf = true) (key : String) (wanted : Json) :
    hasField key wanted leaf = false := by
  rw [← Bool.not_eq_true, hasField_iff_occurs]
  exact not_occurs_of_leaf h

theorem hasField_spelled_value (key : String) (wanted v : Json) :
    hasField key wanted v.spelled = hasField key wanted v := by
  induction v using tree_induction with
  | leaf leaf hleaf =>
    rw [spelled_leaf hleaf, hasField_leaf hleaf, hasField_leaf rfl]
  | arr items ih =>
    rw [spelled, hasField, hasField, Bool.eq_iff_iff, itemsHave_iff, itemsHave_iff,
      spelledItems_eq_map]
    simp only [List.mem_map, exists_exists_and_eq_and]
    exact exists_congr fun v => and_congr_right fun hin => by rw [ih v hin]
  | obj fields ih =>
    rw [spelled, hasField, hasField, Bool.eq_iff_iff, fieldsHave_iff, fieldsHave_iff,
      spelledFields_eq_map]
    simp only [List.mem_map, exists_exists_and_eq_and]
    refine exists_congr fun field => and_congr_right fun hin => ?_
    rw [spelled_satisfies, ih field hin]

theorem hasField_spelled_pattern (key : String) (wanted v : Json) :
    hasField key wanted.spelled v = hasField key wanted v := by
  rw [Bool.eq_iff_iff, hasField_iff_occurs, hasField_iff_occurs]
  simp only [Occurs, satisfies_spelled]

/-- A bare leaf that is spelled out decodes to a leaf, since such a text writes no container. -/
theorem isLeaf_decoded_spelled {leaf : Json} (h : leaf.Bare) :
    leaf.spelled.decoded.isLeaf = true := by
  rw [spelled_leaf h.1, decoded]
  cases hread : read? leaf.content with
  | none => rfl
  | some v => exact (bare_of_read? (begins_content h) hread).1

/-- **Spelling out a payload changes no search in it**, although a payload that becomes a string
    is decoded. -/
theorem spelled_contains (payload : Json) (pattern : Fields) :
    payload.spelled.contains pattern = payload.contains pattern := by
  by_cases hpayload : payload.isLeaf = true
  · rcases string_or_bare hpayload with ⟨s, rfl⟩ | hbare
    · rfl
    · -- no key is found in a leaf, so only a pattern without keys is contained
      have hdecoded : payload.decoded = payload := by
        cases payload with
        | str s => exact absurd rfl (hbare.2 s)
        | _ => rfl
      unfold contains hasFields
      simp only [hasField_leaf (isLeaf_decoded_spelled hbare), hdecoded, hasField_leaf hpayload]
  · have hroot : payload.spelled.decoded = payload.decoded.spelled := by
      cases payload with
      | arr items => rfl
      | obj fields => rfl
      | _ => exact absurd rfl hpayload
    unfold contains hasFields
    simp only [hroot, hasField_spelled_value]

/-- **Spelling out a pattern changes no search for it.** -/
theorem contains_spelled (payload : Json) (pattern : Fields) :
    payload.contains (spelledFields pattern) = payload.contains pattern := by
  unfold contains hasFields
  rw [spelledFields_eq_map, List.all_map]
  simp only [Function.comp_def, hasField_spelled_pattern]

end Json

/-! ## Section 5: The sort of a leaf does not show -/

namespace Value

/-- **Whether a leaf is a number, a word or the text of it does not show.** To spell out a value is
    to put, at any depth, the content of a leaf in its place. Then it is the same whether an event
    is matched with a pattern as they are, or with either of them spelled out, or with both; and
    the same is true of the search for a pattern in a payload. -/
theorem sort_of_leaf_invisible :
    (∀ leaf : Json, leaf.isLeaf = true →
      ∃ words, (ofJson leaf).content = .ok words ∧ leaf.spelled = .str words) ∧
    (∀ e p : Json, ∃ answer, (ofJson e).satisfies (ofJson p) = .ok answer ∧
      (ofJson e.spelled).satisfies (ofJson p) = .ok answer ∧
      (ofJson e).satisfies (ofJson p.spelled) = .ok answer ∧
      (ofJson e.spelled).satisfies (ofJson p.spelled) = .ok answer) ∧
    (∀ (payload : Json) (pattern : Fields), ∃ answer,
      (ofJson payload).contains (ofJson (.obj pattern)) = .ok answer ∧
      (ofJson payload.spelled).contains (ofJson (.obj pattern)) = .ok answer ∧
      (ofJson payload).contains (ofJson (Json.obj pattern).spelled) = .ok answer ∧
      (ofJson payload.spelled).contains (ofJson (Json.obj pattern).spelled) = .ok answer) := by
  refine ⟨fun leaf hleaf => ⟨leaf.content, ?_, Json.spelled_leaf hleaf⟩, fun e p => ?_,
    fun payload pattern => ?_⟩
  · have hkind : leaf.kind.isLeaf = true := hleaf
    unfold content
    rw [kind_ofJson, leaf_ofJson hleaf]
    dsimp only
    rw [if_pos hkind]
  · refine ⟨e.satisfies p, satisfies_ofJson e p, ?_, ?_, ?_⟩
    · rw [satisfies_ofJson, Json.spelled_satisfies]
    · rw [satisfies_ofJson, Json.satisfies_spelled]
    · rw [satisfies_ofJson, Json.spelled_satisfies, Json.satisfies_spelled]
  · refine ⟨payload.contains pattern, contains_ofJson payload pattern, ?_, ?_, ?_⟩
    · rw [contains_ofJson, Json.spelled_contains]
    · rw [Json.spelled, contains_ofJson, Json.contains_spelled]
    · rw [Json.spelled, contains_ofJson, Json.spelled_contains, Json.contains_spelled]

/-- An event with a number and a word. -/
def counted : Json := .obj [("count", .int 3), ("open", .bool true)]

/-- The number says "3". A pattern that asks for that text gets one answer from the event and from
    the event that is spelled out, and that answer is yes. -/
theorem counted_matches_text :
    (Json.int 3).isLeaf = true ∧
      (∃ words, (ofJson (.int 3)).content = .ok words ∧ (Json.int 3).spelled = .str words) ∧
      (ofJson counted).satisfies (ofJson (.obj [("count", .str "3")])) = .ok true ∧
      (ofJson counted.spelled).satisfies (ofJson (.obj [("count", .str "3")])) = .ok true := by
  obtain ⟨hleaf, hmatching, -⟩ := sort_of_leaf_invisible
  obtain ⟨answer, hplain, hspelled, -⟩ := hmatching counted (.obj [("count", .str "3")])
  have hyes : (ofJson counted).satisfies (ofJson (.obj [("count", .str "3")])) = .ok true := rfl
  have hanswer : answer = true := Except.ok.inj (hplain.symm.trans hyes)
  rw [hanswer] at hspelled
  exact ⟨rfl, hleaf (.int 3) rfl, hyes, hspelled⟩

end Value

end EventCheck
