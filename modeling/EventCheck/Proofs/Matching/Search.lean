import EventCheck.Proofs.Matching.Structure

/-! # Search is occurrence

    The search for a field tests each field on its way and goes into its value as
    well, in objects and arrays at any depth.

    - `Occurs` says that a path leads to an object with such a field;
      `hasField_iff_occurs` that the search decides it.
    - `Root` is where the search in a payload begins.
    - `Value.contains_ofJson`: on JSON data the search never fails.
-/

namespace EventCheck

namespace Json

/-! ## Section 1: Occurrences -/

/-- **The field occurs**: a path leads to an object that has the key with a value that satisfies
    the pattern. -/
def Occurs (root : Json) (key : String) (wanted : Json) : Prop :=
  ∃ path fields value, root.Leads path (.obj fields) ∧ (key, value) ∈ fields ∧
    value.satisfies wanted = true

/-- What occurs inside a value occurs in what leads to it. -/
theorem Occurs.of_leads {u v wanted : Json} {key : String} {path : List Step}
    (h : u.Leads path v) (hv : v.Occurs key wanted) : u.Occurs key wanted := by
  obtain ⟨further, fields, value, hleads, hin, hs⟩ := hv
  exact ⟨path ++ further, fields, value, h.append hleads, hin, hs⟩

/-- A field occurs in an object at its own level or inside one of its values. -/
theorem occurs_obj_iff {fields : Fields} {key : String} {wanted : Json} :
    (Json.obj fields).Occurs key wanted ↔
      ∃ field ∈ fields, field.1 = key ∧ field.2.satisfies wanted = true ∨
        field.2.Occurs key wanted := by
  constructor
  · rintro ⟨path, inner, value, hleads, hin, hs⟩
    cases hleads with
    | here => exact ⟨(key, value), hin, .inl ⟨rfl, hs⟩⟩
    | @field _ k v _ rest hf hrest =>
      exact ⟨(k, v), hf, .inr ⟨rest, inner, value, hrest, hin, hs⟩⟩
  · rintro ⟨⟨k, v⟩, hf, ⟨rfl, hs⟩ | hv⟩
    · exact ⟨[], fields, v, .here _, hf, hs⟩
    · exact hv.of_leads (.field hf (.here v))

/-- A field occurs in an array inside one of its elements. -/
theorem occurs_arr_iff {items : List Json} {key : String} {wanted : Json} :
    (Json.arr items).Occurs key wanted ↔ ∃ v ∈ items, v.Occurs key wanted := by
  constructor
  · rintro ⟨path, inner, value, hleads, hin, hs⟩
    cases hleads with
    | @item _ index v _ rest hi hrest =>
      exact ⟨v, List.mem_of_getElem? hi, rest, inner, value, hrest, hin, hs⟩
  · rintro ⟨v, hin, hv⟩
    obtain ⟨index, hi⟩ := List.mem_iff_getElem?.mp hin
    exact hv.of_leads (.item hi (.here v))

theorem not_occurs_of_leaf {leaf wanted : Json} {key : String} (h : leaf.isLeaf = true) :
    ¬ leaf.Occurs key wanted := by
  rintro ⟨path, fields, value, hleads, -, -⟩
  obtain ⟨-, rfl⟩ := leads_of_leaf h hleads
  cases h

theorem fieldsHave_iff {key : String} {wanted : Json} {fields : Fields} :
    fieldsHave key wanted fields = true ↔
      ∃ field ∈ fields, field.1 = key ∧ field.2.satisfies wanted = true ∨
        hasField key wanted field.2 = true := by
  induction fields with
  | nil => simp [fieldsHave]
  | cons field rest ih => simp [fieldsHave, ih, or_assoc]

theorem itemsHave_iff {key : String} {wanted : Json} {items : List Json} :
    itemsHave key wanted items = true ↔ ∃ v ∈ items, hasField key wanted v = true := by
  induction items with
  | nil => simp [itemsHave]
  | cons v rest ih => simp [itemsHave, ih]

/-- **The search for a field decides whether it occurs.** -/
theorem hasField_iff_occurs (key : String) (wanted v : Json) :
    hasField key wanted v = true ↔ v.Occurs key wanted := by
  induction v using tree_induction with
  | leaf leaf hleaf =>
    have hno : hasField key wanted leaf = false := by
      cases leaf with
      | arr items => cases hleaf
      | obj fields => cases hleaf
      | _ => rfl
    rw [hno]
    exact ⟨nofun, fun h => absurd h (not_occurs_of_leaf hleaf)⟩
  | arr items ih =>
    rw [hasField, itemsHave_iff, occurs_arr_iff]
    exact exists_congr fun v => and_congr_right fun hin => ih v hin
  | obj fields ih =>
    rw [hasField, fieldsHave_iff, occurs_obj_iff]
    exact exists_congr fun field => and_congr_right fun hin => or_congr_right (ih field hin)

/-- All fields of a pattern are found if each of them occurs. -/
theorem hasFields_iff {v : Json} {pattern : Fields} :
    v.hasFields pattern = true ↔ ∀ key wanted, (key, wanted) ∈ pattern → v.Occurs key wanted := by
  unfold hasFields
  simp only [List.all_eq_true, Prod.forall, hasField_iff_occurs]

/-- What is found inside a value is found in what leads to it. -/
theorem hasFields_of_leads {u v : Json} {path : List Step} {pattern : Fields} (h : u.Leads path v)
    (hv : v.hasFields pattern = true) : u.hasFields pattern = true := by
  rw [hasFields_iff] at hv ⊢
  exact fun key wanted hin => (hv key wanted hin).of_leads h

/-! ## Section 2: Payloads -/

/-- **Where the search begins**: in what a payload says, if it is a string with JSON in it, else in
    the payload itself. -/
inductive Root : Json → Json → Prop where
  | text {s : String} {v : Json} (h : read? s = some v) : Root (.str s) v
  | itself {v : Json} (h : ∀ s, v = .str s → read? s = none) : Root v v

theorem root_decoded (payload : Json) : payload.Root payload.decoded := by
  cases payload with
  | str s =>
    unfold decoded
    dsimp only
    cases hr : read? s with
    | none =>
      refine .itself fun t heq => ?_
      rw [← Json.str.inj heq]
      exact hr
    | some v => exact .text hr
  | _ => exact .itself (by simp)

theorem Root.eq_decoded {payload root : Json} (h : payload.Root root) : root = payload.decoded := by
  cases h with
  | text hr => rw [Json.decoded, hr, Option.getD_some]
  | itself hr =>
    cases payload with
    | str s => rw [Json.decoded, hr s rfl, Option.getD_none]
    | _ => rfl

theorem contains_iff {payload : Json} {pattern : Fields} :
    payload.contains pattern = true ↔
      ∃ root, payload.Root root ∧ ∀ key wanted, (key, wanted) ∈ pattern → root.Occurs key wanted := by
  rw [contains, hasFields_iff]
  constructor
  · exact fun h => ⟨payload.decoded, payload.root_decoded, h⟩
  · rintro ⟨root, hroot, h⟩
    rw [← hroot.eq_decoded]
    exact h

/-- What is found in a part of a payload is found in the payload. -/
theorem contains_of_leads {payload part : Json} {path : List Step} {pattern : Fields}
    (h : payload.Leads path part) (hp : ∀ s, payload ≠ .str s) (hs : ∀ s, part ≠ .str s)
    (hc : part.contains pattern = true) : payload.contains pattern = true := by
  obtain ⟨root, hroot, hall⟩ := contains_iff.mp hc
  -- a part that is no string is its own root
  have hpart : root = part := by
    cases hroot with
    | text hr => exact absurd rfl (hs _)
    | itself hv => rfl
  subst hpart
  refine contains_iff.mpr ⟨payload, .itself fun s heq => absurd heq (hp s), ?_⟩
  exact fun key wanted hin => (hall key wanted hin).of_leads h

end Json

/-! ## Section 3: JSON data in the hands of callers -/

namespace Value

theorem fieldsHave_ofFields {key : String} {wanted : Json} {fields : Fields}
    (h : ∀ field ∈ fields,
      hasField key (ofJson wanted) (ofJson field.2) = .ok (Json.hasField key wanted field.2)) :
    fieldsHave key (ofJson wanted) (ofFields fields) = .ok (Json.fieldsHave key wanted fields) := by
  induction fields with
  | nil => rfl
  | cons field rest ih =>
    obtain ⟨k, v⟩ := field
    have hrest := ih fun field hin => h field (List.mem_cons_of_mem _ hin)
    have hv : hasField key (ofJson wanted) (ofJson v) = .ok (Json.hasField key wanted v) :=
      h (k, v) List.mem_cons_self
    rw [ofFields, fieldsHave, Json.fieldsHave, satisfies_ofJson, hv, hrest]
    cases k == key <;> cases v.satisfies wanted <;> cases Json.hasField key wanted v <;> rfl

theorem itemsHave_ofItems {key : String} {wanted : Json} {items : List Json}
    (h : ∀ v ∈ items,
      hasField key (ofJson wanted) (ofJson v) = .ok (Json.hasField key wanted v)) :
    itemsHave key (ofJson wanted) (ofItems items) = .ok (Json.itemsHave key wanted items) := by
  induction items with
  | nil => rfl
  | cons v rest ih =>
    have hrest := ih fun v hin => h v (List.mem_cons_of_mem _ hin)
    rw [ofItems, itemsHave, Json.itemsHave, h v List.mem_cons_self, hrest]
    cases Json.hasField key wanted v <;> rfl

theorem hasField_ofJson (key : String) (wanted v : Json) :
    hasField key (ofJson wanted) (ofJson v) = .ok (Json.hasField key wanted v) := by
  induction v using Json.tree_induction with
  | leaf leaf hleaf =>
    cases leaf with
    | arr items => cases hleaf
    | obj fields => cases hleaf
    | _ => rfl
  | arr items ih => exact itemsHave_ofItems ih
  | obj fields ih => exact fieldsHave_ofFields ih

theorem hasFields_ofJson (v : Json) (pattern : Fields) :
    (ofJson v).hasFields (ofFields pattern) = .ok (v.hasFields pattern) := by
  induction pattern with
  | nil => rfl
  | cons field rest ih =>
    obtain ⟨key, wanted⟩ := field
    have hcons : v.hasFields ((key, wanted) :: rest) =
        (Json.hasField key wanted v && v.hasFields rest) := rfl
    rw [ofFields, hasFields, hasField_ofJson, ih, hcons]
    cases Json.hasField key wanted v <;> rfl

theorem decoded_ofJson (payload : Json) : (ofJson payload).decoded = ofJson payload.decoded := by
  cases payload <;> rfl

/-- **On JSON data the search never fails**, and follows the rules for JSON. -/
theorem contains_ofJson (payload : Json) (pattern : Fields) :
    (ofJson payload).contains (ofJson (.obj pattern)) = .ok (payload.contains pattern) := by
  rw [contains, decoded_ofJson, hasPattern, ofJson, patternFields, Json.contains]
  show ((ofJson payload.decoded).hasFields (ofFields pattern)).mapError SearchError.notJson = _
  rw [hasFields_ofJson]
  rfl

/-! ## Section 4: Search is occurrence -/

/-- **A payload contains a pattern if and only if each of its fields occurs** somewhere in what the
    payload says. On JSON data the search always comes to an answer. What is found in a part of
    a payload is found in the payload. -/
theorem containment_is_occurrence (payload : Json) (pattern : Fields) :
    (∃ answer, (ofJson payload).contains (ofJson (.obj pattern)) = .ok answer ∧
      (answer = true ↔ ∃ root, payload.Root root ∧
        ∀ key wanted, (key, wanted) ∈ pattern → root.Occurs key wanted)) ∧
    ∀ path part, payload.Leads path part → (∀ s, payload ≠ .str s) → (∀ s, part ≠ .str s) →
      (ofJson part).contains (ofJson (.obj pattern)) = .ok true →
      (ofJson payload).contains (ofJson (.obj pattern)) = .ok true := by
  constructor
  · exact ⟨payload.contains pattern, contains_ofJson payload pattern, Json.contains_iff⟩
  · intro path part hleads hpayload hpart hfound
    rw [contains_ofJson, Except.ok.injEq] at hfound ⊢
    exact Json.contains_of_leads hleads hpayload hpart hfound

end Value

end EventCheck
