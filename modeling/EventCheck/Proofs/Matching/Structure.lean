import EventCheck.Matching.Foreign
import EventCheck.Proofs.Json.Tree

/-! # The rules of matching, pattern by pattern

    - `Opens` is decoding as a relation: a string opens to what its text opens to,
      anything else to itself. `opened?_eq_some_iff` ties `Json.opened?` to it.
    - `satisfies_obj_iff`, `satisfies_arr_iff` and `satisfies_leaf` say what each kind of
      pattern asks for.
    - `Value.satisfies_ofJson`: on JSON data the rules for what callers hand in are
      those for JSON, and they never fail.
-/

namespace EventCheck

/-! ## Section 1: Decoding -/

namespace Json

/-- **What a value opens to**, when strings are decoded until there is none. -/
inductive Opens : Json → Json → Prop where
  | itself {v : Json} (h : ∀ s, v ≠ .str s) : Opens v v
  | decoded {s : String} {inner v : Json} (hr : read? s = some inner) (h : Opens inner v) :
      Opens (.str s) v

theorem opened?_of_opens {u v : Json} (h : u.Opens v) : u.opened? = some v := by
  induction h with
  | itself hv => exact opened?_of_not_string hv
  | decoded hr h ih => rw [opened?_str, hr, Option.bind_some, ih]

theorem opens_of_openedWithin {rounds : Nat} {u v : Json} (h : openedWithin rounds u = some v) :
    u.Opens v := by
  induction rounds generalizing u with
  | zero => cases h
  | succ rounds ih =>
    cases u with
    | str s =>
      obtain ⟨inner, hr, hinner⟩ := Option.bind_eq_some_iff.mp h
      exact .decoded hr (ih hinner)
    | _ =>
      cases h
      exact .itself nofun

theorem opened?_eq_some_iff {u v : Json} : u.opened? = some v ↔ u.Opens v :=
  ⟨opens_of_openedWithin, opened?_of_opens⟩

/-- A string that is not JSON opens to nothing. -/
theorem not_opens_of_read?_eq_none {s : String} (hr : read? s = none) (v : Json) :
    ¬ (Json.str s).Opens v := by
  intro h
  cases h with
  | itself hv => exact hv s rfl
  | decoded hr' h =>
    rw [hr] at hr'
    cases hr'

/-! ## Section 2: Patterns -/

theorem fieldsSatisfy_cons {fields rest : Fields} {key : String} {w : Json} :
    fieldsSatisfy fields ((key, w) :: rest) = true ↔
      (∃ value, Keyed.get? fields key = some value ∧ value.satisfies w = true) ∧
        fieldsSatisfy fields rest = true := by
  rw [fieldsSatisfy, Bool.and_eq_true]
  cases Keyed.get? fields key <;> simp

theorem fieldsSatisfy_iff {fields wanted : Fields} :
    fieldsSatisfy fields wanted = true ↔
      ∀ key w, (key, w) ∈ wanted →
        ∃ value, Keyed.get? fields key = some value ∧ value.satisfies w = true := by
  induction wanted with
  | nil => simp [fieldsSatisfy]
  | cons field rest ih =>
    obtain ⟨k, v⟩ := field
    rw [fieldsSatisfy_cons, ih]
    constructor
    · rintro ⟨hk, hrest⟩ key w hin
      rcases List.mem_cons.mp hin with heq | hin
      · cases heq
        exact hk
      · exact hrest key w hin
    · intro hall
      exact ⟨hall k v List.mem_cons_self, fun key w hin => hall key w (List.mem_cons_of_mem _ hin)⟩

theorem itemsSatisfy_iff {items wanted : List Json} :
    itemsSatisfy items wanted = true ↔
      ∀ w ∈ wanted, ∃ item ∈ items, item.satisfies w = true := by
  induction wanted with
  | nil => simp [itemsSatisfy]
  | cons w rest ih => simp [itemsSatisfy, ih]

/-- An object asks for an object with its keys. -/
theorem satisfies_obj_iff {event : Json} {wanted : Fields} :
    event.satisfies (.obj wanted) = true ↔
      ∃ fields, event.Opens (.obj fields) ∧ ∀ key w, (key, w) ∈ wanted →
        ∃ value, Keyed.get? fields key = some value ∧ value.satisfies w = true := by
  rw [satisfies]
  constructor
  · intro h
    split at h
    · next fields hopen => exact ⟨fields, opened?_eq_some_iff.mp hopen, fieldsSatisfy_iff.mp h⟩
    · cases h
  · rintro ⟨fields, hopen, hall⟩
    rw [opened?_of_opens hopen]
    exact fieldsSatisfy_iff.mpr hall

/-- An array asks for an array with an element for each of its own. -/
theorem satisfies_arr_iff {event : Json} {wanted : List Json} :
    event.satisfies (.arr wanted) = true ↔
      ∃ items, event.Opens (.arr items) ∧
        ∀ w ∈ wanted, ∃ item ∈ items, item.satisfies w = true := by
  rw [satisfies]
  constructor
  · intro h
    split at h
    · next items hopen => exact ⟨items, opened?_eq_some_iff.mp hopen, itemsSatisfy_iff.mp h⟩
    · cases h
  · rintro ⟨items, hopen, hall⟩
    rw [opened?_of_opens hopen]
    exact itemsSatisfy_iff.mpr hall

/-- A leaf asks for a leaf. -/
theorem satisfies_leaf {event leaf : Json} (h : leaf.isLeaf = true) :
    event.satisfies leaf = (event.isLeaf && event.leafMatches leaf) := by
  cases leaf with
  | arr items => cases h
  | obj fields => cases h
  | _ => rw [satisfies]; all_goals exact nofun

end Json

/-! ## Section 3: JSON data in the hands of callers -/

namespace Value

theorem get?_ofFields (fields : Fields) (key : String) :
    Keyed.get? (ofFields fields) key = (Keyed.get? fields key).map ofJson := by
  induction fields with
  | nil => rfl
  | cons field rest ih =>
    obtain ⟨k, v⟩ := field
    by_cases hk : k = key <;> simp [ofFields, Keyed.get?, hk, ih]

theorem kind_ofJson (v : Json) : (ofJson v).kind = .ok v.kind := by
  cases v <;> rfl

theorem leaf_ofJson {v : Json} (h : v.isLeaf = true) : (ofJson v).leaf = v := by
  cases v with
  | arr items => cases h
  | obj fields => cases h
  | _ => rfl

theorem opened?_ofJson (v : Json) : (ofJson v).opened? = v.opened?.map ofJson := by
  cases v with
  | str s => rfl
  | _ =>
    rw [Json.opened?_of_not_string (by simp)]
    rfl

theorem fieldsSatisfy_ofFields {fields wanted : Fields}
    (h : ∀ field ∈ wanted, ∀ event : Json,
      (ofJson event).satisfies (ofJson field.2) = .ok (event.satisfies field.2)) :
    fieldsSatisfy (ofFields fields) (ofFields wanted) = .ok (Json.fieldsSatisfy fields wanted) := by
  induction wanted with
  | nil => rfl
  | cons field rest ih =>
    obtain ⟨k, w⟩ := field
    have hrest := ih fun field hin => h field (List.mem_cons_of_mem _ hin)
    rw [ofFields, fieldsSatisfy, get?_ofFields, Json.fieldsSatisfy]
    cases Keyed.get? fields k with
    | none => rfl
    | some value =>
      have hvalue := h (k, w) List.mem_cons_self value
      simp only [Option.map_some, hvalue, hrest]
      cases value.satisfies w <;> rfl

theorem anyM_ofItems {items : List Json} {w : Json}
    (h : ∀ event : Json, (ofJson event).satisfies (ofJson w) = .ok (event.satisfies w)) :
    (ofItems items).anyM (fun item => item.satisfies (ofJson w)) =
      .ok (items.any fun item => item.satisfies w) := by
  induction items with
  | nil => rfl
  | cons item rest ih =>
    rw [ofItems, List.anyM, h item, List.any_cons]
    cases item.satisfies w with
    | true => rfl
    | false => exact ih

theorem itemsSatisfy_ofItems {items wanted : List Json}
    (h : ∀ w ∈ wanted, ∀ event : Json,
      (ofJson event).satisfies (ofJson w) = .ok (event.satisfies w)) :
    itemsSatisfy (ofItems items) (ofItems wanted) = .ok (Json.itemsSatisfy items wanted) := by
  induction wanted with
  | nil => rfl
  | cons w rest ih =>
    have hrest := ih fun w hin => h w (List.mem_cons_of_mem _ hin)
    rw [ofItems, itemsSatisfy, anyM_ofItems (h w List.mem_cons_self), Json.itemsSatisfy]
    cases items.any fun item => item.satisfies w with
    | true => exact hrest
    | false => rfl

/-- **On JSON data matching never fails**, and follows the rules for JSON. -/
theorem satisfies_ofJson (event pattern : Json) :
    (ofJson event).satisfies (ofJson pattern) = .ok (event.satisfies pattern) := by
  induction pattern using Json.tree_induction generalizing event with
  | leaf leaf hleaf =>
    have hstep : (ofJson event).satisfies (ofJson leaf) =
        .ok (event.isLeaf && (ofJson event).leaf.leafMatches leaf) := by
      cases leaf with
      | arr items => cases hleaf
      | obj fields => cases hleaf
      | _ =>
        simp only [ofJson, satisfies, kind_ofJson]
        rfl
    rw [hstep, Json.satisfies_leaf hleaf]
    -- a container has no leaf to compare, and the answer is no in any case
    cases hevent : event.isLeaf with
    | true => rw [leaf_ofJson hevent]
    | false => rfl
  | arr wanted ih =>
    simp only [ofJson, satisfies, kind_ofJson, opened?_ofJson, Json.satisfies]
    cases event.opened? with
    | none => rfl
    | some v =>
      cases v with
      | arr items => exact itemsSatisfy_ofItems ih
      | _ => rfl
  | obj wanted ih =>
    simp only [ofJson, satisfies, kind_ofJson, opened?_ofJson, Json.satisfies]
    cases event.opened? with
    | none => rfl
    | some v =>
      cases v with
      | obj fields => exact fieldsSatisfy_ofFields ih
      | _ => rfl

end Value

end EventCheck
