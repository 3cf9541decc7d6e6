import EventCheck.Pattern
import EventCheck.Proofs.Json.Tree

/-! # JSON data in the hands of callers

    - `Value.toJson?_ofJson`: what is handed over as JSON is taken as what it is.
    - `Json.levels_le_of_leads`: what lies inside a value nests no deeper, so it may be
      stored if the value may.
    - `Pattern.Shallow`: no field of a pattern nests deeper than storage allows. A
      mapping of JSON data is a pattern exactly if it is shallow
      (`Pattern.reload_iff`), and so is every pattern that comes from a mapping.
-/

namespace EventCheck

/-! ## Section 1: To and from JSON -/

namespace Value

theorem toItems?_ofItems {items : List Json} (h : ∀ v ∈ items, (ofJson v).toJson? = some v) :
    toItems? (ofItems items) = some items := by
  induction items with
  | nil => rfl
  | cons v rest ih =>
    have hrest := ih fun v hin => h v (List.mem_cons_of_mem _ hin)
    rw [ofItems, toItems?, h v List.mem_cons_self, hrest]
    rfl

theorem toFields?_of_all {fields : Fields}
    (h : ∀ field ∈ fields, (ofJson field.2).toJson? = some field.2) :
    toFields? (ofFields fields) = some fields := by
  induction fields with
  | nil => rfl
  | cons field rest ih =>
    obtain ⟨k, v⟩ := field
    have hv : (ofJson v).toJson? = some v := h (k, v) List.mem_cons_self
    have hrest := ih fun field hin => h field (List.mem_cons_of_mem _ hin)
    rw [ofFields, toFields?, hv, hrest]
    rfl

/-- **JSON data is taken as what it is.** -/
theorem toJson?_ofJson (v : Json) : (ofJson v).toJson? = some v := by
  induction v using Json.tree_induction with
  | leaf leaf hleaf =>
    cases leaf with
    | arr items => cases hleaf
    | obj fields => cases hleaf
    | _ => rfl
  | arr items ih => rw [ofJson, toJson?, toItems?_ofItems ih, Option.map_some]
  | obj fields ih => rw [ofJson, toJson?, toFields?_of_all ih, Option.map_some]

theorem toFields?_ofFields (fields : Fields) : toFields? (ofFields fields) = some fields :=
  toFields?_of_all fun field _ => toJson?_ofJson field.2

theorem ofItems_eq_map (items : List Json) : ofItems items = items.map ofJson := by
  induction items with
  | nil => rfl
  | cons v rest ih => rw [ofItems, ih, List.map_cons]

end Value

/-! ## Section 2: Nesting -/

namespace Json

theorem levels_le_levelsItems {items : List Json} {v : Json} (h : v ∈ items) :
    v.levels ≤ levelsItems items := by
  induction items with
  | nil => cases h
  | cons first rest ih =>
    rw [levelsItems]
    rcases List.mem_cons.mp h with rfl | hin
    · exact Nat.le_max_left _ _
    · exact Nat.le_trans (ih hin) (Nat.le_max_right _ _)

theorem levels_le_levelsFields {fields : Fields} {field : String × Json} (h : field ∈ fields) :
    field.2.levels ≤ levelsFields fields := by
  induction fields with
  | nil => cases h
  | cons first rest ih =>
    obtain ⟨k, v⟩ := first
    rw [levelsFields]
    rcases List.mem_cons.mp h with rfl | hin
    · exact Nat.le_max_left _ _
    · exact Nat.le_trans (ih hin) (Nat.le_max_right _ _)

/-- What lies inside a value nests no deeper than the value. -/
theorem levels_le_of_leads {u v : Json} {path : List Step} (h : u.Leads path v) :
    v.levels ≤ u.levels := by
  induction h with
  | here v => exact Nat.le_refl _
  | @field fields key inner v path hf h ih =>
    have hinner : inner.levels ≤ levelsFields fields := levels_le_levelsFields hf
    rw [levels]
    omega
  | @item items index inner v path hi h ih =>
    have hinner := levels_le_levelsItems (List.mem_of_getElem? hi)
    rw [levels]
    omega

theorem storable_of_leads {u v : Json} {path : List Step} (h : u.Leads path v)
    (hu : u.storable = true) : v.storable = true := by
  have hle := levels_le_of_leads h
  simp only [storable, decide_eq_true_eq] at hu ⊢
  omega

end Json

/-! ## Section 3: Patterns -/

namespace Pattern

/-- **No field of the pattern nests deeper than storage allows.** -/
def Shallow (p : Fields) : Prop := ∀ field ∈ p, field.2.storable = true

theorem shallow_of_storable {p : Fields} (h : (Json.obj p).storable = true) : Shallow p := by
  rintro ⟨key, v⟩ hin
  exact Json.storable_of_leads (.field hin (.here v)) h

/-- A mapping of JSON data is a pattern if it is shallow. -/
theorem load_of_shallow {p : Fields} (h : Shallow p) :
    load (.mapping (Value.ofFields p)) = .ok (some p) := by
  have hall : p.all (fun field => field.2.storable) = true := List.all_eq_true.mpr h
  rw [load, ofMapping, Value.toFields?_ofFields]
  dsimp only
  rw [if_pos hall]
  rfl

/-- A mapping that is not shallow is said to hold values that are no JSON. -/
theorem load_of_not_shallow {p : Fields} (h : ¬ Shallow p) :
    load (.mapping (Value.ofFields p)) = .error .foreignValues := by
  have hall : ¬ p.all (fun field => field.2.storable) = true := fun hall =>
    h (List.all_eq_true.mp hall)
  rw [load, ofMapping, Value.toFields?_ofFields]
  dsimp only
  rw [if_neg hall]
  rfl

/-- **What may be stored is a pattern.** -/
theorem load_ofFields {fields : Fields} (h : (Json.obj fields).storable = true) :
    load (.mapping (Value.ofFields fields)) = .ok (some fields) :=
  load_of_shallow (shallow_of_storable h)

/-- What is loaded is loaded again as what it is, exactly if it is shallow. -/
theorem reload_iff {p : Fields} :
    load (.mapping (Value.ofFields p)) = .ok (some p) ↔ Shallow p := by
  refine ⟨fun hload => ?_, load_of_shallow⟩
  by_cases h : Shallow p
  · exact h
  · rw [load_of_not_shallow h] at hload
    cases hload

/-- What comes from a mapping is shallow. -/
theorem shallow_of_mapping {fields : Keyed Value} {p : Fields}
    (h : load (.mapping fields) = .ok (some p)) : Shallow p := by
  rw [load, ofMapping] at h
  cases hjson : Value.toFields? fields with
  | none =>
    rw [hjson] at h
    cases h
  | some q =>
    rw [hjson] at h
    dsimp only at h
    split at h
    · next hall =>
      cases h
      exact List.all_eq_true.mp hall
    · cases h

/-- A text that writes an object is the pattern with its fields. -/
theorem load_text {text : String} {p : Fields} (h : Json.read? text = some (.obj p)) :
    load (.text text) = .ok (some p) := by
  have hread : Json.read text = .ok (.obj p) := by
    unfold Json.read? at h
    cases hread : Json.read text with
    | error e =>
      rw [hread] at h
      cases h
    | ok v =>
      rw [hread] at h
      cases h
      rfl
  rw [load, ofText, hread]
  rfl

end Pattern

end EventCheck
