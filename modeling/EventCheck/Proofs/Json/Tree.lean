import EventCheck.Json.Basic

/-! # JSON values as trees

    - `Json.tree_induction`: induction over a value with a hypothesis for each element
      of an array and each value of an object.
    - `Json.Leads`: a path of keys and indices leads from a value to one inside it. A
      path does not enter strings.
-/

namespace EventCheck

/-! ## Section 1: Looking up keys -/

namespace Keyed

variable {α : Type} {entries : Keyed α} {key : String} {value : α}

theorem mem_of_get? (h : get? entries key = some value) : (key, value) ∈ entries := by
  induction entries with
  | nil => cases h
  | cons entry rest ih =>
    obtain ⟨k, v⟩ := entry
    rw [get?] at h
    split at h
    · next hk =>
      cases h
      rw [hk]
      exact List.mem_cons_self
    · exact List.mem_cons_of_mem _ (ih h)

/-- Where no key comes twice, each value is found under its key. -/
theorem get?_of_mem (hn : entries.keys.Nodup) (h : (key, value) ∈ entries) :
    get? entries key = some value := by
  induction entries with
  | nil => cases h
  | cons entry rest ih =>
    obtain ⟨hkey, hrest⟩ := List.nodup_cons.mp hn
    rcases List.mem_cons.mp h with rfl | hin
    · exact if_pos rfl
    · -- the first key is another one, since this one comes behind it
      have hne : entry.1 ≠ key := fun heq => hkey (heq ▸ List.mem_map.mpr ⟨_, hin, rfl⟩)
      rw [get?, if_neg hne]
      exact ih hrest hin

/-- Where no key comes twice, a key has one value. -/
theorem value_unique (hn : entries.keys.Nodup) {value' : α} (h : (key, value) ∈ entries)
    (h' : (key, value') ∈ entries) : value = value' := by
  induction entries with
  | nil => cases h
  | cons entry rest ih =>
    obtain ⟨hkey, hrest⟩ := List.nodup_cons.mp hn
    have hnew : ∀ v, (entry.1, v) ∉ rest := fun v hin => hkey (List.mem_map.mpr ⟨_, hin, rfl⟩)
    rcases List.mem_cons.mp h with rfl | hin
    · rcases List.mem_cons.mp h' with heq | hin'
      · cases heq
        rfl
      · exact absurd hin' (hnew value')
    · rcases List.mem_cons.mp h' with rfl | hin'
      · exact absurd hin (hnew value)
      · exact ih hrest hin hin'

end Keyed

/-! ## Section 2: Induction -/

namespace Json

/-- **Induction over a value**: leaves, arrays and objects. -/
theorem tree_induction {motive : Json → Prop}
    (leaf : ∀ v : Json, v.isLeaf = true → motive v)
    (arr : ∀ items : List Json, (∀ v ∈ items, motive v) → motive (.arr items))
    (obj : ∀ fields : Fields, (∀ field ∈ fields, motive field.2) → motive (.obj fields))
    (v : Json) : motive v := by
  -- one motive each for a value, its elements, its fields and one field
  refine @Json.rec motive (fun items => ∀ v ∈ items, motive v)
    (fun fields => ∀ field ∈ fields, motive field.2) (fun field => motive field.2)
    ?null ?bool ?int ?float ?str ?arr ?obj ?noItem ?item ?noField ?field ?pair v
  case null => exact leaf _ rfl
  case bool => exact fun b => leaf _ rfl
  case int => exact fun n => leaf _ rfl
  case float => exact fun x => leaf _ rfl
  case str => exact fun s => leaf _ rfl
  case arr => exact arr
  case obj => exact obj
  case noItem => exact nofun
  case item =>
    intro v rest hv hrest x hx
    rcases List.mem_cons.mp hx with rfl | hx
    · exact hv
    · exact hrest x hx
  case noField => exact nofun
  case field =>
    intro field rest hfield hrest x hx
    rcases List.mem_cons.mp hx with rfl | hx
    · exact hfield
    · exact hrest x hx
  case pair => exact fun k v hv => hv

theorem soundItems_iff {items : List Json} : SoundItems items ↔ ∀ v ∈ items, v.Sound := by
  induction items with
  | nil => simp [SoundItems]
  | cons v rest ih => simp [SoundItems, ih]

theorem soundFields_iff {fields : Fields} : SoundFields fields ↔ ∀ field ∈ fields, field.2.Sound := by
  induction fields with
  | nil => simp [SoundFields]
  | cons field rest ih => simp [SoundFields, ih]

/-! ## Section 3: Paths -/

/-- A step into a container: to the value of a key, or to the element at an index. -/
inductive Step where
  | key (key : String)
  | index (index : Nat)
  deriving DecidableEq, Repr

/-- **The path leads** from the first value to the second one. -/
inductive Leads : Json → List Step → Json → Prop where
  | here (v : Json) : Leads v [] v
  | field {fields : Fields} {key : String} {inner v : Json} {path : List Step}
      (hf : (key, inner) ∈ fields) (h : Leads inner path v) :
      Leads (.obj fields) (.key key :: path) v
  | item {items : List Json} {index : Nat} {inner v : Json} {path : List Step}
      (hi : items[index]? = some inner) (h : Leads inner path v) :
      Leads (.arr items) (.index index :: path) v

/-- Paths lead on from where they led. -/
theorem Leads.append {u v w : Json} {path further : List Step} (h : Leads u path v)
    (hv : Leads v further w) : Leads u (path ++ further) w := by
  induction h with
  | here v => exact hv
  | field hf h ih => exact .field hf (ih hv)
  | item hi h ih => exact .item hi (ih hv)

/-- In a value where no object has a key twice a path leads to one value. -/
theorem Leads.unique {u v w : Json} {path : List Step} (hu : u.Sound) (h : Leads u path v)
    (h' : Leads u path w) : v = w := by
  induction h with
  | here v =>
    cases h' with
    | here => rfl
  | @field fields key inner v path hf h ih =>
    rw [Sound, soundFields_iff] at hu
    cases h' with
    | field hf' hrest =>
      obtain rfl := Keyed.value_unique hu.1 hf hf'
      exact ih (hu.2 (key, inner) hf) hrest
  | @item items index inner v path hi h ih =>
    rw [Sound, soundItems_iff] at hu
    cases h' with
    | item hi' hrest =>
      obtain rfl := Option.some.inj (hi.symm.trans hi')
      exact ih (hu inner (List.mem_of_getElem? hi)) hrest

/-- From a leaf no path leads further. -/
theorem leads_of_leaf {v w : Json} {path : List Step} (hv : v.isLeaf = true)
    (h : Leads v path w) : path = [] ∧ w = v := by
  cases h with
  | here v => exact ⟨rfl, rfl⟩
  | field hf h => cases hv
  | item hi h => cases hv

end Json

end EventCheck
