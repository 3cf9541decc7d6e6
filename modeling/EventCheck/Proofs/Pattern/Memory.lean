import EventCheck.Pattern.Memory
import EventCheck.Proofs.Json.Reading

/-! # Mappings in memory as patterns

    - `Memory.proper_json?`: whatever lies in memory, what is read from it is sound and
      has no more levels than it may. That holds of things that hold themselves too.
    - `Pattern.ofMemory_cell`: a mapping with strings as keys is the pattern in memory
      that it is without one.
-/

namespace EventCheck

/-! ## Section 1: What is read from memory -/

namespace Json

theorem levelsItems_le_iff {items : List Json} {n : Nat} :
    levelsItems items ≤ n ↔ ∀ v ∈ items, v.levels ≤ n := by
  induction items with
  | nil => simp [levelsItems]
  | cons v rest ih => rw [levelsItems, Nat.max_le, ih, List.forall_mem_cons]

theorem levelsFields_le_iff {fields : Fields} {n : Nat} :
    levelsFields fields ≤ n ↔ ∀ field ∈ fields, field.2.levels ≤ n := by
  induction fields with
  | nil => simp [levelsFields]
  | cons field rest ih => rw [levelsFields, Nat.max_le, ih, List.forall_mem_cons]

/-- No key comes twice in the value, and it has no more levels than this. -/
structure Proper (levels : Nat) (v : Json) : Prop where
  sound : v.Sound
  low : v.levels ≤ levels

theorem proper_arr {levels : Nat} {items : List Json} (h : ∀ v ∈ items, v.Proper levels) :
    (Json.arr items).Proper (levels + 1) where
  sound := soundItems_iff.mpr fun v hin => (h v hin).sound
  low := by
    have hlow := levelsItems_le_iff.mpr fun v hin => (h v hin).low
    rw [Json.levels]
    omega

theorem proper_obj {levels : Nat} {fields : Fields} (hkeys : fields.keys.Nodup)
    (h : ∀ field ∈ fields, field.2.Proper levels) : (Json.obj fields).Proper (levels + 1) where
  sound := ⟨hkeys, soundFields_iff.mpr fun field hin => (h field hin).sound⟩
  low := by
    have hlow := levelsFields_le_iff.mpr fun field hin => (h field hin).low
    rw [Json.levels]
    omega

end Json

/-- What comes from a list comes from something in it. -/
theorem exists_of_mem_mapM {α β : Type} {f : α → Option β} {xs : List α} {ys : List β}
    (h : xs.mapM f = some ys) {y : β} (hin : y ∈ ys) : ∃ x ∈ xs, f x = some y := by
  induction xs generalizing ys with
  | nil =>
    cases h
    cases hin
  | cons x xs ih =>
    simp only [List.mapM_cons, Option.bind_eq_bind, Option.bind_eq_some_iff, Option.pure_def,
      Option.some.injEq] at h
    obtain ⟨first, hfirst, rest, hrest, rfl⟩ := h
    rcases List.mem_cons.mp hin with rfl | hin
    · exact ⟨x, List.mem_cons_self, hfirst⟩
    · obtain ⟨x', hx', heq⟩ := ih hrest hin
      exact ⟨x', List.mem_cons_of_mem _ hx', heq⟩

namespace Memory

variable {ι : Type} {memory : Memory ι}

theorem proper_leaf? {cell : Cell ι} {v : Json} (h : cell.leaf? = some v) (levels : Nat) :
    v.Proper (levels + 1) := by
  cases cell <;> cases h <;> exact ⟨trivial, Nat.succ_le_succ (Nat.zero_le _)⟩

/-- The fields of a mapping have keys of their own, and values that were read. -/
theorem fields?_cases {value? : ι → Option Json} {entries : List (ι × ι)} {fields : Fields}
    (h : memory.fields? value? entries = some fields) :
    fields.keys.Nodup ∧ ∀ field ∈ fields, ∃ place, value? place = some field.2 := by
  obtain ⟨pairs, hpairs, rfl⟩ := Option.map_eq_some_iff.mp h
  refine ⟨Keyed.nodup_ofPairs pairs, ?_⟩
  intro field hin
  obtain ⟨entry, -, hentry⟩ := exists_of_mem_mapM hpairs (Keyed.mem_of_mem_ofPairs hin)
  simp only [field?, Option.bind_eq_bind, Option.bind_eq_some_iff, Option.pure_def,
    Option.some.injEq] at hentry
  obtain ⟨key, -, v, hv, rfl⟩ := hentry
  exact ⟨entry.2, hv⟩

/-- **What is read from memory is proper**, whatever lies there. By induction on how many levels it
    may have. -/
theorem proper_json? {levels : Nat} {place : ι} {v : Json}
    (h : memory.json? levels place = some v) : v.Proper levels := by
  induction levels generalizing place v with
  | zero => cases h
  | succ levels ih =>
    rw [json?] at h
    split at h
    · obtain ⟨items, hitems, rfl⟩ := Option.map_eq_some_iff.mp h
      refine Json.proper_arr fun v hin => ?_
      obtain ⟨place, -, hv⟩ := exists_of_mem_mapM hitems hin
      exact ih hv
    · obtain ⟨fields, hfields, rfl⟩ := Option.map_eq_some_iff.mp h
      obtain ⟨hkeys, hvalues⟩ := fields?_cases hfields
      refine Json.proper_obj hkeys fun field hin => ?_
      obtain ⟨place, hv⟩ := hvalues field hin
      exact ih hv
    · exact proper_leaf? h levels

end Memory

/-! ## Section 2: Values laid out in memory -/

namespace Value

mutual

/-- **No mapping in the value has a key twice**, at any depth. -/
def Distinct : Value → Prop
  | .arr items => DistinctItems items
  | .obj fields => (Keyed.keys fields).Nodup ∧ DistinctFields fields
  | _ => True

def DistinctItems : List Value → Prop
  | [] => True
  | v :: rest => v.Distinct ∧ DistinctItems rest

def DistinctFields : Keyed Value → Prop
  | [] => True
  | (_, v) :: rest => v.Distinct ∧ DistinctFields rest

end

/-- The places of the entries of a mapping with strings as keys. -/
def places (fields : Keyed Value) : List (Value × Value) :=
  fields.map fun (key, v) => (.str key, v)

/-- Up to this many levels, values without repeated keys are read as the JSON values that they
    are. -/
def ReadAsJson (levels : Nat) : Prop :=
  ∀ {v : Value}, v.Distinct → ∀ {json : Json},
    Memory.json? cell levels v = some json ↔ v.toJson? = some json ∧ json.levels ≤ levels

theorem mapM_items {levels : Nat} (hread : ReadAsJson levels) {items : List Value}
    (h : DistinctItems items) {json : List Json} :
    items.mapM (Memory.json? cell levels) = some json ↔
      toItems? items = some json ∧ Json.levelsItems json ≤ levels := by
  induction items generalizing json with
  | nil =>
    show some [] = some json ↔ some [] = some json ∧ _
    constructor
    · rintro ⟨rfl⟩
      exact ⟨rfl, Nat.zero_le _⟩
    · exact fun h => h.1
  | cons v rest ih =>
    simp only [List.mapM_cons, Option.bind_eq_bind, Option.bind_eq_some_iff, Option.pure_def,
      Option.some.injEq, toItems?, Option.map_eq_some_iff, hread h.1, ih h.2]
    constructor
    · rintro ⟨first, ⟨hv, hlow⟩, others, ⟨hrest, hlow'⟩, rfl⟩
      refine ⟨⟨first, hv, others, hrest, rfl⟩, ?_⟩
      rw [Json.levelsItems]
      exact Nat.max_le.mpr ⟨hlow, hlow'⟩
    · rintro ⟨⟨first, hv, others, hrest, rfl⟩, hlow⟩
      rw [Json.levelsItems, Nat.max_le] at hlow
      exact ⟨first, ⟨hv, hlow.1⟩, others, ⟨hrest, hlow.2⟩, rfl⟩

theorem mapM_fields {levels : Nat} (hread : ReadAsJson levels) {fields : Keyed Value}
    (h : DistinctFields fields) {json : Fields} :
    (places fields).mapM (Memory.field? cell (Memory.json? cell levels)) = some json ↔
      toFields? fields = some json ∧ Json.levelsFields json ≤ levels := by
  induction fields generalizing json with
  | nil =>
    show some [] = some json ↔ some [] = some json ∧ _
    constructor
    · rintro ⟨rfl⟩
      exact ⟨rfl, Nat.zero_le _⟩
    · exact fun h => h.1
  | cons field rest ih =>
    obtain ⟨key, v⟩ := field
    have hkey : (cell (.str key)).key? = some key := rfl
    simp only [places] at ih
    simp only [places, List.map_cons, List.mapM_cons, Memory.field?, hkey, Option.bind_eq_bind,
      Option.bind_eq_some_iff, Option.pure_def, Option.some.injEq, toFields?,
      Option.map_eq_some_iff, hread h.1, ih h.2]
    constructor
    · rintro ⟨_, ⟨_, rfl, first, ⟨hv, hlow⟩, rfl⟩, others, ⟨hrest, hlow'⟩, rfl⟩
      refine ⟨⟨first, hv, others, hrest, rfl⟩, ?_⟩
      rw [Json.levelsFields]
      exact Nat.max_le.mpr ⟨hlow, hlow'⟩
    · rintro ⟨⟨first, hv, others, hrest, rfl⟩, hlow⟩
      rw [Json.levelsFields, Nat.max_le] at hlow
      exact ⟨_, ⟨_, rfl, first, ⟨hv, hlow.1⟩, rfl⟩, others, ⟨hrest, hlow.2⟩, rfl⟩

theorem keys_toFields? {fields : Keyed Value} {json : Fields} (h : toFields? fields = some json) :
    Keyed.keys json = Keyed.keys fields := by
  induction fields generalizing json with
  | nil =>
    cases h
    rfl
  | cons field rest ih =>
    obtain ⟨key, v⟩ := field
    simp only [toFields?, Option.bind_eq_some_iff, Option.map_eq_some_iff] at h
    obtain ⟨first, -, others, hrest, rfl⟩ := h
    exact congrArg (key :: ·) (ih hrest)

/-- The fields of a mapping keep their keys, since none comes twice. -/
theorem fields?_cell {levels : Nat} (hread : ReadAsJson levels) {fields : Keyed Value}
    (hkeys : (Keyed.keys fields).Nodup) (h : DistinctFields fields) {json : Fields} :
    Memory.fields? cell (Memory.json? cell levels) (places fields) = some json ↔
      toFields? fields = some json ∧ Json.levelsFields json ≤ levels := by
  rw [Memory.fields?, Option.map_eq_some_iff]
  simp only [mapM_fields hread h]
  constructor
  · rintro ⟨pairs, ⟨hpairs, hlow⟩, rfl⟩
    rw [Keyed.ofPairs_of_nodup (keys_toFields? hpairs ▸ hkeys)]
    exact ⟨hpairs, hlow⟩
  · rintro ⟨hjson, hlow⟩
    exact ⟨json, ⟨hjson, hlow⟩, Keyed.ofPairs_of_nodup (keys_toFields? hjson ▸ hkeys)⟩

/-- **A value laid out in memory is read as the JSON value that it is.** By induction on how many
    levels it may have. -/
theorem readAsJson (levels : Nat) : ReadAsJson levels := by
  induction levels with
  | zero =>
    intro v _ json
    have hlevels : 1 ≤ json.levels := by cases json <;> simp [Json.levels]
    simp only [Memory.json?]
    constructor
    · intro hnone
      cases hnone
    · rintro ⟨-, hlow⟩
      omega
  | succ levels ih =>
    intro v h json
    -- what is no JSON gives nothing on either side
    have hnothing : (none : Option Json) = some json ↔
        (none : Option Json) = some json ∧ json.levels ≤ levels + 1 := by
      simp
    have hleaf {leaf : Json} (hleaf : leaf.levels = 1) :
        some leaf = some json ↔ some leaf = some json ∧ json.levels ≤ levels + 1 := by
      constructor
      · rintro ⟨rfl⟩
        exact ⟨rfl, by omega⟩
      · exact fun h => h.1
    cases v with
    | arr items =>
      show (items.mapM (Memory.json? cell levels)).map Json.arr = some json ↔ _
      simp only [toJson?, Option.map_eq_some_iff, mapM_items ih h]
      constructor
      · rintro ⟨items, ⟨hitems, hlow⟩, rfl⟩
        exact ⟨⟨items, hitems, rfl⟩, by rw [Json.levels]; omega⟩
      · rintro ⟨⟨items, hitems, rfl⟩, hlow⟩
        rw [Json.levels] at hlow
        exact ⟨items, ⟨hitems, by omega⟩, rfl⟩
    | obj fields =>
      show (Memory.fields? cell (Memory.json? cell levels) (places fields)).map Json.obj =
        some json ↔ _
      simp only [toJson?, Option.map_eq_some_iff, fields?_cell ih h.1 h.2]
      constructor
      · rintro ⟨fields, ⟨hfields, hlow⟩, rfl⟩
        exact ⟨⟨fields, hfields, rfl⟩, by rw [Json.levels]; omega⟩
      · rintro ⟨⟨fields, hfields, rfl⟩, hlow⟩
        rw [Json.levels] at hlow
        exact ⟨fields, ⟨hfields, by omega⟩, rfl⟩
    | null => exact hleaf rfl
    | bool b => exact hleaf rfl
    | int n => exact hleaf rfl
    | float x => exact hleaf rfl
    | str s => exact hleaf rfl
    | tuple items => exact hnothing
    | set items => exact hnothing
    | bytes bs => exact hnothing
    | other name => exact hnothing

end Value

namespace Pattern

theorem ofMapping_eq_ok_iff {fields : Keyed Value} {p : Fields} : ofMapping fields = .ok p ↔
    Value.toFields? fields = some p ∧ Json.levelsFields p ≤ maxLevels := by
  have hlow (p : Fields) : (p.all fun field => field.2.storable) = true ↔
      Json.levelsFields p ≤ maxLevels := by
    rw [Json.levelsFields_le_iff, List.all_eq_true]
    simp only [Json.storable, decide_eq_true_eq]
  unfold ofMapping
  constructor
  · intro h
    split at h
    · next q hq =>
      split at h
      · next hall =>
        cases h
        exact ⟨hq, (hlow p).mp hall⟩
      · cases h
    · cases h
  · rintro ⟨hp, hlevels⟩
    rw [hp]
    exact if_pos ((hlow p).mpr hlevels)

/-- **A mapping with strings as keys is the pattern in memory that it is without one.** -/
theorem ofMemory_cell {fields : Keyed Value} (h : (Value.obj fields).Distinct) :
    ofMemory Value.cell (Value.places fields) = ofMapping fields := by
  have hread (p : Fields) : Memory.fields? Value.cell (Memory.json? Value.cell maxLevels)
      (Value.places fields) = some p ↔
        Value.toFields? fields = some p ∧ Json.levelsFields p ≤ maxLevels :=
    Value.fields?_cell (Value.readAsJson maxLevels) h.1 h.2
  unfold ofMemory
  cases hmemory : Memory.fields? Value.cell (Memory.json? Value.cell maxLevels)
      (Value.places fields) with
  | some p => exact (ofMapping_eq_ok_iff.mpr ((hread p).mp hmemory)).symm
  | none =>
    cases hmapping : ofMapping fields with
    | ok p =>
      rw [(hread p).mpr (ofMapping_eq_ok_iff.mp hmapping)] at hmemory
      cases hmemory
    | error e =>
      -- a mapping is rejected for one reason only
      unfold ofMapping at hmapping
      split at hmapping
      · split at hmapping <;> cases hmapping
        rfl
      · cases hmapping
        rfl

end Pattern

end EventCheck
