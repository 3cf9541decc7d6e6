import EventCheck.Proofs.Json.Values
import EventCheck.Proofs.Matching.Search

/-! # The first item of a document

    Items may be nested in items. They are listed level by level: the elements of an array
    come before what lies inside them. That is not the order in which they begin in the
    document. The first item with a pattern is the same in both orders all the same, since
    what is found in an item is found in the items around it.

    - `Json.ItemAt` says which item begins at which place, and places are compared like
      words in a dictionary: an item comes before the items inside it, and these before
      what follows the item. A place belongs to one item (`ItemAt.unique`).
    - `mem_items_iff`: the listed items are those that begin somewhere.
    - `Json.First`: of what begins at places, the first that fits. `exists_first_child` goes
      from the children of a container to the container, `exists_first_listed` is the
      array of items, where the two orders part.
    - `Json.findItem?_is_first` puts it together.
-/

namespace EventCheck

/-- **A place in a document**: the numbers of the fields and elements that lead to it. -/
abbrev Place := List Nat

/-! ## Section 1: Items and their places -/

namespace Json

/-- **The item begins at a place**: there is an array under the key, and the item is one of its
    elements. -/
inductive ItemAt (key : String) : Json → Place → Fields → Prop where
  /-- An element of an array that is stored under the key. -/
  | listed {fields : Fields} {i j : Nat} {elements : List Json} {item : Fields}
      (hi : fields[i]? = some (key, .arr elements)) (hj : elements[j]? = some (.obj item)) :
      ItemAt key (.obj fields) [i, j] item
  /-- An item inside the value of a field. -/
  | field {fields : Fields} {i : Nat} {k : String} {v : Json} {place : Place} {item : Fields}
      (hi : fields[i]? = some (k, v)) (h : ItemAt key v place item) :
      ItemAt key (.obj fields) (i :: place) item
  /-- An item inside an element of an array. -/
  | element {elements : List Json} {j : Nat} {v : Json} {place : Place} {item : Fields}
      (hj : elements[j]? = some v) (h : ItemAt key v place item) :
      ItemAt key (.arr elements) (j :: place) item

/-- **No array of items is an array of arrays**: under the key there is no array with an array for
    an element. -/
def Flat (key : String) (v : Json) : Prop :=
  ∀ path fields elements inner, v.Leads path (.obj fields) → (key, .arr elements) ∈ fields →
    .arr inner ∉ elements

theorem Flat.of_leads {key : String} {u v : Json} {path : List Step} (h : u.Flat key)
    (hv : u.Leads path v) : v.Flat key := by
  intro further fields elements inner hleads
  exact h (path ++ further) fields elements inner (hv.append hleads)

theorem flat_of_leaf {key : String} {leaf : Json} (h : leaf.isLeaf = true) : leaf.Flat key := by
  intro path fields elements inner hleads
  obtain ⟨-, rfl⟩ := leads_of_leaf h hleads
  cases h

theorem flat_arr_iff {key : String} {elements : List Json} :
    (Json.arr elements).Flat key ↔ ∀ v ∈ elements, v.Flat key := by
  constructor
  · intro h v hin
    obtain ⟨j, hj⟩ := List.mem_iff_getElem?.mp hin
    exact h.of_leads (.item hj (.here v))
  · intro h path fields listed inner hleads
    cases hleads with
    | item hj hrest => exact h _ (List.mem_of_getElem? hj) _ fields listed inner hrest

theorem flat_obj_iff {key : String} {fields : Fields} :
    (Json.obj fields).Flat key ↔ ∀ field ∈ fields, field.2.Flat key ∧
      ∀ elements, field = (key, .arr elements) → ∀ inner, .arr inner ∉ elements := by
  constructor
  · intro h field hin
    refine ⟨h.of_leads (.field hin (.here field.2)), ?_⟩
    rintro elements rfl inner
    exact h [] fields elements inner (.here _) hin
  · intro h path below listed inner hleads hlisted
    cases hleads with
    | here => exact (h _ hlisted).2 listed rfl inner
    | field hf hrest => exact (h _ hf).1 _ below listed inner hrest hlisted

section Places

variable {key : String} {v : Json} {fields : Fields} {elements : List Json} {place : Place}
  {item : Fields}

/-- A path leads to every item. -/
theorem ItemAt.leads (h : v.ItemAt key place item) : ∃ path, v.Leads path (.obj item) := by
  induction h with
  | listed hi hj =>
    exact ⟨_, .field (List.mem_of_getElem? hi) (.item hj (.here _))⟩
  | field hi h ih =>
    obtain ⟨path, hleads⟩ := ih
    exact ⟨_, .field (List.mem_of_getElem? hi) hleads⟩
  | element hj h ih =>
    obtain ⟨path, hleads⟩ := ih
    exact ⟨_, .item hj hleads⟩

/-- No item begins where the document does, as every item is in an array. -/
theorem ItemAt.ne_nil (h : v.ItemAt key place item) : place ≠ [] := by
  cases h with
  | listed hi hj => exact List.cons_ne_nil _ _
  | field hi h => exact List.cons_ne_nil _ _
  | element hj h => exact List.cons_ne_nil _ _

/-- **A place belongs to one item.** -/
theorem ItemAt.unique {other : Fields} (h : v.ItemAt key place item)
    (h' : v.ItemAt key place other) : item = other := by
  induction h with
  | listed hi hj =>
    cases h' with
    | listed hi' hj' =>
      cases hi.symm.trans hi'
      cases hj.symm.trans hj'
      rfl
    | field hi' hrest =>
      cases hi.symm.trans hi'
      cases hrest with
      | element hj' hinner => exact absurd rfl hinner.ne_nil
  | field hi h ih =>
    cases h' with
    | listed hi' hj' =>
      cases hi.symm.trans hi'
      cases h with
      | element hj hinner => exact absurd rfl hinner.ne_nil
    | field hi' hrest =>
      cases hi.symm.trans hi'
      exact ih hrest
  | element hj h ih =>
    cases h' with
    | element hj' hrest =>
      cases hj.symm.trans hj'
      exact ih hrest

/-- **An item comes before the items inside it.** -/
theorem ItemAt.nested {inner : Place} {other : Fields} (h : v.ItemAt key place item)
    (hin : (Json.obj item).ItemAt key inner other) :
    v.ItemAt key (place ++ inner) other ∧ place < place ++ inner := by
  induction h with
  | listed hi hj =>
    refine ⟨.field hi (.element hj hin), ?_⟩
    obtain ⟨n, rest, rfl⟩ := List.exists_cons_of_ne_nil hin.ne_nil
    simp
  | field hi h ih =>
    obtain ⟨hat, hlt⟩ := ih hin
    exact ⟨.field hi hat, List.cons_lt_cons_iff.mpr (.inr ⟨rfl, hlt⟩)⟩
  | element hj h ih =>
    obtain ⟨hat, hlt⟩ := ih hin
    exact ⟨.element hj hat, List.cons_lt_cons_iff.mpr (.inr ⟨rfl, hlt⟩)⟩

theorem not_itemAt_of_leaf (hv : v.isLeaf = true) : ¬ v.ItemAt key place item := by
  intro h
  cases h with
  | listed hi hj => cases hv
  | field hi h => cases hv
  | element hj h => cases hv

/-- What begins in a field: the elements of its array, if it has the key, and what lies inside its
    value. -/
inductive FieldAt (key : String) : String × Json → Place → Fields → Prop where
  | listed {elements : List Json} {j : Nat} {item : Fields} (hj : elements[j]? = some (.obj item)) :
      FieldAt key (key, .arr elements) [j] item
  | inside {field : String × Json} {place : Place} {item : Fields}
      (h : field.2.ItemAt key place item) : FieldAt key field place item

theorem itemAt_obj_iff : (Json.obj fields).ItemAt key place item ↔
    ∃ i field rest, fields[i]? = some field ∧ FieldAt key field rest item ∧ place = i :: rest := by
  constructor
  · intro h
    cases h with
    | listed hi hj => exact ⟨_, _, _, hi, .listed hj, rfl⟩
    | field hi h => exact ⟨_, _, _, hi, .inside h, rfl⟩
  · rintro ⟨i, field, rest, hi, hfield, rfl⟩
    cases hfield with
    | listed hj => exact .listed hi hj
    | inside h => exact .field hi h

theorem itemAt_arr_iff : (Json.arr elements).ItemAt key place item ↔
    ∃ j x rest, elements[j]? = some x ∧ x.ItemAt key rest item ∧ place = j :: rest := by
  constructor
  · intro h
    cases h with
    | element hj h => exact ⟨_, _, _, hj, h, rfl⟩
  · rintro ⟨j, x, rest, hj, h, rfl⟩
    exact .element hj h

end Places

/-! ## Section 2: The listing -/

/-- What is listed for one field. -/
def fieldItems (key : String) (field : String × Json) : List Fields :=
  (if field.1 = key then field.2.objects else []) ++ field.2.items key

section Listing

variable {key : String} {field : String × Json} {fields : Fields} {elements : List Json}
  {item : Fields}

theorem items_obj : (Json.obj fields).items key = fields.flatMap (fieldItems key) := by
  show itemsOfFields key fields = _
  induction fields with
  | nil => rfl
  | cons field rest ih =>
    rw [itemsOfFields, ih, List.flatMap_cons]
    rfl

theorem items_arr : (Json.arr elements).items key = elements.flatMap (items key) := by
  show itemsOfArray key elements = _
  induction elements with
  | nil => rfl
  | cons v rest ih => rw [itemsOfArray, ih, List.flatMap_cons]

/-- The object that a value is. -/
def object? : Json → Option Fields
  | .obj fields => some fields
  | _ => none

theorem object?_eq_some_iff {v : Json} : v.object? = some item ↔ v = .obj item := by
  cases v <;> simp [object?]

theorem objects_arr : (Json.arr elements).objects = elements.filterMap object? := rfl

theorem mem_objects_iff : item ∈ (Json.arr elements).objects ↔ .obj item ∈ elements := by
  simp [objects_arr, object?_eq_some_iff]

/-- What is listed for an array under the key: its elements first, and then what lies inside
    them. -/
theorem fieldItems_listed :
    fieldItems key (key, .arr elements) =
      (Json.arr elements).objects ++ elements.flatMap (items key) := by
  unfold fieldItems
  rw [if_pos rfl, items_arr]

/-- For any other field what lies inside its value is all. -/
theorem fieldItems_inside (h : ∀ elements, field ≠ (key, .arr elements)) :
    fieldItems key field = field.2.items key := by
  obtain ⟨k, v⟩ := field
  have hnone : (if k = key then v.objects else []) = [] := by
    split
    · next hk =>
      subst hk
      cases v with
      | arr elements => exact absurd rfl (h elements)
      | _ => rfl
    · rfl
  unfold fieldItems
  rw [hnone, List.nil_append]

theorem mem_flatMap_iff_at {α : Type} {l : List α} {list : α → List Fields}
    {At : α → Place → Fields → Prop}
    (h : ∀ x ∈ l, ∀ item, item ∈ list x ↔ ∃ place, At x place item) :
    item ∈ l.flatMap list ↔
      ∃ place i x rest, l[i]? = some x ∧ At x rest item ∧ place = i :: rest := by
  rw [List.mem_flatMap]
  constructor
  · rintro ⟨x, hx, hitem⟩
    obtain ⟨i, hi⟩ := List.mem_iff_getElem?.mp hx
    obtain ⟨rest, hrest⟩ := (h x hx item).mp hitem
    exact ⟨i :: rest, i, x, rest, hi, hrest, rfl⟩
  · rintro ⟨place, i, x, rest, hi, hrest, -⟩
    have hx := List.mem_of_getElem? hi
    exact ⟨x, hx, (h x hx item).mpr ⟨rest, hrest⟩⟩

theorem mem_fieldItems_iff
    (h : ∀ item, item ∈ field.2.items key ↔ ∃ place, field.2.ItemAt key place item) :
    item ∈ fieldItems key field ↔ ∃ place, FieldAt key field place item := by
  by_cases hlisted : ∃ elements, field = (key, .arr elements)
  · obtain ⟨elements, rfl⟩ := hlisted
    rw [fieldItems_listed, ← items_arr, List.mem_append, mem_objects_iff, h]
    constructor
    · rintro (hobj | ⟨place, hinside⟩)
      · obtain ⟨j, hj⟩ := List.mem_iff_getElem?.mp hobj
        exact ⟨[j], .listed hj⟩
      · exact ⟨place, .inside hinside⟩
    · rintro ⟨place, hplace⟩
      cases hplace with
      | listed hj => exact .inl (List.mem_of_getElem? hj)
      | inside hinside => exact .inr ⟨place, hinside⟩
  · have hother : ∀ elements, field ≠ (key, .arr elements) := not_exists.mp hlisted
    rw [fieldItems_inside hother, h]
    apply exists_congr
    intro place
    constructor
    · exact .inside
    · intro hplace
      cases hplace with
      | listed hj => exact absurd rfl (hother _)
      | inside hinside => exact hinside

/-- **The listed items are those that begin somewhere.** -/
theorem mem_items_iff {v : Json} : item ∈ v.items key ↔ ∃ place, v.ItemAt key place item := by
  induction v using tree_induction generalizing item with
  | leaf leaf hleaf =>
    have hno : leaf.items key = [] := by
      cases leaf with
      | arr items => cases hleaf
      | obj fields => cases hleaf
      | _ => rfl
    rw [hno]
    constructor
    · exact nofun
    · rintro ⟨place, h⟩
      exact absurd h (not_itemAt_of_leaf hleaf)
  | arr elements ih =>
    rw [items_arr, mem_flatMap_iff_at fun x hx item => ih x hx]
    simp only [itemAt_arr_iff]
  | obj fields ih =>
    have hfield : ∀ field ∈ fields, ∀ item,
        item ∈ fieldItems key field ↔ ∃ place, FieldAt key field place item := by
      intro field hin item
      exact mem_fieldItems_iff fun _ => ih field hin
    rw [items_obj, mem_flatMap_iff_at hfield]
    simp only [itemAt_obj_iff]

end Listing

/-! ## Section 3: The first item -/

/-- **The first item that fits**, of those that begin at places. -/
structure First (At : Place → Fields → Prop) (fits : Fields → Bool) (place : Place)
    (item : Fields) : Prop where
  here : At place item
  holds : fits item = true
  first : ∀ earlier other, earlier < place → At earlier other → fits other = false

/-- **What fits goes from the inside out**: if an object fits, so do the objects around it. -/
def Outward (fits : Fields → Bool) : Prop :=
  ∀ path outer inner, (Json.obj outer).Leads path (.obj inner) → fits inner = true →
    fits outer = true

section First

variable {key : String} {fits : Fields → Bool} {elements : List Json} {item : Fields}

/-- **From children to their container.** Where the listing of each child begins with its first
    item that fits, so does that of the container. -/
theorem exists_first_child {α : Type} {l : List α} {list : α → List Fields}
    {At : α → Place → Fields → Prop} {Up : Place → Fields → Prop}
    (hUp : ∀ place item, Up place item ↔
      ∃ i x rest, l[i]? = some x ∧ At x rest item ∧ place = i :: rest)
    (hlist : ∀ x ∈ l, ∀ place item, At x place item → item ∈ list x)
    (hfirst : ∀ x ∈ l, ∀ item, (list x).find? fits = some item →
      ∃ place, First (At x) fits place item)
    (h : (l.flatMap list).find? fits = some item) : ∃ place, First Up fits place item := by
  rw [List.find?_flatMap, List.findSome?_eq_some_iff] at h
  obtain ⟨front, x, behind, rfl, hx, hfront⟩ := h
  have hplace : (front ++ x :: behind)[front.length]? = some x := by simp
  obtain ⟨rest, hrest⟩ := hfirst x (List.mem_of_getElem? hplace) item hx
  have hhere : Up (front.length :: rest) item :=
    (hUp _ _).mpr ⟨front.length, x, rest, hplace, hrest.here, rfl⟩
  refine ⟨front.length :: rest, hhere, hrest.holds, ?_⟩
  intro earlier other hlt hother
  obtain ⟨i, y, rest', hi, hy, rfl⟩ := (hUp _ _).mp hother
  -- what begins earlier does so in a child in front of this one, or in this one
  rcases List.cons_lt_cons_iff.mp hlt with hi' | ⟨rfl, hlt'⟩
  · rw [List.getElem?_append_left hi'] at hi
    have hin : y ∈ front := List.mem_of_getElem? hi
    have hnone := List.find?_eq_none.mp (hfront y hin) other
      (hlist y (List.mem_append_left _ hin) _ _ hy)
    exact Bool.eq_false_iff.mpr hnone
  · obtain rfl : x = y := Option.some.inj (hplace.symm.trans hi)
    exact hrest.first rest' other hlt' hy

/-- Of the elements of a flat array, the one around a fitting item fits. -/
theorem fits_of_inside (hfits : Outward fits)
    (hflat : ∀ inner, .arr inner ∉ elements) {x : Json} (hx : x ∈ elements) {place : Place}
    (h : x.ItemAt key place item) (hitem : fits item = true) :
    ∃ outer, x = .obj outer ∧ fits outer = true := by
  cases x with
  | obj outer =>
    obtain ⟨path, hleads⟩ := h.leads
    exact ⟨outer, rfl, hfits path outer item hleads hitem⟩
  | arr inner => exact absurd hx (hflat inner)
  | _ => exact absurd h (not_itemAt_of_leaf rfl)

/-- If no element of a flat array fits, nothing inside it does. -/
theorem not_fits_of_inside (hfits : Outward fits) (hflat : ∀ inner, .arr inner ∉ elements)
    (hnone : (elements.filterMap object?).find? fits = none) {place : Place}
    (h : (Json.arr elements).ItemAt key place item) : ¬ fits item = true := by
  intro hitem
  obtain ⟨j, x, rest, hj, hx, -⟩ := itemAt_arr_iff.mp h
  have hmem : x ∈ elements := List.mem_of_getElem? hj
  obtain ⟨outer, rfl, houter⟩ := fits_of_inside hfits hflat hmem hx hitem
  have hlisted : outer ∈ elements.filterMap object? := mem_objects_iff.mpr hmem
  exact List.find?_eq_none.mp hnone outer hlisted houter

/-- The first element that fits, by its number. -/
theorem exists_first_object (h : (elements.filterMap object?).find? fits = some item) :
    ∃ j : Nat, elements[j]? = some (.obj item) ∧
      ∀ (i : Nat) (outer : Fields), i < j → elements[i]? = some (.obj outer) →
        fits outer = false := by
  rw [List.find?_filterMap, Option.bind_eq_some_iff] at h
  obtain ⟨x, hx, hobj⟩ := h
  obtain rfl := object?_eq_some_iff.mp hobj
  obtain ⟨-, j, hj, hget, hbefore⟩ := List.find?_eq_some_iff_getElem.mp hx
  refine ⟨j, hget ▸ List.getElem?_eq_getElem hj, ?_⟩
  intro i outer hi hobj
  obtain ⟨hlt, heq⟩ := List.getElem?_eq_some_iff.mp hobj
  have hno := hbefore i hi
  rw [heq] at hno
  simpa [object?] using hno

/-- **The array of items.** Here the listing has all elements in front of what lies inside them. If
    an item fits that lies inside an element, that element fits as well, so that the first element
    that fits begins in front of every other item that does. -/
theorem exists_first_listed (hfits : Outward fits) (hflat : ∀ inner, .arr inner ∉ elements)
    (h : (fieldItems key (key, .arr elements)).find? fits = some item) :
    ∃ place, First (FieldAt key (key, .arr elements)) fits place item := by
  rw [fieldItems_listed, List.find?_append, objects_arr] at h
  cases helement : (elements.filterMap object?).find? fits with
  | none =>
    rw [helement, Option.none_or] at h
    have hin := List.mem_of_find?_eq_some h
    rw [← items_arr, mem_items_iff] at hin
    obtain ⟨place, hin⟩ := hin
    exact absurd (List.find?_some h) (not_fits_of_inside hfits hflat helement hin)
  | some found =>
    rw [helement, Option.some_or] at h
    cases h
    obtain ⟨j, hj, hearlier⟩ := exists_first_object helement
    refine ⟨[j], .listed hj, List.find?_some helement, ?_⟩
    intro earlier other hlt hother
    cases hother with
    | @listed _ i _ hi =>
      rcases List.cons_lt_cons_iff.mp hlt with hij | ⟨-, hnil⟩
      · exact hearlier i other hij hi
      · exact absurd hnil (List.not_lt_nil _)
    | inside hinside =>
      obtain ⟨i, y, rest, hi, hy, rfl⟩ := itemAt_arr_iff.mp hinside
      rcases List.cons_lt_cons_iff.mp hlt with hij | ⟨-, hnil⟩
      · -- it lies inside an element in front of the one that was found
        rw [← Bool.not_eq_true]
        intro hfit
        obtain ⟨outer, rfl, houter⟩ := fits_of_inside hfits hflat (List.mem_of_getElem? hi) hy hfit
        rw [hearlier i outer hij hi] at houter
        cases houter
      · exact absurd hnil (List.not_lt_nil _)

/-- **The listing of a flat value begins with its first item that fits.** -/
theorem exists_first_of_find? (hfits : Outward fits) {v : Json} (hflat : v.Flat key)
    (h : (v.items key).find? fits = some item) :
    ∃ place, First (v.ItemAt key) fits place item := by
  induction v using tree_induction generalizing item with
  | leaf leaf hleaf =>
    obtain ⟨place, hplace⟩ := mem_items_iff.mp (List.mem_of_find?_eq_some h)
    exact absurd hplace (not_itemAt_of_leaf hleaf)
  | arr elements ih =>
    rw [items_arr] at h
    refine exists_first_child (fun _ _ => itemAt_arr_iff)
      (fun x hx place item hitem => mem_items_iff.mpr ⟨place, hitem⟩) ?_ h
    intro x hx item hfind
    exact ih x hx (flat_arr_iff.mp hflat x hx) hfind
  | obj fields ih =>
    rw [items_obj] at h
    refine exists_first_child (fun _ _ => itemAt_obj_iff)
      (fun field hin place item hitem =>
        (mem_fieldItems_iff fun _ => mem_items_iff).mpr ⟨place, hitem⟩) ?_ h
    intro field hin item hfind
    obtain ⟨hinner, hkey⟩ := flat_obj_iff.mp hflat field hin
    by_cases hlisted : ∃ elements, field = (key, .arr elements)
    · obtain ⟨elements, rfl⟩ := hlisted
      exact exists_first_listed hfits (hkey elements rfl) hfind
    · have hother : ∀ elements, field ≠ (key, .arr elements) := not_exists.mp hlisted
      rw [fieldItems_inside hother] at hfind
      obtain ⟨place, hplace⟩ := ih field hin hinner hfind
      refine ⟨place, .inside hplace.here, hplace.holds, ?_⟩
      intro earlier other hlt hat
      cases hat with
      | listed hj => exact absurd rfl (hother _)
      | inside hinside => exact hplace.first earlier other hlt hinside

end First

end Json

/-! ## Section 4: Items in the hands of callers -/

namespace Value

variable {key : String}

theorem objects_ofItems (elements : List Json) :
    (Value.arr (ofItems elements)).objects = (Json.arr elements).objects.map ofFields := by
  show (ofItems elements).filterMap _ = (elements.filterMap Json.object?).map ofFields
  rw [ofItems_eq_map, List.filterMap_map, List.map_filterMap]
  congr 1
  funext v
  cases v <;> rfl

theorem objects_ofJson (v : Json) : (ofJson v).objects = v.objects.map ofFields := by
  cases v with
  | arr elements => exact objects_ofItems elements
  | _ => rfl

theorem itemsOfArray_ofItems {elements : List Json}
    (h : ∀ v ∈ elements, (ofJson v).items key = ⟨(v.items key).map ofFields, none⟩) :
    itemsOfArray key (ofItems elements) =
      ⟨(Json.itemsOfArray key elements).map ofFields, none⟩ := by
  induction elements with
  | nil => rfl
  | cons v rest ih =>
    have hrest := ih fun v hin => h v (List.mem_cons_of_mem _ hin)
    rw [ofItems, itemsOfArray, Json.itemsOfArray, h v List.mem_cons_self, hrest, List.map_append]
    rfl

theorem itemsOfFields_ofFields {fields : Fields}
    (h : ∀ field ∈ fields,
      (ofJson field.2).items key = ⟨(field.2.items key).map ofFields, none⟩) :
    itemsOfFields key (ofFields fields) =
      ⟨(Json.itemsOfFields key fields).map ofFields, none⟩ := by
  induction fields with
  | nil => rfl
  | cons field rest ih =>
    obtain ⟨k, v⟩ := field
    have hrest := ih fun field hin => h field (List.mem_cons_of_mem _ hin)
    have hv : (ofJson v).items key = ⟨(v.items key).map ofFields, none⟩ :=
      h (k, v) List.mem_cons_self
    have hobjects : (if k = key then (ofJson v).objects else []) =
        (if k = key then v.objects else []).map ofFields := by
      split
      · exact objects_ofJson v
      · rfl
    rw [ofFields, itemsOfFields, Json.itemsOfFields, hv, hrest, hobjects, List.append_assoc,
      List.map_append, List.map_append]
    rfl

/-- **On JSON data the listing never stops**, and lists the items of the data. -/
theorem items_ofJson (v : Json) :
    (ofJson v).items key = ⟨(v.items key).map ofFields, none⟩ := by
  induction v using Json.tree_induction with
  | leaf leaf hleaf =>
    cases leaf with
    | arr elements => cases hleaf
    | obj fields => cases hleaf
    | _ => rfl
  | arr elements ih => exact itemsOfArray_ofItems ih
  | obj fields ih => exact itemsOfFields_ofFields ih

theorem firstWith?_ofFields (pattern : Fields) (items : List Fields) :
    firstWith? (ofJson (.obj pattern)) (items.map ofFields) =
      .ok ((items.find? fun item => (Json.obj item).hasFields pattern).map ofFields) := by
  induction items with
  | nil => rfl
  | cons item rest ih =>
    have hitem : (Value.obj (ofFields item)).hasPattern (ofJson (.obj pattern)) =
        .ok ((Json.obj item).hasFields pattern) := by
      show ((ofJson (.obj item)).hasFields (ofFields pattern)).mapError SearchError.notJson = _
      rw [hasFields_ofJson]
      rfl
    rw [List.map_cons, firstWith?, hitem, List.find?_cons]
    cases (Json.obj item).hasFields pattern with
    | true => rfl
    | false => exact ih

/-- So the search for an item comes to an answer, the one for the data. -/
theorem findItem?_ofJson (payload : Json) (pattern : Fields) :
    findItem? (ofJson payload) (ofJson (.obj pattern)) =
      .ok ((payload.findItem? pattern).map ofFields) := by
  unfold findItem?
  rw [decoded_ofJson, items_ofJson]
  show (firstWith? _ ((payload.decoded.items Json.itemsKey).map ofFields) >>= _) = _
  rw [firstWith?_ofFields]
  unfold Json.findItem?
  generalize (payload.decoded.items Json.itemsKey).find? _ = found
  cases found with
  | none => rfl
  | some item => rfl

end Value

/-! ## Section 5: The first item with a pattern -/

namespace Json

/-- **The item matches the pattern**: each field of the pattern occurs somewhere in it. -/
def Matches (pattern item : Fields) : Prop :=
  ∀ key wanted, (key, wanted) ∈ pattern → (Json.obj item).Occurs key wanted

theorem outward_hasFields (pattern : Fields) :
    Outward fun item => (Json.obj item).hasFields pattern :=
  fun _ _ _ hleads hinner => hasFields_of_leads hleads hinner

/-- **The search for an item gives the first match in document order.** In what the payload says, no
    array of items is an array of arrays. Then the search finds nothing if and only if no item
    matches, at whatever place it begins. Otherwise it gives an item that matches, and every
    other item that matches begins behind it. On JSON data it never fails. -/
theorem findItem?_is_first {payload : Json} (hflat : payload.decoded.Flat itemsKey)
    (pattern : Fields) :
    Value.findItem? (.ofJson payload) (.ofJson (.obj pattern)) =
        .ok ((payload.findItem? pattern).map Value.ofFields) ∧
      (payload.findItem? pattern = none ↔
        ∀ place item, payload.decoded.ItemAt itemsKey place item → ¬ Matches pattern item) ∧
      ∀ item, payload.findItem? pattern = some item →
        ∃ place, payload.decoded.ItemAt itemsKey place item ∧ Matches pattern item ∧
          ∀ place' other, payload.decoded.ItemAt itemsKey place' other → Matches pattern other →
            place' = place ∧ other = item ∨ place < place' := by
  refine ⟨Value.findItem?_ofJson payload pattern, ?_, ?_⟩
  · unfold findItem?
    rw [List.find?_eq_none]
    constructor
    · intro hnone place item hplace hmatches
      exact hnone item (mem_items_iff.mpr ⟨place, hplace⟩) (hasFields_iff.mpr hmatches)
    · intro hnone item hin hfits
      obtain ⟨place, hplace⟩ := mem_items_iff.mp hin
      exact hnone place item hplace (hasFields_iff.mp hfits)
  · intro item hfound
    obtain ⟨place, hfirst⟩ := exists_first_of_find? (outward_hasFields pattern) hflat hfound
    refine ⟨place, hfirst.here, hasFields_iff.mp hfirst.holds, ?_⟩
    intro place' other hother hmatches
    -- it does not begin earlier, and at the same place it is the same item
    have hnot : ¬ place' < place := by
      intro hlt
      have hno := hfirst.first place' other hlt hother
      rw [hasFields_iff.mpr hmatches] at hno
      cases hno
    rcases List.le_iff_lt_or_eq.mp (List.not_lt.mp hnot) with hlt | rfl
    · exact .inr hlt
    · exact .inl ⟨rfl, hother.unique hfirst.here⟩

/-- Shelves with tea, which comes with a spoon, and milk. -/
def shelves : Json :=
  .obj [("items", .arr [
    .obj [("name", .str "tea"), ("items", .arr [.obj [("id", .int 1)]])],
    .obj [("name", .str "milk"), ("id", .int 1)]])]

theorem shelves_flat : shelves.decoded.Flat itemsKey := by
  have htea : (Json.str "tea").Flat "items" := flat_of_leaf rfl
  have hmilk : (Json.str "milk").Flat "items" := flat_of_leaf rfl
  have hid : (Json.int 1).Flat "items" := flat_of_leaf rfl
  show shelves.Flat "items"
  simp [shelves, flat_obj_iff, flat_arr_iff, htea, hmilk, hid]

/-- The spoon is listed behind the milk, but begins in front of it. The tea is found, inside which
    the spoon lies, and all else that matches begins behind the tea. -/
theorem tea_is_first :
    (shelves.items itemsKey).map (fun item => Keyed.get? item "name") =
        [some (.str "tea"), some (.str "milk"), none] ∧
      ∃ item, shelves.findItem? [("id", .int 1)] = some item ∧
        Keyed.get? item "name" = some (.str "tea") ∧
        ∃ place, shelves.decoded.ItemAt itemsKey place item ∧ Matches [("id", .int 1)] item ∧
          ∀ place' other, shelves.decoded.ItemAt itemsKey place' other →
            Matches [("id", .int 1)] other → place' = place ∧ other = item ∨ place < place' := by
  have hfound : shelves.findItem? [("id", .int 1)] =
      some [("name", .str "tea"), ("items", .arr [.obj [("id", .int 1)]])] := by
    cbv
  refine ⟨rfl, _, hfound, rfl, ?_⟩
  exact (findItem?_is_first shelves_flat [("id", .int 1)]).2.2 _ hfound

end Json

end EventCheck
