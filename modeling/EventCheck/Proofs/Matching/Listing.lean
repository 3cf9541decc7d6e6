import EventCheck.Proofs.Matching.Items
import Mathlib.Data.List.Basic
import Mathlib.Data.List.Forall2
import Mathlib.Data.List.Pairwise

/-! # The order of the listing

    The listing of items goes to every item once. Whether it goes to them in the order in
    which they begin in the document depends on the document.

    - `Json.visits` is the listing with the places of the items. It shows the same items
      (`map_snd_visits`) and goes to each place where one begins (`mem_visits_iff`).
    - `Overtakes`: an element of an array comes before what lies inside an earlier one of
      the same array. `ListedBefore` is the order of the document but for that, and the
      listing keeps to it (`pairwise_visits`, by induction over the tree with
      `pairwise_numbered` for the children of one container).
    - `Json.items_listed_once` puts it together: the listing is in document order exactly
      if nothing overtakes.
-/

namespace EventCheck

/-! ## Section 1: Orders of places -/

/-- **An element overtakes what lies inside an earlier one** of the same array. -/
def Overtakes (p q : Place) : Prop :=
  ∃ array i j inner, p = array ++ [j] ∧ q = array ++ i :: inner ∧ inner ≠ [] ∧ i < j

/-- **The order of the listing**: that of the document, but that elements overtake. -/
def ListedBefore (p q : Place) : Prop := Overtakes p q ∨ p < q ∧ ¬ Overtakes q p

/-- Below different children only an element of the array itself overtakes. -/
theorem overtakes_cons_of_ne {i j : Nat} {p q : Place} (h : i ≠ j) :
    Overtakes (j :: q) (i :: p) ↔ q = [] ∧ p ≠ [] ∧ i < j := by
  constructor
  · rintro ⟨array, m, n, inner, hq, hp, hinner, hlt⟩
    cases array with
    | nil =>
      rw [List.nil_append, List.cons.injEq] at hq hp
      obtain ⟨rfl, rfl⟩ := hq
      obtain ⟨rfl, rfl⟩ := hp
      exact ⟨rfl, hinner, hlt⟩
    | cons k array =>
      rw [List.cons_append, List.cons.injEq] at hq hp
      exact absurd (hp.1.trans hq.1.symm) h
  · rintro ⟨rfl, hp, hlt⟩
    exact ⟨[], i, j, p, rfl, rfl, hp, hlt⟩

/-- Below the same child it is as if one were there. -/
theorem overtakes_cons {i : Nat} {p q : Place} : Overtakes (i :: p) (i :: q) ↔ Overtakes p q := by
  constructor
  · rintro ⟨array, m, n, inner, hp, hq, hinner, hlt⟩
    cases array with
    | nil =>
      rw [List.nil_append, List.cons.injEq] at hp hq
      omega
    | cons k array =>
      rw [List.cons_append, List.cons.injEq] at hp hq
      exact ⟨array, m, n, inner, hp.2, hq.2, hinner, hlt⟩
  · rintro ⟨array, m, n, inner, rfl, rfl, hinner, hlt⟩
    exact ⟨i :: array, m, n, inner, rfl, rfl, hinner, hlt⟩

theorem listedBefore_cons {i : Nat} {p q : Place} :
    ListedBefore (i :: p) (i :: q) ↔ ListedBefore p q := by
  unfold ListedBefore
  simp only [overtakes_cons, List.cons_lt_cons_iff, Nat.lt_irrefl, false_or, true_and]

/-- What is below an earlier child is listed first, except for elements that overtake. -/
theorem listedBefore_of_lt {i j : Nat} {p q : Place} (h : i < j) (hpq : p = [] ∨ q ≠ []) :
    ListedBefore (i :: p) (j :: q) := by
  refine .inr ⟨List.cons_lt_cons_iff.mpr (.inl h), ?_⟩
  rw [overtakes_cons_of_ne (Nat.ne_of_lt h)]
  rintro ⟨hq, hp, -⟩
  rcases hpq with hnil | hne
  · exact hp hnil
  · exact hne hq

/-- What begins at a place is listed before all that lies inside it. -/
theorem listedBefore_of_nil {inner : Place} (h : inner ≠ []) : ListedBefore [] inner := by
  obtain ⟨n, rest, rfl⟩ := List.exists_cons_of_ne_nil h
  refine .inr ⟨List.nil_lt_cons n rest, ?_⟩
  rintro ⟨array, m, k, further, -, hnil, -⟩
  cases array <;> cases hnil

/-- The elements of an array are listed before what lies inside any of them. -/
theorem listedBefore_inside {i j : Nat} {inner : Place} (h : inner ≠ []) :
    ListedBefore [j] (i :: inner) := by
  rcases Nat.lt_or_ge i j with hlt | hge
  · exact .inl ⟨[], i, j, inner, rfl, rfl, h, hlt⟩
  · rcases Nat.lt_or_eq_of_le hge with hlt | rfl
    · exact listedBefore_of_lt hlt (.inl rfl)
    · exact listedBefore_cons.mpr (listedBefore_of_nil h)

/-- Nothing that lies inside an item is listed before it. -/
theorem not_listedBefore_append (p : Place) {inner : Place} (h : inner ≠ []) :
    ¬ ListedBefore (p ++ inner) p := by
  rintro (⟨array, i, j, further, hp, hq, hfurther, -⟩ | ⟨hlt, -⟩)
  · -- what overtakes stands less deep than what it overtakes
    have hdeeper := congrArg List.length hp
    have hless := congrArg List.length hq
    simp only [List.length_append, List.length_cons, List.length_nil] at hdeeper hless
    have := List.length_pos_iff.mpr h
    have := List.length_pos_iff.mpr hfurther
    omega
  · exact List.not_lt.mpr (List.prefix_append p inner).le hlt

/-- Nothing is listed before itself. -/
theorem ListedBefore.ne {p q : Place} (h : ListedBefore p q) : p ≠ q := by
  rintro rfl
  rcases h with ⟨array, i, j, inner, hp, hq, hinner, hlt⟩ | ⟨hlt, -⟩
  · rw [hp, List.append_cancel_left_eq, List.cons.injEq] at hq
    exact hinner hq.2.symm
  · exact List.lt_irrefl p hlt

/-- What overtakes begins later in the document. -/
theorem Overtakes.lt {p q : Place} (h : Overtakes p q) : q < p := by
  obtain ⟨array, i, j, inner, rfl, rfl, -, hlt⟩ := h
  induction array with
  | nil => exact List.cons_lt_cons_iff.mpr (.inl hlt)
  | cons k array ih => exact List.cons_lt_cons_iff.mpr (.inr ⟨rfl, ih⟩)

/-- Neither of two places overtakes the other. -/
def Apart (p q : Place) : Prop := ¬ Overtakes p q ∧ ¬ Overtakes q p

instance : Std.Symm Apart := ⟨fun _ _ h => h.symm⟩

/-- In a listing that is in document order nothing overtakes. -/
theorem apart_of_sorted {places : List Place} (hsorted : places.Pairwise (· < ·))
    (hlisted : places.Pairwise ListedBefore) : places.Pairwise Apart := by
  refine (hsorted.and hlisted).imp fun {p q} h => ?_
  obtain ⟨hlt, hbefore⟩ := h
  have hno : ¬ Overtakes p q := fun hovertakes => List.lt_asymm hlt hovertakes.lt
  rcases hbefore with hovertakes | ⟨-, hnot⟩
  · exact absurd hovertakes hno
  · exact ⟨hno, hnot⟩

/-- Of two members one comes first, and it is not the one that may not. -/
theorem sublist_pair {α : Type} {R : α → α → Prop} {l : List α} {a b : α} (hl : l.Pairwise R)
    (ha : a ∈ l) (hb : b ∈ l) (hne : a ≠ b) (hnot : ¬ R b a) : [a, b].Sublist l := by
  obtain ⟨front, behind, rfl⟩ := List.append_of_mem ha
  rcases List.mem_append.mp hb with hfront | hcons
  · have hbefore := (List.pairwise_append.mp hl).2.2 b hfront a List.mem_cons_self
    exact absurd hbefore hnot
  · rcases List.mem_cons.mp hcons with rfl | hbehind
    · exact absurd rfl hne
    · exact List.Sublist.append (List.nil_sublist front)
        (List.cons_sublist_cons.mpr (List.singleton_sublist.mpr hbehind))

/-! ## Section 2: The visits of the listing -/

/-- **What is below several children**, each with the number of its child in front. -/
def numbered {α β : Type} (list : α → List (Place × β)) (n : Nat) : List α → List (Place × β)
  | [] => []
  | x :: rest => (list x).map (fun (place, b) => (n :: place, b)) ++ numbered list (n + 1) rest

section Numbered

variable {α β : Type} {list : α → List (Place × β)}

theorem mem_numbered_iff {l : List α} {n : Nat} {place : Place} {b : β} :
    (place, b) ∈ numbered list n l ↔
      ∃ i x rest, l[i]? = some x ∧ (rest, b) ∈ list x ∧ place = (n + i) :: rest := by
  induction l generalizing n with
  | nil => simp [numbered]
  | cons x l ih =>
    rw [numbered, List.mem_append, ih, List.mem_map]
    constructor
    · rintro (⟨⟨rest, b'⟩, hin, heq⟩ | ⟨i, y, rest, hy, hin, rfl⟩)
      · cases heq
        exact ⟨0, x, rest, rfl, hin, rfl⟩
      · exact ⟨i + 1, y, rest, hy, hin, by rw [Nat.add_right_comm, Nat.add_assoc]⟩
    · rintro ⟨i, y, rest, hy, hin, rfl⟩
      cases i with
      | zero =>
        cases hy
        exact .inl ⟨(rest, b), hin, rfl⟩
      | succ i => exact .inr ⟨i, y, rest, hy, hin, by rw [Nat.add_right_comm, Nat.add_assoc]⟩

theorem map_snd_numbered (l : List α) (n : Nat) :
    (numbered list n l).map Prod.snd = l.flatMap fun x => (list x).map Prod.snd := by
  induction l generalizing n with
  | nil => rfl
  | cons x l ih =>
    rw [numbered, List.map_append, List.map_map, ih, List.flatMap_cons]
    rfl

/-- **From children to their container.** Where what is below each child is in the order of the
    listing, so is all that is below the container. The children have no elements that overtake
    each other: nothing begins where a child does, or everything does. -/
theorem pairwise_numbered {l : List α} (n : Nat)
    (hcross : ∀ x ∈ l, ∀ y ∈ l, ∀ visit ∈ list x, ∀ later ∈ list y,
      visit.1 = [] ∨ later.1 ≠ [])
    (h : ∀ x ∈ l, ((list x).map Prod.fst).Pairwise ListedBefore) :
    ((numbered list n l).map Prod.fst).Pairwise ListedBefore := by
  induction l generalizing n with
  | nil => exact .nil
  | cons x l ih =>
    have hrest := ih (n + 1)
      (fun y hy z hz => hcross y (List.mem_cons_of_mem _ hy) z (List.mem_cons_of_mem _ hz))
      (fun y hy => h y (List.mem_cons_of_mem _ hy))
    rw [numbered, List.map_append, List.pairwise_append]
    refine ⟨?_, hrest, ?_⟩
    · rw [List.map_map, List.pairwise_map]
      have hx := h x List.mem_cons_self
      rw [List.pairwise_map] at hx
      exact hx.imp fun hbefore => listedBefore_cons.mpr hbefore
    · -- what is below the first child comes before what is below the others
      intro p hp q hq
      simp only [List.map_map, List.mem_map, Function.comp_apply] at hp hq
      obtain ⟨visit, hvisit, rfl⟩ := hp
      obtain ⟨⟨place, b⟩, hin, rfl⟩ := hq
      obtain ⟨i, y, rest, hy, hlater, rfl⟩ := mem_numbered_iff.mp hin
      apply listedBefore_of_lt (by omega)
      exact hcross x List.mem_cons_self y (List.mem_cons_of_mem _ (List.mem_of_getElem? hy))
        visit hvisit (rest, b) hlater

end Numbered

namespace Json

/-- The objects among the elements of an array, each with its place. -/
def placedObjects : Json → List (Place × Fields)
  | .arr elements =>
    numbered (fun v => (v.object?.map fun fields => ([], fields)).toList) 0 elements
  | _ => []

mutual

/-- **The visits of the listing**: the items in the order of the listing, each with the place where
    it begins. -/
def visits (key : String) : Json → List (Place × Fields)
  | .obj fields => visitsOfFields key 0 fields
  | .arr elements => visitsOfArray key 0 elements
  | _ => []

def visitsOfFields (key : String) (n : Nat) : Fields → List (Place × Fields)
  | [] => []
  | (k, v) :: rest =>
    ((if k = key then v.placedObjects else []) ++ v.visits key).map
        (fun (place, item) => (n :: place, item)) ++ visitsOfFields key (n + 1) rest

def visitsOfArray (key : String) (n : Nat) : List Json → List (Place × Fields)
  | [] => []
  | v :: rest =>
    (v.visits key).map (fun (place, item) => (n :: place, item)) ++ visitsOfArray key (n + 1) rest

end

/-- The visits in one field. -/
def fieldVisits (key : String) (field : String × Json) : List (Place × Fields) :=
  (if field.1 = key then field.2.placedObjects else []) ++ field.2.visits key

section Visits

variable {key : String} {v : Json} {fields : Fields} {elements : List Json} {place : Place}
  {item : Fields}

theorem visits_obj : (Json.obj fields).visits key = numbered (fieldVisits key) 0 fields := by
  show visitsOfFields key 0 fields = _
  generalize 0 = n
  induction fields generalizing n with
  | nil => rfl
  | cons field rest ih =>
    rw [visitsOfFields, ih, numbered]
    rfl

theorem visits_arr : (Json.arr elements).visits key = numbered (visits key) 0 elements := by
  show visitsOfArray key 0 elements = _
  generalize 0 = n
  induction elements generalizing n with
  | nil => rfl
  | cons v rest ih => rw [visitsOfArray, ih, numbered]

theorem visits_of_leaf (h : v.isLeaf = true) : v.visits key = [] := by
  cases v with
  | arr elements => cases h
  | obj fields => cases h
  | _ => rfl

theorem mem_placedObjects_iff :
    (place, item) ∈ (Json.arr elements).placedObjects ↔
      ∃ j : Nat, elements[j]? = some (.obj item) ∧ place = [j] := by
  simp only [placedObjects, mem_numbered_iff, Nat.zero_add, Option.mem_toList,
    Option.map_eq_some_iff, object?_eq_some_iff, Prod.mk.injEq]
  constructor
  · rintro ⟨j, x, rest, hj, ⟨fields, rfl, rfl, rfl⟩, rfl⟩
    exact ⟨j, hj, rfl⟩
  · rintro ⟨j, hj, rfl⟩
    exact ⟨j, .obj item, [], hj, ⟨item, rfl, rfl, rfl⟩, rfl⟩

theorem map_snd_placedObjects (v : Json) : v.placedObjects.map Prod.snd = v.objects := by
  cases v with
  | arr elements =>
    rw [placedObjects, map_snd_numbered, objects_arr, List.filterMap_eq_flatMap_toList]
    congr 1
    funext x
    cases x.object? <;> rfl
  | _ => rfl

/-- **The visits show the listing.** -/
theorem map_snd_visits (key : String) (v : Json) : (v.visits key).map Prod.snd = v.items key := by
  induction v using tree_induction with
  | leaf leaf hleaf =>
    rw [visits_of_leaf hleaf]
    cases leaf with
    | arr elements => cases hleaf
    | obj fields => cases hleaf
    | _ => rfl
  | arr elements ih =>
    rw [visits_arr, map_snd_numbered, items_arr]
    exact List.flatMap_congr ih
  | obj fields ih =>
    rw [visits_obj, map_snd_numbered, items_obj]
    refine List.flatMap_congr fun field hin => ?_
    rw [fieldVisits, fieldItems, List.map_append, ih field hin]
    by_cases hkey : field.1 = key
    · rw [if_pos hkey, if_pos hkey, map_snd_placedObjects]
    · rw [if_neg hkey, if_neg hkey, List.map_nil]

theorem mem_fieldVisits_iff {field : String × Json}
    (h : ∀ place item, (place, item) ∈ field.2.visits key ↔ field.2.ItemAt key place item) :
    (place, item) ∈ fieldVisits key field ↔ FieldAt key field place item := by
  obtain ⟨k, v⟩ := field
  rw [fieldVisits, List.mem_append, h]
  constructor
  · rintro (hobject | hinside)
    · by_cases hkey : k = key
      · subst hkey
        rw [if_pos rfl] at hobject
        cases v with
        | arr elements =>
          obtain ⟨j, hj, rfl⟩ := mem_placedObjects_iff.mp hobject
          exact .listed hj
        | _ => cases hobject
      · rw [if_neg hkey] at hobject
        cases hobject
    · exact .inside hinside
  · intro hfield
    cases hfield with
    | listed hj =>
      rw [if_pos rfl]
      exact .inl (mem_placedObjects_iff.mpr ⟨_, hj, rfl⟩)
    | inside hinside => exact .inr hinside

/-- **The listing goes to every place where an item begins**, and to no other. -/
theorem mem_visits_iff : (place, item) ∈ v.visits key ↔ v.ItemAt key place item := by
  induction v using tree_induction generalizing place item with
  | leaf leaf hleaf =>
    rw [visits_of_leaf hleaf]
    constructor
    · exact nofun
    · exact fun h => absurd h (not_itemAt_of_leaf hleaf)
  | arr elements ih =>
    rw [visits_arr, mem_numbered_iff, itemAt_arr_iff]
    simp only [Nat.zero_add]
    constructor
    · rintro ⟨j, x, rest, hj, hin, rfl⟩
      exact ⟨j, x, rest, hj, (ih x (List.mem_of_getElem? hj)).mp hin, rfl⟩
    · rintro ⟨j, x, rest, hj, hat, rfl⟩
      exact ⟨j, x, rest, hj, (ih x (List.mem_of_getElem? hj)).mpr hat, rfl⟩
  | obj fields ih =>
    rw [visits_obj, mem_numbered_iff, itemAt_obj_iff]
    simp only [Nat.zero_add]
    have hfield (i : Nat) (field : String × Json) (rest : Place) (hi : fields[i]? = some field) :
        (rest, item) ∈ fieldVisits key field ↔ FieldAt key field rest item :=
      mem_fieldVisits_iff fun _ _ => ih field (List.mem_of_getElem? hi)
    constructor
    · rintro ⟨i, field, rest, hi, hin, rfl⟩
      exact ⟨i, field, rest, hi, (hfield i field rest hi).mp hin, rfl⟩
    · rintro ⟨i, field, rest, hi, hat, rfl⟩
      exact ⟨i, field, rest, hi, (hfield i field rest hi).mpr hat, rfl⟩

theorem visit_ne_nil (h : (place, item) ∈ v.visits key) : place ≠ [] :=
  (mem_visits_iff.mp h).ne_nil

/-- Nor does an item begin where a field does. -/
theorem fieldVisit_ne_nil {field : String × Json} (h : (place, item) ∈ fieldVisits key field) :
    place ≠ [] := by
  cases (mem_fieldVisits_iff fun _ _ => mem_visits_iff).mp h with
  | listed hj => exact List.cons_ne_nil _ _
  | inside hinside => exact hinside.ne_nil

/-! ## Section 3: The order of the visits -/

/-- The elements of one array are visited in their order. -/
theorem pairwise_placedObjects (v : Json) :
    (v.placedObjects.map Prod.fst).Pairwise ListedBefore := by
  cases v with
  | arr elements =>
    apply pairwise_numbered
    · intro x hx y hy visit hvisit later hlater
      simp only [Option.mem_toList, Option.map_eq_some_iff] at hvisit
      obtain ⟨fields, -, rfl⟩ := hvisit
      exact .inl rfl
    · intro x hx
      cases x.object? with
      | none => exact .nil
      | some fields => exact List.pairwise_singleton _ _
  | _ => exact .nil

/-- **The visits in one field are in the order of the listing** if those inside its value are. -/
theorem pairwise_fieldVisits {field : String × Json}
    (h : ((field.2.visits key).map Prod.fst).Pairwise ListedBefore) :
    ((fieldVisits key field).map Prod.fst).Pairwise ListedBefore := by
  obtain ⟨k, v⟩ := field
  rw [fieldVisits, List.map_append, List.pairwise_append]
  refine ⟨?_, h, ?_⟩
  · by_cases hkey : k = key
    · rw [if_pos hkey]
      exact pairwise_placedObjects v
    · rw [if_neg hkey]
      exact .nil
  · intro p hp q hq
    obtain ⟨⟨p, item⟩, hlisted, rfl⟩ := List.mem_map.mp hp
    obtain ⟨⟨q, inner⟩, hinside, rfl⟩ := List.mem_map.mp hq
    by_cases hkey : k = key
    · rw [if_pos hkey] at hlisted
      -- only an array has elements, and what is inside it is inside one of them
      cases v with
      | arr elements =>
        obtain ⟨j, -, rfl⟩ := mem_placedObjects_iff.mp hlisted
        obtain ⟨i, x, rest, -, hrest, rfl⟩ := itemAt_arr_iff.mp (mem_visits_iff.mp hinside)
        exact listedBefore_inside hrest.ne_nil
      | _ => cases hlisted
    · rw [if_neg hkey] at hlisted
      cases hlisted

/-- **The visits are in the order of the listing.** -/
theorem pairwise_visits (key : String) (v : Json) :
    ((v.visits key).map Prod.fst).Pairwise ListedBefore := by
  induction v using tree_induction with
  | leaf leaf hleaf =>
    rw [visits_of_leaf hleaf]
    exact .nil
  | arr elements ih =>
    rw [visits_arr]
    apply pairwise_numbered
    · intro x hx y hy visit hvisit later hlater
      exact .inr (visit_ne_nil hlater)
    · exact ih
  | obj fields ih =>
    rw [visits_obj]
    apply pairwise_numbered
    · intro x hx y hy visit hvisit later hlater
      exact .inr (fieldVisit_ne_nil hlater)
    · intro field hin
      exact pairwise_fieldVisits (ih field hin)

end Visits

/-! ## Section 4: Once, and in which order -/

/-- **Nothing overtakes**: no item of an array stands behind an element of that array with items
    inside it. -/
def Orderly (key : String) (v : Json) : Prop :=
  ∀ p q item inner, v.ItemAt key p item → v.ItemAt key q inner → ¬ Overtakes p q

/-- **The items are listed in document order**, each once: they begin at these places, which are all
    where items begin, and each place comes before the next. -/
def InDocumentOrder (key : String) (v : Json) (listing : List Fields) : Prop :=
  ∃ places, List.Forall₂ (v.ItemAt key) places listing ∧
    (∀ place item, v.ItemAt key place item → place ∈ places) ∧ places.Pairwise (· < ·)

/-- **Every item is listed once, with elements in front of what lies inside earlier ones.** On JSON
    data the listing never stops. It goes to the places where items begin, to each of them once,
    and to an item before the items inside it. It goes to them in the order of the document,
    except that an element of an array comes before what lies inside earlier elements of that
    array. So it goes to them in document order if and only if no item stands behind an element
    with items inside it, in the same array; and then the items are listed in document order. -/
theorem items_listed_once (key : String) (v : Json) :
    (Value.ofJson v).items key = ⟨(v.items key).map Value.ofFields, none⟩ ∧
    ∃ places : List Place,
      List.Forall₂ (v.ItemAt key) places (v.items key) ∧
      (∀ place, place ∈ places ↔ ∃ item, v.ItemAt key place item) ∧
      places.Nodup ∧
      (∀ place inner item other, v.ItemAt key place item → (Json.obj item).ItemAt key inner other →
        [place, place ++ inner].Sublist places) ∧
      places.Pairwise ListedBefore ∧
      (places.Pairwise (· < ·) ↔ v.Orderly key) ∧
      (v.Orderly key → InDocumentOrder key v (v.items key)) := by
  have hpairwise := pairwise_visits key v
  have hmem (place : Place) : place ∈ (v.visits key).map Prod.fst ↔
      ∃ item, v.ItemAt key place item := by
    simp only [List.mem_map, Prod.exists, mem_visits_iff, exists_and_right, exists_eq_right]
  have hforall : List.Forall₂ (v.ItemAt key) ((v.visits key).map Prod.fst) (v.items key) := by
    rw [← map_snd_visits, List.forall₂_map_left_iff, List.forall₂_map_right_iff,
      List.forall₂_same]
    intro visit hin
    exact mem_visits_iff.mp hin
  have horder : ((v.visits key).map Prod.fst).Pairwise (· < ·) ↔ v.Orderly key := by
    constructor
    · intro hsorted p q item inner hp hq hovertakes
      -- in the listing one of the two comes first, and either way the other cannot begin earlier
      have hapart := apart_of_sorted hsorted hpairwise
      have hne : p ≠ q := ListedBefore.ne (.inl hovertakes)
      exact (hapart.forall ((hmem p).mpr ⟨item, hp⟩) ((hmem q).mpr ⟨inner, hq⟩) hne).1 hovertakes
    · intro horderly
      refine hpairwise.imp_of_mem fun {p q} hp hq hbefore => ?_
      obtain ⟨item, hp⟩ := (hmem p).mp hp
      obtain ⟨inner, hq⟩ := (hmem q).mp hq
      rcases hbefore with hovertakes | ⟨hlt, -⟩
      · exact absurd hovertakes (horderly p q item inner hp hq)
      · exact hlt
  refine ⟨Value.items_ofJson v, _, hforall, hmem, hpairwise.imp fun h => h.ne, ?nested, hpairwise,
    horder, ?orderly⟩
  case nested =>
    intro place inner item other hitem hinner
    obtain ⟨hnested, hlt⟩ := hitem.nested hinner
    have hne : place ≠ place ++ inner := by
      intro heq
      rw [← heq] at hlt
      exact List.lt_irrefl place hlt
    exact sublist_pair hpairwise ((hmem place).mpr ⟨item, hitem⟩) ((hmem _).mpr ⟨other, hnested⟩)
      hne (not_listedBefore_append place hinner.ne_nil)
  case orderly =>
    intro horderly
    exact ⟨_, hforall, fun place item hat => (hmem place).mpr ⟨item, hat⟩, horder.mpr horderly⟩

/-- The milk stands behind the tea, which comes with a spoon: the milk is listed before the spoon,
    which begins before it. So the shelves are not listed in document order. -/
theorem milk_overtakes_spoon :
    shelves.ItemAt itemsKey [0, 1] [("name", .str "milk"), ("id", .int 1)] ∧
      shelves.ItemAt itemsKey [0, 0, 1, 0] [("id", .int 1)] ∧ Overtakes [0, 1] [0, 0, 1, 0] ∧
      ¬ InDocumentOrder itemsKey shelves (shelves.items itemsKey) := by
  have hvisits : shelves.visits itemsKey =
      [([0, 0], [("name", .str "tea"), ("items", .arr [.obj [("id", .int 1)]])]),
        ([0, 1], [("name", .str "milk"), ("id", .int 1)]), ([0, 0, 1, 0], [("id", .int 1)])] := rfl
  have hplace (place : Place) (item : Fields) : shelves.ItemAt itemsKey place item ↔
      (place, item) ∈ shelves.visits itemsKey := mem_visits_iff.symm
  refine ⟨?_, ?_, ⟨[0], 0, 1, [1, 0], rfl, rfl, by decide, by decide⟩, ?_⟩
  · rw [hplace, hvisits]
    simp
  · rw [hplace, hvisits]
    simp
  · rintro ⟨places, hforall, -, hsorted⟩
    rw [← map_snd_visits, hvisits] at hforall
    cases hforall with
    | cons _ hforall =>
      cases hforall with
      | @cons milk _ _ _ hmilk hforall =>
        cases hforall with
        | @cons spoon _ _ _ hspoon _ =>
          rw [hplace, hvisits] at hmilk hspoon
          obtain rfl : milk = [0, 1] := by simpa using hmilk
          obtain rfl : spoon = [0, 0, 1, 0] := by simpa using hspoon
          have hlt : ([0, 1] : Place) < [0, 0, 1, 0] :=
            (List.pairwise_cons.mp (List.pairwise_cons.mp hsorted).2).1 _ List.mem_cons_self
          exact absurd hlt (by decide)

end Json

end EventCheck
