import EventCheck.Proofs.Json.Tree
import Mathlib.Logic.Relation

/-! # Extensions and rearrangements

    - `Json.Extends`: a value that has all that another one has, at any depth. An
      object may have further keys, an array further elements in any places.
    - `Json.Rearranges`: the same value with keys or elements in another order, or
      with elements more or less often, at one place. A value and its rearrangements
      extend each other (`extends_of_rearranged`).
-/

namespace EventCheck

namespace Json

/-! ## Section 1: Extensions -/

/-- **One value extends another**: both are the same leaf; or both are objects, and each key of
    the smaller one is in the larger one with a value that extends its value there; or both are
    arrays, and each element of the smaller one is extended by an element of the larger one. -/
def Extends (larger smaller : Json) : Prop :=
  match smaller with
  | .obj fields => ∃ fields', larger = .obj fields' ∧
      ∀ key v, (key, v) ∈ fields → ∃ v', Keyed.get? fields' key = some v' ∧ v'.Extends v
  | .arr items => ∃ items', larger = .arr items' ∧
      ∀ v ∈ items, ∃ v' ∈ items', v'.Extends v
  | leaf => larger = leaf
termination_by sizeOf smaller
decreasing_by
  · next hin =>
    have hlt := List.sizeOf_lt_of_mem hin
    simp only [Prod.mk.sizeOf_spec, obj.sizeOf_spec] at hlt ⊢
    omega
  · next hin =>
    have hlt := List.sizeOf_lt_of_mem hin
    simp only [arr.sizeOf_spec]
    omega

theorem extends_obj_iff {u : Json} {fields : Fields} :
    u.Extends (.obj fields) ↔ ∃ fields', u = .obj fields' ∧
      ∀ key v, (key, v) ∈ fields → ∃ v', Keyed.get? fields' key = some v' ∧ v'.Extends v := by
  rw [Extends]

theorem extends_arr_iff {u : Json} {items : List Json} :
    u.Extends (.arr items) ↔ ∃ items', u = .arr items' ∧
      ∀ v ∈ items, ∃ v' ∈ items', v'.Extends v := by
  rw [Extends]

/-- A leaf is extended by itself only. -/
theorem extends_leaf_iff {u leaf : Json} (h : leaf.isLeaf = true) :
    u.Extends leaf ↔ u = leaf := by
  cases leaf with
  | arr items => cases h
  | obj fields => cases h
  | _ => rw [Extends]; all_goals exact nofun

/-- A value in which no object has a key twice extends itself. -/
theorem extends_self {v : Json} (hv : v.Sound) : v.Extends v := by
  induction v using tree_induction with
  | leaf leaf hleaf => exact (extends_leaf_iff hleaf).mpr rfl
  | arr items ih =>
    rw [Sound, soundItems_iff] at hv
    exact extends_arr_iff.mpr ⟨items, rfl, fun v hin => ⟨v, hin, ih v hin (hv v hin)⟩⟩
  | obj fields ih =>
    rw [Sound, soundFields_iff] at hv
    refine extends_obj_iff.mpr ⟨fields, rfl, ?_⟩
    intro key v hin
    exact ⟨v, Keyed.get?_of_mem hv.1 hin, ih (key, v) hin (hv.2 (key, v) hin)⟩

theorem Extends.trans {u v w : Json} (huv : u.Extends v) (hvw : v.Extends w) : u.Extends w := by
  induction w using tree_induction generalizing u v with
  | leaf leaf hleaf =>
    rw [← (extends_leaf_iff hleaf).mp hvw]
    exact huv
  | arr items ih =>
    obtain ⟨items', rfl, hext⟩ := extends_arr_iff.mp hvw
    obtain ⟨items'', rfl, hext'⟩ := extends_arr_iff.mp huv
    refine extends_arr_iff.mpr ⟨items'', rfl, ?_⟩
    intro x hin
    obtain ⟨x', hin', hx⟩ := hext x hin
    obtain ⟨x'', hin'', hx'⟩ := hext' x' hin'
    exact ⟨x'', hin'', ih x hin hx' hx⟩
  | obj fields ih =>
    obtain ⟨fields', rfl, hext⟩ := extends_obj_iff.mp hvw
    obtain ⟨fields'', rfl, hext'⟩ := extends_obj_iff.mp huv
    refine extends_obj_iff.mpr ⟨fields'', rfl, ?_⟩
    intro key x hin
    obtain ⟨x', hget, hx⟩ := hext key x hin
    obtain ⟨x'', hget', hx'⟩ := hext' key x' (Keyed.mem_of_get? hget)
    exact ⟨x'', hget', ih (key, x) hin hx' hx⟩

/-! ## Section 2: Rearrangements -/

/-- **One value is rearranged into another** at one place: the keys of an object come in another
    order; or the elements of an array do, and may come more or less often; or that happens
    inside a field or an element. -/
inductive Rearranges : Json → Json → Prop where
  | keys {fields fields' : Fields} (h : fields.Perm fields') :
      Rearranges (.obj fields) (.obj fields')
  | elements {items items' : List Json} (h : ∀ v, v ∈ items ↔ v ∈ items') :
      Rearranges (.arr items) (.arr items')
  | inField {front rest : Fields} {key : String} {v v' : Json} (h : Rearranges v v') :
      Rearranges (.obj (front ++ (key, v) :: rest)) (.obj (front ++ (key, v') :: rest))
  | inElement {front rest : List Json} {v v' : Json} (h : Rearranges v v') :
      Rearranges (.arr (front ++ v :: rest)) (.arr (front ++ v' :: rest))

/-- A value and another one behind any number of rearrangements of it. -/
def Rearranged : Json → Json → Prop := Relation.ReflTransGen Rearranges

theorem Rearranges.symm {u v : Json} (h : u.Rearranges v) : v.Rearranges u := by
  induction h with
  | keys h => exact .keys h.symm
  | elements h => exact .elements fun v => (h v).symm
  | inField h ih => exact .inField ih
  | inElement h ih => exact .inElement ih

theorem Rearranges.sound {u v : Json} (h : u.Rearranges v) (hu : u.Sound) : v.Sound := by
  induction h with
  | keys h =>
    rw [Sound, soundFields_iff] at hu ⊢
    exact ⟨(h.map Prod.fst).nodup_iff.mp hu.1, fun field hin => hu.2 field (h.mem_iff.mpr hin)⟩
  | elements h =>
    rw [Sound, soundItems_iff] at hu ⊢
    exact fun v hin => hu v ((h v).mpr hin)
  | @inField front rest key v v' h ih =>
    rw [Sound, soundFields_iff] at hu ⊢
    constructor
    · -- the keys are the same
      simpa using hu.1
    · intro field hin
      rcases List.mem_append.mp hin with hin | hin
      · exact hu.2 field (List.mem_append_left _ hin)
      · rcases List.mem_cons.mp hin with rfl | hin
        · exact ih (hu.2 (key, v) (by simp))
        · exact hu.2 field (List.mem_append_right _ (List.mem_cons_of_mem _ hin))
  | @inElement front rest v v' h ih =>
    rw [Sound, soundItems_iff] at hu ⊢
    intro w hin
    rcases List.mem_append.mp hin with hin | hin
    · exact hu w (List.mem_append_left _ hin)
    · rcases List.mem_cons.mp hin with rfl | hin
      · exact ih (hu v (by simp))
      · exact hu w (List.mem_append_right _ (List.mem_cons_of_mem _ hin))

/-- A value extends what it is rearranged into. -/
theorem extends_of_rearranges {u v : Json} (h : u.Rearranges v) (hu : u.Sound) :
    u.Extends v := by
  have hv := h.sound hu
  induction h with
  | @keys fields fields' h =>
    rw [Sound, soundFields_iff] at hu
    refine extends_obj_iff.mpr ⟨fields, rfl, ?_⟩
    intro key v hin
    have hin' : (key, v) ∈ fields := h.mem_iff.mpr hin
    exact ⟨v, Keyed.get?_of_mem hu.1 hin', extends_self (hu.2 (key, v) hin')⟩
  | @elements items items' h =>
    rw [Sound, soundItems_iff] at hv
    refine extends_arr_iff.mpr ⟨items, rfl, ?_⟩
    exact fun v hin => ⟨v, (h v).mpr hin, extends_self (hv v hin)⟩
  | @inField front rest key v v' h ih =>
    rw [Sound, soundFields_iff] at hu hv
    refine extends_obj_iff.mpr ⟨_, rfl, ?_⟩
    intro key' w hin
    rcases List.mem_append.mp hin with hin | hin
    · have hin' : (key', w) ∈ front ++ (key, v) :: rest := List.mem_append_left _ hin
      exact ⟨w, Keyed.get?_of_mem hu.1 hin', extends_self (hu.2 (key', w) hin')⟩
    · rcases List.mem_cons.mp hin with heq | hin
      · -- the field in which something is rearranged
        cases heq
        have hin' : (key, v) ∈ front ++ (key, v) :: rest := by simp
        exact ⟨v, Keyed.get?_of_mem hu.1 hin', ih (hu.2 _ hin') (hv.2 (key, v') (by simp))⟩
      · have hin' : (key', w) ∈ front ++ (key, v) :: rest :=
          List.mem_append_right _ (List.mem_cons_of_mem _ hin)
        exact ⟨w, Keyed.get?_of_mem hu.1 hin', extends_self (hu.2 (key', w) hin')⟩
  | @inElement front rest v v' h ih =>
    rw [Sound, soundItems_iff] at hu hv
    refine extends_arr_iff.mpr ⟨_, rfl, ?_⟩
    intro w hin
    rcases List.mem_append.mp hin with hin' | hin'
    · exact ⟨w, List.mem_append_left _ hin', extends_self (hv w hin)⟩
    · rcases List.mem_cons.mp hin' with rfl | hin'
      · exact ⟨v, by simp, ih (hu v (by simp)) (hv w hin)⟩
      · exact ⟨w, List.mem_append_right _ (List.mem_cons_of_mem _ hin'), extends_self (hv w hin)⟩

/-- A value and its rearrangements extend each other. -/
theorem extends_of_rearranged {u v : Json} (h : u.Rearranged v) (hu : u.Sound) :
    u.Extends v ∧ v.Extends u := by
  have hall : v.Sound ∧ u.Extends v ∧ v.Extends u := by
    induction h with
    | refl => exact ⟨hu, extends_self hu, extends_self hu⟩
    | tail _ hstep ih =>
      obtain ⟨hsound, hext, hext'⟩ := ih
      have hnext := hstep.sound hsound
      exact ⟨hnext, hext.trans (extends_of_rearranges hstep hsound),
        (extends_of_rearranges hstep.symm hnext).trans hext'⟩
  exact hall.2

end Json

end EventCheck
