import EventCheck.Proofs.Matching.Structure
import Mathlib.Data.List.Basic
import Mathlib.Tactic.Choose

/-! # Matching is embedding

    An embedding of a pattern assigns a value to each position of it: to the root
    the event, and to every other position a value that stands in the right place
    of the one above. The event satisfies the pattern if and only if there is such
    an assignment.

    - `Fits` is what a position asks of an assignment.
    - `embeds_of_satisfies` builds an assignment from those of the parts,
      `satisfies_of_embeds` takes one apart; both go by induction on the pattern,
      since decoding a string makes a new event.
-/

namespace EventCheck

namespace Json

/-! ## Section 1: Embeddings -/

/-- **The assignment fits the position**, where the pattern holds this value: a leaf asks for a
    matching leaf; an object asks for one, perhaps inside strings, that has each key with the
    value assigned to it; an array asks for one that has each assigned value as an element. -/
def Fits (h : List Step → Json) (position : List Step) : Json → Prop
  | .obj wanted => ∃ fields, (h position).Opens (.obj fields) ∧
      ∀ key w, (key, w) ∈ wanted →
        Keyed.get? fields key = some (h (position ++ [.key key]))
  | .arr wanted => ∃ items, (h position).Opens (.arr items) ∧
      ∀ index, index < wanted.length → h (position ++ [.index index]) ∈ items
  | leaf => (h position).isLeaf = true ∧ (h position).leafMatches leaf = true

/-- **The assignment embeds the pattern into the event.** -/
structure Embeds (h : List Step → Json) (event pattern : Json) : Prop where
  root : h [] = event
  fits : ∀ position v, pattern.Leads position v → Fits h position v

theorem fits_leaf_iff {h : List Step → Json} {position : List Step} {leaf : Json}
    (hleaf : leaf.isLeaf = true) :
    Fits h position leaf ↔
      (h position).isLeaf = true ∧ (h position).leafMatches leaf = true := by
  cases leaf with
  | arr items => cases hleaf
  | obj fields => cases hleaf
  | _ => rfl

/-- What a position below a step asks of an assignment it asks of the part of it below the
    step. -/
theorem fits_cons_iff {h : List Step → Json} {step : Step} {position : List Step} {v : Json} :
    Fits h (step :: position) v ↔ Fits (fun rest => h (step :: rest)) position v := by
  cases v <;> rfl

/-- The part of an embedding below a step. -/
theorem Embeds.below {h : List Step → Json} {event pattern inner : Json} {step : Step}
    (he : Embeds h event pattern)
    (hstep : ∀ position v, inner.Leads position v → pattern.Leads (step :: position) v) :
    Embeds (fun rest => h (step :: rest)) (h [step]) inner where
  root := rfl
  fits position v hv := fits_cons_iff.mp (he.fits (step :: position) v (hstep position v hv))

/-! ## Section 2: From matching to an embedding -/

/-- An assignment from an event and the assignments below the steps from its root. -/
def graft (event : Json) (below : Step → List Step → Json) : List Step → Json
  | [] => event
  | step :: rest => below step rest

/-- Embeddings of the fields make one of the object. -/
theorem Embeds.obj {event : Json} {fields wanted : Fields} {below : Step → List Step → Json}
    (hopen : event.Opens (.obj fields))
    (hb : ∀ key w, (key, w) ∈ wanted → ∃ value, Keyed.get? fields key = some value ∧
      Embeds (below (.key key)) value w) :
    Embeds (graft event below) event (.obj wanted) where
  root := rfl
  fits position v hv := by
    cases hv with
    | here v =>
      refine ⟨fields, hopen, ?_⟩
      intro key w hin
      obtain ⟨value, hget, hvalue⟩ := hb key w hin
      rw [hget, ← hvalue.root]
      rfl
    | field hf hrest =>
      obtain ⟨value, -, hvalue⟩ := hb _ _ hf
      exact fits_cons_iff.mpr (hvalue.fits _ v hrest)

/-- Embeddings of the elements make one of the array. -/
theorem Embeds.arr {event : Json} {items wanted : List Json} {below : Step → List Step → Json}
    (hopen : event.Opens (.arr items))
    (hb : ∀ index w, wanted[index]? = some w → ∃ item ∈ items, Embeds (below (.index index)) item w) :
    Embeds (graft event below) event (.arr wanted) where
  root := rfl
  fits position v hv := by
    cases hv with
    | here v =>
      refine ⟨items, hopen, ?_⟩
      intro index hlt
      obtain ⟨item, hin, hitem⟩ := hb index wanted[index] (List.getElem?_eq_getElem hlt)
      rw [← hitem.root] at hin
      exact hin
    | item hi hrest =>
      obtain ⟨item, -, hitem⟩ := hb _ _ hi
      exact fits_cons_iff.mpr (hitem.fits _ v hrest)

/-- One assignment for each step from the root of a pattern, if each of its parts has one. -/
theorem exists_below {pattern : Json} (hp : pattern.Sound)
    {Q : Step → Json → (List Step → Json) → Prop}
    (hparts : ∀ step w, pattern.Leads [step] w → ∃ h, Q step w h) :
    ∃ below : Step → List Step → Json, ∀ step w, pattern.Leads [step] w → Q step w (below step) := by
  have hsteps : ∀ step, ∃ h, ∀ w, pattern.Leads [step] w → Q step w h := by
    intro step
    by_cases hstep : ∃ w, pattern.Leads [step] w
    · obtain ⟨w, hw⟩ := hstep
      obtain ⟨h, hq⟩ := hparts step w hw
      -- the step leads to one part only, so one assignment will do for it
      refine ⟨h, ?_⟩
      intro w' hw'
      rw [← hw.unique hp hw']
      exact hq
    · exact ⟨fun _ => pattern, fun w hw => absurd ⟨w, hw⟩ hstep⟩
  choose below hbelow using hsteps
  exact ⟨below, hbelow⟩

/-- **An event that satisfies a pattern has an embedding of it.** -/
theorem embeds_of_satisfies {event pattern : Json} (hp : pattern.Sound)
    (hs : event.satisfies pattern = true) : ∃ h, Embeds h event pattern := by
  induction pattern using tree_induction generalizing event with
  | leaf leaf hleaf =>
    rw [satisfies_leaf hleaf, Bool.and_eq_true] at hs
    refine ⟨fun _ => event, rfl, ?_⟩
    intro position v hv
    obtain ⟨-, rfl⟩ := leads_of_leaf hleaf hv
    exact (fits_leaf_iff hleaf).mpr hs
  | obj wanted ih =>
    obtain ⟨fields, hopen, hall⟩ := satisfies_obj_iff.mp hs
    obtain ⟨below, hbelow⟩ := exists_below hp (Q := fun step w h => ∀ key, step = .key key →
      ∃ value, Keyed.get? fields key = some value ∧ Embeds h value w) (by
        intro step w hw
        cases hw with
        | @field _ key _ _ _ hin hrest =>
          cases hrest
          obtain ⟨value, hget, hvalue⟩ := hall key w hin
          rw [Sound, soundFields_iff] at hp
          obtain ⟨h, he⟩ := ih (key, w) hin (hp.2 (key, w) hin) hvalue
          refine ⟨h, ?_⟩
          intro key' heq
          cases heq
          exact ⟨value, hget, he⟩)
    refine ⟨graft event below, .obj hopen ?_⟩
    exact fun key w hin => hbelow (.key key) w (.field hin (.here w)) key rfl
  | arr wanted ih =>
    obtain ⟨items, hopen, hall⟩ := satisfies_arr_iff.mp hs
    obtain ⟨below, hbelow⟩ := exists_below hp (Q := fun _ w h =>
      ∃ item ∈ items, Embeds h item w) (by
        intro step w hw
        cases hw with
        | item hi hrest =>
          cases hrest
          have hin : w ∈ wanted := List.mem_of_getElem? hi
          obtain ⟨item, hitem, hs⟩ := hall w hin
          rw [Sound, soundItems_iff] at hp
          obtain ⟨h, he⟩ := ih w hin (hp w hin) hs
          exact ⟨h, item, hitem, he⟩)
    refine ⟨graft event below, .arr hopen ?_⟩
    exact fun index w hi => hbelow (.index index) w (.item hi (.here w))

/-! ## Section 3: From an embedding to matching -/

/-- **An event with an embedding of a pattern satisfies it.** -/
theorem satisfies_of_embeds {h : List Step → Json} {event pattern : Json}
    (he : Embeds h event pattern) : event.satisfies pattern = true := by
  induction pattern using tree_induction generalizing event h with
  | leaf leaf hleaf =>
    have hfits := (fits_leaf_iff hleaf).mp (he.fits [] leaf (.here leaf))
    rw [he.root] at hfits
    rw [satisfies_leaf hleaf, Bool.and_eq_true]
    exact hfits
  | obj wanted ih =>
    obtain ⟨fields, hopen, hget⟩ := he.fits [] _ (.here _)
    rw [he.root] at hopen
    refine satisfies_obj_iff.mpr ⟨fields, hopen, ?_⟩
    intro key w hin
    refine ⟨h [.key key], hget key w hin, ?_⟩
    exact ih (key, w) hin (he.below fun position v hv => .field hin hv)
  | arr wanted ih =>
    obtain ⟨items, hopen, hmem⟩ := he.fits [] _ (.here _)
    rw [he.root] at hopen
    refine satisfies_arr_iff.mpr ⟨items, hopen, ?_⟩
    intro w hin
    obtain ⟨index, hlt, rfl⟩ := List.mem_iff_getElem.mp hin
    refine ⟨h [.index index], hmem index hlt, ?_⟩
    apply ih _ hin
    exact he.below fun position v hv => .item (List.getElem?_eq_getElem hlt) hv

/-! ## Section 4: The two are one -/

/-- **Matching decides whether there is an embedding.** On JSON data it always comes to an answer,
    and that is yes if and only if some assignment embeds the pattern into the event. A string
    that is not JSON satisfies no container. -/
theorem matching_is_embedding (event pattern : Json) (hp : pattern.Sound) :
    (∃ answer, (Value.ofJson event).satisfies (.ofJson pattern) = .ok answer ∧
      (answer = true ↔ ∃ h, Embeds h event pattern)) ∧
    ∀ s, event = .str s → read? s = none → pattern.isLeaf = false →
      (Value.ofJson event).satisfies (.ofJson pattern) = .ok false := by
  constructor
  · refine ⟨event.satisfies pattern, Value.satisfies_ofJson event pattern, ?_⟩
    exact ⟨embeds_of_satisfies hp, fun ⟨h, he⟩ => satisfies_of_embeds he⟩
  · rintro s rfl hr hcontainer
    rw [Value.satisfies_ofJson, Except.ok.injEq, Bool.eq_false_iff]
    intro hs
    cases pattern with
    | obj wanted =>
      obtain ⟨fields, hopen, -⟩ := satisfies_obj_iff.mp hs
      exact not_opens_of_read?_eq_none hr _ hopen
    | arr wanted =>
      obtain ⟨items, hopen, -⟩ := satisfies_arr_iff.mp hs
      exact not_opens_of_read?_eq_none hr _ hopen
    | _ => cases hcontainer

/-- An order whose body is JSON inside a string. -/
def parcel : Json :=
  .obj [("order", .int 7), ("body", .str "[1, \x7b\"note\": \"fragile\"\x7d]"), ("paid", .bool true)]

/-- Any order with a remark on something that can break. -/
def fragile : Json :=
  .obj [("body", .arr [.obj [("note", .str "~frag")]]), ("order", .str "*")]

theorem parcel_embeds_fragile : fragile.Sound ∧ ∃ h, Embeds h parcel fragile := by
  have hsound : fragile.Sound := by simp [fragile, Sound, SoundFields, SoundItems]
  have hyes : (Value.ofJson parcel).satisfies (.ofJson fragile) = .ok true := by cbv
  obtain ⟨⟨answer, hanswer, hiff⟩, -⟩ := matching_is_embedding parcel fragile hsound
  rw [hyes] at hanswer
  cases hanswer
  exact ⟨hsound, hiff.mp rfl⟩

end Json

end EventCheck
