import EventCheck.Proofs.Json.Extension
import EventCheck.Proofs.Matching.Search

/-! # Matching is monotone

    An event that has more matches whatever the smaller one did, and a pattern that
    asks for less is matched by whatever matched the larger one. So the order of keys
    and elements does not matter, nor how often an element comes.

    - `satisfies_of_extends` and `satisfies_of_extended` are the two halves for matching,
      `occurs_of_extends` is the same for the search.
    - `satisfies_rearranged` and `contains_rearranged`: rearranging changes no answer.
-/

namespace EventCheck

namespace Json

/-! ## Section 1: Matching -/

/-- A string is extended by itself only, so a value that opens to an object is extended by itself
    or is that object. -/
theorem Extends.eq_or_of_opens {u u' v : Json} (h : u'.Extends u) (hopen : u.Opens v) :
    u' = u ∨ u = v := by
  cases hopen with
  | itself hv => exact .inr rfl
  | decoded hr hopen => exact .inl ((extends_leaf_iff rfl).mp h)

/-- **What an event satisfies its extensions satisfy.** -/
theorem satisfies_of_extends {event event' pattern : Json} (h : event'.Extends event)
    (hs : event.satisfies pattern = true) : event'.satisfies pattern = true := by
  induction pattern using tree_induction generalizing event event' with
  | leaf leaf hleaf =>
    -- only a leaf satisfies a leaf
    have hevent : event.isLeaf = true := by
      rw [satisfies_leaf hleaf, Bool.and_eq_true] at hs
      exact hs.1
    rw [(extends_leaf_iff hevent).mp h]
    exact hs
  | obj wanted ih =>
    obtain ⟨fields, hopen, hall⟩ := satisfies_obj_iff.mp hs
    rcases h.eq_or_of_opens hopen with rfl | rfl
    · exact hs
    · obtain ⟨fields', rfl, hext⟩ := extends_obj_iff.mp h
      refine satisfies_obj_iff.mpr ⟨fields', .itself nofun, ?_⟩
      intro key w hin
      obtain ⟨value, hget, hvalue⟩ := hall key w hin
      obtain ⟨value', hget', hext'⟩ := hext key value (Keyed.mem_of_get? hget)
      exact ⟨value', hget', ih (key, w) hin hext' hvalue⟩
  | arr wanted ih =>
    obtain ⟨items, hopen, hall⟩ := satisfies_arr_iff.mp hs
    rcases h.eq_or_of_opens hopen with rfl | rfl
    · exact hs
    · obtain ⟨items', rfl, hext⟩ := extends_arr_iff.mp h
      refine satisfies_arr_iff.mpr ⟨items', .itself nofun, ?_⟩
      intro w hin
      obtain ⟨item, hitem, hsat⟩ := hall w hin
      obtain ⟨item', hitem', hext'⟩ := hext item hitem
      exact ⟨item', hitem', ih w hin hext' hsat⟩

/-- **Who satisfies a pattern satisfies what it extends.** -/
theorem satisfies_of_extended {event pattern pattern' : Json} (h : pattern.Extends pattern')
    (hs : event.satisfies pattern = true) : event.satisfies pattern' = true := by
  induction pattern' using tree_induction generalizing event pattern with
  | leaf leaf hleaf =>
    rw [← (extends_leaf_iff hleaf).mp h]
    exact hs
  | obj wanted ih =>
    obtain ⟨larger, rfl, hext⟩ := extends_obj_iff.mp h
    obtain ⟨fields, hopen, hall⟩ := satisfies_obj_iff.mp hs
    refine satisfies_obj_iff.mpr ⟨fields, hopen, ?_⟩
    intro key w hin
    obtain ⟨w', hget, hext'⟩ := hext key w hin
    obtain ⟨value, hvalue, hsat⟩ := hall key w' (Keyed.mem_of_get? hget)
    exact ⟨value, hvalue, ih (key, w) hin hext' hsat⟩
  | arr wanted ih =>
    obtain ⟨larger, rfl, hext⟩ := extends_arr_iff.mp h
    obtain ⟨items, hopen, hall⟩ := satisfies_arr_iff.mp hs
    refine satisfies_arr_iff.mpr ⟨items, hopen, ?_⟩
    intro w hin
    obtain ⟨w', hin', hext'⟩ := hext w hin
    obtain ⟨item, hitem, hsat⟩ := hall w' hin'
    exact ⟨item, hitem, ih w hin hext' hsat⟩

/-- **Rearranging an event or a pattern changes no answer.** -/
theorem satisfies_rearranged {event event' pattern pattern' : Json} (he : event.Sound)
    (hp : pattern.Sound) (hevent : event.Rearranged event') (hpattern : pattern.Rearranged pattern') :
    event'.satisfies pattern' = event.satisfies pattern := by
  obtain ⟨hev, hev'⟩ := extends_of_rearranged hevent he
  obtain ⟨hpat, hpat'⟩ := extends_of_rearranged hpattern hp
  rw [Bool.eq_iff_iff]
  constructor
  · exact fun hs => satisfies_of_extended hpat' (satisfies_of_extends hev hs)
  · exact fun hs => satisfies_of_extended hpat (satisfies_of_extends hev' hs)

/-! ## Section 2: Searching -/

/-- **What occurs in a value occurs in its extensions.** -/
theorem occurs_of_extends {v v' wanted : Json} {key : String} (h : v'.Extends v)
    (ho : v.Occurs key wanted) : v'.Occurs key wanted := by
  induction v using tree_induction generalizing v' with
  | leaf leaf hleaf => exact absurd ho (not_occurs_of_leaf hleaf)
  | obj fields ih =>
    obtain ⟨fields', rfl, hext⟩ := extends_obj_iff.mp h
    obtain ⟨⟨k, value⟩, hin, hfield⟩ := occurs_obj_iff.mp ho
    obtain ⟨value', hget, hext'⟩ := hext k value hin
    refine occurs_obj_iff.mpr ⟨(k, value'), Keyed.mem_of_get? hget, ?_⟩
    rcases hfield with ⟨hk, hsat⟩ | hinside
    · exact .inl ⟨hk, satisfies_of_extends hext' hsat⟩
    · exact .inr (ih (k, value) hin hext' hinside)
  | arr items ih =>
    obtain ⟨items', rfl, hext⟩ := extends_arr_iff.mp h
    obtain ⟨item, hin, hinside⟩ := occurs_arr_iff.mp ho
    obtain ⟨item', hin', hext'⟩ := hext item hin
    exact occurs_arr_iff.mpr ⟨item', hin', ih item hin hext' hinside⟩

/-- What a payload contains its extensions contain. -/
theorem contains_of_extends {payload payload' : Json} {pattern : Fields}
    (h : payload'.Extends payload) (hc : payload.contains pattern = true) :
    payload'.contains pattern = true := by
  obtain ⟨root, hroot, hall⟩ := contains_iff.mp hc
  cases hleaf : payload.isLeaf with
  | true =>
    -- this covers the strings, which may be decoded
    rw [(extends_leaf_iff hleaf).mp h]
    exact hc
  | false =>
    have hself : root = payload := by
      cases hroot with
      | text hr => cases hleaf
      | itself hr => rfl
    have hstring : ∀ s, payload' ≠ .str s := by
      rintro s rfl
      cases payload with
      | arr items =>
        obtain ⟨items', heq, -⟩ := extends_arr_iff.mp h
        cases heq
      | obj fields =>
        obtain ⟨fields', heq, -⟩ := extends_obj_iff.mp h
        cases heq
      | _ => cases hleaf
    refine contains_iff.mpr ⟨payload', .itself fun s heq => absurd heq (hstring s), ?_⟩
    intro key wanted hin
    rw [hself] at hall
    exact occurs_of_extends h (hall key wanted hin)

/-- A payload that contains a pattern contains what it extends. -/
theorem contains_of_extended {payload : Json} {pattern pattern' : Fields}
    (h : (obj pattern).Extends (.obj pattern')) (hc : payload.contains pattern = true) :
    payload.contains pattern' = true := by
  obtain ⟨larger, heq, hext⟩ := extends_obj_iff.mp h
  cases heq
  obtain ⟨root, hroot, hall⟩ := contains_iff.mp hc
  refine contains_iff.mpr ⟨root, hroot, ?_⟩
  intro key w hin
  obtain ⟨w', hget, hext'⟩ := hext key w hin
  obtain ⟨path, fields, value, hleads, hfield, hsat⟩ := hall key w' (Keyed.mem_of_get? hget)
  exact ⟨path, fields, value, hleads, hfield, satisfies_of_extended hext' hsat⟩

/-- **Rearranging a payload or a pattern changes no answer** of the search. -/
theorem contains_rearranged {payload payload' : Json} {pattern pattern' : Fields}
    (hv : payload.Sound) (hp : (obj pattern).Sound) (hpayload : payload.Rearranged payload')
    (hpattern : (obj pattern).Rearranged (.obj pattern')) :
    payload'.contains pattern' = payload.contains pattern := by
  obtain ⟨hpay, hpay'⟩ := extends_of_rearranged hpayload hv
  obtain ⟨hpat, hpat'⟩ := extends_of_rearranged hpattern hp
  rw [Bool.eq_iff_iff]
  constructor
  · exact fun hc => contains_of_extended hpat' (contains_of_extends hpay hc)
  · exact fun hc => contains_of_extended hpat (contains_of_extends hpay' hc)

end Json

/-! ## Section 3: Monotone in the event, antitone in the pattern -/

namespace Value

/-- **Matching is monotone in the event and antitone in the pattern**, and so is the search in a
    payload. Rearranging an event, a payload or a pattern changes no answer. -/
theorem matching_is_monotone :
    (∀ event event' pattern pattern' : Json,
      event'.Extends event → pattern.Extends pattern' →
      (ofJson event).satisfies (ofJson pattern) = .ok true →
      (ofJson event').satisfies (ofJson pattern') = .ok true) ∧
    (∀ (payload payload' : Json) (pattern pattern' : Fields),
      payload'.Extends payload → (Json.obj pattern).Extends (.obj pattern') →
      (ofJson payload).contains (ofJson (.obj pattern)) = .ok true →
      (ofJson payload').contains (ofJson (.obj pattern')) = .ok true) ∧
    (∀ event event' pattern pattern' : Json, event.Sound → pattern.Sound →
      event.Rearranged event' → pattern.Rearranged pattern' →
      (ofJson event').satisfies (ofJson pattern') =
        (ofJson event).satisfies (ofJson pattern)) ∧
    (∀ (payload payload' : Json) (pattern pattern' : Fields),
      payload.Sound → (Json.obj pattern).Sound →
      payload.Rearranged payload' → (Json.obj pattern).Rearranged (.obj pattern') →
      (ofJson payload').contains (ofJson (.obj pattern')) =
        (ofJson payload).contains (ofJson (.obj pattern))) := by
  simp only [satisfies_ofJson, contains_ofJson, Except.ok.injEq]
  refine ⟨?_, ?_, ?_, ?_⟩
  · intro event event' pattern pattern' he hp hs
    exact Json.satisfies_of_extended hp (Json.satisfies_of_extends he hs)
  · intro payload payload' pattern pattern' hv hp hc
    exact Json.contains_of_extended hp (Json.contains_of_extends hv hc)
  · intro event event' pattern pattern' he hp hevent hpattern
    exact Json.satisfies_rearranged he hp hevent hpattern
  · intro payload payload' pattern pattern' hv hp hpayload hpattern
    exact Json.contains_rearranged hv hp hpayload hpattern

/-- A basket with one article. -/
def basket : Json :=
  .obj [("user", .str "ann"), ("articles", .arr [.obj [("sku", .int 7)]])]

/-- The basket when another article has come in, and a price for the first one. -/
def fullerBasket : Json :=
  .obj [("articles", .arr [.obj [("sku", .int 9)], .obj [("price", .int 3), ("sku", .int 7)]]),
    ("user", .str "ann"), ("total", .int 2)]

/-- An article of that number in the basket of somebody whose name has an a in it. -/
def articleOfA : Fields :=
  [("user", .str "~a"), ("articles", .arr [.obj [("sku", .str "7")]])]

theorem fullerBasket_extends : fullerBasket.Extends basket := by
  have hleaf : ∀ leaf : Json, leaf.isLeaf = true → leaf.Extends leaf :=
    fun leaf h => (Json.extends_leaf_iff h).mpr rfl
  refine Json.extends_obj_iff.mpr ⟨_, rfl, ?_⟩
  intro key v hin
  rcases List.mem_cons.mp hin with heq | hin
  · cases heq
    exact ⟨.str "ann", rfl, hleaf _ rfl⟩
  · cases List.mem_singleton.mp hin
    refine ⟨_, rfl, Json.extends_arr_iff.mpr ⟨_, rfl, ?_⟩⟩
    intro article hin
    cases List.mem_singleton.mp hin
    refine ⟨.obj [("price", .int 3), ("sku", .int 7)], by simp, ?_⟩
    refine Json.extends_obj_iff.mpr ⟨_, rfl, ?_⟩
    intro key v hin
    cases List.mem_singleton.mp hin
    exact ⟨.int 7, rfl, hleaf _ rfl⟩

theorem articleOfA_extends :
    (Json.obj articleOfA).Extends (.obj [("articles", .arr [.obj [("sku", .str "7")]])]) := by
  refine Json.extends_obj_iff.mpr ⟨_, rfl, ?_⟩
  intro key v hin
  cases List.mem_singleton.mp hin
  refine ⟨_, rfl, Json.extends_self ?_⟩
  simp [Json.Sound, Json.SoundItems, Json.SoundFields]

/-- The fuller basket matches what the basket did, and so it matches what asks for less. -/
theorem fullerBasket_matches :
    fullerBasket.Extends basket ∧
      (ofJson fullerBasket).satisfies
        (ofJson (.obj [("articles", .arr [.obj [("sku", .str "7")]])])) = .ok true := by
  refine ⟨fullerBasket_extends, ?_⟩
  have hbasket : (ofJson basket).satisfies (ofJson (.obj articleOfA)) = .ok true := by cbv
  exact matching_is_monotone.1 _ _ _ _ fullerBasket_extends articleOfA_extends hbasket

end Value

end EventCheck
