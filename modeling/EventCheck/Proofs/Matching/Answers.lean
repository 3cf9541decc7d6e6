import EventCheck.Proofs.Matching.Search

/-! # Patterns that get answers

    A pattern from a caller may hold foreign things, and then a search may stop with no
    answer. It cannot do so behind a success: what is found once has been looked at as a
    whole, so there is nothing foreign in the pattern.

    - `Value.Answered`: matching against the pattern gives an answer for every JSON value.
    - `Value.answered_of_satisfies`: so it is for each pattern that anything satisfies.
    - `Value.contains_answered`: a pattern that some payload contains can be looked for in
      every payload.
-/

namespace EventCheck

namespace Value

/-! ## Section 1: Induction -/

/-- **Induction over what a caller hands in**: leaves, containers, and foreign things. -/
theorem tree_induction {motive : Value → Prop}
    (leaf : ∀ v : Json, v.isLeaf = true → motive (ofJson v))
    (arr : ∀ items : List Value, (∀ v ∈ items, motive v) → motive (.arr items))
    (tuple : ∀ items : List Value, (∀ v ∈ items, motive v) → motive (.tuple items))
    (obj : ∀ fields : Keyed Value, (∀ field ∈ fields, motive field.2) → motive (.obj fields))
    (foreign : ∀ (v : Value) (e : NotJson), v.kind = .error e → motive v)
    (v : Value) : motive v := by
  refine @Value.rec motive (fun items => ∀ v ∈ items, motive v)
    (fun fields => ∀ field ∈ fields, motive field.2) (fun field => motive field.2)
    ?null ?bool ?int ?float ?str ?arr ?obj ?tuple ?set ?bytes ?other ?noItem ?item ?noField ?field
    ?pair v
  case null => exact leaf .null rfl
  case bool => exact fun b => leaf (.bool b) rfl
  case int => exact fun n => leaf (.int n) rfl
  case float => exact fun x => leaf (.float x) rfl
  case str => exact fun s => leaf (.str s) rfl
  case arr => exact arr
  case obj => exact obj
  case tuple => exact tuple
  case set => exact fun items _ => foreign _ _ rfl
  case bytes => exact fun bs => foreign _ _ rfl
  case other => exact fun name => foreign _ _ rfl
  case noItem => exact nofun
  case item =>
    intro v rest hv hrest x hx
    rcases List.mem_cons.mp hx with rfl | hx
    · exact hv
    · exact hrest x hx
  case noField => exact nofun
  case field =>
    intro field rest hfield hrest x hx
    rcases List.mem_cons.mp hx with rfl | hx
    · exact hfield
    · exact hrest x hx
  case pair => exact fun k v hv => hv

/-! ## Section 2: Matching -/

/-- **Every JSON value gets an answer** to the question whether it satisfies the pattern. -/
def Answered (pattern : Value) : Prop :=
  ∀ event : Json, ∃ answer, (ofJson event).satisfies pattern = .ok answer

theorem answered_ofJson (w : Json) : (ofJson w).Answered :=
  fun event => ⟨event.satisfies w, satisfies_ofJson event w⟩

theorem anyM_answered {w : Value} (h : w.Answered) (items : List Json) :
    ∃ answer, (ofItems items).anyM (fun item => item.satisfies w) = .ok answer := by
  induction items with
  | nil => exact ⟨false, rfl⟩
  | cons item rest ih =>
    obtain ⟨first, hfirst⟩ := h item
    rw [ofItems, List.anyM, hfirst]
    cases first with
    | true => exact ⟨true, rfl⟩
    | false => exact ih

theorem itemsSatisfy_answered {wanted : List Value} (h : ∀ w ∈ wanted, w.Answered)
    (items : List Json) : ∃ answer, itemsSatisfy (ofItems items) wanted = .ok answer := by
  induction wanted with
  | nil => exact ⟨true, rfl⟩
  | cons w rest ih =>
    obtain ⟨first, hfirst⟩ := anyM_answered (h w List.mem_cons_self) items
    rw [itemsSatisfy, hfirst]
    cases first with
    | true => exact ih fun w hin => h w (List.mem_cons_of_mem _ hin)
    | false => exact ⟨false, rfl⟩

theorem fieldsSatisfy_answered {wanted : Keyed Value} (h : ∀ field ∈ wanted, field.2.Answered)
    (fields : Fields) : ∃ answer, fieldsSatisfy (ofFields fields) wanted = .ok answer := by
  induction wanted with
  | nil => exact ⟨true, rfl⟩
  | cons field rest ih =>
    obtain ⟨k, w⟩ := field
    rw [fieldsSatisfy, get?_ofFields]
    cases Keyed.get? fields k with
    | none => exact ⟨false, rfl⟩
    | some value =>
      obtain ⟨first, hfirst⟩ := h (k, w) List.mem_cons_self value
      simp only [Option.map_some, hfirst]
      cases first with
      | true => exact ih fun field hin => h field (List.mem_cons_of_mem _ hin)
      | false => exact ⟨false, rfl⟩

theorem answered_arr {wanted : List Value} (h : ∀ w ∈ wanted, w.Answered) :
    (Value.arr wanted).Answered := by
  intro event
  simp only [satisfies, kind_ofJson, opened?_ofJson]
  cases event.opened? with
  | none => exact ⟨false, rfl⟩
  | some v =>
    cases v with
    | arr items => exact itemsSatisfy_answered h items
    | _ => exact ⟨false, rfl⟩

theorem answered_obj {wanted : Keyed Value} (h : ∀ field ∈ wanted, field.2.Answered) :
    (Value.obj wanted).Answered := by
  intro event
  simp only [satisfies, kind_ofJson, opened?_ofJson]
  cases event.opened? with
  | none => exact ⟨false, rfl⟩
  | some v =>
    cases v with
    | obj fields => exact fieldsSatisfy_answered h fields
    | _ => exact ⟨false, rfl⟩

/-- Two questions in a row are answered with yes only if the first one is. -/
theorem bind_eq_ok {ε α β : Type} {x : Except ε α} {f : α → Except ε β} {b : β}
    (h : x >>= f = .ok b) : ∃ a, x = .ok a ∧ f a = .ok b := by
  cases x with
  | error e => cases h
  | ok a => exact ⟨a, rfl, h⟩

theorem exists_of_anyM {w : Value} {items : List Value}
    (h : items.anyM (fun item => item.satisfies w) = .ok true) :
    ∃ item ∈ items, item.satisfies w = .ok true := by
  induction items with
  | nil => cases h
  | cons item rest ih =>
    obtain ⟨first, hfirst, hrest⟩ := bind_eq_ok h
    cases first with
    | true => exact ⟨item, List.mem_cons_self, hfirst⟩
    | false =>
      obtain ⟨x, hin, hx⟩ := ih hrest
      exact ⟨x, List.mem_cons_of_mem _ hin, hx⟩

theorem exists_of_itemsSatisfy {wanted items : List Value}
    (h : itemsSatisfy items wanted = .ok true) :
    ∀ w ∈ wanted, ∃ item : Value, item.satisfies w = .ok true := by
  induction wanted with
  | nil => exact nofun
  | cons w rest ih =>
    rw [itemsSatisfy] at h
    obtain ⟨first, hfirst, hrest⟩ := bind_eq_ok h
    cases first with
    | false => cases hrest
    | true =>
      intro x hx
      rcases List.mem_cons.mp hx with rfl | hx
      · obtain ⟨item, -, hitem⟩ := exists_of_anyM hfirst
        exact ⟨item, hitem⟩
      · exact ih hrest x hx

theorem exists_of_fieldsSatisfy {wanted fields : Keyed Value}
    (h : fieldsSatisfy fields wanted = .ok true) :
    ∀ field ∈ wanted, ∃ value : Value, value.satisfies field.2 = .ok true := by
  induction wanted with
  | nil => exact nofun
  | cons field rest ih =>
    obtain ⟨k, w⟩ := field
    rw [fieldsSatisfy] at h
    cases hget : Keyed.get? fields k with
    | none =>
      rw [hget] at h
      cases h
    | some value =>
      rw [hget] at h
      obtain ⟨first, hfirst, hrest⟩ := bind_eq_ok h
      cases first with
      | false => cases hrest
      | true =>
        intro x hx
        rcases List.mem_cons.mp hx with rfl | hx
        · exact ⟨value, hfirst⟩
        · exact ih hrest x hx

/-- A tuple counts as an array. -/
theorem satisfies_tuple (u : Value) (wanted : List Value) :
    u.satisfies (.tuple wanted) = u.satisfies (.arr wanted) := by
  rw [satisfies, satisfies]

theorem exists_of_satisfies_arr {u : Value} {wanted : List Value}
    (h : u.satisfies (.arr wanted) = .ok true) :
    ∀ w ∈ wanted, ∃ item : Value, item.satisfies w = .ok true := by
  rw [satisfies] at h
  obtain ⟨kind, -, hopened⟩ := bind_eq_ok h
  split at hopened
  · exact exists_of_itemsSatisfy hopened
  · exact exists_of_itemsSatisfy hopened
  · cases hopened

theorem exists_of_satisfies_obj {u : Value} {wanted : Keyed Value}
    (h : u.satisfies (.obj wanted) = .ok true) :
    ∀ field ∈ wanted, ∃ value : Value, value.satisfies field.2 = .ok true := by
  rw [satisfies] at h
  obtain ⟨kind, -, hopened⟩ := bind_eq_ok h
  split at hopened
  · exact exists_of_fieldsSatisfy hopened
  · cases hopened

/-- Nothing satisfies a foreign thing. -/
theorem not_satisfies_foreign {u v : Value} {e : NotJson} (hv : v.kind = .error e) :
    u.satisfies v ≠ .ok true := by
  intro h
  cases v with
  | set items | bytes bs | other name =>
    simp only [satisfies] at h
    obtain ⟨kind, -, hrest⟩ := bind_eq_ok h
    cases hrest
  | _ => cases hv

theorem answered_of_satisfies_arr {u : Value} {wanted : List Value}
    (ih : ∀ w ∈ wanted, ∀ item : Value, item.satisfies w = .ok true → w.Answered)
    (h : u.satisfies (.arr wanted) = .ok true) : (Value.arr wanted).Answered := by
  apply answered_arr
  intro w hin
  obtain ⟨item, hitem⟩ := exists_of_satisfies_arr h w hin
  exact ih w hin item hitem

/-- **What anything satisfies gets an answer from everything**, since a success has gone through
    the whole pattern. -/
theorem answered_of_satisfies {u pattern : Value} (h : u.satisfies pattern = .ok true) :
    pattern.Answered := by
  -- by induction on the pattern, as the values that satisfy its parts may come from anywhere
  induction pattern using tree_induction generalizing u with
  | leaf leaf hleaf => exact answered_ofJson leaf
  | arr wanted ih => exact answered_of_satisfies_arr (fun w hin _ hitem => ih w hin hitem) h
  | tuple wanted ih =>
    intro event
    rw [satisfies_tuple] at h ⊢
    exact answered_of_satisfies_arr (fun w hin _ hitem => ih w hin hitem) h event
  | obj wanted ih =>
    apply answered_obj
    intro field hin
    obtain ⟨value, hvalue⟩ := exists_of_satisfies_obj h field hin
    exact ih field hin hvalue
  | foreign v e hv => exact absurd h (not_satisfies_foreign hv)

/-! ## Section 3: Searching -/

theorem itemsHave_answered {key : String} {wanted : Value} {items : List Json}
    (h : ∀ v ∈ items, ∃ answer, hasField key wanted (ofJson v) = .ok answer) :
    ∃ answer, itemsHave key wanted (ofItems items) = .ok answer := by
  induction items with
  | nil => exact ⟨false, rfl⟩
  | cons v rest ih =>
    obtain ⟨first, hfirst⟩ := h v List.mem_cons_self
    rw [ofItems, itemsHave, hfirst]
    cases first with
    | true => exact ⟨true, rfl⟩
    | false => exact ih fun v hin => h v (List.mem_cons_of_mem _ hin)

theorem fieldsHave_answered {key : String} {wanted : Value} (hw : wanted.Answered)
    {fields : Fields}
    (h : ∀ field ∈ fields, ∃ answer, hasField key wanted (ofJson field.2) = .ok answer) :
    ∃ answer, fieldsHave key wanted (ofFields fields) = .ok answer := by
  induction fields with
  | nil => exact ⟨false, rfl⟩
  | cons field rest ih =>
    obtain ⟨k, v⟩ := field
    obtain ⟨matched, hmatched⟩ := hw v
    obtain ⟨inside, hinside⟩ := h (k, v) List.mem_cons_self
    obtain ⟨later, hlater⟩ := ih fun field hin => h field (List.mem_cons_of_mem _ hin)
    refine ⟨(k == key && matched) || inside || later, ?_⟩
    rw [ofFields, fieldsHave, hmatched, hinside, hlater]
    cases k == key <;> cases matched <;> cases inside <;> rfl

/-- **The search for a field gets an answer** if its pattern does. -/
theorem hasField_answered {wanted : Value} (hw : wanted.Answered) (key : String) (v : Json) :
    ∃ answer, hasField key wanted (ofJson v) = .ok answer := by
  induction v using Json.tree_induction with
  | leaf leaf hleaf =>
    cases leaf with
    | arr items => cases hleaf
    | obj fields => cases hleaf
    | _ => exact ⟨false, rfl⟩
  | arr items ih => exact itemsHave_answered ih
  | obj fields ih => exact fieldsHave_answered hw ih

theorem answered_of_itemsHave {key : String} {wanted : Value} {items : List Json}
    (ih : ∀ v ∈ items, hasField key wanted (ofJson v) = .ok true → wanted.Answered)
    (h : itemsHave key wanted (ofItems items) = .ok true) : wanted.Answered := by
  induction items with
  | nil => cases h
  | cons v rest hrest =>
    rw [ofItems, itemsHave] at h
    obtain ⟨first, hfirst, hlater⟩ := bind_eq_ok h
    cases first with
    | true => exact ih v List.mem_cons_self hfirst
    | false => exact hrest (fun v hin => ih v (List.mem_cons_of_mem _ hin)) hlater

theorem answered_of_fieldsHave {key : String} {wanted : Value} {fields : Fields}
    (ih : ∀ field ∈ fields, hasField key wanted (ofJson field.2) = .ok true → wanted.Answered)
    (h : fieldsHave key wanted (ofFields fields) = .ok true) : wanted.Answered := by
  induction fields with
  | nil => cases h
  | cons field rest hrest =>
    obtain ⟨k, v⟩ := field
    have hinside : hasField key wanted (ofJson v) = .ok true → wanted.Answered :=
      ih (k, v) List.mem_cons_self
    -- if the field itself does not match, the search goes on inside its value and behind it
    have hbehind : (hasField key wanted (ofJson v) >>= fun inside =>
        if inside then pure true else fieldsHave key wanted (ofFields rest)) = .ok true →
        wanted.Answered := by
      intro h
      obtain ⟨inside, hfirst, hlater⟩ := bind_eq_ok h
      cases inside with
      | true => exact hinside hfirst
      | false => exact hrest (fun field hin => ih field (List.mem_cons_of_mem _ hin)) hlater
    rw [ofFields, fieldsHave] at h
    by_cases hk : (k == key) = true
    · rw [if_pos hk] at h
      obtain ⟨matched, hmatched, hlater⟩ := bind_eq_ok h
      cases matched with
      | true => exact answered_of_satisfies hmatched
      | false => exact hbehind hlater
    · rw [if_neg hk] at h
      exact hbehind h

/-- **A pattern that is found somewhere can be looked for everywhere.** -/
theorem answered_of_hasField {key : String} {wanted : Value} {v : Json}
    (h : hasField key wanted (ofJson v) = .ok true) : wanted.Answered := by
  induction v using Json.tree_induction with
  | leaf leaf hleaf =>
    cases leaf with
    | arr items => cases hleaf
    | obj fields => cases hleaf
    | _ => cases h
  | arr items ih => exact answered_of_itemsHave ih h
  | obj fields ih => exact answered_of_fieldsHave ih h

theorem hasFields_answered {pattern : Keyed Value} {v : Json}
    (h : (ofJson v).hasFields pattern = .ok true) (u : Json) :
    ∃ answer, (ofJson u).hasFields pattern = .ok answer := by
  induction pattern with
  | nil => exact ⟨true, rfl⟩
  | cons field rest ih =>
    obtain ⟨key, wanted⟩ := field
    rw [hasFields] at h ⊢
    obtain ⟨found, hfound, hrest⟩ := bind_eq_ok h
    cases found with
    | false => cases hrest
    | true =>
      obtain ⟨answer, hanswer⟩ := hasField_answered (answered_of_hasField hfound) key u
      rw [hanswer]
      cases answer with
      | true => exact ih hrest
      | false => exact ⟨false, rfl⟩

/-- **A pattern that some payload contains can be looked for in every payload.** -/
theorem contains_answered {payload : Json} {pattern : Value}
    (h : (ofJson payload).contains pattern = .ok true) (other : Json) :
    ∃ answer, (ofJson other).contains pattern = .ok answer := by
  rw [contains, decoded_ofJson] at h ⊢
  obtain ⟨wanted, hwanted, hfound⟩ := bind_eq_ok h
  rw [hasPattern, hwanted]
  have hall : (ofJson payload.decoded).hasFields wanted = .ok true := by
    cases hfields : (ofJson payload.decoded).hasFields wanted with
    | error e =>
      rw [hfields] at hfound
      cases hfound
    | ok found =>
      rw [hfields] at hfound
      exact congrArg Except.ok (Except.ok.inj hfound)
  obtain ⟨answer, hanswer⟩ := hasFields_answered hall other.decoded
  refine ⟨answer, ?_⟩
  show ((ofJson other.decoded).hasFields wanted).mapError SearchError.notJson = _
  rw [hanswer]
  rfl

end Value

end EventCheck
