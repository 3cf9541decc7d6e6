import EventCheck.Json.Reader
import EventCheck.Proofs.Json.Tree

/-! # What a text can write

    - `Json.Kept`: a property that words, numbers and strings have as they are read, and that
      containers take over from what is in them.
    - `holds_of_read?`: the value of a text has every such property.
    - `sound_of_read?`: so no object in it has a key twice, at any depth. Of repeated keys the
      last value takes the place of the first.
-/

namespace EventCheck

namespace Keyed

variable {α : Type}

theorem nodup_merge {base : Keyed α} (upper : Keyed α) (h : base.keys.Nodup) :
    (merge base upper).keys.Nodup := by
  unfold merge
  induction upper generalizing base with
  | nil => exact h
  | cons entry rest ih => exact ih (nodup_put entry.1 entry.2 h)

/-- No key comes twice among entries of which later ones replace earlier ones. -/
theorem nodup_ofPairs (pairs : List (String × α)) : (ofPairs pairs).keys.Nodup :=
  nodup_merge pairs List.nodup_nil

theorem mem_put {entries : Keyed α} {key : String} {value : α} {entry : String × α}
    (h : entry ∈ put entries key value) : entry = (key, value) ∨ entry ∈ entries := by
  induction entries with
  | nil => exact .inl (List.mem_singleton.mp h)
  | cons first rest ih =>
    obtain ⟨k, v⟩ := first
    rw [put] at h
    split at h
    · next hk =>
      rcases List.mem_cons.mp h with rfl | hin
      · exact .inl (by rw [hk])
      · exact .inr (List.mem_cons_of_mem _ hin)
    · rcases List.mem_cons.mp h with rfl | hin
      · exact .inr List.mem_cons_self
      · exact (ih hin).imp_right (List.mem_cons_of_mem _)

theorem mem_merge {base upper : Keyed α} {entry : String × α} (h : entry ∈ merge base upper) :
    entry ∈ base ∨ entry ∈ upper := by
  unfold merge at h
  induction upper generalizing base with
  | nil => exact .inl h
  | cons first rest ih =>
    rcases ih h with hput | hrest
    · rcases mem_put hput with rfl | hbase
      · exact .inr List.mem_cons_self
      · exact .inl hbase
    · exact .inr (List.mem_cons_of_mem _ hrest)

theorem mem_of_mem_ofPairs {pairs : List (String × α)} {entry : String × α}
    (h : entry ∈ ofPairs pairs) : entry ∈ pairs :=
  (mem_merge h).resolve_left List.not_mem_nil

/-- A key that is not there goes to the end. -/
theorem put_of_not_mem {entries : Keyed α} {key : String} (value : α) (h : key ∉ entries.keys) :
    put entries key value = entries ++ [(key, value)] := by
  induction entries with
  | nil => rfl
  | cons entry rest ih =>
    obtain ⟨k, v⟩ := entry
    have hne : k ≠ key := fun heq => h (heq ▸ List.mem_cons_self)
    have hrest : key ∉ keys rest := fun hin => h (List.mem_cons_of_mem _ hin)
    rw [put, if_neg hne, ih hrest]
    rfl

theorem merge_of_nodup {base upper : Keyed α} (h : (base ++ upper).keys.Nodup) :
    merge base upper = base ++ upper := by
  unfold merge
  induction upper generalizing base with
  | nil => exact (List.append_nil base).symm
  | cons entry rest ih =>
    obtain ⟨key, value⟩ := entry
    have hnew : key ∉ base.keys := by
      rw [keys, List.map_append, List.nodup_append] at h
      exact fun hin => h.2.2 key hin key List.mem_cons_self rfl
    have hsplit : base ++ (key, value) :: rest = base ++ [(key, value)] ++ rest := by
      rw [List.append_assoc, List.singleton_append]
    rw [hsplit] at h ⊢
    rw [← ih h, ← put_of_not_mem value hnew]
    rfl

/-- Entries of which no two have the same key stay as they are. -/
theorem ofPairs_of_nodup {pairs : Keyed α} (h : pairs.keys.Nodup) : ofPairs pairs = pairs :=
  merge_of_nodup h

end Keyed

namespace Json

/-- **What reading keeps**: words, numbers and strings have the property, and containers take it over
    from what is in them. Of repeated keys one is left. -/
structure Kept (P : Json → Prop) : Prop where
  word : ∀ {cs r : List Char} {v : Json}, takeWord? cs = some (v, r) → P v
  number : ∀ {cs r : List Char} {t : NumberText} {v : Json}, takeNumber? cs = some (t, r) →
    t.value = .ok v → P v
  text : ∀ s, P (.str s)
  array : ∀ items, (∀ v ∈ items, P v) → P (.arr items)
  object : ∀ pairs : List (String × Json), (∀ field ∈ pairs, P field.2) →
    P (.obj (Keyed.ofPairs pairs))

variable {P : Json → Prop}

theorem Kept.plain (hP : Kept P) {cs : List Char}
    {p : { r : Json × List Char // r.1.size + r.2.length ≤ cs.length }}
    (h : readPlain cs = .ok p) : P p.1.1 := by
  unfold readPlain at h
  split at h
  · next hw =>
    cases h
    exact hP.word hw
  · split at h
    · cases h
    · next hn =>
      split at h
      · cases h
      · next hv =>
        cases h
        exact hP.number hn hv

/-- What is read as the items or fields of a container has the property, as long as it is shorter
    than this. -/
structure HoldsBelow (P : Json → Prop) (n : Nat) : Prop where
  items : ∀ {depth : Nat} {first : Bool} {cs : List Char}
    {p : { r : List Json × List Char // sizeItems r.1 + r.2.length < cs.length }},
    cs.length < n → readItems depth first cs = .ok p → ∀ v ∈ p.1.1, P v
  fields : ∀ {depth : Nat} {first : Bool} {cs : List Char}
    {p : { r : List (String × Json) × List Char // sizeFields r.1 + r.2.length < cs.length }},
    cs.length < n → readFields depth first cs = .ok p → ∀ field ∈ p.1.1, P field.2

theorem HoldsBelow.mono {m n : Nat} (h : HoldsBelow P n) (hle : m ≤ n) : HoldsBelow P m where
  items hlt := h.items (Nat.lt_of_lt_of_le hlt hle)
  fields hlt := h.fields (Nat.lt_of_lt_of_le hlt hle)

/-- A value has the property if what is read inside it has. -/
theorem HoldsBelow.value {depth : Nat} {cs : List Char}
    {p : { r : Json × List Char // r.1.size + r.2.length ≤ cs.length }}
    (hP : Kept P) (hbelow : HoldsBelow P cs.length) (h : readValue depth cs = .ok p) : P p.1.1 := by
  unfold readValue at h
  split at h
  · split at h
    · cases h
    · cases h
      exact hP.text _
  · next r =>
    have hless := Nat.lt_succ_of_le (length_skipBlanks_le r)
    split at h
    · cases h
    · split at h
      · cases h
      · next hitems =>
        cases h
        exact hP.array _ (hbelow.items hless hitems)
  · next r =>
    have hless := Nat.lt_succ_of_le (length_skipBlanks_le r)
    split at h
    · cases h
    · split at h
      · cases h
      · next hfields =>
        cases h
        exact hP.object _ (hbelow.fields hless hfields)
  · exact hP.plain h

theorem HoldsBelow.next_items {depth : Nat} {first : Bool} {cs : List Char}
    {p : { r : List Json × List Char // sizeItems r.1 + r.2.length < cs.length }}
    (hP : Kept P) (hbelow : HoldsBelow P cs.length) (h : readItems depth first cs = .ok p) :
    ∀ v ∈ p.1.1, P v := by
  unfold readItems at h
  split at h
  · cases h
    exact fun _ hin => absurd hin List.not_mem_nil
  · split at h
    · cases h
    · next v r hsize hvalue =>
      have hv : P v := hbelow.value hP hvalue
      split at h
      · cases h
      · cases h
        intro v' hin
        rw [List.mem_singleton.mp hin]
        exact hv
      · next next hd =>
        have hless : (skipBlanks next).length < cs.length := by
          have := length_skipBlanks_le next
          have := length_lt_of_delimiter_more hd
          have := length_skipBlanks_le r
          simp only at hsize
          omega
        dsimp only at h
        split at h
        · cases h
        · next hrest =>
          cases h
          intro v' hin
          rcases List.mem_cons.mp hin with rfl | hin
          · exact hv
          · exact hbelow.items hless hrest v' hin

theorem HoldsBelow.next_fields {depth : Nat} {first : Bool} {cs : List Char}
    {p : { r : List (String × Json) × List Char // sizeFields r.1 + r.2.length < cs.length }}
    (hP : Kept P) (hbelow : HoldsBelow P cs.length) (h : readFields depth first cs = .ok p) :
    ∀ field ∈ p.1.1, P field.2 := by
  unfold readFields at h
  split at h
  · cases h
    exact fun _ hin => absurd hin List.not_mem_nil
  · split at h
    · cases h
    · next key r hkey hreadKey =>
      have hle : r.length ≤ cs.length := by
        simp only at hkey
        omega
      split at h
      · cases h
      · next v r' hsize hvalue =>
        have hv : P v := (hbelow.mono hle).value hP hvalue
        split at h
        · cases h
        · cases h
          intro field hin
          rw [List.mem_singleton.mp hin]
          exact hv
        · next next hd =>
          have hless : (skipBlanks next).length < cs.length := by
            have := length_skipBlanks_le next
            have := length_lt_of_delimiter_more hd
            have := length_skipBlanks_le r'
            simp only at hsize
            omega
          split at h
          · cases h
          · next hrest =>
            cases h
            intro field hin
            rcases List.mem_cons.mp hin with rfl | hin
            · exact hv
            · exact hbelow.fields hless hrest field hin

theorem Kept.holdsBelow (hP : Kept P) (n : Nat) : HoldsBelow P n := by
  induction n with
  | zero => exact ⟨nofun, nofun⟩
  | succ n ih =>
    constructor
    case items => exact fun hlt => (ih.mono (Nat.le_of_lt_succ hlt)).next_items hP
    case fields => exact fun hlt => (ih.mono (Nat.le_of_lt_succ hlt)).next_fields hP

/-- **The value of a text has every property that reading keeps.** -/
theorem Kept.holds_of_read? (hP : Kept P) {text : String} {v : Json} (h : read? text = some v) :
    P v := by
  unfold read? read at h
  split at h
  · next hread =>
    cases h
    unfold readText at hread
    split at hread
    · cases hread
    · split at hread
      · cases hread
      · next hvalue =>
        split at hread
        · cases hread
          exact (hP.holdsBelow _).value hP hvalue
        · cases hread
  · cases h

theorem sound_of_takeWord? {cs r : List Char} {v : Json} (h : takeWord? cs = some (v, r)) :
    v.Sound := by
  unfold takeWord? at h
  split at h <;> cases h <;> trivial

theorem NumberText.sound_of_value {t : NumberText} {v : Json} (h : t.value = .ok v) : v.Sound := by
  unfold NumberText.value at h
  split at h
  · split at h
    · cases h
    · cases h
      trivial
  · cases h
    trivial

theorem kept_sound : Kept Json.Sound where
  word := sound_of_takeWord?
  number := fun _ => NumberText.sound_of_value
  text := fun _ => trivial
  array := fun _ h => soundItems_iff.mpr h
  object := fun _ h =>
    ⟨Keyed.nodup_ofPairs _,
      soundFields_iff.mpr fun field hin => h field (Keyed.mem_of_mem_ofPairs hin)⟩

/-- **The value of a text is sound.** -/
theorem sound_of_read? {text : String} {v : Json} (h : read? text = some v) : v.Sound :=
  kept_sound.holds_of_read? h

end Json

end EventCheck
