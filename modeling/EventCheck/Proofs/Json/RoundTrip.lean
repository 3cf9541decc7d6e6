import EventCheck.Proofs.Json.Escapes
import EventCheck.Proofs.Json.Floats
import EventCheck.Proofs.Json.Tree

/-! # Values that are written and read

    The text of a value is read as that value, by either writer, if the value keeps the
    limits of texts.

    - `Legible`: no object has a key twice, containers nest no deeper and whole numbers
      are no longer than texts may have them.
    - `returns_of_legible`: the text of a legible value is read as that value, whatever
      follows it, unless that goes on with a number.
    - `read?_written`: so the whole text is read as the value.
-/

namespace EventCheck

namespace Json

/-! ## Section 1: Legible values -/

mutual

/-- How many containers lie inside one another on the longest way down. -/
def nesting : Json → Nat
  | .arr items => 1 + nestingItems items
  | .obj fields => 1 + nestingFields fields
  | _ => 0

def nestingItems : List Json → Nat
  | [] => 0
  | v :: rest => max v.nesting (nestingItems rest)

def nestingFields : Fields → Nat
  | [] => 0
  | (_, v) :: rest => max v.nesting (nestingFields rest)

end

/-- **The value keeps the limits of texts** in which containers nest no deeper than this. -/
structure Legible (depth : Nat) (v : Json) : Prop where
  sound : v.Sound
  nesting : v.nesting ≤ depth
  digits : ∀ path n, v.Leads path (.int n) → (Nat.toDigits 10 n.natAbs).length ≤ maxDigits

theorem nestingItems_le_iff {items : List Json} {depth : Nat} :
    nestingItems items ≤ depth ↔ ∀ v ∈ items, v.nesting ≤ depth := by
  induction items with
  | nil => simp [nestingItems]
  | cons v rest ih => simp [nestingItems, ih]

theorem nestingFields_le_iff {fields : Fields} {depth : Nat} :
    nestingFields fields ≤ depth ↔ ∀ field ∈ fields, field.2.nesting ≤ depth := by
  induction fields with
  | nil => simp [nestingFields]
  | cons field rest ih => simp [nestingFields, ih]

/-- An array is legible if its elements are, one level deeper. -/
theorem legible_arr_iff {depth : Nat} {items : List Json} :
    (Json.arr items).Legible (depth + 1) ↔ ∀ v ∈ items, v.Legible depth := by
  constructor
  · intro h v hin
    obtain ⟨hsound, hnesting, hdigits⟩ := h
    rw [Sound, soundItems_iff] at hsound
    rw [nesting, Nat.add_comm, Nat.add_le_add_iff_right, nestingItems_le_iff] at hnesting
    obtain ⟨index, hi⟩ := List.mem_iff_getElem?.mp hin
    exact ⟨hsound v hin, hnesting v hin, fun path n hleads => hdigits _ n (.item hi hleads)⟩
  · intro h
    constructor
    case sound =>
      rw [Sound, soundItems_iff]
      exact fun v hin => (h v hin).sound
    case nesting =>
      rw [nesting, Nat.add_comm, Nat.add_le_add_iff_right, nestingItems_le_iff]
      exact fun v hin => (h v hin).nesting
    case digits =>
      intro path n hleads
      cases hleads with
      | item hi hleads => exact (h _ (List.mem_of_getElem? hi)).digits _ n hleads

/-- An object is legible if no key comes twice and its values are, one level deeper. -/
theorem legible_obj_iff {depth : Nat} {fields : Fields} :
    (Json.obj fields).Legible (depth + 1) ↔
      (fields.map Prod.fst).Nodup ∧ ∀ field ∈ fields, field.2.Legible depth := by
  constructor
  · rintro ⟨hsound, hnesting, hdigits⟩
    rw [Sound, soundFields_iff] at hsound
    rw [nesting, Nat.add_comm, Nat.add_le_add_iff_right, nestingFields_le_iff] at hnesting
    refine ⟨hsound.1, fun field hin => ?_⟩
    exact ⟨hsound.2 field hin, hnesting field hin,
      fun path n hleads => hdigits _ n (.field hin hleads)⟩
  · rintro ⟨hkeys, h⟩
    constructor
    case sound =>
      rw [Sound, soundFields_iff]
      exact ⟨hkeys, fun field hin => (h field hin).sound⟩
    case nesting =>
      rw [nesting, Nat.add_comm, Nat.add_le_add_iff_right, nestingFields_le_iff]
      exact fun field hin => (h field hin).nesting
    case digits =>
      intro path n hleads
      cases hleads with
      | field hf hleads => exact (h _ hf).digits _ n hleads

/-- A string is legible at any depth. -/
theorem legible_str (s : String) (depth : Nat) : (Json.str s).Legible depth where
  sound := trivial
  nesting := Nat.zero_le depth
  digits path n hleads := by
    obtain ⟨-, heq⟩ := leads_of_leaf rfl hleads
    cases heq

/-- So is a whole number that is short enough. -/
theorem legible_int {n : Int} (hn : (Nat.toDigits 10 n.natAbs).length ≤ maxDigits) (depth : Nat) :
    (Json.int n).Legible depth where
  sound := trivial
  nesting := Nat.zero_le depth
  digits path k hleads := by
    obtain ⟨-, heq⟩ := leads_of_leaf rfl hleads
    cases heq
    exact hn

theorem Legible.mono {depth depth' : Nat} {v : Json} (h : v.Legible depth) (hle : depth ≤ depth') :
    v.Legible depth' := ⟨h.sound, Nat.le_trans h.nesting hle, h.digits⟩

/-- A legible container leaves room for a level. -/
theorem Legible.exists_depth {depth : Nat} {v : Json} (h : v.Legible depth)
    (hv : v.isLeaf = false) : ∃ d, depth = d + 1 := by
  have hnesting := h.nesting
  cases v with
  | arr items =>
    rw [Json.nesting] at hnesting
    exact ⟨depth - 1, by omega⟩
  | obj fields =>
    rw [Json.nesting] at hnesting
    exact ⟨depth - 1, by omega⟩
  | _ => cases hv

/-! ## Section 2: How texts of values begin -/

/-- **The text begins as a value does**: not with a blank, nor with the end of a container. -/
def BeginsValue (cs : List Char) : Prop :=
  ∃ c r, cs = c :: r ∧ isBlank c = false ∧ c ≠ ']' ∧ c ≠ '\x7d' ∧ c ≠ '\ufeff'

theorem BeginsPlain.beginsValue {cs : List Char} (h : BeginsPlain cs) : BeginsValue cs := by
  obtain ⟨c, r, rfl, hc⟩ := h
  obtain ⟨-, -, -, hmark, hblank⟩ := ne_of_beginsPlain hc
  refine ⟨c, r, rfl, hblank, ?_, ?_, hmark⟩
  · rintro rfl
    exact absurd hc (by decide)
  · rintro rfl
    exact absurd hc (by decide)

theorem BeginsValue.append {cs : List Char} (h : BeginsValue cs) (more : List Char) :
    BeginsValue (cs ++ more) := by
  obtain ⟨c, r, rfl, hc⟩ := h
  exact ⟨c, r ++ more, rfl, hc⟩

theorem BeginsValue.skipBlanks_eq {cs : List Char} (h : BeginsValue cs) : skipBlanks cs = cs := by
  obtain ⟨c, r, rfl, hblank, -⟩ := h
  exact List.dropWhile_cons_of_neg (by simp [hblank])

/-- A value does not end the container that it stands in. -/
theorem BeginsValue.closing? {cs : List Char} (h : BeginsValue cs) {close : Char}
    (hclose : close = ']' ∨ close = '\x7d') (first : Bool) :
    Json.closing? close first cs = none := by
  obtain ⟨c, r, rfl, -, hbracket, hbrace, -⟩ := h
  rcases hclose with rfl | rfl
  · exact if_neg (by simp [hbracket])
  · exact if_neg (by simp [hbrace])

variable (asciiOnly : Bool)

theorem toList_arr (items : List Json) : ((Json.arr items).write asciiOnly).toList =
    '[' :: ((", ".intercalate (writeItems asciiOnly items)).toList ++ [']']) := by
  rw [write, String.toList_append, String.toList_append]
  rfl

theorem toList_obj (fields : Fields) : ((Json.obj fields).write asciiOnly).toList =
    '\x7b' :: ((", ".intercalate (writeFields asciiOnly fields)).toList ++ ['\x7d']) := by
  rw [write, String.toList_append, String.toList_append]
  rfl

theorem toList_str (s : String) : ((Json.str s).write asciiOnly).toList =
    '"' :: (s.toList.flatMap (writeChar asciiOnly) ++ ['"']) := by
  rw [write, writeLeaf, toList_writeString]
  all_goals exact nofun

/-- A bare leaf is written as what it says. -/
theorem write_of_bare {v : Json} (h : v.Bare) : v.write asciiOnly = v.content := by
  cases v with
  | bool b => cases b <;> rfl
  | str s => exact absurd rfl (h.2 s)
  | arr items => cases h.1
  | obj fields => cases h.1
  | _ => rfl

theorem beginsValue_written (v : Json) : BeginsValue (v.write asciiOnly).toList := by
  cases hv : v.isLeaf with
  | true =>
    rcases string_or_bare hv with ⟨s, rfl⟩ | hbare
    · rw [toList_str]
      exact ⟨'"', _, rfl, by decide⟩
    · rw [write_of_bare asciiOnly hbare]
      exact (begins_content hbare).beginsValue
  | false =>
    cases v with
    | arr items =>
      rw [toList_arr]
      exact ⟨'[', _, rfl, by decide⟩
    | obj fields =>
      rw [toList_obj]
      exact ⟨'\x7b', _, rfl, by decide⟩
    | _ => cases hv

/-! ## Section 3: Containers -/

/-- **The text is read as the value** at this depth, whatever follows it, unless that goes on with
    a number. -/
def Returns (depth : Nat) (v : Json) : Prop :=
  ∀ rest, EndsNumber rest → Reads depth ((v.write asciiOnly).toList ++ rest) v rest

theorem endsNumber_cons {c : Char} (hc : isDigit c = false ∧ c ≠ '.' ∧ c ≠ 'e' ∧ c ≠ 'E')
    (r : List Char) : EndsNumber (c :: r) := by
  intro c' r' heq
  cases heq
  exact hc

/-- The text of items, or of fields, that stand in a container. -/
def joined (texts : List String) : List Char := (", ".intercalate texts).toList

theorem joined_singleton (text : String) : joined [text] = text.toList := by
  rw [joined, String.intercalate_singleton]

theorem joined_cons (text next : String) (rest : List String) :
    joined (text :: next :: rest) = text.toList ++ ',' :: ' ' :: joined (next :: rest) := by
  rw [joined, String.intercalate_cons_cons, String.toList_append, String.toList_append,
    List.append_assoc]
  rfl

theorem beginsValue_joined {text : String} (h : BeginsValue text.toList) (rest : List String) :
    BeginsValue (joined (text :: rest)) := by
  cases rest with
  | nil =>
    rw [joined_singleton]
    exact h
  | cons next rest =>
    rw [joined_cons]
    exact h.append _

/-- **Items that are read one by one are read together.** -/
theorem readsItems_written {depth : Nat} {v : Json} {rest : List Json}
    (h : ∀ w ∈ v :: rest, w.Returns asciiOnly depth) (first : Bool) (after : List Char) :
    ReadsItems depth first
      (joined (v.write asciiOnly :: writeItems asciiOnly rest) ++ ']' :: after) (v :: rest) after := by
  have hopen := ((beginsValue_joined (beginsValue_written asciiOnly v)
    (writeItems asciiOnly rest)).append (']' :: after)).closing? (.inl rfl) first
  induction rest generalizing v first with
  | nil =>
    have hv := h v List.mem_cons_self (']' :: after) (endsNumber_cons (by decide) _)
    rw [writeItems, joined_singleton] at hopen ⊢
    exact readsItems_last hopen hv rfl
  | cons w rest ih =>
    have hnext := (beginsValue_joined (beginsValue_written asciiOnly w)
      (writeItems asciiOnly rest)).append (']' :: after)
    have hrest := ih (fun x hin => h x (List.mem_cons_of_mem _ hin)) false
      (hnext.closing? (.inl rfl) false)
    rw [writeItems, joined_cons, List.append_assoc, List.cons_append, List.cons_append] at hopen ⊢
    have hv := h v List.mem_cons_self
      (',' :: ' ' :: (joined (w.write asciiOnly :: writeItems asciiOnly rest) ++ ']' :: after))
      (endsNumber_cons (by decide) _)
    refine readsItems_more hopen hv rfl ?_
    -- one blank stands behind the comma
    rw [← hnext.skipBlanks_eq] at hrest
    exact hrest

/-- The text of a field: its key, a colon, and its value. -/
theorem toList_field (key : String) (v : Json) :
    (writeString asciiOnly key ++ ": " ++ v.write asciiOnly).toList =
      '"' :: (key.toList.flatMap (writeChar asciiOnly) ++
        '"' :: ':' :: ' ' :: (v.write asciiOnly).toList) := by
  rw [String.toList_append, String.toList_append, toList_writeString]
  simp only [List.cons_append, List.append_assoc, List.nil_append]
  rfl

theorem beginsValue_field (key : String) (v : Json) :
    BeginsValue (writeString asciiOnly key ++ ": " ++ v.write asciiOnly).toList := by
  rw [toList_field]
  exact ⟨'"', _, rfl, by decide⟩

/-- The key of a field is read as what was written, up to the value. -/
theorem readsKey_written (key : String) (v : Json) (after : List Char) :
    ReadsKey ((writeString asciiOnly key ++ ": " ++ v.write asciiOnly).toList ++ after) key
      ((v.write asciiOnly).toList ++ after) := by
  -- one blank stands behind the colon
  have hvalue : skipBlanks (' ' :: ((v.write asciiOnly).toList ++ after)) =
      (v.write asciiOnly).toList ++ after :=
    ((beginsValue_written asciiOnly v).append after).skipBlanks_eq
  have hkey := readsKey_chars fun opening => readsChars_written asciiOnly key.toList opening
    (':' :: ' ' :: ((v.write asciiOnly).toList ++ after))
  rw [String.ofList_toList, hvalue] at hkey
  rw [toList_field]
  simpa only [List.cons_append, List.append_assoc] using hkey

/-- **Fields that are read one by one are read together.** -/
theorem readsFields_written {depth : Nat} {key : String} {v : Json} {rest : Fields}
    (h : ∀ field ∈ (key, v) :: rest, field.2.Returns asciiOnly depth) (first : Bool)
    (after : List Char) :
    ReadsFields depth first
      (joined ((writeString asciiOnly key ++ ": " ++ v.write asciiOnly) ::
        writeFields asciiOnly rest) ++ '\x7d' :: after) ((key, v) :: rest) after := by
  have hopen := ((beginsValue_joined (beginsValue_field asciiOnly key v)
    (writeFields asciiOnly rest)).append ('\x7d' :: after)).closing? (.inr rfl) first
  induction rest generalizing key v first with
  | nil =>
    have hv := h (key, v) List.mem_cons_self ('\x7d' :: after) (endsNumber_cons (by decide) _)
    rw [writeFields, joined_singleton] at hopen ⊢
    exact readsFields_last hopen (readsKey_written asciiOnly key v _) hv rfl
  | cons field rest ih =>
    obtain ⟨key', w⟩ := field
    have hnext := (beginsValue_joined (beginsValue_field asciiOnly key' w)
      (writeFields asciiOnly rest)).append ('\x7d' :: after)
    have hrest := ih (fun x hin => h x (List.mem_cons_of_mem _ hin)) false
      (hnext.closing? (.inr rfl) false)
    rw [writeFields, joined_cons, List.append_assoc, List.cons_append, List.cons_append] at hopen ⊢
    have hv := h (key, v) List.mem_cons_self
      (',' :: ' ' :: (joined ((writeString asciiOnly key' ++ ": " ++ w.write asciiOnly) ::
        writeFields asciiOnly rest) ++ '\x7d' :: after)) (endsNumber_cons (by decide) _)
    refine readsFields_more hopen (readsKey_written asciiOnly key v _) hv rfl ?_
    -- one blank stands behind the comma
    rw [← hnext.skipBlanks_eq] at hrest
    exact hrest

/-! ## Section 4: Values -/

theorem returns_str (s : String) (depth : Nat) : (Json.str s).Returns asciiOnly depth := by
  intro rest _
  have h := reads_chars (fun opening => readsChars_written asciiOnly s.toList opening rest) depth
  rw [String.ofList_toList] at h
  rw [toList_str]
  simpa only [List.cons_append, List.append_assoc, List.nil_append] using h

theorem returns_arr {depth : Nat} {items : List Json}
    (h : ∀ v ∈ items, v.Returns asciiOnly depth) :
    (Json.arr items).Returns asciiOnly (depth + 1) := by
  intro rest _
  rw [toList_arr, List.cons_append, List.append_assoc]
  cases items with
  | nil => exact reads_arr (readsItems_none depth rest) rfl
  | cons v items =>
    have hitems := readsItems_written asciiOnly h true rest
    have hbegins := (beginsValue_joined (beginsValue_written asciiOnly v)
      (writeItems asciiOnly items)).append (']' :: rest)
    exact reads_arr hitems hbegins.skipBlanks_eq

theorem returns_obj {depth : Nat} {fields : Fields} (hkeys : (fields.map Prod.fst).Nodup)
    (h : ∀ field ∈ fields, field.2.Returns asciiOnly depth) :
    (Json.obj fields).Returns asciiOnly (depth + 1) := by
  intro rest _
  rw [toList_obj, List.cons_append, List.append_assoc]
  have hself : Keyed.ofPairs fields = fields := Keyed.ofPairs_of_nodup hkeys
  cases fields with
  | nil => exact reads_obj (readsFields_none depth rest) rfl hself
  | cons field fields =>
    obtain ⟨key, v⟩ := field
    have hfields := readsFields_written asciiOnly h true rest
    have hbegins := (beginsValue_joined (beginsValue_field asciiOnly key v)
      (writeFields asciiOnly fields)).append ('\x7d' :: rest)
    exact reads_obj hfields hbegins.skipBlanks_eq hself

/-- A leaf whose text is a word. -/
theorem returns_word {v : Json} (hv : v.Bare)
    (h : ∀ rest, takeWord? (v.content.toList ++ rest) = some (v, rest)) (depth : Nat) :
    v.Returns asciiOnly depth := by
  intro rest _
  rw [write_of_bare asciiOnly hv]
  exact reads_word ((begins_content hv).append rest) (h rest) depth

theorem returns_float (x : Float) (depth : Nat) : (Json.float x).Returns asciiOnly depth := by
  intro rest hrest
  have hbare : (Json.float x).Bare := ⟨rfl, by simp⟩
  rw [write_of_bare asciiOnly hbare]
  exact reads_float x depth hrest

/-- **The text of a legible value is read as that value.** -/
theorem returns_of_legible {v : Json} {depth : Nat} (h : v.Legible depth) :
    v.Returns asciiOnly depth := by
  -- each container takes one level of the depth that its own values are left with
  induction v using tree_induction generalizing depth with
  | leaf leaf hleaf =>
    cases leaf with
    | null => exact returns_word asciiOnly (v := .null) ⟨rfl, nofun⟩ (fun rest => rfl) depth
    | bool b =>
      cases b with
      | true => exact returns_word asciiOnly (v := .bool true) ⟨rfl, nofun⟩ (fun rest => rfl) depth
      | false => exact returns_word asciiOnly (v := .bool false) ⟨rfl, nofun⟩ (fun rest => rfl) depth
    | int n => exact fun rest hrest => reads_int (h.digits [] n (.here _)) depth hrest
    | float x => exact returns_float asciiOnly x depth
    | str s => exact returns_str asciiOnly s depth
    | arr items => cases hleaf
    | obj fields => cases hleaf
  | arr items ih =>
    obtain ⟨d, rfl⟩ := h.exists_depth rfl
    exact returns_arr asciiOnly fun v hin => ih v hin (legible_arr_iff.mp h v hin)
  | obj fields ih =>
    obtain ⟨d, rfl⟩ := h.exists_depth rfl
    obtain ⟨hkeys, hfields⟩ := legible_obj_iff.mp h
    exact returns_obj asciiOnly hkeys fun field hin => ih field hin (hfields field hin)

/-- **What is written is read as what it was.** -/
theorem read?_written {v : Json} (h : v.Legible maxNesting) :
    read? (v.write asciiOnly) = some v := by
  have hbegins := beginsValue_written asciiOnly v
  have hreads := returns_of_legible asciiOnly h [] nofun
  rw [List.append_nil, ← hbegins.skipBlanks_eq] at hreads
  rw [← String.ofList_toList (s := v.write asciiOnly)]
  refine read?_of_reads ?_ hreads
  obtain ⟨c, r, hc, -, -, -, hmark⟩ := hbegins
  rw [hc]
  simpa using hmark

end Json

end EventCheck
