import EventCheck.Log.Datum
import EventCheck.Proofs.Json.Unbroken

/-! # What the log can write

    - `Text.encode_eq_ok_iff`: a text can be encoded exactly if it is made of characters.
    - `Datum.isWritable_iff`: a datum is writable exactly if it has a JSON text and that
      can be encoded.
    - `Datum.json?` is the JSON value that a writable datum stands for, and `dump_of_json?`
      says that the text of the datum is that of the value.
-/

namespace EventCheck.Log

/-! ## Section 1: Texts -/

namespace Text

theorem chars_map_char (before : Nat) (cs : List Char) :
    chars before (cs.map .char) = .ok cs := by
  induction cs generalizing before with
  | nil => rfl
  | cons c rest ih =>
    rw [List.map_cons, chars, ih]
    rfl

theorem eq_of_chars {before : Nat} {t : Text} {cs : List Char} (h : t.chars before = .ok cs) :
    t = cs.map .char := by
  induction t generalizing before cs with
  | nil =>
    cases h
    rfl
  | cons mark rest ih =>
    cases mark with
    | char c =>
      rw [chars] at h
      cases hrest : chars (before + 1) rest with
      | error halves =>
        rw [hrest] at h
        cases h
      | ok cs' =>
        rw [hrest] at h
        cases h
        rw [List.map_cons, ← ih hrest]
    | half place =>
      rw [chars] at h
      cases h

@[simp] theorem encode_ofString (s : String) : (ofString s).encode = .ok s := by
  rw [encode, ofString, chars_map_char]
  exact congrArg Except.ok String.ofList_toList

/-- **A text can be encoded exactly if it is made of characters.** -/
theorem encode_eq_ok_iff {t : Text} {s : String} : t.encode = .ok s ↔ t = ofString s := by
  constructor
  · intro h
    unfold encode at h
    cases hchars : t.chars 0 with
    | error halves =>
      rw [hchars] at h
      cases h
    | ok cs =>
      rw [hchars] at h
      cases h
      rw [ofString, String.toList_ofList]
      exact eq_of_chars hchars
  · rintro rfl
    exact encode_ofString s

theorem toOption_encode_eq_some_iff {t : Text} {s : String} :
    t.encode.toOption = some s ↔ t = ofString s := by
  rw [← encode_eq_ok_iff]
  cases t.encode with
  | error halves => simp [Except.toOption]
  | ok s' => simp [Except.toOption]

@[simp] theorem isPlain_map_char (cs : List Char) : isPlain (cs.map .char) = true := by
  simp [isPlain, Mark.isChar]

theorem isPlain_ofString (s : String) : (ofString s).isPlain = true := isPlain_map_char s.toList

@[simp] theorem isPlain_nil : isPlain [] = true := rfl

@[simp] theorem isPlain_char_cons (c : Char) (t : Text) :
    isPlain (.char c :: t) = t.isPlain := by
  simp [isPlain, Mark.isChar]

@[simp] theorem isPlain_append (t u : Text) : isPlain (t ++ u) = (t.isPlain && u.isPlain) :=
  List.all_append

theorem isPlain_iff {t : Text} : t.isPlain = true ↔ ∃ s, t = ofString s := by
  constructor
  · intro h
    induction t with
    | nil => exact ⟨"", rfl⟩
    | cons mark rest ih =>
      cases mark with
      | char c =>
        obtain ⟨s, hs⟩ := ih (by simpa using h)
        exact ⟨String.ofList (c :: s.toList), by simp [ofString, hs]⟩
      | half place => simp [isPlain, Mark.isChar] at h
  · rintro ⟨s, rfl⟩
    exact isPlain_ofString s

theorem isPlain_iff_encode {t : Text} : t.isPlain = true ↔ ∃ s, t.encode = .ok s := by
  rw [isPlain_iff]
  simp only [encode_eq_ok_iff]

@[simp] theorem isPlain_joined (parts : List Text) :
    isPlain (joined parts) = parts.all isPlain := by
  induction parts with
  | nil => rfl
  | cons part rest ih =>
    cases rest with
    | nil => simp [joined]
    | cons next rest =>
      rw [joined, isPlain_append, isPlain_char_cons, isPlain_char_cons, ih, List.all_cons (a := part)]
      exact nofun

/-- Quoting a text keeps what cannot be encoded in it. -/
@[simp] theorem isPlain_quoted (t : Text) : isPlain t.quoted = t.isPlain := by
  have hmarks : isPlain (t.flatMap quotedMark) = t.isPlain := by
    induction t with
    | nil => rfl
    | cons mark rest ih =>
      rw [List.flatMap_cons, isPlain_append, ih]
      cases mark with
      | char c => simp [quotedMark]
      | half place => simp [quotedMark, isPlain, Mark.isChar]
  rw [quoted, isPlain_char_cons, isPlain_append, hmarks]
  simp

theorem quoted_ofString (s : String) : (ofString s).quoted = ofString (Json.writeString false s) := by
  have hmarks : (s.toList.map Mark.char).flatMap quotedMark =
      (s.toList.flatMap (Json.writeChar false)).map Mark.char := by
    rw [List.flatMap_map, List.map_flatMap]
    rfl
  rw [quoted, ofString, hmarks, ofString, Json.writeString, String.toList_ofList]
  simp

theorem joined_map_ofString (texts : List String) :
    joined (texts.map ofString) = ofString (", ".intercalate texts) := by
  show _ = (Json.joined texts).map Mark.char
  induction texts with
  | nil => rfl
  | cons text rest ih =>
    cases rest with
    | nil =>
      rw [Json.joined_singleton]
      rfl
    | cons next rest =>
      rw [Json.joined_cons, List.map_append]
      show _ = _ ++ .char ',' :: .char ' ' :: (Json.joined (next :: rest)).map Mark.char
      rw [← ih]
      rfl

end Text

/-! ## Section 2: What is writable -/

theorem isPlain_dumpLeaf (v : Json) : (dumpLeaf v).isPlain = true := Text.isPlain_ofString _

/-- What was dumped can be encoded. -/
def Clear (dumped : Except Obstacle Text) : Prop := ∃ t, dumped = .ok t ∧ t.isPlain = true

theorem clear_ok {t : Text} : Clear (.ok t) ↔ t.isPlain = true := by
  simp [Clear]

theorem not_clear_error {obstacle : Obstacle} : ¬ Clear (.error obstacle) := by
  rintro ⟨t, ht, -⟩
  cases ht

theorem clear_dumpInt {n : Int} : Clear (dumpInt n) ↔ isShort n = true := by
  unfold dumpInt
  by_cases hn : isShort n = true
  · rw [if_pos hn, clear_ok]
    simp [hn, Text.isPlain_ofString]
  · rw [if_neg hn]
    exact iff_of_false not_clear_error hn

theorem Key.isWritable_iff {key : Key} : key.isWritable = true ↔ Clear key.dump := by
  cases key with
  | int n => exact clear_dumpInt.symm
  | other typeName => exact iff_of_false Bool.false_ne_true not_clear_error
  | text t => exact clear_ok.symm
  | _ => exact iff_of_true rfl (clear_ok.mpr (isPlain_dumpLeaf _))

namespace Datum

/-- The parts of a container can be encoded. -/
def AllClear (dumped : Except Obstacle (List Text)) : Prop :=
  ∃ parts, dumped = .ok parts ∧ parts.all Text.isPlain = true

theorem allClear_cons {part : Text} {dumped : Except Obstacle (List Text)} :
    AllClear (dumped.map (part :: ·)) ↔ part.isPlain = true ∧ AllClear dumped := by
  cases dumped with
  | error obstacle => simp [AllClear, Except.map]
  | ok parts => simp [AllClear, Except.map]

/-- Brackets around the parts of a container can always be encoded. -/
theorem clear_map_joined (opening closing : Char) {dumped : Except Obstacle (List Text)} :
    Clear (dumped.map fun parts => .char opening :: (Text.joined parts ++ [.char closing])) ↔
      AllClear dumped := by
  cases dumped with
  | error obstacle => simp [Clear, AllClear, Except.map]
  | ok parts => simp [Clear, AllClear, Except.map]

mutual

/-- **A datum is writable exactly if it has a JSON text that can be encoded.** -/
theorem isWritable_iff : (d : Datum) → (d.isWritable = true ↔ Clear d.dump)
  | .int n => by
    rw [isWritable, dump]
    exact clear_dumpInt.symm
  | .text t => by
    rw [isWritable, dump, clear_ok, Text.isPlain_quoted]
  | .list items => by
    rw [isWritable, dump, clear_map_joined]
    exact areWritable_iff items
  | .dict fields => by
    rw [isWritable, dump, clear_map_joined]
    exact fieldsWritable_iff fields
  | .other (.ok t) => by
    rw [isWritable, dump, clear_ok, Text.isPlain_quoted]
  | .other (.error message) => by
    rw [isWritable, dump]
    exact iff_of_false Bool.false_ne_true not_clear_error
  | .null | .bool _ | .float _ => by
    rw [isWritable, dump]
    exact iff_of_true rfl (clear_ok.mpr (isPlain_dumpLeaf _))

theorem areWritable_iff : (items : List Datum) →
    (areWritable items = true ↔ AllClear (dumpItems items))
  | [] => iff_of_true rfl ⟨[], rfl, rfl⟩
  | d :: rest => by
    have hd := isWritable_iff d
    have hrest := areWritable_iff rest
    rw [areWritable, Bool.and_eq_true, hd, hrest, dumpItems]
    cases d.dump with
    | error obstacle => simp [Clear, AllClear]
    | ok part => rw [clear_ok, allClear_cons]

theorem fieldsWritable_iff : (fields : List (Key × Datum)) →
    (fieldsWritable fields = true ↔ AllClear (dumpFields fields))
  | [] => iff_of_true rfl ⟨[], rfl, rfl⟩
  | (key, d) :: rest => by
    have hd := isWritable_iff d
    have hrest := fieldsWritable_iff rest
    rw [fieldsWritable, Bool.and_eq_true, Bool.and_eq_true, Key.isWritable_iff, hd, hrest, dumpFields]
    cases key.dump with
    | error obstacle => simp [Clear, AllClear]
    | ok name =>
      cases d.dump with
      | error obstacle => simp [Clear, AllClear]
      | ok part =>
        rw [clear_ok, clear_ok, allClear_cons]
        simp [and_assoc]

end

/-! ## Section 3: The value of a datum -/

end Datum

/-- The text of a key. -/
def Key.name? : Key → Option String
  | .null => some "null"
  | .bool b => some ((Json.bool b).writeLeaf false)
  | .int n => if isShort n then some (toString n) else none
  | .float x => some (Shortest.text Json.numberSpelling x)
  | .text t => t.encode.toOption
  | .other _ => none

theorem Key.dump_of_name? {key : Key} {name : String} (h : key.name? = some name) :
    key.dump = .ok (.ofString name) := by
  cases key with
  | int n =>
    rw [name?] at h
    split at h
    · next hn =>
      cases h
      rw [dump, dumpInt, if_pos hn]
    · cases h
  | text t =>
    rw [name?, Text.toOption_encode_eq_some_iff] at h
    rw [dump, h]
  | other typeName => cases h
  | _ =>
    cases h
    rfl

namespace Datum

mutual

/-- The JSON value of a datum, if it is writable. -/
def json? : Datum → Option Json
  | .null => some .null
  | .bool b => some (.bool b)
  | .int n => if isShort n then some (.int n) else none
  | .float x => some (.float x)
  | .text t => t.encode.toOption.map .str
  | .list items => (jsonItems? items).map .arr
  | .dict fields => (jsonFields? fields).map .obj
  | .other (.ok t) => t.encode.toOption.map .str
  | .other (.error _) => none

def jsonItems? : List Datum → Option (List Json)
  | [] => some []
  | d :: rest => d.json?.bind fun v => (jsonItems? rest).map (v :: ·)

def jsonFields? : List (Key × Datum) → Option Fields
  | [] => some []
  | (key, d) :: rest =>
    key.name?.bind fun name => d.json?.bind fun v =>
      (jsonFields? rest).map ((name, v) :: ·)

end

theorem toOption_encode_isSome (t : Text) : t.encode.toOption.isSome = t.isPlain := by
  rw [Bool.eq_iff_iff, Text.isPlain_iff, Option.isSome_iff_exists]
  simp only [Text.toOption_encode_eq_some_iff]

theorem name?_isSome (key : Key) : key.name?.isSome = key.isWritable := by
  cases key with
  | int n =>
    rw [Key.name?, Key.isWritable]
    cases isShort n <;> rfl
  | text t => exact toOption_encode_isSome t
  | _ => rfl

mutual

/-- The data that stand for a JSON value are those that are writable. -/
theorem json?_isSome : (d : Datum) → d.json?.isSome = d.isWritable
  | .int n => by
    rw [json?, isWritable]
    cases isShort n <;> rfl
  | .text t => by
    rw [json?, Option.isSome_map, isWritable, toOption_encode_isSome]
  | .list items => by
    rw [json?, Option.isSome_map, isWritable, jsonItems?_isSome items]
  | .dict fields => by
    rw [json?, Option.isSome_map, isWritable, jsonFields?_isSome fields]
  | .other (.ok t) => by
    rw [json?, Option.isSome_map, isWritable, toOption_encode_isSome]
  | .other (.error _) => rfl
  | .null | .bool _ | .float _ => rfl

theorem jsonItems?_isSome : (items : List Datum) → (jsonItems? items).isSome = areWritable items
  | [] => rfl
  | d :: rest => by
    rw [jsonItems?, areWritable, ← json?_isSome d, ← jsonItems?_isSome rest]
    cases d.json? with
    | none => rfl
    | some v => simp

theorem jsonFields?_isSome : (fields : List (Key × Datum)) →
    (jsonFields? fields).isSome = fieldsWritable fields
  | [] => rfl
  | (key, d) :: rest => by
    rw [jsonFields?, fieldsWritable, ← name?_isSome, ← json?_isSome d, ← jsonFields?_isSome rest]
    cases key.name? with
    | none => rfl
    | some name =>
      cases d.json? with
      | none => rfl
      | some v => simp

end

/-- Brackets around texts that have been put together. -/
theorem bracketed_ofString (opening closing : Char) (texts : List String) :
    Mark.char opening :: (Text.joined (texts.map Text.ofString) ++ [.char closing]) =
      Text.ofString (String.ofList [opening] ++ ", ".intercalate texts ++ String.ofList [closing]) := by
  rw [Text.joined_map_ofString]
  simp [Text.ofString, String.toList_append]

mutual

/-- **The text of a datum is that of the value it stands for.** -/
theorem dump_of_json? : (d : Datum) → ∀ {v : Json}, d.json? = some v →
    d.dump = .ok (.ofString v.text)
  | .null => by
    intro h
    rw [json?] at h
    cases h
    rfl
  | .bool b => by
    intro h
    rw [json?] at h
    cases h
    rfl
  | .float x => by
    intro h
    rw [json?] at h
    cases h
    rfl
  | .int n => by
    intro h
    rw [json?] at h
    split at h
    · next hn =>
      cases h
      rw [dump, dumpInt, if_pos hn]
      rfl
    · cases h
  | .text t => by
    intro h
    rw [json?, Option.map_eq_some_iff] at h
    obtain ⟨s, hs, rfl⟩ := h
    rw [dump, Text.toOption_encode_eq_some_iff.mp hs, Text.quoted_ofString]
    rfl
  | .other (.ok t) => by
    intro h
    rw [json?, Option.map_eq_some_iff] at h
    obtain ⟨s, hs, rfl⟩ := h
    rw [dump, Text.toOption_encode_eq_some_iff.mp hs, Text.quoted_ofString]
    rfl
  | .other (.error _) => by
    intro h
    cases h
  | .list items => by
    intro h
    rw [json?, Option.map_eq_some_iff] at h
    obtain ⟨vs, hvs, rfl⟩ := h
    rw [dump, dumpItems_of_jsonItems? items hvs]
    exact congrArg Except.ok (bracketed_ofString _ _ _)
  | .dict fields => by
    intro h
    rw [json?, Option.map_eq_some_iff] at h
    obtain ⟨vs, hvs, rfl⟩ := h
    rw [dump, dumpFields_of_jsonFields? fields hvs]
    exact congrArg Except.ok (bracketed_ofString _ _ _)

theorem dumpItems_of_jsonItems? : (items : List Datum) → ∀ {vs : List Json},
    jsonItems? items = some vs →
    dumpItems items = .ok ((Json.writeItems false vs).map Text.ofString)
  | [] => by
    intro h
    cases h
    rfl
  | d :: rest => by
    intro h
    simp only [jsonItems?, Option.bind_eq_some_iff, Option.map_eq_some_iff] at h
    obtain ⟨v, hv, vs, hvs, rfl⟩ := h
    rw [dumpItems, dump_of_json? d hv, dumpItems_of_jsonItems? rest hvs]
    rfl

theorem dumpFields_of_jsonFields? : (fields : List (Key × Datum)) → ∀ {vs : Fields},
    jsonFields? fields = some vs →
    dumpFields fields = .ok ((Json.writeFields false vs).map Text.ofString)
  | [] => by
    intro h
    cases h
    rfl
  | (key, d) :: rest => by
    intro h
    simp only [jsonFields?, Option.bind_eq_some_iff, Option.map_eq_some_iff] at h
    obtain ⟨name, hname, v, hv, vs, hvs, rfl⟩ := h
    rw [dumpFields, Key.dump_of_name? hname, dump_of_json? d hv, dumpFields_of_jsonFields? rest hvs]
    dsimp only
    rw [Text.quoted_ofString]
    simp [Except.map, Json.writeFields, Text.ofString, Json.text]

end

end Datum

end EventCheck.Log
