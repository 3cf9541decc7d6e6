import EventCheck.Proofs.Json.LineEnds
import EventCheck.Proofs.Json.Values
import EventCheck.Proofs.Pattern.Memory
import EventCheck.Proofs.Text.Utf8

/-! # What a source of a pattern gives

    A text, a file or a mapping gives the fields of a pattern, or an error that calls
    the pattern malformed (`Settles`).

    - `ofText_eq_ok_iff`: a text gives what it writes, if that is an object.
    - `load_file_ok_iff`: a file gives what the text in it writes, if its bytes encode
      one. How the lines of the file end makes no difference.
    - `load_settles`: texts, files and mappings settle, but for one sort of file. A file
      whose bytes encode no text ends with an error that says nothing of a pattern.
-/

namespace EventCheck

namespace Pattern

/-- **The answer settles** what the pattern is: it is the fields of one, without a key that comes
    twice at any depth, or it says that the pattern is malformed. -/
def Settles : Except Error (Option Fields) → Prop
  | .ok (some p) => (Json.obj p).Sound
  | .ok none => False
  | .error e => e.isMalformed = true

/-! ## Section 1: Texts -/

/-- **A text gives the fields of the object that it writes.** -/
theorem ofText_eq_ok_iff {origin : Origin} {text : String} {p : Fields} :
    ofText origin text = .ok p ↔ Json.read? text = some (.obj p) := by
  unfold ofText Json.read?
  cases Json.read text with
  | error e => exact ⟨nofun, nofun⟩
  | ok v =>
    cases v with
    | obj fields =>
      constructor
      · rintro ⟨rfl⟩
        rfl
      · rintro ⟨rfl⟩
        rfl
    | _ => exact ⟨nofun, nofun⟩

/-- A text that gives no pattern is called malformed: it is no JSON, it nests too deep, or it writes
    something else. -/
theorem malformed_of_ofText {origin : Origin} {text : String} {e : Error}
    (h : ofText origin text = .error e) : e.isMalformed = true := by
  unfold ofText at h
  split at h
  · cases h
    split <;> rfl
  · cases h
  · cases h
    rfl

theorem settles_ofText (origin : Origin) (text : String) :
    Settles ((ofText origin text).map some) := by
  cases h : ofText origin text with
  | ok p => exact Json.sound_of_read? (ofText_eq_ok_iff.mp h)
  | error e => exact malformed_of_ofText h

theorem map_some_eq_ok_iff {answer : Except Error Fields} {p : Fields} :
    answer.map some = .ok (some p) ↔ answer = .ok p := by
  cases answer with
  | error e => exact ⟨nofun, nofun⟩
  | ok q =>
    constructor
    · rintro ⟨rfl⟩
      rfl
    · rintro ⟨rfl⟩
      rfl

theorem load_text_ok_iff {text : String} {p : Fields} :
    load (.text text) = .ok (some p) ↔ Json.read? text = some (.obj p) :=
  map_some_eq_ok_iff.trans ofText_eq_ok_iff

/-! ## Section 2: Files -/

/-- A file is taken for the text that its bytes encode. -/
theorem load_file_encoded (path text : String) : load (.file path (.holds (Utf8.encode text))) =
    (ofText (.file path) (Lines.unify text)).map some := by
  rw [load, Utf8.strict_eq_ok_iff.mpr rfl]

/-- A file whose bytes encode no text is not even said to be malformed. -/
theorem load_file_undecodable {bytes : List UInt8} (h : ¬ ∃ text, Utf8.encode text = bytes)
    (path : String) : ∃ e, Utf8.strict bytes = .error e ∧
      load (.file path (.holds bytes)) = .error (.undecodable e) := by
  cases hread : Utf8.strict bytes with
  | ok text => exact absurd ⟨text, Utf8.strict_eq_ok_iff.mp hread⟩ h
  | error e => exact ⟨e, rfl, by rw [load, hread]⟩

/-- **A file gives the fields of the object that it writes**, in whichever way its lines end. -/
theorem load_file_ok_iff {path : String} {bytes : List UInt8} {p : Fields} :
    load (.file path (.holds bytes)) = .ok (some p) ↔
      ∃ text, Utf8.encode text = bytes ∧ Json.read? text = some (.obj p) := by
  by_cases hbytes : ∃ text, Utf8.encode text = bytes
  · obtain ⟨text, rfl⟩ := hbytes
    rw [load_file_encoded, map_some_eq_ok_iff, ofText_eq_ok_iff, Json.read?_unify]
    constructor
    · exact fun h => ⟨text, rfl, h⟩
    · rintro ⟨text', hsame, h⟩
      -- bytes encode one text at most
      have hok : Utf8.strict (Utf8.encode text) = .ok text := Utf8.strict_eq_ok_iff.mpr rfl
      rw [← hsame, Utf8.strict_eq_ok_iff.mpr rfl] at hok
      cases hok
      exact h
  · obtain ⟨e, -, hload⟩ := load_file_undecodable hbytes path
    rw [hload]
    constructor
    · nofun
    · rintro ⟨text, hsame, -⟩
      exact absurd ⟨text, hsame⟩ hbytes

/-! ## Section 3: Mappings -/

/-- What a mapping gives is sound, or the mapping is called malformed, whatever lies in memory. -/
theorem settles_ofMemory {ι : Type} (memory : Memory ι) (entries : List (ι × ι)) :
    Settles ((ofMemory memory entries).map some) := by
  unfold ofMemory
  cases h : memory.fields? (memory.json? maxLevels) entries with
  | none => rfl
  | some p =>
    obtain ⟨hkeys, hvalues⟩ := Memory.fields?_cases h
    refine ⟨hkeys, Json.soundFields_iff.mpr fun field hin => ?_⟩
    obtain ⟨place, hv⟩ := hvalues field hin
    exact (Memory.proper_json? hv).sound

/-! ## Section 4: Sources -/

/-- **Texts, files and mappings settle what the pattern is**, but for a file whose bytes encode no
    text: that file ends with an error that says nothing of a pattern. A text or a file gives a
    pattern exactly if it writes an object, and gives the fields of that object. A mapping with
    strings as keys is taken as it lies in memory. -/
theorem load_settles {ι : Type} (memory : Memory ι) (entries : List (ι × ι)) (text path : String)
    (bytes : List UInt8) :
    (Settles (load (.text text)) ∧
      ∀ p, load (.text text) = .ok (some p) ↔ Json.read? text = some (.obj p)) ∧
    Settles (load (.file path .missing)) ∧
    ((Settles (load (.file path (.holds bytes))) ↔ ∃ text, Utf8.encode text = bytes) ∧
      ((∃ text, Utf8.encode text = bytes) ∨
        ∃ e, load (.file path (.holds bytes)) = .error (.undecodable e)) ∧
      ∀ p, load (.file path (.holds bytes)) = .ok (some p) ↔
        ∃ text, Utf8.encode text = bytes ∧ Json.read? text = some (.obj p)) ∧
    Settles ((ofMemory memory entries).map some) ∧
    ∀ fields, (Value.obj fields).Distinct →
      load (.mapping fields) = (ofMemory Value.cell (Value.places fields)).map some := by
  refine ⟨?text, ?missing, ?file, ?mapping, ?strings⟩
  case text => exact ⟨settles_ofText .string text, fun p => load_text_ok_iff⟩
  case missing => rfl
  case mapping => exact settles_ofMemory memory entries
  case strings => exact fun fields h => by rw [load, ofMemory_cell h]
  case file =>
    by_cases hbytes : ∃ text, Utf8.encode text = bytes
    · have hsettles : Settles (load (.file path (.holds bytes))) := by
        obtain ⟨text, rfl⟩ := hbytes
        rw [load_file_encoded]
        exact settles_ofText (.file path) (Lines.unify text)
      exact ⟨iff_of_true hsettles hbytes, .inl hbytes, fun p => load_file_ok_iff⟩
    · obtain ⟨e, -, hload⟩ := load_file_undecodable hbytes path
      have hnot : ¬ Settles (load (.file path (.holds bytes))) := by
        rw [hload]
        exact Bool.false_ne_true
      exact ⟨iff_of_false hnot hbytes, .inr ⟨e, hload⟩, fun p => load_file_ok_iff⟩

/-- A file that holds nothing but a byte that begins no character is not said to be malformed: the
    error is that of reading text. -/
theorem loneByte_escapes :
    load (.file "pattern.json" (.holds [0xFF])) = .error (.undecodable ⟨.badStart, [0xFF], 0⟩) ∧
      ¬ Settles (load (.file "pattern.json" (.holds [0xFF]))) := by
  have hstrict : Utf8.strict [0xFF] = .error ⟨.badStart, [0xFF], 0⟩ := by
    rw [Utf8.strict, Utf8.pieces]
    rfl
  have hload : load (.file "pattern.json" (.holds [0xFF])) =
      .error (.undecodable ⟨.badStart, [0xFF], 0⟩) := by rw [load, hstrict]
  refine ⟨hload, ?_⟩
  rw [hload]
  exact Bool.false_ne_true

end Pattern

end EventCheck
