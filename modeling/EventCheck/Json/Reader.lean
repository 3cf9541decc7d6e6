import EventCheck.Json.Basic
import EventCheck.Number.Binary64

/-! # Reading JSON texts

    `Json.read` takes a whole text and gives the value or the first fault.

    - Blanks are space, tab, line feed and carriage return; `NaN`, `Infinity`
      and `-Infinity` are numbers; of repeated keys the last value counts.
    - A whole number may have 4300 digits and containers may nest 990 deep.
    - A half of a surrogate pair whose other half is missing is read as U+FFFD, since no
      `Char` is such a half. A reader that keeps these halves would tell them apart, so what
      is proved of a text that has one holds of what it is read as here.
    - Every step returns what it did not take together with a proof that value
      and rest fit into what it was given. So the value of a text is never
      larger than the text (`Json.size_le_of_read`).
-/

namespace EventCheck

namespace Json

/-! ## Faults -/

/-- Which of the two containers. -/
inductive Container where
  | array | object
  deriving DecidableEq, Repr

/-- Why a text is not JSON. -/
inductive Fault where
  | noValue | noName | noColon | noComma | extraData
  | unterminated | controlCharacter | badEscape | badUnicode
  | byteOrderMark
  | tooManyDigits (count : Nat)
  | tooDeep (container : Container)
  deriving DecidableEq, Repr

/-- A fault and how many characters were left where it was found. -/
structure Stop where
  fault : Fault
  left : Nat
  deriving DecidableEq, Repr

/-- A fault and its place, counted in characters from the start of the text. -/
structure ReadError where
  fault : Fault
  position : Nat
  line : Nat
  column : Nat
  deriving DecidableEq, Repr

def Fault.text : Fault → String
  | .noValue => "Expecting value"
  | .noName => "Expecting property name enclosed in double quotes"
  | .noColon => "Expecting ':' delimiter"
  | .noComma => "Expecting ',' delimiter"
  | .extraData => "Extra data"
  | .unterminated => "Unterminated string starting at"
  | .controlCharacter => "Invalid control character at"
  | .badEscape => "Invalid \\escape"
  | .badUnicode => "Invalid \\uXXXX escape"
  | .byteOrderMark => "Unexpected UTF-8 BOM (decode using utf-8-sig)"
  | .tooManyDigits count =>
    "Exceeds the limit (4300 digits) for integer string conversion: value has "
      ++ toString count ++ " digits; use sys.set_int_max_str_digits() to increase the limit"
  | .tooDeep .array =>
    "maximum recursion depth exceeded while decoding a JSON array from a unicode string"
  | .tooDeep .object =>
    "maximum recursion depth exceeded while decoding a JSON object from a unicode string"

/-- The fault in words. Faults of syntax name their place; limits do not. -/
def ReadError.message (e : ReadError) : String :=
  match e.fault with
  | .tooManyDigits _ | .tooDeep _ => e.fault.text
  | _ => e.fault.text ++ ": line " ++ toString e.line ++ " column " ++ toString e.column
      ++ " (char " ++ toString e.position ++ ")"

/-- Is it the nesting limit that the text broke? -/
def ReadError.isTooDeep (e : ReadError) : Bool :=
  match e.fault with
  | .tooDeep _ => true
  | _ => false

/-- The place before which `left` characters of the text remain. Lines end at line feeds. -/
def ReadError.at (text : List Char) (stop : Stop) : ReadError :=
  let position := text.length - stop.left
  let before := text.take position
  { fault := stop.fault
    position := position
    line := (before.filter (· == '\n')).length + 1
    column := (before.reverse.takeWhile (· != '\n')).length + 1 }

/-! ## Strings -/

def isBlank (c : Char) : Bool := c == ' ' || c == '\t' || c == '\n' || c == '\r'

def skipBlanks (cs : List Char) : List Char := cs.dropWhile isBlank

theorem length_skipBlanks_le (cs : List Char) : (skipBlanks cs).length ≤ cs.length :=
  (List.dropWhile_sublist isBlank).length_le

def hexDigit? (c : Char) : Option Nat :=
  if '0' ≤ c ∧ c ≤ '9' then some (c.toNat - 48)
  else if 'a' ≤ c ∧ c ≤ 'f' then some (c.toNat - 87)
  else if 'A' ≤ c ∧ c ≤ 'F' then some (c.toNat - 55)
  else none

/-- The number that four hexadecimal digits write. -/
def hexUnit? (a b c d : Char) : Option Nat := do
  let a ← hexDigit? a
  let b ← hexDigit? b
  let c ← hexDigit? c
  let d ← hexDigit? d
  pure (((a * 16 + b) * 16 + c) * 16 + d)

/-- The character that a backslash and this letter stand for. -/
def simpleEscape? : Char → Option Char
  | '"' => some '"'
  | '\\' => some '\\'
  | '/' => some '/'
  | 'b' => some '\x08'
  | 'f' => some '\x0c'
  | 'n' => some '\n'
  | 'r' => some '\r'
  | 't' => some '\t'
  | _ => none

/-- What stands for a half of a surrogate pair whose other half is missing. -/
def replacement : Char := '\ufffd'

/-- The character of a unit, or the replacement if the unit is half of a pair. -/
def unitChar (u : Nat) : Char :=
  if 0xD800 ≤ u && u < 0xE000 then replacement else Char.ofNat u

/-- The low half of a pair that is written next, and what follows it. At least one more character
    has to follow; another unit than a low half stays where it is. -/
def lowHalf (cs : List Char) : Except Stop (Option (Nat × List Char)) :=
  match cs with
  | '\\' :: 'u' :: a :: b :: c :: d :: r =>
    if r.isEmpty then .ok none
    else
      match hexUnit? a b c d with
      | none => .error ⟨.badUnicode, r.length + 5⟩
      | some u => .ok (if 0xDC00 ≤ u && u < 0xE000 then some (u, r) else none)
  | _ => .ok none

/-- What an escape stands for, given the characters behind its letter `u`, and what follows it.
    Two units make one character when they are the two halves of a pair. At least one more
    character has to follow. -/
def unicodeEscape (cs : List Char) : Except Stop (Char × List Char) :=
  match cs with
  | a :: b :: c :: d :: r =>
    if r.isEmpty then .error ⟨.badUnicode, r.length + 5⟩
    else
      match hexUnit? a b c d with
      | none => .error ⟨.badUnicode, r.length + 5⟩
      | some u =>
        if 0xD800 ≤ u && u < 0xDC00 then
          match lowHalf r with
          | .error stop => .error stop
          | .ok (some (low, r')) =>
            .ok (Char.ofNat (0x10000 + (u - 0xD800) * 0x400 + (low - 0xDC00)), r')
          | .ok none => .ok (unitChar u, r)
        else .ok (unitChar u, r)
  | _ => .error ⟨.badUnicode, cs.length + 1⟩

theorem length_lt_of_lowHalf {cs r : List Char} {u : Nat} (h : lowHalf cs = .ok (some (u, r))) :
    r.length < cs.length := by
  unfold lowHalf at h
  split at h
  · split at h
    · cases h
    · split at h
      · cases h
      · split at h <;> cases h
        simp only [List.length_cons]; omega
  · cases h

theorem length_lt_of_unicodeEscape {cs r : List Char} {c : Char}
    (h : unicodeEscape cs = .ok (c, r)) : r.length < cs.length := by
  unfold unicodeEscape at h
  split at h
  · split at h
    · cases h
    · split at h
      · cases h
      · split at h
        · split at h
          · cases h
          · next hl =>
            simp only [Except.ok.injEq, Prod.mk.injEq] at h
            have := length_lt_of_lowHalf hl
            rw [← h.2]
            simp only [List.length_cons]; omega
          · cases h; simp only [List.length_cons]; omega
        · cases h; simp only [List.length_cons]; omega
  · cases h

/-- The characters of a string up to its closing quote. `opening` is how many characters were left
    at the opening quote. -/
def readChars (opening : Nat) (cs : List Char) :
    Except Stop { r : List Char × List Char // r.1.length + r.2.length < cs.length } :=
  match cs with
  | [] => .error ⟨.unterminated, opening⟩
  | '"' :: r => .ok ⟨([], r), by simp⟩
  | '\\' :: 'u' :: r =>
    match hu : unicodeEscape r with
    | .error stop => .error stop
    | .ok (c, r') =>
      have h := length_lt_of_unicodeEscape hu
      match readChars opening r' with
      | .error stop => .error stop
      | .ok ⟨(s, rest), h'⟩ =>
        .ok ⟨(c :: s, rest), by simp only [List.length_cons] at *; omega⟩
  | '\\' :: c :: r =>
    match simpleEscape? c with
    | none => .error ⟨.badEscape, r.length + 2⟩
    | some c =>
      match readChars opening r with
      | .error stop => .error stop
      | .ok ⟨(s, rest), h⟩ =>
        .ok ⟨(c :: s, rest), by simp only [List.length_cons] at *; omega⟩
  | ['\\'] => .error ⟨.unterminated, opening⟩
  | c :: r =>
    if c.toNat < 0x20 then .error ⟨.controlCharacter, r.length + 1⟩
    else
      match readChars opening r with
      | .error stop => .error stop
      | .ok ⟨(s, rest), h⟩ =>
        .ok ⟨(c :: s, rest), by simp only [List.length_cons] at *; omega⟩
  termination_by cs.length
  decreasing_by all_goals simp only [List.length_cons] at *; omega

/-! ## Numbers -/

def isDigit (c : Char) : Bool := '0' ≤ c && c ≤ '9'

/-- The whole number that a run of digits writes. -/
def digitsValue (ds : List Char) : Nat :=
  ds.foldl (fun n c => n * 10 + (c.toNat - 48)) 0

/-- The text of a number, split at its point and at its exponent. -/
structure NumberText where
  negative : Bool
  whole : List Char
  fraction : Option (List Char)
  exponent : Option (Bool × List Char)

def NumberText.value (t : NumberText) : Except Fault Json :=
  match t.fraction, t.exponent with
  | none, none =>
    if maxDigits < t.whole.length then .error (.tooManyDigits t.whole.length)
    else
      let n := digitsValue t.whole
      .ok (.int (if t.negative then -n else n))
  | fraction, exponent =>
    let places := fraction.getD []
    let power : Int :=
      match exponent with
      | none => 0
      | some (negative, ds) => if negative then -(digitsValue ds : Int) else digitsValue ds
    .ok (.float (Binary64.ofDecimal t.negative (digitsValue (t.whole ++ places))
      (power - places.length)))

/-- A point with at least one digit behind it, and what follows. -/
def takeFraction (cs : List Char) : Option (List Char) × List Char :=
  match cs with
  | '.' :: r =>
    let ds := r.takeWhile isDigit
    if ds.isEmpty then (none, cs) else (some ds, r.dropWhile isDigit)
  | _ => (none, cs)

/-- The letter, a sign if there is one, and at least one digit, and what follows. -/
def takeExponent (cs : List Char) : Option (Bool × List Char) × List Char :=
  match cs with
  | e :: r =>
    if e == 'e' || e == 'E' then
      let (negative, r) :=
        match r with
        | '+' :: r => (false, r)
        | '-' :: r => (true, r)
        | _ => (false, r)
      let ds := r.takeWhile isDigit
      if ds.isEmpty then (none, cs) else (some (negative, ds), r.dropWhile isDigit)
    else (none, cs)
  | [] => (none, cs)

/-- The longest number at the front, and what follows. A number does not begin with a zero unless
    that is all of its whole part. -/
def takeNumber? (cs : List Char) : Option (NumberText × List Char) :=
  let (negative, r) :=
    match cs with
    | '-' :: r => (true, r)
    | _ => (false, cs)
  let whole? :=
    match r with
    | '0' :: r => some (['0'], r)
    | c :: _ => if isDigit c then some (r.takeWhile isDigit, r.dropWhile isDigit) else none
    | [] => none
  whole?.map fun (whole, r) =>
    let (fraction, r) := takeFraction r
    let (exponent, r) := takeExponent r
    (⟨negative, whole, fraction, exponent⟩, r)

theorem length_takeFraction_le (cs : List Char) : (takeFraction cs).2.length ≤ cs.length := by
  unfold takeFraction
  split
  · next r =>
    have := (List.dropWhile_sublist (l := r) isDigit).length_le
    dsimp only
    split <;> simp only [List.length_cons] <;> omega
  · simp

theorem length_takeExponent_le (cs : List Char) : (takeExponent cs).2.length ≤ cs.length := by
  unfold takeExponent
  split
  · next e r =>
    split
    · split
      next n r' h =>
        have hr : r'.length ≤ r.length := by
          split at h <;> cases h <;> simp
        have := (List.dropWhile_sublist (l := r') isDigit).length_le
        dsimp only
        split <;> simp only [List.length_cons] <;> omega
    · simp
  · simp

/-- A number takes at least one character. -/
theorem length_lt_of_takeNumber? {cs r : List Char} {t : NumberText}
    (h : takeNumber? cs = some (t, r)) : r.length < cs.length := by
  unfold takeNumber? at h
  split at h
  next negative r0 h0 =>
    have hr0 : r0.length ≤ cs.length := by
      split at h0 <;> cases h0 <;> simp
    obtain ⟨⟨whole, r1⟩, hw, hrest⟩ := Option.map_eq_some_iff.1 h
    have hr1 : r1.length < r0.length := by
      split at hw
      · cases hw; simp
      · next c tail hc =>
        split at hw
        · next hd =>
          cases hw
          rw [List.dropWhile_cons_of_pos hd]
          have := (List.dropWhile_sublist (l := tail) isDigit).length_le
          simp only [List.length_cons]; omega
        · cases hw
      · cases hw
    simp only [Prod.mk.injEq] at hrest
    have h2 := length_takeFraction_le r1
    have h3 := length_takeExponent_le (takeFraction r1).2
    rw [← hrest.2]
    omega

/-! ## Values -/

/-- The words that are values, and what follows. -/
def takeWord? (cs : List Char) : Option (Json × List Char) :=
  match cs with
  | 'n' :: 'u' :: 'l' :: 'l' :: r => some (.null, r)
  | 't' :: 'r' :: 'u' :: 'e' :: r => some (.bool true, r)
  | 'f' :: 'a' :: 'l' :: 's' :: 'e' :: r => some (.bool false, r)
  | 'N' :: 'a' :: 'N' :: r => some (.float (0.0 / 0.0), r)
  | 'I' :: 'n' :: 'f' :: 'i' :: 'n' :: 'i' :: 't' :: 'y' :: r => some (.float (1.0 / 0.0), r)
  | '-' :: 'I' :: 'n' :: 'f' :: 'i' :: 'n' :: 'i' :: 't' :: 'y' :: r =>
    some (.float (-1.0 / 0.0), r)
  | _ => none

theorem size_le_of_takeWord? {cs r : List Char} {v : Json} (h : takeWord? cs = some (v, r)) :
    v.size + r.length ≤ cs.length := by
  unfold takeWord? at h
  split at h <;> cases h <;> simp only [size, List.length_cons] <;> omega

/-- A leaf that is no string, and what follows. -/
def readPlain (cs : List Char) :
    Except Stop { r : Json × List Char // r.1.size + r.2.length ≤ cs.length } :=
  match hw : takeWord? cs with
  | some (v, r) => .ok ⟨(v, r), size_le_of_takeWord? hw⟩
  | none =>
    match hn : takeNumber? cs with
    | none => .error ⟨.noValue, cs.length⟩
    | some (t, r) =>
      match hv : t.value with
      | .error fault => .error ⟨fault, cs.length⟩
      | .ok v => .ok ⟨(v, r), by
          have h := length_lt_of_takeNumber? hn
          have hs : v.size = 1 := by
            unfold NumberText.value at hv
            split at hv
            · split at hv
              · cases hv
              · cases hv; simp [size]
            · cases hv; simp [size]
          simp only [hs]; omega⟩

/-! ## Delimiters -/

/-- What stands behind an item: the end of its container, or a comma. -/
inductive Delimiter where
  | closed (rest : List Char)
  | more (rest : List Char)

/-- The end of a container that has no items. -/
def closing? (close : Char) (first : Bool) : List Char → Option (List Char)
  | c :: r => if first && c == close then some r else none
  | [] => none

def delimiter (close : Char) (cs : List Char) : Except Stop Delimiter :=
  match cs with
  | c :: r =>
    if c == close then .ok (.closed r)
    else if c == ',' then .ok (.more r)
    else .error ⟨.noComma, cs.length⟩
  | [] => .error ⟨.noComma, 0⟩

theorem length_lt_of_closing? {close : Char} {first : Bool} {cs r : List Char}
    (h : closing? close first cs = some r) : r.length < cs.length := by
  unfold closing? at h
  split at h
  · split at h <;> cases h; simp
  · cases h

theorem length_lt_of_delimiter_closed {close : Char} {cs r : List Char}
    (h : delimiter close cs = .ok (.closed r)) : r.length < cs.length := by
  unfold delimiter at h
  split at h
  · split at h
    · cases h; simp
    · split at h <;> cases h
  · cases h

theorem length_lt_of_delimiter_more {close : Char} {cs r : List Char}
    (h : delimiter close cs = .ok (.more r)) : r.length < cs.length := by
  unfold delimiter at h
  split at h
  · split at h
    · cases h
    · split at h <;> cases h; simp
  · cases h

/-- A key with its colon, and what follows the blanks behind that. -/
def readKey (cs : List Char) :
    Except Stop { r : String × List Char // r.1.length + r.2.length + 2 < cs.length } :=
  match cs with
  | '"' :: r =>
    match readChars (r.length + 1) r with
    | .error stop => .error stop
    | .ok ⟨(s, r1), h⟩ =>
      match hc : skipBlanks r1 with
      | ':' :: r2 =>
        .ok ⟨(String.ofList s, skipBlanks r2), by
          have h1 := length_skipBlanks_le r1
          have h2 := length_skipBlanks_le r2
          rw [hc] at h1
          simp only [String.length_ofList, List.length_cons] at *; omega⟩
      | other => .error ⟨.noColon, other.length⟩
  | _ => .error ⟨.noName, cs.length⟩

/-- A last field is smaller than what it was read from. -/
theorem size_last_lt {cs r r' rest : List Char} {key : String} {v : Json}
    (hkey : key.length + r.length + 2 < cs.length) (hv : v.size + r'.length ≤ r.length)
    (hd : delimiter '\x7d' (skipBlanks r') = .ok (.closed rest)) :
    sizeFields [(key, v)] + rest.length < cs.length := by
  have := length_skipBlanks_le r'
  have := length_lt_of_delimiter_closed hd
  simp only [sizeFields]; omega

/-- A field and the fields behind it are smaller than what they were read from. -/
theorem size_cons_lt {cs r r' next rest : List Char} {key : String} {v : Json}
    {pairs : List (String × Json)} (hkey : key.length + r.length + 2 < cs.length)
    (hv : v.size + r'.length ≤ r.length)
    (hd : delimiter '\x7d' (skipBlanks r') = .ok (.more next))
    (hp : sizeFields pairs + rest.length < (skipBlanks next).length) :
    sizeFields ((key, v) :: pairs) + rest.length < cs.length := by
  have := length_skipBlanks_le r'
  have := length_lt_of_delimiter_more hd
  have := length_skipBlanks_le next
  simp only [sizeFields]; omega

mutual

/-- The value at the front, which may hold containers `depth` deep, and what follows it. -/
def readValue (depth : Nat) (cs : List Char) :
    Except Stop { r : Json × List Char // r.1.size + r.2.length ≤ cs.length } :=
  match cs with
  | '"' :: r =>
    match readChars (r.length + 1) r with
    | .error stop => .error stop
    | .ok ⟨(s, rest), h⟩ =>
      .ok ⟨(.str (String.ofList s), rest), by
        simp only [size, String.length_ofList, List.length_cons] at *; omega⟩
  | '[' :: r =>
    match depth with
    | 0 => .error ⟨.tooDeep .array, r.length + 1⟩
    | depth + 1 =>
      match readItems depth true (skipBlanks r) with
      | .error stop => .error stop
      | .ok ⟨(items, rest), h⟩ =>
        .ok ⟨(.arr items, rest), by
          have := length_skipBlanks_le r
          simp only [size, List.length_cons] at *; omega⟩
  | '{' :: r =>
    match depth with
    | 0 => .error ⟨.tooDeep .object, r.length + 1⟩
    | depth + 1 =>
      match readFields depth true (skipBlanks r) with
      | .error stop => .error stop
      | .ok ⟨(pairs, rest), h⟩ =>
        .ok ⟨(.obj (Keyed.ofPairs pairs), rest), by
          have := length_skipBlanks_le r
          have := Fields.size_ofPairs_le pairs
          simp only [size, List.length_cons] at *; omega⟩
  | cs => readPlain cs
  termination_by (cs.length, 0)
  decreasing_by
    all_goals
      have := length_skipBlanks_le r
      exact Prod.Lex.left _ _ (by simp only [List.length_cons]; omega)

/-- The items of an array up to its closing bracket, which may come at once in an array that has
    no items yet. -/
def readItems (depth : Nat) (first : Bool) (cs : List Char) :
    Except Stop { r : List Json × List Char // sizeItems r.1 + r.2.length < cs.length } :=
  match hc : closing? ']' first cs with
  | some r => .ok ⟨([], r), by simpa [sizeItems] using length_lt_of_closing? hc⟩
  | none =>
    match readValue depth cs with
    | .error stop => .error stop
    | .ok ⟨(v, r), h⟩ =>
      match hd : delimiter ']' (skipBlanks r) with
      | .error stop => .error stop
      | .ok (.closed rest) =>
        .ok ⟨([v], rest), by
          have := length_skipBlanks_le r
          have := length_lt_of_delimiter_closed hd
          simp only [sizeItems] at *; omega⟩
      | .ok (.more next) =>
        have := length_skipBlanks_le r
        have := length_lt_of_delimiter_more hd
        have := one_le_size v
        match readItems depth false (skipBlanks next) with
        | .error stop => .error stop
        | .ok ⟨(items, rest), h'⟩ =>
          .ok ⟨(v :: items, rest), by
            have := length_skipBlanks_le next
            simp only [sizeItems] at *; omega⟩
  termination_by (cs.length, 1)
  decreasing_by
    · exact Prod.Lex.right _ (by decide)
    · have := length_skipBlanks_le next
      exact Prod.Lex.left _ _ (by simp only at h; omega)

/-- The fields of an object up to its closing brace, which may come at once in an object that has
    no fields yet. -/
def readFields (depth : Nat) (first : Bool) (cs : List Char) :
    Except Stop { r : List (String × Json) × List Char //
      sizeFields r.1 + r.2.length < cs.length } :=
  match hc : closing? '}' first cs with
  | some r => .ok ⟨([], r), by simpa [sizeFields] using length_lt_of_closing? hc⟩
  | none =>
    match readKey cs with
    | .error stop => .error stop
    | .ok ⟨(key, r), hkey⟩ =>
      match readValue depth r with
      | .error stop => .error stop
      | .ok ⟨(v, r'), h⟩ =>
        match hd : delimiter '}' (skipBlanks r') with
        | .error stop => .error stop
        | .ok (.closed rest) =>
          .ok ⟨([(key, v)], rest), size_last_lt hkey h hd⟩
        | .ok (.more next) =>
          match readFields depth false (skipBlanks next) with
          | .error stop => .error stop
          | .ok ⟨(pairs, rest), h'⟩ =>
            .ok ⟨((key, v) :: pairs, rest), size_cons_lt hkey h hd h'⟩
  termination_by (cs.length, 1)
  decreasing_by
    · exact Prod.Lex.left _ _ (by simp only at hkey; omega)
    · have := length_skipBlanks_le r'
      have := length_lt_of_delimiter_more hd
      have := length_skipBlanks_le next
      exact Prod.Lex.left _ _ (by simp only at h hkey; omega)

end

/-- How deep containers may nest in a text. -/
def maxNesting : Nat := 990

/-- The value of a whole text with blanks around it. -/
def readText (cs : List Char) : Except Stop Json :=
  if cs.head? = some '\ufeff' then .error ⟨.byteOrderMark, cs.length⟩
  else
    match readValue maxNesting (skipBlanks cs) with
    | .error stop => .error stop
    | .ok ⟨(v, r), _⟩ =>
      if (skipBlanks r).isEmpty then .ok v else .error ⟨.extraData, (skipBlanks r).length⟩

/-- The value that a text writes. -/
def read (text : String) : Except ReadError Json :=
  match readText text.toList with
  | .ok v => .ok v
  | .error stop => .error (ReadError.at text.toList stop)

/-- The value that a text writes, if it writes one. -/
def read? (text : String) : Option Json := (read text).toOption

/-- Decoding shrinks: the value of a text is no larger than the text is long. -/
theorem size_le_of_read {text : String} {v : Json} (h : read text = .ok v) :
    v.size ≤ text.length := by
  unfold read at h
  split at h
  · next w hw =>
    cases h
    unfold readText at hw
    split at hw
    · cases hw
    · split at hw
      · cases hw
      · next v' r hb _ =>
        split at hw
        · cases hw
          have := length_skipBlanks_le text.toList
          rw [String.length_toList] at this
          simp only at hb
          omega
        · cases hw
  · cases h

theorem size_le_of_read? {text : String} {v : Json} (h : read? text = some v) :
    v.size ≤ text.length := by
  unfold read? at h
  cases hr : read text with
  | error e => rw [hr] at h; cases h
  | ok w => rw [hr] at h; cases h; exact size_le_of_read hr

end Json

end EventCheck
