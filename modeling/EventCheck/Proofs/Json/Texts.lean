import EventCheck.Pattern

/-! # Texts and the values that they write

    Each rule of this module says what one construct of a text is read as, whatever
    follows it: `Reads` for values, `ReadsItems` for what stands in an array,
    `ReadsFields` for what stands in an object.

    From the rules follows what deep nesting is read as. `nested n` is an empty array
    inside `n` others. A text of such brackets is read as long as the reader goes as
    deep (`read?_brackets`), which is deeper than storage allows
    (`storable_nested_iff`).
-/

namespace EventCheck

namespace Json

/-! ## Section 1: What is read -/

/-- The value stands at the front of the text, and this follows it. -/
def Reads (depth : Nat) (cs : List Char) (v : Json) (rest : List Char) : Prop :=
  ∃ p, readValue depth cs = .ok p ∧ p.1 = (v, rest)

/-- These items stand at the front of the text up to the end of their array. -/
def ReadsItems (depth : Nat) (first : Bool) (cs : List Char) (items : List Json)
    (rest : List Char) : Prop :=
  ∃ p, readItems depth first cs = .ok p ∧ p.1 = (items, rest)

/-- These fields stand at the front of the text up to the end of their object. -/
def ReadsFields (depth : Nat) (first : Bool) (cs : List Char) (pairs : List (String × Json))
    (rest : List Char) : Prop :=
  ∃ p, readFields depth first cs = .ok p ∧ p.1 = (pairs, rest)

/-- The key and its colon stand at the front of the text. -/
def ReadsKey (cs : List Char) (key : String) (rest : List Char) : Prop :=
  ∃ p, readKey cs = .ok p ∧ p.1 = (key, rest)

/-- The characters stand at the front of the text, up to the quote that ends them. -/
def ReadsChars (opening : Nat) (cs s rest : List Char) : Prop :=
  ∃ p, readChars opening cs = .ok p ∧ p.1 = (s, rest)

/-! ## Section 2: Strings and keys -/

/-- Does the character stand for itself in a string? -/
def isPlain (c : Char) : Bool := c != '"' && c != '\\' && 0x20 ≤ c.toNat

theorem readsChars_end (opening : Nat) (rest : List Char) :
    ReadsChars opening ('"' :: rest) [] rest := by
  unfold ReadsChars
  rw [readChars]
  exact ⟨_, rfl, rfl⟩

/-- A character that stands for itself is read as it is. -/
theorem readsChars_cons {c : Char} (hc : isPlain c = true) {opening : Nat} {cs s rest : List Char}
    (h : ReadsChars opening cs s rest) : ReadsChars opening (c :: cs) (c :: s) rest := by
  obtain ⟨⟨⟨s, rest⟩, hp⟩, hread, heq⟩ := h
  cases heq
  simp only [isPlain, Bool.and_eq_true, bne_iff_ne, ne_eq, decide_eq_true_eq] at hc
  obtain ⟨⟨hquote, hslash⟩, hcontrol⟩ := hc
  unfold ReadsChars
  rw [readChars, if_neg (by omega), hread]
  · exact ⟨_, rfl, rfl⟩
  -- the other cases of the reader begin with a quote or a backslash
  · exact fun hc => hquote hc
  · exact fun r hc => absurd hc hslash
  · exact fun d r hc => absurd hc hslash
  · exact fun hc => absurd hc hslash

/-- An escape of one letter is read as the character that it stands for. -/
theorem readsChars_simple {letter c : Char} (hletter : simpleEscape? letter = some c)
    {opening : Nat} {cs s rest : List Char} (h : ReadsChars opening cs s rest) :
    ReadsChars opening ('\\' :: letter :: cs) (c :: s) rest := by
  obtain ⟨⟨⟨s, rest⟩, hp⟩, hread, heq⟩ := h
  cases heq
  unfold ReadsChars
  rw [readChars]
  · dsimp only
    rw [hletter, hread]
    exact ⟨_, rfl, rfl⟩
  · rintro rfl
    cases hletter

/-- So is an escape by a number. -/
theorem readsChars_unicode {c : Char} {r cs : List Char} (hescape : unicodeEscape r = .ok (c, cs))
    {opening : Nat} {s rest : List Char} (h : ReadsChars opening cs s rest) :
    ReadsChars opening ('\\' :: 'u' :: r) (c :: s) rest := by
  obtain ⟨⟨⟨s, rest⟩, hp⟩, hread, heq⟩ := h
  cases heq
  unfold ReadsChars
  rw [readChars]
  split
  · next hu =>
    rw [hescape] at hu
    cases hu
  · next hu =>
    rw [hescape] at hu
    cases hu
    rw [hread]
    exact ⟨_, rfl, rfl⟩

/-- Characters that stand for themselves are read as they are. -/
theorem readsChars_plain {s : List Char} (hs : s.all isPlain = true) (opening : Nat)
    (rest : List Char) : ReadsChars opening (s ++ '"' :: rest) s rest := by
  induction s with
  | nil => exact readsChars_end opening rest
  | cons c s ih =>
    obtain ⟨hc, hs⟩ : isPlain c = true ∧ s.all isPlain = true := by
      simpa only [List.all_cons, Bool.and_eq_true] using hs
    exact readsChars_cons hc (ih hs)

/-- A string in quotes, with characters that are read as the string. -/
theorem reads_chars {cs s rest : List Char} (h : ∀ opening, ReadsChars opening cs s rest)
    (depth : Nat) : Reads depth ('"' :: cs) (.str (String.ofList s)) rest := by
  obtain ⟨⟨⟨s, rest⟩, hp⟩, hread, heq⟩ := h (cs.length + 1)
  cases heq
  unfold Reads
  rw [readValue, hread]
  exact ⟨_, rfl, rfl⟩

/-- A key in quotes, with its colon behind it. -/
theorem readsKey_chars {cs s rest : List Char} (h : ∀ opening, ReadsChars opening cs s (':' :: rest)) :
    ReadsKey ('"' :: cs) (String.ofList s) (skipBlanks rest) := by
  obtain ⟨⟨⟨s, after⟩, hp⟩, hread, heq⟩ := h (cs.length + 1)
  cases heq
  unfold ReadsKey
  rw [readKey, hread]
  exact ⟨_, rfl, rfl⟩

theorem reads_str {s : List Char} (hs : s.all isPlain = true) (depth : Nat) (rest : List Char) :
    Reads depth ('"' :: (s ++ '"' :: rest)) (.str (String.ofList s)) rest :=
  reads_chars (fun opening => readsChars_plain hs opening rest) depth

theorem readsKey_plain {s : List Char} (hs : s.all isPlain = true) (rest : List Char) :
    ReadsKey ('"' :: (s ++ '"' :: ':' :: rest)) (String.ofList s) (skipBlanks rest) :=
  readsKey_chars fun opening => readsChars_plain hs opening (':' :: rest)

/-! ## Section 3: Containers -/

section Containers

variable {depth : Nat} {first : Bool} {cs r inner after next rest : List Char}

theorem reads_arr {items : List Json} (h : ReadsItems depth true inner items rest)
    (hinner : skipBlanks r = inner) : Reads (depth + 1) ('[' :: r) (.arr items) rest := by
  subst hinner
  obtain ⟨⟨⟨items, rest⟩, hp⟩, hread, heq⟩ := h
  cases heq
  unfold Reads
  rw [readValue, hread]
  exact ⟨_, rfl, rfl⟩

theorem reads_obj {pairs : List (String × Json)} {fields : Fields}
    (h : ReadsFields depth true inner pairs rest) (hinner : skipBlanks r = inner)
    (hfields : Keyed.ofPairs pairs = fields) : Reads (depth + 1) ('{' :: r) (.obj fields) rest := by
  subst hinner hfields
  obtain ⟨⟨⟨pairs, rest⟩, hp⟩, hread, heq⟩ := h
  cases heq
  unfold Reads
  rw [readValue, hread]
  exact ⟨_, rfl, rfl⟩

theorem readsItems_none (depth : Nat) (rest : List Char) :
    ReadsItems depth true (']' :: rest) [] rest := by
  unfold ReadsItems
  rw [readItems]
  split
  · next hc =>
    cases hc
    exact ⟨_, rfl, rfl⟩
  · next hc => cases hc

theorem readsItems_last {v : Json} (hopen : closing? ']' first cs = none)
    (hv : Reads depth cs v after) (hend : delimiter ']' (skipBlanks after) = .ok (.closed rest)) :
    ReadsItems depth first cs [v] rest := by
  obtain ⟨⟨⟨v, after⟩, hp⟩, hread, heq⟩ := hv
  cases heq
  unfold ReadsItems
  rw [readItems]
  split
  · next hc =>
    rw [hopen] at hc
    cases hc
  · rw [hread]
    dsimp only
    split
    · next hd =>
      rw [hend] at hd
      cases hd
    · next hd =>
      rw [hend] at hd
      cases hd
      exact ⟨_, rfl, rfl⟩
    · next hd =>
      rw [hend] at hd
      cases hd

theorem readsItems_more {v : Json} {items : List Json} (hopen : closing? ']' first cs = none)
    (hv : Reads depth cs v after) (hmore : delimiter ']' (skipBlanks after) = .ok (.more next))
    (hrest : ReadsItems depth false (skipBlanks next) items rest) :
    ReadsItems depth first cs (v :: items) rest := by
  obtain ⟨⟨⟨v, after⟩, hp⟩, hread, heq⟩ := hv
  cases heq
  obtain ⟨⟨⟨items, rest⟩, hq⟩, hread', heq⟩ := hrest
  cases heq
  unfold ReadsItems
  rw [readItems]
  split
  · next hc =>
    rw [hopen] at hc
    cases hc
  · rw [hread]
    dsimp only
    split
    · next hd =>
      rw [hmore] at hd
      cases hd
    · next hd =>
      rw [hmore] at hd
      cases hd
    · next hd =>
      rw [hmore] at hd
      cases hd
      rw [hread']
      exact ⟨_, rfl, rfl⟩

theorem readsFields_none (depth : Nat) (rest : List Char) :
    ReadsFields depth true ('\x7d' :: rest) [] rest := by
  unfold ReadsFields
  rw [readFields]
  split
  · next hc =>
    cases hc
    exact ⟨_, rfl, rfl⟩
  · next hc => cases hc

theorem readsFields_last {key : String} {v : Json} (hopen : closing? '}' first cs = none)
    (hkey : ReadsKey cs key r) (hv : Reads depth r v after)
    (hend : delimiter '}' (skipBlanks after) = .ok (.closed rest)) :
    ReadsFields depth first cs [(key, v)] rest := by
  obtain ⟨⟨⟨key, r⟩, hk⟩, hreadKey, heq⟩ := hkey
  cases heq
  obtain ⟨⟨⟨v, after⟩, hp⟩, hread, heq⟩ := hv
  cases heq
  unfold ReadsFields
  rw [readFields]
  split
  · next hc =>
    rw [hopen] at hc
    cases hc
  · rw [hreadKey]
    dsimp only
    rw [hread]
    dsimp only
    split
    · next hd =>
      rw [hend] at hd
      cases hd
    · next hd =>
      rw [hend] at hd
      cases hd
      exact ⟨_, rfl, rfl⟩
    · next hd =>
      rw [hend] at hd
      cases hd

theorem readsFields_more {key : String} {v : Json} {pairs : List (String × Json)}
    (hopen : closing? '\x7d' first cs = none) (hkey : ReadsKey cs key r)
    (hv : Reads depth r v after) (hmore : delimiter '\x7d' (skipBlanks after) = .ok (.more next))
    (hrest : ReadsFields depth false (skipBlanks next) pairs rest) :
    ReadsFields depth first cs ((key, v) :: pairs) rest := by
  obtain ⟨⟨⟨key, r⟩, hk⟩, hreadKey, heq⟩ := hkey
  cases heq
  obtain ⟨⟨⟨v, after⟩, hp⟩, hread, heq⟩ := hv
  cases heq
  obtain ⟨⟨⟨pairs, rest⟩, hq⟩, hread', heq⟩ := hrest
  cases heq
  unfold ReadsFields
  rw [readFields]
  split
  · next hc =>
    rw [hopen] at hc
    cases hc
  · rw [hreadKey]
    dsimp only
    rw [hread]
    dsimp only
    split
    · next hd =>
      rw [hmore] at hd
      cases hd
    · next hd =>
      rw [hmore] at hd
      cases hd
    · next hd =>
      rw [hmore] at hd
      cases hd
      rw [hread']
      exact ⟨_, rfl, rfl⟩

end Containers

/-! ## Section 4: Whole texts -/

/-- A text that is nothing but a value is read as that value. -/
theorem read?_of_reads {cs : List Char} {v : Json} (hmark : cs.head? ≠ some '\ufeff')
    (h : Reads maxNesting (skipBlanks cs) v []) : read? (String.ofList cs) = some v := by
  obtain ⟨⟨⟨v, rest⟩, hp⟩, hread, heq⟩ := h
  cases heq
  have htext : readText cs = .ok v := by
    unfold readText
    rw [if_neg hmark, hread]
    rfl
  unfold read? read
  rw [String.toList_ofList, htext]
  rfl

/-- What a text is read as stands at its front, and only blanks follow it. -/
theorem reads_of_read? {text : String} {v : Json} (h : read? text = some v) :
    ∃ rest, Reads maxNesting (skipBlanks text.toList) v rest ∧ skipBlanks rest = [] := by
  unfold read? read at h
  split at h
  · next w htext =>
    cases h
    unfold readText at htext
    split at htext
    · cases htext
    · split at htext
      · cases htext
      · next v rest hsize hread =>
        split at htext
        · next hrest =>
          cases htext
          exact ⟨rest, ⟨_, hread, rfl⟩, List.isEmpty_iff.mp hrest⟩
        · cases htext
  · cases h

/-! ## Section 5: Nested arrays -/

/-- An empty array inside this many others. -/
def nested : Nat → Json
  | 0 => .arr []
  | n + 1 => .arr [nested n]

/-- The text of nested arrays. -/
def brackets : Nat → List Char
  | 0 => ['[', ']']
  | n + 1 => '[' :: (brackets n ++ [']'])

theorem levels_nested (n : Nat) : (nested n).levels = n + 1 := by
  induction n with
  | zero => rfl
  | succ n ih =>
    simp only [nested, levels, levelsItems, ih, Nat.max_zero]
    omega

theorem storable_nested_iff {n : Nat} : (nested n).storable = true ↔ n < maxLevels := by
  rw [storable, decide_eq_true_eq, levels_nested]
  exact Nat.succ_le_iff

/-- Brackets begin with a bracket. -/
theorem brackets_eq_cons (n : Nat) : ∃ r, brackets n = '[' :: r := by
  cases n with
  | zero => exact ⟨_, rfl⟩
  | succ n => exact ⟨_, rfl⟩

/-- **Nested arrays are read** as long as the reader goes as deep. -/
theorem reads_brackets {n depth : Nat} (h : n < depth) (rest : List Char) :
    Reads depth (brackets n ++ rest) (nested n) rest := by
  induction n generalizing depth rest with
  | zero =>
    obtain ⟨d, rfl⟩ := Nat.exists_eq_add_of_lt h
    exact reads_arr (readsItems_none _ _) rfl
  | succ n ih =>
    obtain ⟨d, rfl⟩ : ∃ d, depth = d + 1 := ⟨depth - 1, by omega⟩
    have hinner : Reads d (brackets n ++ ']' :: rest) (nested n) (']' :: rest) :=
      ih (by omega) _
    obtain ⟨r, hr⟩ := brackets_eq_cons n
    rw [hr] at hinner
    have hitems : ReadsItems d true ('[' :: r ++ ']' :: rest) [nested n] rest :=
      readsItems_last rfl hinner rfl
    show Reads (d + 1) ('[' :: (brackets n ++ [']']) ++ rest) (.arr [nested n]) rest
    rw [List.cons_append, List.append_assoc, List.singleton_append, hr]
    exact reads_arr hitems rfl

/-- A text of brackets is read up to the depth to which texts are read. -/
theorem read?_brackets {n : Nat} (h : n < maxNesting) :
    read? (String.ofList (brackets n)) = some (nested n) := by
  have hreads := reads_brackets h []
  rw [List.append_nil] at hreads
  obtain ⟨r, hr⟩ := brackets_eq_cons n
  rw [hr] at hreads ⊢
  refine read?_of_reads ?_ hreads
  show some '[' ≠ some '\ufeff'
  decide

/-- **Brackets that nest deeper than texts are read stop the reader.** By induction on how deep it
    goes. -/
theorem stops_brackets {n depth : Nat} (h : depth ≤ n) (rest : List Char) :
    ∃ left, readValue depth (brackets n ++ rest) = .error ⟨.tooDeep .array, left⟩ := by
  induction depth generalizing n rest with
  | zero =>
    obtain ⟨r, hr⟩ := brackets_eq_cons n
    rw [hr, List.cons_append, readValue]
    exact ⟨_, rfl⟩
  | succ depth ih =>
    obtain ⟨m, rfl⟩ : ∃ m, n = m + 1 := ⟨n - 1, by omega⟩
    obtain ⟨left, hinner⟩ := ih (n := m) (by omega) (']' :: rest)
    obtain ⟨r, hr⟩ := brackets_eq_cons m
    rw [hr, List.cons_append] at hinner
    have hitems : readItems depth true (skipBlanks ('[' :: (r ++ ']' :: rest))) =
        .error ⟨.tooDeep .array, left⟩ := by
      show readItems depth true ('[' :: (r ++ ']' :: rest)) = _
      rw [readItems]
      split
      · next hc => cases hc
      · rw [hinner]
        rfl
    have htext : brackets (m + 1) ++ rest = '[' :: '[' :: (r ++ ']' :: rest) := by
      rw [brackets, hr]
      simp
    rw [htext, readValue]
    dsimp only
    rw [hitems]
    exact ⟨left, rfl⟩

/-- A text of such brackets cannot be read for its depth. -/
theorem read_brackets_too_deep {n : Nat} (h : maxNesting ≤ n) :
    ∃ e, read (String.ofList (brackets n)) = .error e ∧ e.isTooDeep = true := by
  obtain ⟨left, hstops⟩ := stops_brackets h []
  obtain ⟨r, hr⟩ := brackets_eq_cons n
  rw [List.append_nil, hr] at hstops
  have hvalue : readValue maxNesting (skipBlanks ('[' :: r)) = .error ⟨.tooDeep .array, left⟩ :=
    hstops
  have hread : readText (brackets n) = .error ⟨.tooDeep .array, left⟩ := by
    rw [hr, readText, List.head?_cons, if_neg (show ¬ some '[' = some '\ufeff' by decide), hvalue]
  refine ⟨ReadError.at (brackets n) ⟨.tooDeep .array, left⟩, ?_, rfl⟩
  rw [read, String.toList_ofList, hread]

end Json

end EventCheck
