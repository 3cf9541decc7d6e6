import EventCheck.Proofs.Json.Texts

/-! # What was read

    The rules of reading, taken the other way: from what was read to what the text was.

    - `Spells`: what stands for the characters of a string, up to the closing quote.
      Whatever is read as a string is spelt so (`spells_of_readsChars`), and it is read
      so whatever follows it (`Spells.reads`).
    - `takeNumber?_eq`: a number is taken part by part.
    - `reads_cases`, `readsItems_cases`, `readsFields_cases`: what stands at the front of
      a text from which a value, items or fields were read.
    - `read?_iff`: when a whole text writes a value.

    An escape for a single half of a surrogate pair spells U+FFFD, as in the reader.
-/

namespace EventCheck

namespace Json

/-! ## Section 1: Strings -/

/-- **What stands for the characters of a string**, with the quote that ends it. -/
inductive Spells : List Char → List Char → Prop where
  | quote : Spells ['"'] []
  | plain {c : Char} {used s : List Char} (hc : isPlain c = true) (h : Spells used s) :
      Spells (c :: used) (c :: s)
  | letter {letter c : Char} {used s : List Char} (hletter : simpleEscape? letter = some c)
      (h : Spells used s) : Spells ('\\' :: letter :: used) (c :: s)
  | unit {a b c d : Char} {u : Nat} {used s : List Char} (hunit : hexUnit? a b c d = some u)
      (halone : (0xD800 ≤ u && u < 0xDC00) = true → ∀ rest, lowHalf (used ++ rest) = .ok none)
      (h : Spells used s) : Spells ('\\' :: 'u' :: a :: b :: c :: d :: used) (unitChar u :: s)
  | pair {a b c d a' b' c' d' : Char} {u low : Nat} {used s : List Char}
      (hunit : hexUnit? a b c d = some u) (hhigh : (0xD800 ≤ u && u < 0xDC00) = true)
      (hunit' : hexUnit? a' b' c' d' = some low) (hlow : (0xDC00 ≤ low && low < 0xE000) = true)
      (h : Spells used s) :
      Spells ('\\' :: 'u' :: a :: b :: c :: d :: '\\' :: 'u' :: a' :: b' :: c' :: d' :: used)
        (Char.ofNat (0x10000 + (u - 0xD800) * 0x400 + (low - 0xDC00)) :: s)

theorem unicodeEscape_unit {a b c d : Char} {u : Nat} {r : List Char}
    (hunit : hexUnit? a b c d = some u) (hr : r ≠ [])
    (halone : (0xD800 ≤ u && u < 0xDC00) = true → lowHalf r = .ok none) :
    unicodeEscape (a :: b :: c :: d :: r) = .ok (unitChar u, r) := by
  simp only [unicodeEscape, List.isEmpty_iff, hr, if_false, hunit]
  split
  · next hhigh => rw [halone hhigh]
  · rfl

theorem unicodeEscape_halves {a b c d : Char} {u low : Nat} {r r' : List Char}
    (hunit : hexUnit? a b c d = some u) (hhigh : (0xD800 ≤ u && u < 0xDC00) = true)
    (hr : r ≠ []) (hlow : lowHalf r = .ok (some (low, r'))) :
    unicodeEscape (a :: b :: c :: d :: r) =
      .ok (Char.ofNat (0x10000 + (u - 0xD800) * 0x400 + (low - 0xDC00)), r') := by
  simp only [unicodeEscape, List.isEmpty_iff, hr, if_false, hunit, if_pos hhigh, hlow]

theorem lowHalf_unit {a b c d : Char} {low : Nat} {r : List Char}
    (hunit : hexUnit? a b c d = some low) (hlow : (0xDC00 ≤ low && low < 0xE000) = true)
    (hr : r ≠ []) : lowHalf ('\\' :: 'u' :: a :: b :: c :: d :: r) = .ok (some (low, r)) := by
  simp only [lowHalf, List.isEmpty_iff, hr, if_false, hunit, if_pos hlow]

namespace Spells

variable {used s : List Char}

theorem ne_nil (h : Spells used s) : used ≠ [] := by
  cases h <;> simp

/-- Is a low half written next? That shows in what stands for the characters. -/
theorem lowHalf_eq (h : Spells used s) (rest rest' : List Char)
    (hnone : lowHalf (used ++ rest) = .ok none) : lowHalf (used ++ rest') = .ok none := by
  cases h with
  | quote => rfl
  | @plain c used s hc h =>
    have hslash : c ≠ '\\' := by
      rintro rfl
      cases hc
    unfold lowHalf
    split
    · next heq => exact absurd (List.cons.inj heq).1 hslash
    · rfl
  | @letter letter c used s hletter h =>
    have hu : letter ≠ 'u' := by
      rintro rfl
      cases hletter
    unfold lowHalf
    split
    · next heq => exact absurd (List.cons.inj (List.cons.inj heq).2).1 hu
    · rfl
  | unit hunit _ h =>
    have hmore (rest : List Char) := List.append_ne_nil_of_left_ne_nil h.ne_nil rest
    simp only [lowHalf, List.cons_append, List.isEmpty_iff, hmore, if_false, hunit] at hnone ⊢
    split at hnone
    · cases hnone
    · next hlow => rw [if_neg hlow]
  | pair hunit hhigh hunit' hlow h =>
    simp only [lowHalf, List.cons_append, List.isEmpty_cons, Bool.false_eq_true, if_false,
      hunit] at hnone ⊢
    split at hnone
    · cases hnone
    · next hlow => rw [if_neg hlow]

/-- **It is read the same**, whatever follows. -/
theorem reads (h : Spells used s) (opening : Nat) (rest : List Char) :
    ReadsChars opening (used ++ rest) s rest := by
  induction h with
  | quote => exact readsChars_end opening rest
  | plain hc _ ih => exact readsChars_cons hc ih
  | letter hletter _ ih => exact readsChars_simple hletter ih
  | unit hunit halone h ih =>
    have hmore := List.append_ne_nil_of_left_ne_nil h.ne_nil rest
    exact readsChars_unicode (unicodeEscape_unit hunit hmore fun hhigh => halone hhigh rest) ih
  | pair hunit hhigh hunit' hlow h ih =>
    have hmore := List.append_ne_nil_of_left_ne_nil h.ne_nil rest
    have hnext := lowHalf_unit hunit' hlow hmore
    exact readsChars_unicode (unicodeEscape_halves hunit hhigh (List.cons_ne_nil _ _) hnext) ih

end Spells

theorem lowHalf_cases {cs r : List Char} {low : Nat} (h : lowHalf cs = .ok (some (low, r))) :
    ∃ a b c d, cs = '\\' :: 'u' :: a :: b :: c :: d :: r ∧ hexUnit? a b c d = some low ∧
      (0xDC00 ≤ low && low < 0xE000) = true := by
  unfold lowHalf at h
  split at h
  · split at h
    · cases h
    split at h
    · cases h
    next u hunit =>
    split at h
    · next hlow =>
      cases h
      exact ⟨_, _, _, _, rfl, hunit, hlow⟩
    · cases h
  · cases h

/-- What is read as an escape: one unit, or two that are the halves of a pair. -/
theorem unicodeEscape_cases {r r' : List Char} {x : Char} (h : unicodeEscape r = .ok (x, r')) :
    (∃ a b c d u, r = a :: b :: c :: d :: r' ∧ hexUnit? a b c d = some u ∧ x = unitChar u ∧
      ((0xD800 ≤ u && u < 0xDC00) = true → lowHalf r' = .ok none)) ∨
    (∃ a b c d u rest low, r = a :: b :: c :: d :: rest ∧ hexUnit? a b c d = some u ∧
      (0xD800 ≤ u && u < 0xDC00) = true ∧ lowHalf rest = .ok (some (low, r')) ∧
      x = Char.ofNat (0x10000 + (u - 0xD800) * 0x400 + (low - 0xDC00))) := by
  unfold unicodeEscape at h
  split at h
  · next a b c d r =>
    split at h
    · cases h
    split at h
    · cases h
    next u hunit =>
    split at h
    · next hhigh =>
      split at h
      · cases h
      · next low rest hlow =>
        simp only [Except.ok.injEq, Prod.mk.injEq] at h
        obtain ⟨rfl, rfl⟩ := h
        exact .inr ⟨a, b, c, d, u, r, low, rfl, hunit, hhigh, hlow, rfl⟩
      · next hnone =>
        cases h
        exact .inl ⟨a, b, c, d, u, rfl, hunit, rfl, fun _ => hnone⟩
    · next hhigh =>
      cases h
      exact .inl ⟨a, b, c, d, u, rfl, hunit, rfl, fun h => absurd h hhigh⟩
  · cases h

/-- An escape by a number stands in front of what spells the characters behind it. -/
theorem Spells.escape {r used s rest : List Char} {x : Char} (h : Spells used s)
    (hescape : unicodeEscape r = .ok (x, used ++ rest)) :
    ∃ escape, r = escape ++ rest ∧ Spells ('\\' :: 'u' :: escape) (x :: s) := by
  rcases unicodeEscape_cases hescape with
    ⟨a, b, c, d, u, rfl, hunit, rfl, hnone⟩ |
    ⟨a, b, c, d, u, half, low, rfl, hunit, hhigh, hlow, hx⟩
  · refine ⟨a :: b :: c :: d :: used, rfl, .unit hunit ?_ h⟩
    exact fun hhigh others => h.lowHalf_eq _ others (hnone hhigh)
  · obtain ⟨a', b', c', d', rfl, hunit', hrange⟩ := lowHalf_cases hlow
    rw [hx]
    exact ⟨a :: b :: c :: d :: '\\' :: 'u' :: a' :: b' :: c' :: d' :: used, rfl,
      .pair hunit hhigh hunit' hrange h⟩

/-- **The characters that are read are spelt in front of what is left.** By induction on the
    length of the text. -/
theorem spells_of_readsChars {opening : Nat} {cs s rest : List Char}
    (h : ReadsChars opening cs s rest) : ∃ used, cs = used ++ rest ∧ Spells used s := by
  induction hn : cs.length using Nat.strongRecOn generalizing cs s with
  | _ n ih =>
    subst hn
    obtain ⟨⟨⟨s, rest⟩, hsize⟩, hread, heq⟩ := h
    cases heq
    unfold readChars at hread
    split at hread
    · cases hread
    · cases hread
      exact ⟨['"'], rfl, .quote⟩
    · -- an escape by a number
      next r =>
      split at hread
      · cases hread
      next x r' hescape =>
      have hless := length_lt_of_unicodeEscape hescape
      dsimp only at hread
      split at hread
      · cases hread
      next s' rest' hsize' hrest =>
      cases hread
      obtain ⟨used, rfl, hspells⟩ := ih r'.length (by simp only [List.length_cons]; omega)
        ⟨_, hrest, rfl⟩ rfl
      obtain ⟨escape, rfl, hescaped⟩ := hspells.escape hescape
      exact ⟨'\\' :: 'u' :: escape, rfl, hescaped⟩
    · -- an escape of one letter
      next letter r hu =>
      split at hread
      · cases hread
      next x hletter =>
      split at hread
      · cases hread
      next s' rest' hsize' hrest =>
      cases hread
      obtain ⟨used, rfl, hspells⟩ := ih r.length (by simp only [List.length_cons]; omega)
        ⟨_, hrest, rfl⟩ rfl
      exact ⟨'\\' :: letter :: used, rfl, .letter hletter hspells⟩
    · cases hread
    · -- a character that stands for itself
      next x r hquote _ hslash hend =>
      split at hread
      · cases hread
      next hcontrol =>
      split at hread
      · cases hread
      next s' rest' hsize' hrest =>
      cases hread
      obtain ⟨used, rfl, hspells⟩ := ih r.length (by simp only [List.length_cons]; omega)
        ⟨_, hrest, rfl⟩ rfl
      have hne : x ≠ '\\' := by
        intro hx
        cases hr : used ++ rest with
        | nil => exact hend hx hr
        | cons c r => exact hslash c r hx hr
      refine ⟨x :: used, rfl, .plain ?_ hspells⟩
      simp only [isPlain, Bool.and_eq_true, bne_iff_ne, decide_eq_true_eq]
      exact ⟨⟨hquote, hne⟩, Nat.le_of_not_lt hcontrol⟩

/-! ## Section 2: Words and numbers -/

theorem takeFraction_of_ne {c : Char} (hc : c ≠ '.') (r : List Char) :
    takeFraction (c :: r) = (none, c :: r) := by
  unfold takeFraction
  split
  · next heq => exact absurd (List.cons.inj heq).1 hc
  · rfl

theorem takeFraction_point (r : List Char) : takeFraction ('.' :: r) =
    if (r.takeWhile isDigit).isEmpty then (none, '.' :: r)
    else (some (r.takeWhile isDigit), r.dropWhile isDigit) := rfl

theorem takeExponent_of_ne {c : Char} (hc : ¬ (c == 'e' || c == 'E') = true) (r : List Char) :
    takeExponent (c :: r) = (none, c :: r) := by
  unfold takeExponent
  dsimp only
  rw [if_neg hc]

/-- A minus sign, if there is one, and what follows. -/
def takeMinus (cs : List Char) : Bool × List Char :=
  match cs with
  | '-' :: r => (true, r)
  | _ => (false, cs)

/-- The sign of an exponent, if there is one, and what follows. -/
def takeSign (cs : List Char) : Bool × List Char :=
  match cs with
  | '+' :: r => (false, r)
  | '-' :: r => (true, r)
  | _ => (false, cs)

/-- The whole part of a number, and what follows. -/
def takeWhole? (cs : List Char) : Option (List Char × List Char) :=
  match cs with
  | '0' :: r => some (['0'], r)
  | c :: _ => if isDigit c then some (cs.takeWhile isDigit, cs.dropWhile isDigit) else none
  | [] => none

theorem takeMinus_of_ne {c : Char} (hc : c ≠ '-') (r : List Char) :
    takeMinus (c :: r) = (false, c :: r) := by
  unfold takeMinus
  split
  · next heq => exact absurd (List.cons.inj heq).1 hc
  · rfl

theorem takeSign_of_ne {c : Char} (hplus : c ≠ '+') (hminus : c ≠ '-') (r : List Char) :
    takeSign (c :: r) = (false, c :: r) := by
  unfold takeSign
  split
  · next heq => exact absurd (List.cons.inj heq).1 hplus
  · next heq => exact absurd (List.cons.inj heq).1 hminus
  · rfl

theorem takeWhole?_of_ne {c : Char} (hc : c ≠ '0') (r : List Char) : takeWhole? (c :: r) =
    if isDigit c then some ((c :: r).takeWhile isDigit, (c :: r).dropWhile isDigit)
    else none := by
  unfold takeWhole?
  split
  · next heq => exact absurd (List.cons.inj heq).1 hc
  · next heq =>
    obtain ⟨rfl, rfl⟩ := List.cons.inj heq
    rfl
  · next heq => cases heq

theorem takeExponent_letter {e : Char} (he : (e == 'e' || e == 'E') = true) (r : List Char) :
    takeExponent (e :: r) =
      if ((takeSign r).2.takeWhile isDigit).isEmpty then (none, e :: r)
      else (some ((takeSign r).1, (takeSign r).2.takeWhile isDigit),
        (takeSign r).2.dropWhile isDigit) := by
  unfold takeExponent
  dsimp only
  rw [if_pos he]
  rfl

theorem takeNumber?_eq (cs : List Char) : takeNumber? cs =
    (takeWhole? (takeMinus cs).2).map fun (whole, r) =>
      (⟨(takeMinus cs).1, whole, (takeFraction r).1, (takeExponent (takeFraction r).2).1⟩,
        (takeExponent (takeFraction r).2).2) := rfl

/-- A leaf that is no string stands at the front of the text. -/
def ReadsPlain (cs : List Char) (v : Json) (rest : List Char) : Prop :=
  ∃ p, readPlain cs = .ok p ∧ p.1 = (v, rest)

theorem readsPlain_iff {cs rest : List Char} {v : Json} : ReadsPlain cs v rest ↔
    takeWord? cs = some (v, rest) ∨
      takeWord? cs = none ∧ ∃ t, takeNumber? cs = some (t, rest) ∧ t.value = .ok v := by
  constructor
  · rintro ⟨⟨⟨v, rest⟩, hsize⟩, hread, heq⟩
    cases heq
    unfold readPlain at hread
    split at hread
    · next hword =>
      cases hread
      exact .inl hword
    · next hword =>
      split at hread
      · cases hread
      next t r hnumber =>
      split at hread
      · cases hread
      next hvalue =>
      cases hread
      exact .inr ⟨hword, t, hnumber, hvalue⟩
  · intro h
    unfold ReadsPlain readPlain
    split
    · next hword =>
      rcases h with h | ⟨h, -⟩
      · rw [hword] at h
        cases h
        exact ⟨_, rfl, rfl⟩
      · rw [hword] at h
        cases h
    · next hword =>
      rcases h with h | ⟨-, t, hnumber, hvalue⟩
      · rw [hword] at h
        cases h
      split
      · next hnone =>
        rw [hnumber] at hnone
        cases hnone
      next hsome =>
      rw [hnumber] at hsome
      cases hsome
      split
      · next herror =>
        rw [hvalue] at herror
        cases herror
      next hok =>
      rw [hvalue] at hok
      cases hok
      exact ⟨_, rfl, rfl⟩

/-! ## Section 3: Values -/

/-- The text begins neither a string nor a container. -/
def BeginsNoOther (cs : List Char) : Prop :=
  ∀ r, cs ≠ '"' :: r ∧ cs ≠ '[' :: r ∧ cs ≠ '{' :: r

/-- What stands at the front is a string, an array, an object or another leaf. -/
theorem reads_cases {depth : Nat} {cs rest : List Char} {v : Json} (h : Reads depth cs v rest) :
    (∃ r s, cs = '"' :: r ∧ ReadsChars (r.length + 1) r s rest ∧ v = .str (String.ofList s)) ∨
    (∃ r d items, cs = '[' :: r ∧ depth = d + 1 ∧ ReadsItems d true (skipBlanks r) items rest ∧
      v = .arr items) ∨
    (∃ r d pairs, cs = '{' :: r ∧ depth = d + 1 ∧ ReadsFields d true (skipBlanks r) pairs rest ∧
      v = .obj (Keyed.ofPairs pairs)) ∨
    (BeginsNoOther cs ∧ ReadsPlain cs v rest) := by
  obtain ⟨⟨⟨v, rest⟩, hsize⟩, hread, heq⟩ := h
  cases heq
  unfold readValue at hread
  split at hread
  · next r =>
    split at hread
    · cases hread
    next s rest hsize' hchars =>
    cases hread
    exact .inl ⟨r, s, rfl, ⟨_, hchars, rfl⟩, rfl⟩
  · next r =>
    split at hread
    · cases hread
    next d =>
    split at hread
    · cases hread
    next items rest hsize' hitems =>
    cases hread
    exact .inr (.inl ⟨r, d, items, rfl, rfl, ⟨_, hitems, rfl⟩, rfl⟩)
  · next r =>
    split at hread
    · cases hread
    next d =>
    split at hread
    · cases hread
    next pairs rest hsize' hfields =>
    cases hread
    exact .inr (.inr (.inl ⟨r, d, pairs, rfl, rfl, ⟨_, hfields, rfl⟩, rfl⟩))
  · next hquote hbracket hbrace =>
    refine .inr (.inr (.inr ⟨fun r => ⟨?_, ?_, ?_⟩, ⟨_, hread, rfl⟩⟩))
    · exact fun h => hquote r h
    · exact fun h => hbracket r h
    · exact fun h => hbrace r h

theorem reads_plain {depth : Nat} {cs rest : List Char} {v : Json} (hno : BeginsNoOther cs)
    (h : ReadsPlain cs v rest) : Reads depth cs v rest := by
  obtain ⟨⟨⟨v, rest⟩, hsize⟩, hread, heq⟩ := h
  cases heq
  unfold Reads
  rw [readValue]
  · exact ⟨_, hread, rfl⟩
  · exact fun r h => (hno r).1 h
  · exact fun r h => (hno r).2.1 h
  · exact fun r h => (hno r).2.2 h

/-- What stands in an array: nothing, a last item, or an item and more. -/
theorem readsItems_cases {depth : Nat} {first : Bool} {cs rest : List Char} {items : List Json}
    (h : ReadsItems depth first cs items rest) :
    (closing? ']' first cs = some rest ∧ items = []) ∨
    (closing? ']' first cs = none ∧ ∃ v after, Reads depth cs v after ∧
      ((delimiter ']' (skipBlanks after) = .ok (.closed rest) ∧ items = [v]) ∨
        ∃ next others, (skipBlanks next).length < cs.length ∧
          delimiter ']' (skipBlanks after) = .ok (.more next) ∧
          ReadsItems depth false (skipBlanks next) others rest ∧ items = v :: others)) := by
  obtain ⟨⟨⟨items, rest⟩, hsize⟩, hread, heq⟩ := h
  cases heq
  unfold readItems at hread
  split at hread
  · next hclosing =>
    cases hread
    exact .inl ⟨hclosing, rfl⟩
  next hopen =>
  split at hread
  · cases hread
  next v after hle hvalue =>
  refine .inr ⟨hopen, v, after, ⟨_, hvalue, rfl⟩, ?_⟩
  split at hread
  · cases hread
  · next hd =>
    cases hread
    exact .inl ⟨hd, rfl⟩
  · next next hd =>
    dsimp only at hread
    split at hread
    · cases hread
    next others rest' hsize' hrest =>
    cases hread
    have hless : (skipBlanks next).length < cs.length := by
      have := length_skipBlanks_le next
      have := length_lt_of_delimiter_more hd
      have := length_skipBlanks_le after
      simp only at hle
      omega
    exact .inr ⟨next, others, hless, hd, ⟨_, hrest, rfl⟩, rfl⟩

/-- What stands in an object: nothing, a last field, or a field and more. -/
theorem readsFields_cases {depth : Nat} {first : Bool} {cs rest : List Char}
    {pairs : List (String × Json)} (h : ReadsFields depth first cs pairs rest) :
    (closing? '\x7d' first cs = some rest ∧ pairs = []) ∨
    (closing? '\x7d' first cs = none ∧ ∃ key r v after, r.length < cs.length ∧
      ReadsKey cs key r ∧ Reads depth r v after ∧
      ((delimiter '\x7d' (skipBlanks after) = .ok (.closed rest) ∧ pairs = [(key, v)]) ∨
        ∃ next others, (skipBlanks next).length < cs.length ∧
          delimiter '\x7d' (skipBlanks after) = .ok (.more next) ∧
          ReadsFields depth false (skipBlanks next) others rest ∧
          pairs = (key, v) :: others)) := by
  obtain ⟨⟨⟨pairs, rest⟩, hsize⟩, hread, heq⟩ := h
  cases heq
  unfold readFields at hread
  split at hread
  · next hclosing =>
    cases hread
    exact .inl ⟨hclosing, rfl⟩
  next hopen =>
  split at hread
  · cases hread
  next key r hkey hreadKey =>
  split at hread
  · cases hread
  next v after hle hvalue =>
  have hrless : r.length < cs.length := by
    simp only at hkey
    omega
  refine .inr ⟨hopen, key, r, v, after, hrless, ⟨_, hreadKey, rfl⟩, ⟨_, hvalue, rfl⟩, ?_⟩
  split at hread
  · cases hread
  · next hd =>
    cases hread
    exact .inl ⟨hd, rfl⟩
  · next next hd =>
    split at hread
    · cases hread
    next others rest' hsize' hrest =>
    cases hread
    have hless : (skipBlanks next).length < cs.length := by
      have := length_skipBlanks_le next
      have := length_lt_of_delimiter_more hd
      have := length_skipBlanks_le after
      simp only at hle
      omega
    exact .inr ⟨next, others, hless, hd, ⟨_, hrest, rfl⟩, rfl⟩

theorem readsKey_cases {cs rest : List Char} {key : String} (h : ReadsKey cs key rest) :
    ∃ r s after next, cs = '"' :: r ∧ ReadsChars (r.length + 1) r s after ∧
      skipBlanks after = ':' :: next ∧ key = String.ofList s ∧ rest = skipBlanks next := by
  obtain ⟨⟨⟨key, rest⟩, hsize⟩, hread, heq⟩ := h
  cases heq
  unfold readKey at hread
  split at hread
  · next r =>
    split at hread
    · cases hread
    next s after hsize' hchars =>
    split at hread
    · next next hcolon =>
      cases hread
      exact ⟨r, s, after, next, rfl, ⟨_, hchars, rfl⟩, hcolon, rfl, rfl⟩
    · cases hread
  · cases hread

/-- A key in quotes, with its colon behind blanks. -/
theorem readsKey_blanks {cs s after rest : List Char}
    (h : ∀ opening, ReadsChars opening cs s after) (hcolon : skipBlanks after = ':' :: rest) :
    ReadsKey ('"' :: cs) (String.ofList s) (skipBlanks rest) := by
  obtain ⟨⟨⟨s, after⟩, hp⟩, hread, heq⟩ := h (cs.length + 1)
  cases heq
  unfold ReadsKey
  rw [readKey, hread]
  dsimp only
  split
  · next hc =>
    rw [hcolon] at hc
    cases hc
    exact ⟨_, rfl, rfl⟩
  · next hother =>
    exact absurd hcolon (hother rest)

theorem closing?_cases {close : Char} {first : Bool} {cs r : List Char}
    (h : closing? close first cs = some r) : first = true ∧ cs = close :: r := by
  unfold closing? at h
  split at h
  · split at h
    · next hclose =>
      cases h
      simp only [Bool.and_eq_true, beq_iff_eq] at hclose
      exact ⟨hclose.1, by rw [hclose.2]⟩
    · cases h
  · cases h

theorem delimiter_closed_iff {close : Char} {cs r : List Char} :
    delimiter close cs = .ok (.closed r) ↔ cs = close :: r := by
  unfold delimiter
  constructor
  · intro h
    split at h
    · split at h
      · next hclose =>
        cases h
        rw [beq_iff_eq.mp hclose]
      · split at h <;> cases h
    · cases h
  · rintro rfl
    simp

theorem delimiter_more_iff {close : Char} {cs r : List Char} (hclose : close ≠ ',') :
    delimiter close cs = .ok (.more r) ↔ cs = ',' :: r := by
  unfold delimiter
  constructor
  · intro h
    split at h
    · split at h
      · cases h
      · split at h
        · next hcomma =>
          cases h
          rw [beq_iff_eq.mp hcomma]
        · cases h
    · cases h
  · rintro rfl
    simp [hclose.symm]

/-! ## Section 4: Whole texts -/

/-- A text writes a value if the value stands at its front, with blanks around it, and no mark of
    the byte order stands before it. -/
theorem read?_iff {text : String} {v : Json} : read? text = some v ↔
    text.toList.head? ≠ some '\ufeff' ∧
      ∃ rest, Reads maxNesting (skipBlanks text.toList) v rest ∧ skipBlanks rest = [] := by
  constructor
  · intro h
    refine ⟨fun hmark => ?_, reads_of_read? h⟩
    unfold read? read readText at h
    rw [if_pos hmark] at h
    cases h
  · rintro ⟨hmark, rest, ⟨⟨⟨v, rest⟩, hsize⟩, hread, heq⟩, hblank⟩
    cases heq
    unfold read? read readText
    rw [if_neg hmark, hread]
    dsimp only
    rw [hblank]
    rfl

end Json

end EventCheck
