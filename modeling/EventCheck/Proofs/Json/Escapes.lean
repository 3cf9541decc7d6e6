import EventCheck.Json.Writer
import EventCheck.Proofs.Json.Texts

/-! # Strings that are written and read

    A string is written with escapes, by either writer, and what is written is read
    as the string that it was.

    - `hexUnit?_hex`: four hexadecimal digits are the number that they write.
    - `unicodeEscape_hex`, `unicodeEscape_pair`: one escape, or the two of a pair, are the
      character that they stand for.
    - `writeChar_cases`: a character is written as an escape of one letter, by its number,
      or as itself.
    - `readsChars_written`: the characters of a string come back one by one.
-/

namespace EventCheck

namespace Quoted

/-- A digit more at the end needs one more place. -/
theorem hex_succ {width n d : Nat} (hwidth : 0 < width) (hd : d < 16) :
    hex (width + 1) (16 * n + d) = hex width n ++ [d.digitChar] := by
  unfold hex
  by_cases hn : n = 0
  · subst hn
    have hzero : Nat.toDigits 16 0 = ['0'] := rfl
    obtain ⟨w, rfl⟩ := Nat.exists_eq_add_of_lt hwidth
    rw [Nat.mul_zero, Nat.zero_add, Nat.toDigits_of_lt_base hd, hzero]
    simp only [List.length_singleton, Nat.zero_add, Nat.add_sub_cancel]
    rw [List.replicate_succ', List.append_assoc]
  · have hdigits : Nat.toDigits 16 (16 * n + d) = Nat.toDigits 16 n ++ [d.digitChar] := by
      rw [← Nat.toDigits_append_toDigits (by decide) (Nat.pos_of_ne_zero hn) hd,
        Nat.toDigits_of_lt_base hd]
    rw [hdigits]
    dsimp only
    rw [List.length_append, List.length_singleton, Nat.add_sub_add_right,
      List.append_assoc]

theorem hex_one {d : Nat} (hd : d < 16) : hex 1 d = [d.digitChar] := by
  unfold hex
  rw [Nat.toDigits_of_lt_base hd]
  rfl

/-- The four hexadecimal digits of a number. -/
theorem hex_four {u : Nat} (h : u < 0x10000) :
    hex 4 u = [(u / 16 / 16 / 16).digitChar, (u / 16 / 16 % 16).digitChar,
      (u / 16 % 16).digitChar, (u % 16).digitChar] := by
  have hlast (n : Nat) : n % 16 < 16 := Nat.mod_lt n (by decide)
  calc hex 4 u = hex 4 (16 * (u / 16) + u % 16) := by rw [Nat.div_add_mod]
    _ = hex 3 (16 * (u / 16 / 16) + u / 16 % 16) ++ [(u % 16).digitChar] := by
      rw [hex_succ (by decide) (hlast _), Nat.div_add_mod]
    _ = hex 2 (16 * (u / 16 / 16 / 16) + u / 16 / 16 % 16) ++ [(u / 16 % 16).digitChar] ++
        [(u % 16).digitChar] := by
      rw [hex_succ (by decide) (hlast _), Nat.div_add_mod]
    _ = _ := by
      rw [hex_succ (by decide) (hlast _), hex_one (by omega)]
      rfl

end Quoted

namespace Json

/-! ## Section 1: Escapes -/

theorem hexDigit?_digitChar {d : Nat} (h : d < 0x10) : hexDigit? d.digitChar = some d := by
  revert d
  decide

/-- **Four hexadecimal digits are the number that they write.** -/
theorem hexUnit?_hex {u : Nat} (h : u < 0x10000) :
    ∃ a b c d, Quoted.hex 4 u = [a, b, c, d] ∧ hexUnit? a b c d = some u := by
  refine ⟨_, _, _, _, Quoted.hex_four h, ?_⟩
  unfold hexUnit?
  rw [hexDigit?_digitChar (by omega), hexDigit?_digitChar (by omega),
    hexDigit?_digitChar (by omega), hexDigit?_digitChar (by omega)]
  show some _ = some u
  congr 1
  omega

/-- The escape of a unit is read as that unit. -/
theorem unicodeEscape_hex {u : Nat} (h : u < 0x10000) (hlow : ¬ (0xD800 ≤ u ∧ u < 0xE000))
    {r : List Char} (hr : r ≠ []) :
    unicodeEscape (Quoted.hex 4 u ++ r) = .ok (Char.ofNat u, r) := by
  obtain ⟨a, b, c, d, hhex, hunit⟩ := hexUnit?_hex h
  have hempty : ¬ r.isEmpty = true := fun he => hr (List.isEmpty_iff.mp he)
  have hhalf : ¬ (0xD800 ≤ u && u < 0xDC00) = true := by
    simp only [Bool.and_eq_true, decide_eq_true_eq]
    omega
  have hchar : unitChar u = Char.ofNat u := by
    unfold unitChar
    rw [if_neg]
    simp only [Bool.and_eq_true, decide_eq_true_eq]
    exact hlow
  rw [hhex]
  show unicodeEscape (a :: b :: c :: d :: r) = _
  unfold unicodeEscape
  simp only [if_neg hempty, hunit, if_neg hhalf, hchar]

/-- The escapes of the two halves of a pair are read as the character that they stand for. -/
theorem unicodeEscape_pair {n : Nat} (h : n < 0x100000) {r : List Char} (hr : r ≠ []) :
    unicodeEscape (Quoted.hex 4 (0xD800 + n / 0x400) ++ unitEscape (0xDC00 + n % 0x400) ++ r) =
      .ok (Char.ofNat (0x10000 + n), r) := by
  obtain ⟨a, b, c, d, hhigh, hunit⟩ := hexUnit?_hex (u := 0xD800 + n / 0x400) (by omega)
  obtain ⟨a', b', c', d', hlow, hunit'⟩ := hexUnit?_hex (u := 0xDC00 + n % 0x400) (by omega)
  have hempty : ¬ r.isEmpty = true := fun he => hr (List.isEmpty_iff.mp he)
  have hhalf : (0xD800 ≤ 0xD800 + n / 0x400 && 0xD800 + n / 0x400 < 0xDC00) = true := by
    simp only [Bool.and_eq_true, decide_eq_true_eq]
    omega
  have hhalf' : (0xDC00 ≤ 0xDC00 + n % 0x400 && 0xDC00 + n % 0x400 < 0xE000) = true := by
    simp only [Bool.and_eq_true, decide_eq_true_eq]
    omega
  have hnext : lowHalf ('\\' :: 'u' :: a' :: b' :: c' :: d' :: r) =
      .ok (some (0xDC00 + n % 0x400, r)) := by
    unfold lowHalf
    simp only [if_neg hempty, hunit', if_pos hhalf']
  unfold unitEscape
  rw [hhigh, hlow]
  show unicodeEscape (a :: b :: c :: d :: '\\' :: 'u' :: a' :: b' :: c' :: d' :: r) = _
  unfold unicodeEscape
  simp only [List.isEmpty_cons, Bool.false_eq_true, if_false, hunit, if_pos hhalf, hnext]
  have hsum : 0x10000 + (0xD800 + n / 0x400 - 0xD800) * 0x400 + (0xDC00 + n % 0x400 - 0xDC00) =
      0x10000 + n := by omega
  rw [hsum]

/-- The escapes of a character are read as that character. -/
theorem readsChars_unicodeEscapes (c : Char) {opening : Nat} {cs s rest : List Char} (hcs : cs ≠ [])
    (h : ReadsChars opening cs s rest) :
    ReadsChars opening (unicodeEscapes c ++ cs) (c :: s) rest := by
  have hvalid : c.toNat < 0xD800 ∨ 0xDFFF < c.toNat ∧ c.toNat < 0x110000 := c.valid
  -- behind the backslash and its letter, the escape is read as the character
  obtain ⟨r, hwritten, hread⟩ : ∃ r, unicodeEscapes c ++ cs = '\\' :: 'u' :: r ∧
      unicodeEscape r = .ok (c, cs) := by
    unfold unicodeEscapes
    dsimp only
    split
    · next hunit =>
      refine ⟨Quoted.hex 4 c.toNat ++ cs, by simp only [unitEscape, List.cons_append], ?_⟩
      rw [unicodeEscape_hex hunit (by omega) hcs, Char.ofNat_toNat]
    · next hpair =>
      obtain ⟨n, hn⟩ := Nat.exists_eq_add_of_le (Nat.le_of_not_lt hpair)
      have hsub : c.toNat - 0x10000 = n := by omega
      rw [hsub]
      refine ⟨Quoted.hex 4 (0xD800 + n / 0x400) ++ unitEscape (0xDC00 + n % 0x400) ++ cs, ?_, ?_⟩
      · simp only [unitEscape, List.cons_append, List.append_assoc]
      · rw [unicodeEscape_pair (by omega) hcs, ← hn, Char.ofNat_toNat]
  rw [hwritten]
  exact readsChars_unicode hread h

/-! ## Section 2: Strings -/

/-- The characters with an escape of their own. -/
def lettered : List Char := ['"', '\\', '\n', '\r', '\t', '\x0c', '\x08']

/-- Either writer writes the letter for them from which they are read. -/
theorem writeChar_lettered (asciiOnly : Bool) : ∀ c ∈ lettered,
    ∃ letter, simpleEscape? letter = some c ∧ writeChar asciiOnly c = ['\\', letter] := by
  simp only [lettered, List.forall_mem_cons]
  exact ⟨⟨'"', rfl, rfl⟩, ⟨'\\', rfl, rfl⟩, ⟨'n', rfl, rfl⟩, ⟨'r', rfl, rfl⟩, ⟨'t', rfl, rfl⟩,
    ⟨'f', rfl, rfl⟩, ⟨'b', rfl, rfl⟩, by simp⟩

/-- **A character is written in one of three ways**: by a letter, by its number, or as itself. -/
theorem writeChar_cases (asciiOnly : Bool) (c : Char) :
    (∃ letter, simpleEscape? letter = some c ∧ writeChar asciiOnly c = ['\\', letter]) ∨
      writeChar asciiOnly c = unicodeEscapes c ∨
      (isPlain c = true ∧ writeChar asciiOnly c = [c]) := by
  by_cases hletter : c ∈ lettered
  · exact .inl (writeChar_lettered asciiOnly c hletter)
  -- none of the seven comparisons succeeds
  simp only [lettered, List.mem_cons, List.not_mem_nil, or_false, not_or] at hletter
  obtain ⟨hquote, hslash, hfeed, hreturn, htab, hform, hback⟩ := hletter
  have hwritten : writeChar asciiOnly c =
      if c.toNat < 0x20 || (asciiOnly && 0x7F ≤ c.toNat) then unicodeEscapes c else [c] := by
    simp only [writeChar, beq_iff_eq, hquote, hslash, hfeed, hreturn, htab, hform, hback, if_false]
  rw [hwritten]
  split
  · exact .inr (.inl rfl)
  · next hplain =>
    simp only [Bool.or_eq_true, decide_eq_true_eq, not_or] at hplain
    refine .inr (.inr ⟨?_, rfl⟩)
    simp only [isPlain, Bool.and_eq_true, bne_iff_ne, ne_eq, decide_eq_true_eq]
    exact ⟨⟨hquote, hslash⟩, Nat.le_of_not_lt hplain.1⟩

/-- **A character of a string is read as what was written.** -/
theorem readsChars_writeChar (asciiOnly : Bool) (c : Char) {opening : Nat} {cs s rest : List Char}
    (hcs : cs ≠ []) (h : ReadsChars opening cs s rest) :
    ReadsChars opening (writeChar asciiOnly c ++ cs) (c :: s) rest := by
  rcases writeChar_cases asciiOnly c with ⟨letter, hletter, hwritten⟩ | hwritten | ⟨hplain, hwritten⟩
  · rw [hwritten]
    exact readsChars_simple hletter h
  · rw [hwritten]
    exact readsChars_unicodeEscapes c hcs h
  · rw [hwritten]
    exact readsChars_cons hplain h

/-- **The characters of a string are read as what was written.** -/
theorem readsChars_written (asciiOnly : Bool) (s : List Char) (opening : Nat) (rest : List Char) :
    ReadsChars opening (s.flatMap (writeChar asciiOnly) ++ '"' :: rest) s rest := by
  induction s with
  | nil => exact readsChars_end opening rest
  | cons c s ih =>
    rw [List.flatMap_cons, List.append_assoc]
    exact readsChars_writeChar asciiOnly c (by simp) ih

theorem toList_writeString (asciiOnly : Bool) (s : String) :
    (writeString asciiOnly s).toList = '"' :: (s.toList.flatMap (writeChar asciiOnly) ++ ['"']) := by
  rw [writeString, String.toList_ofList, List.cons_append]

end Json

end EventCheck
