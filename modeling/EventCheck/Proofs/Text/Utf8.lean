import EventCheck.Text.Utf8

/-! # Bytes that are texts

    `Utf8.strict` reads exactly the bytes that encode a text, and reads them as that
    text (`strict_eq_ok_iff`).

    - `first_encodeChar`: the bytes of a character are read as that character, whatever
      follows them.
    - `encodeChar_of_first`: what is read as a character are the bytes of that
      character.
-/

namespace EventCheck

namespace Utf8

/-! ## Section 1: Bytes and numbers -/

theorem val_ofNat {n : Nat} (h : n.isValidChar) : (Char.ofNat n).val.toNat = n := by
  unfold Char.ofNat
  rw [dif_pos h]
  unfold Char.ofNatAux
  simp

theorem isContinuation_iff {b : UInt8} :
    isContinuation b = true ↔ 0x80 ≤ b.toNat ∧ b.toNat < 0xC0 := by
  simp [isContinuation, UInt8.le_iff_toNat_le, UInt8.lt_iff_toNat_lt]

theorem isSecond_iff {a b : UInt8} : isSecond a b = true ↔
    (0x80 ≤ b.toNat ∧ b.toNat < 0xC0) ∧ (a.toNat = 0xE0 → 0xA0 ≤ b.toNat) ∧
      (a.toNat = 0xED → b.toNat < 0xA0) ∧ (a.toNat = 0xF0 → 0x90 ≤ b.toNat) ∧
      (a.toNat = 0xF4 → b.toNat < 0x90) := by
  simp only [isSecond, Bool.and_eq_true, isContinuation_iff, ← UInt8.toNat_inj]
  refine and_congr_right fun _ => ?_
  split
  · next h => simp [h, UInt8.le_iff_toNat_le]
  · split
    · next h => simp [h, UInt8.lt_iff_toNat_lt]
    · split
      · next h => simp [h, UInt8.le_iff_toNat_le]
      · split
        · next h => simp [h, UInt8.lt_iff_toNat_lt]
        · next h => simp_all

/-! ## Section 2: One character -/

section Widths

variable {a b c d : UInt8}

theorem encodeChar_one (ha : a.toNat < 0x80) :
    String.utf8EncodeChar (Char.ofNat a.toNat) = [a] := by
  have hval := val_ofNat (n := a.toNat) (.inl (by omega))
  simp only [String.utf8EncodeChar, hval]
  rw [if_pos (by omega), UInt8.ofNat_toNat]

theorem encodeChar_two (ha : 0xC2 ≤ a.toNat ∧ a.toNat < 0xE0)
    (hb : 0x80 ≤ b.toNat ∧ b.toNat < 0xC0) :
    String.utf8EncodeChar (Char.ofNat (a.toNat % 32 * 64 + tail b)) = [a, b] := by
  simp only [tail]
  have hval := val_ofNat (n := a.toNat % 32 * 64 + b.toNat % 64) (.inl (by omega))
  simp only [String.utf8EncodeChar, hval]
  rw [if_neg (by omega), if_pos (by omega)]
  simp only [List.cons.injEq, and_true, ← UInt8.toNat_inj, UInt8.toNat_ofNat']
  omega

theorem encodeChar_three (ha : 0xE0 ≤ a.toNat ∧ a.toNat < 0xF0) (hb : isSecond a b = true)
    (hc : isContinuation c = true) :
    String.utf8EncodeChar (Char.ofNat ((a.toNat % 16 * 64 + tail b) * 64 + tail c)) =
      [a, b, c] := by
  rw [isSecond_iff] at hb
  rw [isContinuation_iff] at hc
  simp only [tail]
  have hval := val_ofNat (n := (a.toNat % 16 * 64 + b.toNat % 64) * 64 + c.toNat % 64)
    (by unfold Nat.isValidChar; omega)
  simp only [String.utf8EncodeChar, hval]
  rw [if_neg (by omega), if_neg (by omega), if_pos (by omega)]
  simp only [List.cons.injEq, and_true, ← UInt8.toNat_inj, UInt8.toNat_ofNat']
  omega

theorem encodeChar_four (ha : 0xF0 ≤ a.toNat ∧ a.toNat < 0xF5) (hb : isSecond a b = true)
    (hc : isContinuation c = true) (hd : isContinuation d = true) :
    String.utf8EncodeChar
        (Char.ofNat (((a.toNat % 8 * 64 + tail b) * 64 + tail c) * 64 + tail d)) =
      [a, b, c, d] := by
  rw [isSecond_iff] at hb
  rw [isContinuation_iff] at hc hd
  simp only [tail]
  have hval := val_ofNat
    (n := ((a.toNat % 8 * 64 + b.toNat % 64) * 64 + c.toNat % 64) * 64 + d.toNat % 64)
    (by unfold Nat.isValidChar; omega)
  simp only [String.utf8EncodeChar, hval]
  rw [if_neg (by omega), if_neg (by omega), if_neg (by omega)]
  simp only [List.cons.injEq, and_true, ← UInt8.toNat_inj, UInt8.toNat_ofNat']
  omega

variable (rest : List UInt8)

theorem first_one (ha : a.toNat < 0x80) : first a rest = .char (Char.ofNat a.toNat) 1 := by
  unfold first
  rw [if_pos (UInt8.lt_iff_toNat_lt.mpr ha)]

/-- With such a byte a character of several bytes begins. -/
theorem begins_long (ha : 0xC2 ≤ a.toNat ∧ a.toNat < 0xF5) :
    ¬ a < 0x80 ∧ ¬ (a < 0xC2 || 0xF5 ≤ a) = true := by
  simp only [Bool.or_eq_true, decide_eq_true_eq, UInt8.lt_iff_toNat_lt, UInt8.le_iff_toNat_le]
  show ¬ a.toNat < 0x80 ∧ ¬ (a.toNat < 0xC2 ∨ 0xF5 ≤ a.toNat)
  omega

theorem first_two (ha : 0xC2 ≤ a.toNat ∧ a.toNat < 0xE0) (hb : isSecond a b = true) :
    first a (b :: rest) = .char (Char.ofNat (a.toNat % 32 * 64 + tail b)) 2 := by
  obtain ⟨hone, hstart⟩ := begins_long (a := a) (by omega)
  unfold first
  rw [if_neg hone, if_neg hstart]
  dsimp only
  rw [if_neg (by simp [hb]), if_pos (UInt8.lt_iff_toNat_lt.mpr ha.2)]

theorem first_three (ha : 0xE0 ≤ a.toNat ∧ a.toNat < 0xF0) (hb : isSecond a b = true)
    (hc : isContinuation c = true) :
    first a (b :: c :: rest) =
      .char (Char.ofNat ((a.toNat % 16 * 64 + tail b) * 64 + tail c)) 3 := by
  obtain ⟨hone, hstart⟩ := begins_long (a := a) (by omega)
  have htwo : ¬ a < 0xE0 := UInt8.not_lt.mpr (UInt8.le_iff_toNat_le.mpr ha.1)
  unfold first
  rw [if_neg hone, if_neg hstart]
  dsimp only
  rw [if_neg (by simp [hb]), if_neg htwo, if_neg (by simp [hc]),
    if_pos (UInt8.lt_iff_toNat_lt.mpr ha.2)]

theorem first_four (ha : 0xF0 ≤ a.toNat ∧ a.toNat < 0xF5) (hb : isSecond a b = true)
    (hc : isContinuation c = true) (hd : isContinuation d = true) :
    first a (b :: c :: d :: rest) =
      .char (Char.ofNat (((a.toNat % 8 * 64 + tail b) * 64 + tail c) * 64 + tail d)) 4 := by
  obtain ⟨hone, hstart⟩ := begins_long (a := a) (by omega)
  have hthree : ¬ a < 0xF0 := UInt8.not_lt.mpr (UInt8.le_iff_toNat_le.mpr ha.1)
  have htwo : ¬ a < 0xE0 := fun h => hthree (UInt8.lt_trans h (by decide))
  unfold first
  rw [if_neg hone, if_neg hstart]
  dsimp only
  rw [if_neg (by simp [hb]), if_neg htwo, if_neg (by simp [hc]), if_neg hthree,
    if_neg (by simp [hd])]

end Widths

/-- **What is read as a character are the bytes of that character.** -/
theorem encodeChar_of_first {b : UInt8} {rest : List UInt8} {c : Char} {width : Nat}
    (h : first b rest = .char c width) :
    ∃ after, b :: rest = String.utf8EncodeChar c ++ after ∧
      width = (String.utf8EncodeChar c).length := by
  simp only [first, Bool.or_eq_true, decide_eq_true_eq, UInt8.lt_iff_toNat_lt,
    UInt8.le_iff_toNat_le, Bool.not_eq_true', ← Bool.not_eq_true, UInt8.toNat_ofNat,
    Nat.reducePow, Nat.reduceMod] at h
  split at h
  · next hone =>
    cases h
    rw [encodeChar_one hone]
    exact ⟨rest, rfl, rfl⟩
  split at h
  · cases h
  next hone hstart =>
  split at h
  · cases h
  next second rest =>
  split at h
  · cases h
  next hsecond =>
  rw [Decidable.not_not] at hsecond
  split at h
  · next htwo =>
    cases h
    rw [encodeChar_two (by omega) (isSecond_iff.mp hsecond).1]
    exact ⟨rest, rfl, rfl⟩
  next htwo =>
  split at h
  · cases h
  next third rest =>
  split at h
  · cases h
  next hthird =>
  rw [Decidable.not_not] at hthird
  split at h
  · next hthree =>
    cases h
    rw [encodeChar_three (by omega) hsecond hthird]
    exact ⟨rest, rfl, rfl⟩
  next hthree =>
  split at h
  · cases h
  next fourth rest =>
  split at h
  · cases h
  next hfourth =>
  rw [Decidable.not_not] at hfourth
  cases h
  rw [encodeChar_four (by omega) hsecond hthird hfourth]
  exact ⟨rest, rfl, rfl⟩

/-- **The bytes of a character are read as that character**, whatever follows them. -/
theorem first_encodeChar (c : Char) (after : List UInt8) :
    ∃ b rest, String.utf8EncodeChar c ++ after = b :: rest ∧
      first b rest = .char c (String.utf8EncodeChar c).length := by
  have hvalid : c.val.toNat < 0xD800 ∨ 0xDFFF < c.val.toNat ∧ c.val.toNat < 0x110000 := c.valid
  have hnumber {n : Nat} (h : n = c.val.toNat) : Char.ofNat n = c := h ▸ Char.ofNat_toNat c
  simp only [String.utf8EncodeChar]
  generalize c.val.toNat = v at hvalid hnumber
  -- how many bytes the character takes
  split
  · refine ⟨_, _, rfl, ?_⟩
    rw [first_one, hnumber]
    · rfl
    all_goals rw [UInt8.toNat_ofNat']; omega
  split
  · refine ⟨_, _, rfl, ?_⟩
    have ha : (UInt8.ofNat (v / 64 % 32 + 192)).toNat = v / 64 + 192 := by
      rw [UInt8.toNat_ofNat']; omega
    have hb : (UInt8.ofNat (v % 64 + 128)).toNat = v % 64 + 128 := by
      rw [UInt8.toNat_ofNat']; omega
    exact (first_two after (by omega) (isSecond_iff.mpr (by omega))).trans
      (by rw [hnumber (by simp only [tail]; omega)]; rfl)
  split
  · refine ⟨_, _, rfl, ?_⟩
    have ha : (UInt8.ofNat (v / 4096 % 16 + 224)).toNat = v / 4096 + 224 := by
      rw [UInt8.toNat_ofNat']; omega
    have hb : (UInt8.ofNat (v / 64 % 64 + 128)).toNat = v / 64 % 64 + 128 := by
      rw [UInt8.toNat_ofNat']; omega
    have hc : (UInt8.ofNat (v % 64 + 128)).toNat = v % 64 + 128 := by
      rw [UInt8.toNat_ofNat']; omega
    exact (first_three after (by omega) (isSecond_iff.mpr (by omega))
      (isContinuation_iff.mpr (by omega))).trans
      (by rw [hnumber (by simp only [tail]; omega)]; rfl)
  · refine ⟨_, _, rfl, ?_⟩
    have ha : (UInt8.ofNat (v / 262144 % 8 + 240)).toNat = v / 262144 + 240 := by
      rw [UInt8.toNat_ofNat']; omega
    have hb : (UInt8.ofNat (v / 4096 % 64 + 128)).toNat = v / 4096 % 64 + 128 := by
      rw [UInt8.toNat_ofNat']; omega
    have hc : (UInt8.ofNat (v / 64 % 64 + 128)).toNat = v / 64 % 64 + 128 := by
      rw [UInt8.toNat_ofNat']; omega
    have hd : (UInt8.ofNat (v % 64 + 128)).toNat = v % 64 + 128 := by
      rw [UInt8.toNat_ofNat']; omega
    exact (first_four after (by omega) (isSecond_iff.mpr (by omega))
      (isContinuation_iff.mpr (by omega)) (isContinuation_iff.mpr (by omega))).trans
      (by rw [hnumber (by simp only [tail]; omega)]; rfl)

/-! ## Section 3: Whole texts -/

/-- The bytes of characters are read as those characters. By induction on the characters. -/
theorem strictFrom_encoded (cs : List Char) (position : Nat) :
    strictFrom position (pieces (cs.flatMap String.utf8EncodeChar)) = .ok cs := by
  induction cs generalizing position with
  | nil =>
    rw [List.flatMap_nil, pieces]
    rfl
  | cons c cs ih =>
    obtain ⟨b, rest, hbytes, hfirst⟩ := first_encodeChar c (cs.flatMap String.utf8EncodeChar)
    have hdrop : (b :: rest).drop (String.utf8EncodeChar c).length =
        cs.flatMap String.utf8EncodeChar := by
      rw [← hbytes, List.drop_left]
    rw [List.flatMap_cons, hbytes, pieces, hfirst]
    simp only [Piece.width, strictFrom]
    rw [hdrop, ih]
    rfl

/-- What is read without a fault are the bytes of the characters that are read. By induction on the
    number of bytes, with the bytes of the first character taken away. -/
theorem encoded_of_strictFrom {bytes : List UInt8} {position : Nat} {cs : List Char}
    (h : strictFrom position (pieces bytes) = .ok cs) :
    bytes = cs.flatMap String.utf8EncodeChar := by
  induction hn : bytes.length using Nat.strongRecOn generalizing bytes position cs with
  | _ n ih =>
    subst hn
    cases bytes with
    | nil =>
      rw [pieces] at h
      cases h
      rfl
    | cons b rest =>
      rw [pieces] at h
      cases hfirst : first b rest with
      | fault fault bytes =>
        rw [hfirst] at h
        cases h
      | char c width =>
        obtain ⟨after, hbytes, rfl⟩ := encodeChar_of_first hfirst
        have hless : after.length < (b :: rest).length := by
          have hwidth := one_le_width_first b rest
          rw [hfirst, Piece.width] at hwidth
          rw [hbytes, List.length_append]
          omega
        rw [hfirst] at h
        simp only [Piece.width, strictFrom] at h
        rw [hbytes, List.drop_left] at h
        cases hrest : strictFrom (position + (String.utf8EncodeChar c).length) (pieces after) with
        | error e =>
          rw [hrest] at h
          cases h
        | ok cs' =>
          rw [hrest] at h
          cases h
          rw [hbytes, List.flatMap_cons, ← ih _ hless hrest rfl]

/-- The bytes of an array that are left, behind those that were taken, the last one first. -/
theorem toList_loop (bytes : ByteArray) (i : Nat) (taken : List UInt8) :
    ByteArray.toList.loop bytes i taken = taken.reverse ++ bytes.data.toList.drop i := by
  fun_induction ByteArray.toList.loop bytes i taken with
  | case1 i taken hlt ih =>
    have hsize : i < bytes.data.toList.length := hlt
    have hget : bytes.get! i = bytes.data.toList[i] := by
      exact getElem!_pos bytes.data i hsize
    rw [ih, List.reverse_cons, hget, List.append_assoc, List.singleton_append,
      List.getElem_cons_drop]
  | case2 i taken hge =>
    have hsize : bytes.data.toList.length ≤ i := Nat.le_of_not_lt hge
    rw [List.drop_of_length_le hsize, List.append_nil]

/-- The bytes of a text are those of its characters. -/
theorem encode_eq (text : String) : encode text = text.toList.flatMap String.utf8EncodeChar := by
  unfold encode String.toUTF8 ByteArray.toList
  rw [toList_loop, ← String.utf8Encode_toList, List.utf8Encode, List.toList_data_toByteArray]
  rfl

/-- **The bytes that are read are those that encode the text.** -/
theorem strict_eq_ok_iff {bytes : List UInt8} {text : String} :
    strict bytes = .ok text ↔ encode text = bytes := by
  rw [encode_eq]
  constructor
  · intro h
    unfold strict at h
    cases hread : strictFrom 0 (pieces bytes) with
    | error e =>
      rw [hread] at h
      cases h
    | ok cs =>
      rw [hread] at h
      cases h
      rw [String.toList_ofList]
      exact (encoded_of_strictFrom hread).symm
  · rintro rfl
    unfold strict
    rw [strictFrom_encoded]
    exact congrArg Except.ok (String.ofList_toList)

end Utf8

end EventCheck
