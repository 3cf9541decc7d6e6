import EventCheck.Matching.Leaf
import EventCheck.Proofs.Json.Reading
import EventCheck.Proofs.Json.Texts

/-! # What leaves say

    A leaf that is no string says its JSON text, and no such text is taken for anything
    but a leaf of that sort.

    - `Bare`: a leaf that is no string.
    - `begins_content`: what a bare leaf says begins with a digit, a minus sign or the first
      letter of a word.
    - `bare_of_read?`: a text that begins so writes a bare leaf or nothing. So what a bare
      leaf says never writes a container.
-/

namespace EventCheck

/-! ## Section 1: How plain texts begin -/

namespace Json

/-- Can a number or a word begin with the character? -/
def beginsPlain (c : Char) : Bool :=
  isDigit c || c == '-' || c == 'n' || c == 't' || c == 'f' || c == 'N' || c == 'I'

/-- **The text begins as a number or a word does.** -/
def BeginsPlain (cs : List Char) : Prop := ∃ c rest, cs = c :: rest ∧ beginsPlain c = true

theorem BeginsPlain.append {cs : List Char} (h : BeginsPlain cs) (more : List Char) :
    BeginsPlain (cs ++ more) := by
  obtain ⟨c, rest, rfl, hc⟩ := h
  exact ⟨c, rest ++ more, rfl, hc⟩

/-- What may stand in front of a text that begins plainly without a change to that: a sign. -/
theorem BeginsPlain.signed {cs : List Char} (h : BeginsPlain cs) (negative : Bool) :
    BeginsPlain ((if negative then "-" else "").toList ++ cs) := by
  cases negative with
  | true => exact ⟨'-', cs, rfl, by decide⟩
  | false => exact h

theorem isDigit_toDigits {n : Nat} : ∀ c ∈ Nat.toDigits 10 n, isDigit c = true :=
  fun _ hc => Nat.isDigit_of_mem_toDigits (by decide) (by decide) hc

/-- The digits of a whole number begin with one. -/
theorem beginsPlain_toDigits (n : Nat) : BeginsPlain (Nat.toDigits 10 n) := by
  cases hds : Nat.toDigits 10 n with
  | nil => exact absurd hds Nat.toDigits_ne_nil
  | cons c rest =>
    have hc : isDigit c = true := isDigit_toDigits c (hds ▸ List.mem_cons_self)
    exact ⟨c, rest, rfl, by simp [beginsPlain, hc]⟩

/-- The first of one or more digits begins a text. -/
theorem BeginsPlain.take {cs : List Char} (h : BeginsPlain cs) {count : Nat} (hcount : 0 < count) :
    BeginsPlain (cs.take count) := by
  obtain ⟨c, rest, rfl, hc⟩ := h
  cases count with
  | zero => cases hcount
  | succ count => exact ⟨c, rest.take count, rfl, hc⟩

end Json

namespace Shortest

theorem Decimal.begins_text (d : Decimal) : Json.BeginsPlain d.text.toList := by
  have hdigits := Json.beginsPlain_toDigits d.digits
  unfold Decimal.text
  dsimp only
  split
  · split
    · rw [String.toList_append]
      exact Json.BeginsPlain.append ⟨'0', ['.'], rfl, by decide⟩ _
    · next hpoint =>
      -- at least one digit stands in front of the point
      simp only [String.toList_append, String.toList_ofList, List.append_assoc]
      exact (hdigits.take (by omega)).append _
  · simp only [String.toList_append, String.toList_ofList, List.append_assoc]
    exact (hdigits.take Nat.one_pos).append _

theorem begins_text (x : Float) : Json.BeginsPlain (text Json.numberSpelling x).toList := by
  unfold text
  split
  · split
    · exact ⟨'N', _, rfl, by decide⟩
    · split
      · exact ⟨'-', _, rfl, by decide⟩
      · exact ⟨'I', _, rfl, by decide⟩
  · next p hp =>
    have hsize : Json.BeginsPlain
        (if p.mantissa = 0 then "0.0" else (digits p.mantissa p.exponent).text).toList := by
      split
      · exact ⟨'0', _, rfl, by decide⟩
      · exact Decimal.begins_text _
    rw [String.toList_append]
    exact hsize.signed p.negative

end Shortest

namespace Json

/-! ## Section 2: Bare leaves -/

/-- **A leaf that is no string.** -/
def Bare (v : Json) : Prop := v.isLeaf = true ∧ ∀ s, v ≠ .str s

/-- A leaf is a string or bare. -/
theorem string_or_bare {v : Json} (h : v.isLeaf = true) : (∃ s, v = .str s) ∨ v.Bare := by
  cases v with
  | str s => exact .inl ⟨s, rfl⟩
  | _ => exact .inr ⟨h, nofun⟩

/-- The text of a whole number: its digits, behind a sign if it is negative. -/
theorem toList_int (n : Int) : (toString n).toList =
    (if decide (n < 0) then "-" else "").toList ++ Nat.toDigits 10 n.natAbs := by
  cases n with
  | ofNat n =>
    show n.repr.toList = _
    simp [Nat.repr_eq_ofList_toDigits]
  | negSucc n =>
    show ("-" ++ (n + 1).repr).toList = _
    simp [Nat.repr_eq_ofList_toDigits, Int.negSucc_lt_zero]

/-- What a bare leaf says begins as a number or a word. -/
theorem begins_content {v : Json} (h : v.Bare) : BeginsPlain v.content.toList := by
  cases v with
  | null => exact ⟨'n', _, rfl, by decide⟩
  | bool b =>
    cases b with
    | true => exact ⟨'t', _, rfl, by decide⟩
    | false => exact ⟨'f', _, rfl, by decide⟩
  | int n =>
    show BeginsPlain (toString n).toList
    rw [toList_int]
    exact (beginsPlain_toDigits n.natAbs).signed (decide (n < 0))
  | float x => exact Shortest.begins_text x
  | str s => exact absurd rfl (h.2 s)
  | arr items => cases h.1
  | obj fields => cases h.1

/-! ## Section 3: What plain texts write -/

theorem bare_of_takeWord? {cs r : List Char} {v : Json} (h : takeWord? cs = some (v, r)) :
    v.Bare := by
  unfold takeWord? at h
  split at h <;> cases h <;> exact ⟨rfl, nofun⟩

theorem NumberText.bare_of_value {t : NumberText} {v : Json} (h : t.value = .ok v) : v.Bare := by
  unfold NumberText.value at h
  split at h
  · split at h
    · cases h
    · cases h
      exact ⟨rfl, by simp⟩
  · cases h
    exact ⟨rfl, by simp⟩

theorem bare_of_readPlain {cs : List Char}
    {p : { r : Json × List Char // r.1.size + r.2.length ≤ cs.length }}
    (h : readPlain cs = .ok p) : p.1.1.Bare := by
  unfold readPlain at h
  split at h
  · next hw =>
    cases h
    exact bare_of_takeWord? hw
  · split at h
    · cases h
    · split at h
      · cases h
      · next hv =>
        cases h
        exact NumberText.bare_of_value hv

/-- A character with which a number or a word begins begins nothing else. -/
theorem ne_of_beginsPlain {c : Char} (h : beginsPlain c = true) :
    c ≠ '"' ∧ c ≠ '[' ∧ c ≠ '{' ∧ c ≠ '\ufeff' ∧ isBlank c = false := by
  refine ⟨?_, ?_, ?_, ?_, ?_⟩
  · rintro rfl
    exact absurd h (by decide)
  · rintro rfl
    exact absurd h (by decide)
  · rintro rfl
    exact absurd h (by decide)
  · rintro rfl
    exact absurd h (by decide)
  · rw [← Bool.not_eq_true]
    intro hblank
    simp only [isBlank, Bool.or_eq_true, beq_iff_eq] at hblank
    rcases hblank with ((rfl | rfl) | rfl) | rfl <;> exact absurd h (by decide)

theorem skipBlanks_of_beginsPlain {cs : List Char} (h : BeginsPlain cs) : skipBlanks cs = cs := by
  obtain ⟨c, rest, rfl, hc⟩ := h
  obtain ⟨-, -, -, -, hblank⟩ := ne_of_beginsPlain hc
  exact List.dropWhile_cons_of_neg (by simp [hblank])

theorem readValue_of_beginsPlain {depth : Nat} {cs : List Char} (h : BeginsPlain cs) :
    readValue depth cs = readPlain cs := by
  obtain ⟨c, rest, rfl, hc⟩ := h
  obtain ⟨hquote, hbracket, hbrace, -, -⟩ := ne_of_beginsPlain hc
  rw [readValue]
  · exact fun r heq => hquote (List.cons.inj heq).1
  · exact fun r heq => hbracket (List.cons.inj heq).1
  · exact fun r heq => hbrace (List.cons.inj heq).1

/-- **A text that begins plainly writes a bare leaf**, if it writes anything. -/
theorem bare_of_read? {text : String} {v : Json} (h : BeginsPlain text.toList)
    (hread : read? text = some v) : v.Bare := by
  obtain ⟨rest, hreads, -⟩ := reads_of_read? hread
  rw [skipBlanks_of_beginsPlain h] at hreads
  obtain ⟨⟨⟨v, rest⟩, hsize⟩, hvalue, heq⟩ := hreads
  cases heq
  rw [readValue_of_beginsPlain h] at hvalue
  exact bare_of_readPlain hvalue

end Json

end EventCheck
