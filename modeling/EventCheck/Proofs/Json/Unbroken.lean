import EventCheck.Proofs.Json.LineEnds
import EventCheck.Proofs.Json.RoundTrip

/-! # Values are written on one line

    The writer puts blanks behind commas and colons, and nothing else of its own between
    the parts of a value. Whatever ends a line inside a string is escaped.

    - `Unbroken`: no line ends within the characters.
    - `unbroken_write`: the text of a value has no end of a line in it, whichever characters
      its strings and its keys are made of.
-/

namespace EventCheck

namespace Json

/-! ## Section 1: Unbroken characters -/

/-- **No line ends** within the characters. -/
def Unbroken (cs : List Char) : Prop := ∀ c ∈ cs, isBreak c = false

instance (cs : List Char) : Decidable (Unbroken cs) :=
  inferInstanceAs (Decidable (∀ c ∈ cs, isBreak c = false))

@[simp] theorem unbroken_nil : Unbroken [] := by
  intro c hin
  cases hin

@[simp] theorem unbroken_cons {c : Char} {cs : List Char} :
    Unbroken (c :: cs) ↔ isBreak c = false ∧ Unbroken cs := List.forall_mem_cons

@[simp] theorem unbroken_append {cs cs' : List Char} :
    Unbroken (cs ++ cs') ↔ Unbroken cs ∧ Unbroken cs' := List.forall_mem_append

theorem Unbroken.sublist {cs cs' : List Char} (h : Unbroken cs) (hsub : cs'.Sublist cs) :
    Unbroken cs' := by
  intro c hin
  exact h c (hsub.mem hin)

theorem unbroken_replicate {c : Char} (hc : isBreak c = false) (n : Nat) :
    Unbroken (List.replicate n c) := by
  intro c' hin
  rw [List.eq_of_mem_replicate hin]
  exact hc

theorem unbroken_toDigits (n : Nat) : Unbroken (Nat.toDigits 10 n) := by
  intro c hin
  have hdigit := isDigit_toDigits c hin
  by_contra hbreak
  rw [isDigit_of_isBreak (by simpa using hbreak)] at hdigit
  cases hdigit

theorem unbroken_toString (n : Nat) : Unbroken (toString n).toList := by
  show Unbroken n.repr.toList
  rw [Nat.repr_eq_ofList_toDigits, String.toList_ofList]
  exact unbroken_toDigits n

end Json

/-! ## Section 2: Numbers -/

namespace Shortest

open Json

theorem Decimal.unbroken_text (d : Decimal) : Unbroken d.text.toList := by
  have hdigits := unbroken_toDigits d.digits
  have hzeros := unbroken_replicate (c := '0') rfl
  unfold Decimal.text
  dsimp only
  by_cases hpositional : positional ((Nat.toDigits 10 d.digits).length + d.exponent - 1) = true
  · -- without a power of ten: zeros in front, or a point among the digits
    rw [if_pos hpositional]
    by_cases hpoint : ((Nat.toDigits 10 d.digits).length : Int) + d.exponent ≤ 0
    · rw [if_pos hpoint]
      simp only [String.toList_append, String.toList_ofList, unbroken_append]
      exact ⟨by simp [isBreak], hzeros _, hdigits⟩
    · rw [if_neg hpoint]
      simp only [String.toList_append, String.toList_ofList, unbroken_append]
      refine ⟨⟨⟨hdigits.sublist (List.take_sublist _ _), hzeros _⟩, by simp [isBreak]⟩, ?_⟩
      split
      · simp [isBreak]
      · rw [String.toList_ofList]
        exact hdigits.sublist (List.drop_sublist _ _)
  · -- one digit in front of the point, and a power of ten
    rw [if_neg hpositional]
    simp only [String.toList_append, String.toList_ofList, unbroken_append]
    refine ⟨⟨⟨⟨hdigits.sublist (List.take_sublist _ _), ?_⟩, by simp [isBreak]⟩, ?_⟩, ?_⟩
    · split
      · simp
      · simp only [String.toList_append, String.toList_ofList, unbroken_append]
        exact ⟨by simp [isBreak], hdigits.sublist (List.drop_sublist _ _)⟩
    · split <;> simp [isBreak]
    · split
      · rw [String.toList_append, unbroken_append]
        exact ⟨by simp [isBreak], unbroken_toString _⟩
      · exact unbroken_toString _

theorem unbroken_text (x : Float) : Unbroken (text numberSpelling x).toList := by
  unfold text
  split
  · split
    · simp [numberSpelling, isBreak]
    · split <;> simp [numberSpelling, isBreak]
  · next p hp =>
    rw [String.toList_append, unbroken_append]
    constructor
    · split <;> simp [isBreak]
    · split
      · simp [isBreak]
      · exact Decimal.unbroken_text _

end Shortest

/-! ## Section 3: Values -/

namespace Json

/-- What a bare leaf says has no end of a line in it. -/
theorem unbroken_content {v : Json} (h : v.Bare) : Unbroken v.content.toList := by
  cases v with
  | null => simp [content, writeLeaf, isBreak]
  | bool b => cases b <;> simp [content, writeLeaf, isBreak]
  | int n =>
    show Unbroken (toString n).toList
    rw [toList_int, unbroken_append]
    refine ⟨?_, unbroken_toDigits n.natAbs⟩
    split <;> simp [isBreak]
  | float x => exact Shortest.unbroken_text x
  | str s => exact absurd rfl (h.2 s)
  | arr items => cases h.1
  | obj fields => cases h.1

variable (asciiOnly : Bool)

/-- Whatever a string is made of, it is written on one line: what is read as the string is spelt
    without an end of a line. -/
theorem unbroken_writeString (s : String) : Unbroken (writeString asciiOnly s).toList := by
  obtain ⟨used, hcs, hspells⟩ := spells_of_readsChars (readsChars_written asciiOnly s.toList 0 [])
  rw [List.append_nil] at hcs
  -- `used` is all that was written behind the quote in front
  rw [toList_writeString, hcs, unbroken_cons]
  exact ⟨rfl, hspells.unbroken⟩

theorem unbroken_joined {texts : List String} (h : ∀ text ∈ texts, Unbroken text.toList) :
    Unbroken (joined texts) := by
  induction texts with
  | nil => simp [joined]
  | cons text rest ih =>
    have htext := h text List.mem_cons_self
    cases rest with
    | nil =>
      rw [joined_singleton]
      exact htext
    | cons next rest =>
      have hrest := ih fun text hin => h text (List.mem_cons_of_mem _ hin)
      rw [joined_cons, unbroken_append, unbroken_cons, unbroken_cons]
      exact ⟨htext, rfl, rfl, hrest⟩

theorem mem_writeItems {text : String} {items : List Json} (h : text ∈ writeItems asciiOnly items) :
    ∃ v ∈ items, text = v.write asciiOnly := by
  induction items with
  | nil => cases h
  | cons v rest ih =>
    rcases List.mem_cons.mp h with rfl | hin
    · exact ⟨v, List.mem_cons_self, rfl⟩
    · obtain ⟨w, hw, htext⟩ := ih hin
      exact ⟨w, List.mem_cons_of_mem _ hw, htext⟩

theorem mem_writeFields {text : String} {fields : Fields}
    (h : text ∈ writeFields asciiOnly fields) : ∃ field ∈ fields,
      text = writeString asciiOnly field.1 ++ ": " ++ field.2.write asciiOnly := by
  induction fields with
  | nil => cases h
  | cons field rest ih =>
    obtain ⟨key, v⟩ := field
    rcases List.mem_cons.mp h with rfl | hin
    · exact ⟨(key, v), List.mem_cons_self, rfl⟩
    · obtain ⟨field, hfield, htext⟩ := ih hin
      exact ⟨field, List.mem_cons_of_mem _ hfield, htext⟩

/-- **A value is written on one line.** By induction over the value: the parts of a container are
    joined by commas and blanks. -/
theorem unbroken_write (v : Json) : Unbroken (v.write asciiOnly).toList := by
  induction v using tree_induction with
  | leaf v hleaf =>
    rcases string_or_bare hleaf with ⟨s, rfl⟩ | hbare
    · rw [toList_str, ← toList_writeString]
      exact unbroken_writeString asciiOnly s
    · rw [write_of_bare asciiOnly hbare]
      exact unbroken_content hbare
  | arr items ih =>
    have hitems : Unbroken (joined (writeItems asciiOnly items)) := by
      apply unbroken_joined
      intro text hin
      obtain ⟨v, hv, rfl⟩ := mem_writeItems asciiOnly hin
      exact ih v hv
    rw [toList_arr, unbroken_cons, unbroken_append]
    exact ⟨rfl, hitems, by simp [isBreak]⟩
  | obj fields ih =>
    have hfields : Unbroken (joined (writeFields asciiOnly fields)) := by
      apply unbroken_joined
      intro text hin
      obtain ⟨field, hfield, rfl⟩ := mem_writeFields asciiOnly hin
      simp only [String.toList_append, unbroken_append]
      exact ⟨⟨unbroken_writeString asciiOnly field.1, by simp [isBreak]⟩, ih field hfield⟩
    rw [toList_obj, unbroken_cons, unbroken_append]
    exact ⟨rfl, hfields, by simp [isBreak]⟩

end Json

end EventCheck
