import EventCheck.Proofs.Json.RoundTrip
import EventCheck.Proofs.Matching.Structure
import Mathlib.Logic.Relation

/-! # Values with texts in the place of containers

    - `Json.encoded`: the text of a value, the text of that text, and so on.
    - `Json.Recodes`: the same value with the text of a container in its place, encoded as
      often as one likes, at one place. `Json.Recoded` is any number of such steps, so a
      container may be encoded that holds texts of other ones.
    - `opens_encoded`: the text of a legible container opens to it, however often it was
      encoded.
    - `Legible.recodes`: a legible value stays legible.
-/

namespace EventCheck

namespace Keyed

variable {α : Type}

/-- What is found under a key is still found when another value takes the place of one, or it is
    the one. -/
theorem get?_replace (v' : α) {front rest : Keyed α} {key wanted : String} {v w : α}
    (h : get? (front ++ (key, v) :: rest) wanted = some w) :
    get? (front ++ (key, v') :: rest) wanted = some w ∨
      w = v ∧ get? (front ++ (key, v') :: rest) wanted = some v' := by
  induction front with
  | nil =>
    rw [List.nil_append, get?] at h
    by_cases hk : key = wanted
    · rw [if_pos hk] at h
      cases h
      exact .inr ⟨rfl, if_pos hk⟩
    · rw [if_neg hk] at h
      exact .inl ((if_neg hk).trans h)
  | cons entry front ih =>
    obtain ⟨k, value⟩ := entry
    rw [List.cons_append, get?] at h ⊢
    by_cases hk : k = wanted
    · rw [if_pos hk] at h ⊢
      exact .inl h
    · rw [if_neg hk] at h ⊢
      exact ih h

end Keyed

namespace Json

/-! ## Section 1: Texts of texts -/

/-- **The value encoded as often as this**: itself, its text, the text of that, and so on. -/
def encoded : Nat → Json → Json
  | 0, v => v
  | n + 1, v => .str (encoded n v).ascii

theorem Legible.encoded {v : Json} {depth : Nat} (h : v.Legible depth) (n : Nat) :
    (encoded n v).Legible depth := by
  cases n with
  | zero => exact h
  | succ n => exact legible_str _ depth

/-- **The text of a legible container opens to it**, however often it was encoded. -/
theorem opens_encoded {v : Json} (h : v.Legible maxNesting) (hv : v.isLeaf = false) (n : Nat) :
    (encoded n v).Opens v := by
  induction n with
  | zero =>
    refine .itself ?_
    rintro s rfl
    cases hv
  | succ n ih => exact .decoded (read?_written true (h.encoded n)) ih

/-! ## Section 2: Recoding -/

/-- **One value is recoded into another** at one place: the text of a container, encoded once or
    more, takes its place; or that happens inside a field or an element. -/
inductive Recodes : Json → Json → Prop where
  | text {v : Json} (hv : v.isLeaf = false) (n : Nat) : Recodes v (encoded (n + 1) v)
  | inField (front rest : Fields) (key : String) {v v' : Json} (h : Recodes v v') :
      Recodes (.obj (front ++ (key, v) :: rest)) (.obj (front ++ (key, v') :: rest))
  | inElement (front rest : List Json) {v v' : Json} (h : Recodes v v') :
      Recodes (.arr (front ++ v :: rest)) (.arr (front ++ v' :: rest))

/-- A value and another one behind any number of recodings of it. -/
def Recoded : Json → Json → Prop := Relation.ReflTransGen Recodes

/-- **What a legible value is recoded into is legible.** -/
theorem Legible.recodes {u v : Json} {depth : Nat} (hu : u.Legible depth) (h : u.Recodes v) :
    v.Legible depth := by
  induction h generalizing depth with
  | text hv n => exact legible_str _ depth
  | @inField front rest key v v' h ih =>
    obtain ⟨d, rfl⟩ := hu.exists_depth rfl
    rw [legible_obj_iff] at hu ⊢
    obtain ⟨hkeys, hfields⟩ := hu
    constructor
    · -- the keys are the same
      simpa using hkeys
    · intro field hin
      rcases List.mem_append.mp hin with hin | hin
      · exact hfields field (List.mem_append_left _ hin)
      · rcases List.mem_cons.mp hin with rfl | hin
        · exact ih (hfields (key, v) (by simp))
        · exact hfields field (List.mem_append_right _ (List.mem_cons_of_mem _ hin))
  | @inElement front rest v v' h ih =>
    obtain ⟨d, rfl⟩ := hu.exists_depth rfl
    rw [legible_arr_iff] at hu ⊢
    intro w hin
    rcases List.mem_append.mp hin with hin | hin
    · exact hu w (List.mem_append_left _ hin)
    · rcases List.mem_cons.mp hin with rfl | hin
      · exact ih (hu v (by simp))
      · exact hu w (List.mem_append_right _ (List.mem_cons_of_mem _ hin))

end Json

end EventCheck
