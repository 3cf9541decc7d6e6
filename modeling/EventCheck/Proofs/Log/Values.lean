import EventCheck.Proofs.Json.Reading
import EventCheck.Proofs.Json.Values
import EventCheck.Proofs.Log.Data
import EventCheck.Store.Event
import Mathlib.Algebra.Ring.Nat
import Mathlib.Data.List.TakeWhile

/-! # Which values can be logged

    Of what callers hand in, only whole numbers can be too long for the log.

    - `isLoggable_obj` and its siblings: a container can be logged if all that is in it can.
    - `isLoggable_of_toJson?`: JSON data can be logged if the value it was taken from can.
    - `isLoggable_of_read?`: what a text writes can always be logged, since a text writes
      no number that is too long.
-/

namespace EventCheck

/-! ## Section 1: Numbers and containers -/

/-- A whole number is short if it lies below the power of ten with that many zeros. -/
theorem Log.isShort_iff {n : Int} : isShort n = true ↔ n.natAbs < 10 ^ Json.maxDigits := by
  rw [isShort, decide_eq_true_eq, Nat.length_toDigits_le_iff (by decide) (by decide)]

namespace Value

open Log

theorem areWritable_ofValues (items : List Value) :
    Datum.areWritable (Datum.ofValues items) = items.all isLoggable := by
  induction items with
  | nil => rfl
  | cons v rest ih =>
    rw [Datum.ofValues, Datum.areWritable, ih]
    rfl

theorem fieldsWritable_ofFields (fields : Keyed Value) :
    Datum.fieldsWritable (Datum.ofFields fields) = fields.all fun field => field.2.isLoggable := by
  induction fields with
  | nil => rfl
  | cons field rest ih =>
    obtain ⟨key, v⟩ := field
    have hkey : (Key.text (.ofString key)).isWritable = true := Text.isPlain_ofString key
    rw [Datum.ofFields, Datum.fieldsWritable, ih, hkey, Bool.true_and]
    rfl

@[simp] theorem isLoggable_int (n : Int) : (Value.int n).isLoggable = isShort n := by
  rw [isLoggable, Datum.ofValue, Datum.isWritable]

@[simp] theorem isLoggable_str (s : String) : (Value.str s).isLoggable = true := by
  rw [isLoggable, Datum.ofValue, Datum.isWritable, Text.isPlain_ofString]

@[simp] theorem isLoggable_arr (items : List Value) :
    (Value.arr items).isLoggable = items.all isLoggable := by
  rw [isLoggable, Datum.ofValue, Datum.isWritable, areWritable_ofValues]

@[simp] theorem isLoggable_obj (fields : Keyed Value) :
    (Value.obj fields).isLoggable = fields.all fun field => field.2.isLoggable := by
  rw [isLoggable, Datum.ofValue, Datum.isWritable, fieldsWritable_ofFields]

/-! ## Section 2: JSON data -/

theorem all_ofFields (fields : Fields) :
    ((ofFields fields).all fun field => field.2.isLoggable) =
      fields.all fun field => (ofJson field.2).isLoggable := by
  induction fields with
  | nil => rfl
  | cons field rest ih => rw [ofFields, List.all_cons, List.all_cons, ih]

mutual

/-- **JSON data can be logged exactly if the value it was taken from can.** -/
theorem isLoggable_of_toJson? : (v : Value) → ∀ {j : Json}, v.toJson? = some j →
    (ofJson j).isLoggable = v.isLoggable
  | .arr items => by
    intro h
    rw [toJson?, Option.map_eq_some_iff] at h
    obtain ⟨js, hjs, rfl⟩ := h
    rw [ofJson, isLoggable_arr, isLoggable_arr, all_of_toItems? items hjs]
  | .obj fields => by
    intro h
    rw [toJson?, Option.map_eq_some_iff] at h
    obtain ⟨js, hjs, rfl⟩ := h
    rw [ofJson, isLoggable_obj, isLoggable_obj, all_of_toFields? fields hjs]
  | .null | .bool _ | .int _ | .float _ | .str _ => by
    intro h
    cases h
    rfl
  | .tuple _ | .set _ | .bytes _ | .other _ => by
    intro h
    cases h

theorem all_of_toItems? : (items : List Value) → ∀ {js : List Json}, toItems? items = some js →
    (ofItems js).all isLoggable = items.all isLoggable
  | [] => by
    intro h
    cases h
    rfl
  | v :: rest => by
    intro h
    simp only [toItems?, Option.bind_eq_some_iff, Option.map_eq_some_iff] at h
    obtain ⟨j, hj, js, hjs, rfl⟩ := h
    rw [ofItems, List.all_cons, List.all_cons, isLoggable_of_toJson? v hj, all_of_toItems? rest hjs]

theorem all_of_toFields? : (fields : Keyed Value) → ∀ {js : Fields}, toFields? fields = some js →
    ((ofFields js).all fun field => field.2.isLoggable) =
      fields.all fun field => field.2.isLoggable
  | [] => by
    intro h
    cases h
    rfl
  | (key, v) :: rest => by
    intro h
    simp only [toFields?, Option.bind_eq_some_iff, Option.map_eq_some_iff] at h
    obtain ⟨j, hj, js, hjs, rfl⟩ := h
    rw [ofFields, List.all_cons, List.all_cons, isLoggable_of_toJson? v hj,
      all_of_toFields? rest hjs]

end

end Value

/-! ## Section 3: What texts write -/

namespace Json

/-- A run of digits writes less than the power of ten for their number. -/
theorem foldl_digits_lt {ds : List Char} (h : ∀ c ∈ ds, isDigit c = true) (n : Nat) :
    ds.foldl (fun n c => n * 10 + (c.toNat - 48)) n < (n + 1) * 10 ^ ds.length := by
  induction ds generalizing n with
  | nil => simp
  | cons c rest ih =>
    have hc : c.toNat ≤ 57 := by
      have hdigit := h c List.mem_cons_self
      simp only [isDigit, Bool.and_eq_true, decide_eq_true_eq] at hdigit
      exact hdigit.2
    have hstep : n * 10 + (c.toNat - 48) + 1 ≤ (n + 1) * 10 := by omega
    rw [List.foldl_cons, List.length_cons, Nat.pow_succ']
    calc rest.foldl (fun n c => n * 10 + (c.toNat - 48)) (n * 10 + (c.toNat - 48))
        < (n * 10 + (c.toNat - 48) + 1) * 10 ^ rest.length :=
          ih (fun c hin => h c (List.mem_cons_of_mem _ hin)) _
      _ ≤ (n + 1) * 10 * 10 ^ rest.length := Nat.mul_le_mul_right _ hstep
      _ = (n + 1) * (10 * 10 ^ rest.length) := Nat.mul_assoc ..

theorem digitsValue_lt {ds : List Char} (h : ∀ c ∈ ds, isDigit c = true) :
    digitsValue ds < 10 ^ ds.length := by
  simpa [digitsValue] using foldl_digits_lt h 0

/-- The whole part of a number that is taken from a text consists of digits. -/
theorem isDigit_of_takeNumber? {cs r : List Char} {t : NumberText}
    (h : takeNumber? cs = some (t, r)) : ∀ c ∈ t.whole, isDigit c = true := by
  obtain ⟨⟨whole, r'⟩, hwhole, heq⟩ := Option.map_eq_some_iff.mp h
  have ht : whole = t.whole := congrArg (fun p => p.1.whole) heq
  rw [← ht]
  clear ht heq
  split at hwhole
  · cases hwhole
    simp [isDigit]
  · split at hwhole
    · cases hwhole
      intro c hin
      exact List.mem_takeWhile_imp hin
    · cases hwhole
  · cases hwhole

theorem isShort_of_digits {ds : List Char} (h : ∀ c ∈ ds, isDigit c = true)
    (hlength : ds.length ≤ maxDigits) (negative : Bool) :
    Log.isShort (if negative then -(digitsValue ds : Int) else digitsValue ds) = true := by
  have hlt : digitsValue ds < 10 ^ maxDigits :=
    Nat.lt_of_lt_of_le (digitsValue_lt h) (Nat.pow_le_pow_right (by decide) hlength)
  apply Log.isShort_iff.mpr
  cases negative <;> simpa using hlt

theorem kept_loggable : Kept fun v => (Value.ofJson v).isLoggable = true where
  word := by
    intro cs r v h
    unfold takeWord? at h
    split at h <;> cases h <;> rfl
  number := by
    intro cs r t v ht hv
    unfold NumberText.value at hv
    split at hv
    · split at hv
      · cases hv
      · next hlength =>
        cases hv
        rw [Value.ofJson, Value.isLoggable_int]
        exact isShort_of_digits (isDigit_of_takeNumber? ht) (Nat.not_lt.mp hlength) t.negative
    · cases hv
      rfl
  text := fun s => Value.isLoggable_str s
  array := by
    intro items h
    rw [Value.ofJson, Value.isLoggable_arr, Value.ofItems_eq_map, List.all_map, List.all_eq_true]
    exact h
  object := by
    intro pairs h
    rw [Value.ofJson, Value.isLoggable_obj, Value.all_ofFields, List.all_eq_true]
    intro field hin
    exact h field (Keyed.mem_of_mem_ofPairs hin)

/-- **What a text writes can be logged.** -/
theorem isLoggable_of_read? {text : String} {v : Json} (h : read? text = some v) :
    (Value.ofJson v).isLoggable = true :=
  kept_loggable.holds_of_read? h

end Json

end EventCheck
