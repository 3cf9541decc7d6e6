/-! # Values under keys

    A `Keyed α` is a list of values under keys, in the order in which the keys
    first came. The fields of an object, the entries of a record and the variables
    of an environment are kept in this way.

    - `Keyed.put` is the one way a value enters: the last value of a key wins, in
      the place of the first (`get?_put`), and no key comes twice (`nodup_put`).
    - `Keyed.merge` sets all entries of one list in another.
-/

namespace EventCheck

/-- Values under keys, in order. -/
abbrev Keyed (α : Type) : Type := List (String × α)

namespace Keyed

variable {α : Type}

/-- The keys, in order. -/
def keys (entries : Keyed α) : List String := entries.map Prod.fst

/-- The value of a key: the first one, if the key comes twice. -/
def get? (entries : Keyed α) (key : String) : Option α :=
  match entries with
  | [] => none
  | (k, v) :: rest => if k = key then some v else get? rest key

/-- Sets a key: one that is there keeps its place, a new one goes to the end. -/
def put (entries : Keyed α) (key : String) (value : α) : Keyed α :=
  match entries with
  | [] => [(key, value)]
  | (k, v) :: rest => if k = key then (k, value) :: rest else (k, v) :: put rest key value

/-- Sets every entry of the second list in the first. -/
def merge (base upper : Keyed α) : Keyed α :=
  upper.foldl (fun all (k, v) => put all k v) base

/-- The entries of a list of pairs in which later values replace earlier ones. -/
def ofPairs (pairs : List (String × α)) : Keyed α := merge [] pairs

/-! ## Reading what was set -/

theorem get?_put (entries : Keyed α) (key other : String) (value : α) :
    get? (put entries key value) other =
      if key = other then some value else get? entries other := by
  induction entries with
  | nil => simp [put, get?]
  | cons entry rest ih =>
    obtain ⟨k, v⟩ := entry
    by_cases hk : k = key
    · subst hk
      by_cases ho : k = other <;> simp [put, get?, ho]
    · by_cases ho : k = other
      · subst ho
        simp [put, get?, hk, Ne.symm hk]
      · simp [put, get?, hk, ho, ih]

theorem mem_keys_put {entries : Keyed α} {key other : String} {value : α} :
    other ∈ (put entries key value).keys ↔ other = key ∨ other ∈ entries.keys := by
  induction entries with
  | nil => simp [put, keys]
  | cons entry rest ih =>
    obtain ⟨k, v⟩ := entry
    simp only [keys] at ih
    by_cases hk : k = key
    · subst hk
      simp [put, keys]
    · simp only [put, keys, hk, if_false, List.map_cons, List.mem_cons, ih]
      exact or_left_comm

theorem nodup_put {entries : Keyed α} (key : String) (value : α) (h : entries.keys.Nodup) :
    (put entries key value).keys.Nodup := by
  induction entries with
  | nil => simp [put, keys]
  | cons entry rest ih =>
    obtain ⟨k, v⟩ := entry
    have hc : k ∉ keys rest ∧ (keys rest).Nodup := by simpa [keys] using h
    by_cases hk : k = key
    · subst hk
      simpa [put, keys] using h
    · have hn : k ∉ keys (put rest key value) := by
        simp [mem_keys_put, hk, hc.1]
      simpa [put, keys, hk] using And.intro hn (ih hc.2)

end Keyed

end EventCheck
