import EventCheck.Proofs.Matching.Structure

/-! # Matching ends

    Whether an event satisfies a pattern is a question that raises further ones: about
    the values of an object, about the elements of an array, and about what a string
    writes. The last kind does not go down in the event: a leaf makes room for a whole
    new tree. But that tree is smaller than the leaf, since no text is shorter than its
    value is large.

    - `Question.answer` is one round of the rules. What it has to know about other
      events it asks.
    - `Question.answerWithin` lets the questions be asked inside one another, up to some
      depth, and notes who asked what.
    - `ends_answer`: a round ends if the questions about smaller events do.
    - `matching_ends`: so each question is answered, and each one that comes up on the
      way is about a smaller event than the one before it.
-/

namespace EventCheck

namespace Json

/-! ## Section 1: Smaller events -/

theorem size_lt_of_get? {fields : Fields} {key : String} {v : Json}
    (h : Keyed.get? fields key = some v) : v.size < (Json.obj fields).size := by
  have hle : v.size ≤ sizeFields fields := by
    induction fields with
    | nil => cases h
    | cons field rest ih =>
      obtain ⟨k, w⟩ := field
      rw [Keyed.get?] at h
      simp only [sizeFields]
      by_cases hk : k = key
      · rw [if_pos hk] at h
        cases h
        omega
      · rw [if_neg hk] at h
        have := ih h
        omega
  simp only [size]
  omega

theorem size_lt_of_mem {items : List Json} {v : Json} (h : v ∈ items) :
    v.size < (Json.arr items).size := by
  have hle : v.size ≤ sizeItems items := by
    induction items with
    | nil => cases h
    | cons w rest ih =>
      simp only [sizeItems]
      rcases List.mem_cons.mp h with rfl | hin
      · omega
      · have := ih hin
        omega
  simp only [size]
  omega

/-- **Decoding shrinks**: the value of a text is no larger than the text is long, and so smaller
    than the text is as a string. -/
theorem size_of_read? {s : String} {v : Json} (h : read? s = some v) :
    v.size ≤ s.length ∧ s.length < (Json.str s).size := by
  have hlt : s.length < (Json.str s).size := by
    simp only [size]
    omega
  exact ⟨size_le_of_read? h, hlt⟩

/-! ## Section 2: Questions -/

/-- Does the event satisfy the pattern? -/
structure Question where
  event : Json
  pattern : Json

namespace Question

variable {m : Type → Type} [Monad m]

/-- Have the fields a value for each wanted one? -/
def askFields (ask : Question → m Bool) (fields : Fields) : Fields → m Bool
  | [] => pure true
  | (key, wanted) :: rest =>
    match Keyed.get? fields key with
    | none => pure false
    | some value => do
      if ← ask ⟨value, wanted⟩ then askFields ask fields rest else pure false

/-- Does one of the elements satisfy the pattern? -/
def askSome (ask : Question → m Bool) (wanted : Json) : List Json → m Bool
  | [] => pure false
  | item :: rest => do
    if ← ask ⟨item, wanted⟩ then pure true else askSome ask wanted rest

/-- Is there an element for each wanted one? -/
def askItems (ask : Question → m Bool) (items : List Json) : List Json → m Bool
  | [] => pure true
  | wanted :: rest => do
    if ← askSome ask wanted items then askItems ask items rest else pure false

/-- **One round of the rules.** A string is decoded, and what it writes is asked about instead. -/
def answer (ask : Question → m Bool) (q : Question) : m Bool :=
  if q.event.isLeaf && q.pattern.isLeaf then pure (q.event.leafMatches q.pattern)
  else
    match q.event, q.pattern with
    | .str s, pattern =>
      match read? s with
      | none => pure false
      | some inner => ask ⟨inner, pattern⟩
    | .obj fields, .obj wanted => askFields ask fields wanted
    | .arr items, .arr wanted => askItems ask items wanted
    | _, _ => pure false

/-- Who asked what: pairs of a question and one that it raised. -/
abbrev Trace := List (Question × Question)

/-- **The answer to a question**, if no more than this many questions are asked inside one another.
    Each question that is raised is noted before it is answered. -/
def answerWithin : Nat → Question → StateT Trace Option Bool
  | 0, _ => fun _ => none
  | depth + 1, q =>
    q.answer fun raised => do
      modify (· ++ [(q, raised)])
      answerWithin depth raised

/-! ## Section 3: How questions end -/

/-- Every question that was raised is about a smaller event than the one that raised it. -/
def Descends (trace : Trace) : Prop := ∀ asked ∈ trace, asked.2.event.size < asked.1.event.size

/-- **The inquiry ends** with this answer, and it went down all the way. -/
def Ends (inquiry : StateT Trace Option Bool) (b : Bool) : Prop :=
  ∀ trace, Descends trace → ∃ trace', inquiry.run trace = some (b, trace') ∧ Descends trace'

theorem ends_pure (b : Bool) : Ends (pure b) b := by
  intro trace htrace
  exact ⟨trace, rfl, htrace⟩

theorem Ends.bind {x : StateT Trace Option Bool} {f : Bool → StateT Trace Option Bool} {b c : Bool}
    (hx : Ends x b) (hf : Ends (f b) c) : Ends (x >>= f) c := by
  intro trace htrace
  obtain ⟨trace', hrun, htrace'⟩ := hx trace htrace
  obtain ⟨trace'', hrun', htrace''⟩ := hf trace' htrace'
  refine ⟨trace'', ?_, htrace''⟩
  rw [StateT.run_bind, hrun]
  exact hrun'

/-- A question about a smaller event may be noted. -/
theorem Ends.noted {x : StateT Trace Option Bool} {b : Bool} {q raised : Question} (hx : Ends x b)
    (hless : raised.event.size < q.event.size) :
    Ends (do modify (· ++ [(q, raised)]); x) b := by
  intro trace htrace
  have hnoted : Descends (trace ++ [(q, raised)]) := by
    intro asked hin
    rcases List.mem_append.mp hin with hin | hin
    · exact htrace asked hin
    · rw [List.mem_singleton.mp hin]
      exact hless
  exact hx _ hnoted

/-- The question ends with the answer that matching gives. -/
def Settles (ask : Question → StateT Trace Option Bool) (q : Question) : Prop :=
  Ends (ask q) (q.event.satisfies q.pattern)

variable {ask : Question → StateT Trace Option Bool}

theorem ends_askFields {fields : Fields}
    (h : ∀ key v, Keyed.get? fields key = some v → ∀ w, Settles ask ⟨v, w⟩) (wanted : Fields) :
    Ends (askFields ask fields wanted) (fieldsSatisfy fields wanted) := by
  induction wanted with
  | nil => exact ends_pure true
  | cons field rest ih =>
    obtain ⟨key, w⟩ := field
    rw [askFields, fieldsSatisfy]
    cases hget : Keyed.get? fields key with
    | none => exact ends_pure false
    | some v =>
      apply (h key v hget w).bind
      dsimp only
      -- the first value that does not satisfy what is wanted of it decides
      cases v.satisfies w with
      | true => exact ih
      | false => exact ends_pure false

theorem ends_askSome {items : List Json} {w : Json} (h : ∀ v ∈ items, Settles ask ⟨v, w⟩) :
    Ends (askSome ask w items) (items.any fun v => v.satisfies w) := by
  induction items with
  | nil => exact ends_pure false
  | cons v rest ih =>
    rw [askSome, List.any_cons]
    apply (h v List.mem_cons_self).bind
    -- the first element that satisfies it decides
    cases v.satisfies w with
    | true => exact ends_pure true
    | false => exact ih fun v hin => h v (List.mem_cons_of_mem _ hin)

theorem ends_askItems {items : List Json} (h : ∀ v ∈ items, ∀ w, Settles ask ⟨v, w⟩)
    (wanted : List Json) : Ends (askItems ask items wanted) (itemsSatisfy items wanted) := by
  induction wanted with
  | nil => exact ends_pure true
  | cons w rest ih =>
    rw [askItems, itemsSatisfy]
    apply (ends_askSome fun v hin => h v hin w).bind
    cases items.any fun v => v.satisfies w with
    | true => exact ih
    | false => exact ends_pure false

/-- A container asks of a string what it asks of the value that the string writes. -/
theorem satisfies_str {s : String} {pattern : Json} (hp : pattern.isLeaf = false) :
    (Json.str s).satisfies pattern =
      match read? s with
      | none => false
      | some inner => inner.satisfies pattern := by
  cases pattern with
  | arr wanted =>
    rw [satisfies, opened?_str]
    cases read? s with
    | none => rfl
    | some inner => exact (satisfies.eq_def inner (.arr wanted)).symm
  | obj wanted =>
    rw [satisfies, opened?_str]
    cases read? s with
    | none => rfl
    | some inner => exact (satisfies.eq_def inner (.obj wanted)).symm
  | _ => cases hp

theorem satisfies_arr (items wanted : List Json) :
    (Json.arr items).satisfies (.arr wanted) = itemsSatisfy items wanted := by
  rw [satisfies, opened?_of_not_string (by simp)]

theorem satisfies_obj (fields wanted : Fields) :
    (Json.obj fields).satisfies (.obj wanted) = fieldsSatisfy fields wanted := by
  rw [satisfies, opened?_of_not_string (by simp)]

/-- What is no string satisfies nothing of another kind, unless both are leaves. -/
theorem satisfies_of_kind_ne {event pattern : Json}
    (hleaves : ¬ (event.isLeaf && pattern.isLeaf) = true) (hevent : ∀ s, event ≠ .str s)
    (hkind : event.kind ≠ pattern.kind) : event.satisfies pattern = false := by
  cases pattern with
  | arr wanted =>
    rw [satisfies, opened?_of_not_string hevent]
    cases event with
    | arr items => exact absurd rfl hkind
    | _ => rfl
  | obj wanted =>
    rw [satisfies, opened?_of_not_string hevent]
    cases event with
    | obj fields => exact absurd rfl hkind
    | _ => rfl
  | _ =>
    rw [satisfies_leaf rfl]
    cases hleaf : event.isLeaf with
    | false => rfl
    | true =>
      rw [hleaf] at hleaves
      exact absurd rfl hleaves

/-- **A round ends if the questions about smaller events do.** One case for each sort of event. -/
theorem ends_answer {q : Question}
    (h : ∀ raised : Question, raised.event.size < q.event.size → Settles ask raised) :
    Settles (answer ask) q := by
  obtain ⟨event, pattern⟩ := q
  unfold Settles answer
  dsimp only at h ⊢
  by_cases hleaves : (event.isLeaf && pattern.isLeaf) = true
  · rw [if_pos hleaves]
    obtain ⟨hevent, hpattern⟩ := Bool.and_eq_true_iff.mp hleaves
    rw [satisfies_leaf hpattern, hevent, Bool.true_and]
    exact ends_pure _
  rw [if_neg hleaves]
  cases event with
  | str s =>
    -- the string makes room for what it writes, which is smaller
    have hpattern : pattern.isLeaf = false := Bool.eq_false_iff.mpr hleaves
    rw [satisfies_str hpattern]
    dsimp only
    cases hread : read? s with
    | none => exact ends_pure false
    | some inner =>
      obtain ⟨hle, hlt⟩ := size_of_read? hread
      exact h ⟨inner, pattern⟩ (Nat.lt_of_le_of_lt hle hlt)
  | arr items =>
    cases pattern with
    | arr wanted =>
      rw [satisfies_arr]
      exact ends_askItems (fun v hin w => h ⟨v, w⟩ (size_lt_of_mem hin)) wanted
    | _ =>
      rw [satisfies_of_kind_ne hleaves nofun nofun]
      exact ends_pure false
  | obj fields =>
    cases pattern with
    | obj wanted =>
      rw [satisfies_obj]
      exact ends_askFields (fun key v hget w => h ⟨v, w⟩ (size_lt_of_get? hget)) wanted
    | _ =>
      rw [satisfies_of_kind_ne hleaves nofun nofun]
      exact ends_pure false
  | _ =>
    -- any other leaf, and a container that it cannot be
    cases pattern with
    | arr wanted =>
      rw [satisfies_of_kind_ne hleaves nofun nofun]
      exact ends_pure false
    | obj wanted =>
      rw [satisfies_of_kind_ne hleaves nofun nofun]
      exact ends_pure false
    | _ => exact absurd rfl hleaves

/-- **A question ends within the size of its event.** By induction on the depth: what a round asks
    is about smaller events, so one level less is enough for it. -/
theorem ends_answerWithin {q : Question} {depth : Nat} (h : q.event.size ≤ depth) :
    Settles (answerWithin depth) q := by
  induction depth generalizing q with
  | zero =>
    have := one_le_size q.event
    omega
  | succ depth ih =>
    show Settles (answer fun raised => do modify (· ++ [(q, raised)]); answerWithin depth raised) q
    apply ends_answer
    intro raised hless
    have hbelow : raised.event.size ≤ depth := by omega
    exact (ih hbelow).noted hless

end Question

/-- **Matching ends, because decoding shrinks.** The value that a text writes is no larger than the
    text is long, and so smaller than the text is as a string. Whatever the event and the pattern
    are, no more questions are asked inside one another than the event is large. Each of them is
    about a smaller event than the one that raised it, and the answer is that of matching. -/
theorem matching_ends :
    (∀ (s : String) (v : Json), read? s = some v →
      v.size ≤ s.length ∧ s.length < (Json.str s).size) ∧
    ∀ (event pattern : Json) (depth : Nat), event.size ≤ depth →
      ∃ answer trace, (Question.answerWithin depth ⟨event, pattern⟩).run [] = some (answer, trace) ∧
        (∀ asked ∈ trace, asked.2.event.size < asked.1.event.size) ∧
        (Value.ofJson event).satisfies (Value.ofJson pattern) = .ok answer := by
  constructor
  · intro s v hread
    exact size_of_read? hread
  · intro event pattern depth hdepth
    have hends : Question.Settles (Question.answerWithin depth) ⟨event, pattern⟩ :=
      Question.ends_answerWithin hdepth
    obtain ⟨trace, hrun, htrace⟩ := hends [] (by intro asked hin; cases hin)
    exact ⟨event.satisfies pattern, trace, hrun, htrace, Value.satisfies_ofJson event pattern⟩

end Json

end EventCheck
