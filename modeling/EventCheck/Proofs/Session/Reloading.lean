import EventCheck.Proofs.Json.Texts
import EventCheck.Proofs.Json.Values
import EventCheck.Proofs.Pattern.Loading
import EventCheck.Proofs.Session.Failures
import EventCheck.Proofs.Session.Verifying

/-! # Patterns that are loaded twice

    To find the item of an event a pattern is loaded, and what was loaded is handed
    as a mapping to a check, which loads it again. The two do not agree: a text may
    nest as deep as can be read, a mapping only as deep as may be stored.

    - `Pattern.Shallow`: each field of a pattern nests no deeper than storage allows.
      This is what a pattern from a mapping always is, and what it takes to be loaded
      again.
    - `Act.failsOnly_check`: a check fails over its pattern only when it loads it.
    - `Session.reloading_agrees_iff`: checks take every pattern that can be loaded, and
      the search for an item takes exactly the shallow ones of them.
    - `Session.deeperPattern_refused`: a text that a check takes and the search for an
      item refuses.
-/

namespace EventCheck

/-! ## Section 1: What the acts of a test fail with -/

/-- A pattern that a text writes can be logged. -/
theorem Pattern.isLoggable_of_ofText {origin : Origin} {text : String} {p : Fields}
    (h : (ofText origin text).map some = .ok (some p)) :
    (Value.ofJson (.obj p)).isLoggable = true :=
  Json.isLoggable_of_read? (ofText_eq_ok_iff.mp (map_some_eq_ok_iff.mp h))

/-- So can every pattern that is not shallow, since no mapping gives one. -/
theorem Pattern.isLoggable_of_not_shallow {source : Source} {p : Fields}
    (h : load source = .ok (some p)) (hdeep : ¬ Shallow p) :
    (Value.ofJson (.obj p)).isLoggable = true := by
  cases source with
  | none => cases h
  | mapping fields => exact absurd (shallow_of_mapping h) hdeep
  | text text => exact isLoggable_of_ofText h
  | bytes bytes =>
    rw [load] at h
    split at h
    · cases h
    · exact isLoggable_of_ofText h
  | file path content =>
    cases content with
    | missing => cases h
    | holds bytes =>
      rw [load] at h
      split at h
      · cases h
      · exact isLoggable_of_ofText h
  | unfit typeName => cases h

namespace Act

variable {w : World} {s : Session} {source : Pattern.Source} {pattern : Option Fields}
  {P : Failure → Prop}

theorem failsOnly_load (h : Pattern.load source = .ok pattern) : (load source).FailsOnly P := by
  rw [load_eq h]
  exact failsOnly_pure pattern

theorem failsWith_load {e : Pattern.Error} (h : Pattern.load source = .error e) :
    (load source).FailsWith w s (.badPattern e) := (refused_load h).failsWith

theorem failsOnly_timeoutOf (timeout : Option (Seconds Float)) : (timeoutOf timeout).FailsOnly P :=
  failsOnly_read.bind fun _ => failsOnly_pure _

theorem failsOnly_attach (name : String) (occasion : Occasion) (expected : Option Value)
    (actual : Option Event) : (attach name occasion expected actual).FailsOnly P :=
  failsOnly_read.bind fun _ => failsOnly_change _

/-- Is the failure about something else than a pattern that cannot be loaded? -/
def otherThanPattern : Failure → Prop
  | .badPattern _ => False
  | _ => True

/-- **Once its pattern is loaded, a check fails over something else.** -/
theorem failsOnly_check {expected : Expectation} (h : Pattern.load expected.source = .ok pattern) :
    (check expected).FailsOnly otherThanPattern := by
  unfold check
  refine (failsOnly_load h).bind fun pattern => ?_
  refine (failsOnly_timeoutOf _).bind fun timeout => ?_
  refine (failsOnly_demand trivial _).bind fun _ => ?_
  refine (failsOnly_change _).bind fun _ => ?_
  refine (failsOnly_watch (fun _ => trivial) trivial _ _).bind fun result => ?_
  split
  · exact (failsOnly_attach _ _ _ _).bind fun _ => failsOnly_throw trivial
  · exact (failsOnly_attach _ _ _ _).bind fun _ => failsOnly_pure _

theorem failsOnly_checkAt (number : Nat) : (checkAt number).FailsOnly otherThanPattern := by
  refine failsOnly_get.bind fun s => ?_
  split
  · exact failsOnly_pure _
  · exact failsOnly_throw trivial

theorem failsOnly_schedule (q : Search) : (schedule q).FailsOnly otherThanPattern := by
  unfold schedule
  refine failsOnly_read.bind fun w => ?_
  refine failsOnly_get.bind fun s => ?_
  refine (failsOnly_set _).bind fun _ => ?_
  refine (failsOnly_demand trivial _).bind fun _ => ?_
  split
  · exact (failsOnly_change _).bind fun _ => failsOnly_pure _
  · exact failsOnly_pure _

/-- So does a check in the background, which is only scheduled. -/
theorem failsOnly_checkLater {expected : Expectation}
    (h : Pattern.load expected.source = .ok pattern) :
    (checkLater expected).FailsOnly otherThanPattern := by
  unfold checkLater
  refine (failsOnly_load h).bind fun pattern => ?_
  refine (failsOnly_timeoutOf _).bind fun timeout => ?_
  exact (failsOnly_change _).bind fun _ => failsOnly_schedule _

theorem failsOnly_filter (f : Filter) (h : Pattern.load source = .ok pattern) :
    (filter f source).FailsOnly otherThanPattern := by
  unfold filter
  refine (failsOnly_load h).bind fun pattern => ?_
  refine failsOnly_get.bind fun s => ?_
  split
  · exact failsOnly_pure _
  · exact failsOnly_throw trivial

/-- The search for an item fails over something else as well, if its pattern can be loaded again
    or there is none. -/
theorem failsOnly_matchedItem {expected : Expectation}
    (h : Pattern.load expected.source = .ok pattern)
    (hshallow : ∀ p, pattern = some p → Pattern.Shallow p) (position : String) :
    (matchedItem expected position).FailsOnly otherThanPattern := by
  unfold matchedItem
  rw [load_eq h, pure_bind]
  cases pattern with
  | none => exact failsOnly_throw trivial
  | some p =>
    refine (failsOnly_demand trivial _).bind fun _ => ?_
    refine (failsOnly_change _).bind fun _ => ?_
    refine (failsOnly_check (Pattern.load_of_shallow (hshallow p rfl))).bind fun _ => ?_
    refine failsOnly_get.bind fun s => ?_
    -- no event, no item, no name: none of these is about the pattern
    dsimp only
    split
    · exact failsOnly_throw trivial
    · split
      · exact failsOnly_throw trivial
      · split
        · exact (failsOnly_demand trivial _).bind fun _ => failsOnly_throw trivial
        · refine (failsOnly_demand trivial _).bind fun _ => ?_
          exact (failsOnly_change _).bind fun _ => failsOnly_pure _

/-- **A pattern that is not shallow is refused when it is loaded again**, before anything is
    watched. -/
theorem failsWith_matchedItem {expected : Expectation} {p : Fields}
    (h : Pattern.load expected.source = .ok (some p)) (hdeep : ¬ Pattern.Shallow p)
    (position : String) :
    (matchedItem expected position).FailsWith w s (.badPattern .foreignValues) := by
  have hcheck (s' : Session) : (check ⟨expected.name, .mapping (Value.ofFields p),
      expected.timeout, none⟩).FailsWith w s' (.badPattern .foreignValues) := by
    unfold check
    exact (failsWith_load (Pattern.load_of_not_shallow hdeep)).bind _
  have hlog : (valueOf (some p)).all Value.isLoggable = true :=
    Pattern.isLoggable_of_not_shallow h hdeep
  unfold matchedItem
  rw [load_eq h, pure_bind]
  refine (atOnce_demand hlog).bind_fails fun s' => ?_
  exact (atOnce_begin _).bind_fails fun s' => (hcheck s').bind _

end Act

/-! ## Section 2: Who takes which patterns -/

namespace Session

variable {w : World} {s : Session} {source : Pattern.Source} {pattern : Option Fields}

/-- **The step is refused for its pattern.** -/
def Refuses (w : World) (step : Step) (s : Session) (e : Pattern.Error) : Prop :=
  (take w step s).1.reply = .error (.badPattern e)

/-- A step whose act fails over something else is not refused for its pattern. -/
theorem not_refuses {step : Step} (h : (Act.perform step).FailsOnly Act.otherThanPattern)
    (e : Pattern.Error) : ¬ Refuses w step s e := by
  intro hrefuses
  exact h w s.cleared _ (Act.reply_take_iff.mp hrefuses)

/-- A step whose act fails over its pattern is refused for that and nothing else. -/
theorem refuses_iff {step : Step} {e : Pattern.Error}
    (h : (Act.perform step).FailsWith w s.cleared (.badPattern e)) (e' : Pattern.Error) :
    Refuses w step s e' ↔ e' = e := by
  rw [Refuses, Act.reply_take_iff.mpr h]
  constructor
  · intro heq
    cases heq
    rfl
  · rintro rfl
    rfl

theorem not_refuses_check {call : Expectation} (h : Pattern.load call.source = .ok pattern)
    (e : Pattern.Error) : ¬ Refuses w (.check call) s e := by
  apply not_refuses
  exact (Act.failsOnly_check h).bind fun _ => Act.failsOnly_pure _

theorem refuses_matchedItem_iff {call : Expectation} {p : Fields}
    (h : Pattern.load call.source = .ok (some p)) (hdeep : ¬ Pattern.Shallow p)
    (position : String) (e : Pattern.Error) :
    Refuses w (.matchedItem call position) s e ↔ e = .foreignValues := by
  apply refuses_iff
  exact (Act.failsWith_matchedItem h hdeep position).bind _

/-- **Checks take every pattern that can be loaded; the search for an item takes the shallow
    ones.** What was loaded is loaded again as what it is exactly if it is shallow, as everything
    is that comes from a mapping. Checks, background checks and filters are then refused no
    pattern. The search for an item, and the locators that come from it, are refused a pattern
    that is not shallow, as one that holds values that are no JSON. -/
theorem reloading_agrees_iff (h : Pattern.load source = .ok pattern) :
    (∀ p, pattern = some p →
      (Pattern.load (.mapping (Value.ofFields p)) = .ok (some p) ↔ Pattern.Shallow p) ∧
      ∀ fields, source = .mapping fields → Pattern.Shallow p) ∧
    ∀ (w : World) (s : Session) (name : String) (timeout : Option (Seconds Float))
      (interval : Option Float) (f : Filter) (position : String),
      let call : Expectation := ⟨name, source, timeout, interval⟩
      (∀ step ∈ [Step.check call, .checkLater call, .filter f source],
        ∀ e, ¬ Refuses w step s e) ∧
      ∀ step ∈ [Step.matchedItem call position, .pageElement call position],
        ∀ e, Refuses w step s e ↔
          e = .foreignValues ∧ ∃ p, pattern = some p ∧ ¬ Pattern.Shallow p := by
  refine ⟨fun p hp => ⟨Pattern.reload_iff, fun fields hsource => ?_⟩,
    fun w s name timeout interval f position => ?_⟩
  · subst hp hsource
    exact Pattern.shallow_of_mapping h
  intro call
  have hload : Pattern.load call.source = .ok pattern := h
  constructor
  · simp only [List.forall_mem_cons, List.not_mem_nil, false_implies, implies_true, and_true]
    refine ⟨not_refuses_check hload, not_refuses ?_, not_refuses ?_⟩
    · exact (Act.failsOnly_checkLater hload).bind fun _ =>
        (Act.failsOnly_checkAt _).bind fun _ => Act.failsOnly_pure _
    · exact (Act.failsOnly_filter f h).bind fun _ => Act.failsOnly_pure _
  by_cases hdeep : ∃ p, pattern = some p ∧ ¬ Pattern.Shallow p
  · obtain ⟨p, rfl, hp⟩ := hdeep
    have hfails : (Act.matchedItem call position).FailsWith w s.cleared
        (.badPattern .foreignValues) := Act.failsWith_matchedItem hload hp position
    have hexists : ∃ q, some p = some q ∧ ¬ Pattern.Shallow q := ⟨p, rfl, hp⟩
    simp only [List.forall_mem_cons, List.not_mem_nil, false_implies, implies_true, and_true,
      hexists]
    exact ⟨refuses_matchedItem_iff hload hp position, refuses_iff ((hfails.bind _).bind _)⟩
  · have hshallow : ∀ p, pattern = some p → Pattern.Shallow p := by
      intro p hp
      by_cases hall : Pattern.Shallow p
      · exact hall
      · exact absurd ⟨p, hp, hall⟩ hdeep
    have hfails := Act.failsOnly_matchedItem hload hshallow position
    simp only [List.forall_mem_cons, List.not_mem_nil, false_implies, implies_true, and_true,
      hdeep, and_false, iff_false]
    exact ⟨not_refuses (hfails.bind fun _ => Act.failsOnly_pure _),
      not_refuses ((hfails.bind fun _ => Act.failsOnly_pure _).bind fun _ => Act.failsOnly_pure _)⟩

/-! ## Section 3: Patterns of brackets -/

/-- A pattern that asks for nested arrays. -/
def bracketPattern (n : Nat) : Fields := [("a", Json.nested n)]

def bracketText (n : Nat) : String :=
  String.ofList ('\x7b' :: '"' :: ("a".toList ++ '"' :: ':' :: (Json.brackets n ++ ['\x7d'])))

/-- What a test expects with such a text. -/
def bracketCall (n : Nat) : Expectation := ⟨"view", .text (bracketText n), some (.whole 0), none⟩

/-- Such a text is loaded as deep as texts are read. -/
theorem load_bracketCall {n : Nat} (h : n + 1 < Json.maxNesting) :
    Pattern.load (bracketCall n).source = .ok (some (bracketPattern n)) := by
  have hdeep : Json.Reads 989 (Json.brackets n ++ ['\x7d']) (Json.nested n) ['\x7d'] :=
    Json.reads_brackets (Nat.lt_of_succ_lt_succ h) _
  have hkey : Json.ReadsKey ('"' :: ("a".toList ++ '"' :: ':' :: (Json.brackets n ++ ['\x7d'])))
      "a" (Json.brackets n ++ ['\x7d']) := by
    obtain ⟨r, hr⟩ := Json.brackets_eq_cons n
    rw [hr]
    exact Json.readsKey_plain (by decide) _
  have hfields : Json.ReadsFields 989 true
      ('"' :: ("a".toList ++ '"' :: ':' :: (Json.brackets n ++ ['\x7d']))) (bracketPattern n) [] :=
    Json.readsFields_last rfl hkey hdeep rfl
  apply Pattern.load_text
  apply Json.read?_of_reads
  · show some '\x7b' ≠ some '\ufeff'
    decide
  · exact Json.reads_obj hfields rfl rfl

theorem shallow_bracketPattern_iff {n : Nat} :
    Pattern.Shallow (bracketPattern n) ↔ n < maxLevels := by
  rw [← Json.storable_nested_iff]
  constructor
  · intro h
    exact h ("a", Json.nested n) List.mem_cons_self
  · intro h field hin
    rw [List.mem_singleton.mp hin]
    exact h

/-- The deepest pattern that may be stored is taken by the search for an item. -/
theorem deepestPattern_taken :
    Pattern.load (bracketCall 254).source = .ok (some (bracketPattern 254)) ∧
      Pattern.load (.mapping (Value.ofFields (bracketPattern 254))) =
        .ok (some (bracketPattern 254)) ∧
      ∀ e, ¬ Refuses hastyWorld (.matchedItem (bracketCall 254) "first") (.new .none) e := by
  have hload := load_bracketCall (n := 254) (by decide)
  have hshallow : Pattern.Shallow (bracketPattern 254) := shallow_bracketPattern_iff.mpr (by decide)
  obtain ⟨hreload, hagree⟩ := reloading_agrees_iff hload
  refine ⟨hload, (hreload _ rfl).1.mpr hshallow, fun e hrefuses => ?_⟩
  obtain ⟨-, hsearch⟩ :=
    hagree hastyWorld (.new .none) "view" (some (.whole 0)) none ⟨none, "exact", none⟩ "first"
  obtain ⟨-, p, hp, hdeep⟩ := (hsearch _ List.mem_cons_self e).mp hrefuses
  cases hp
  exact hdeep hshallow

/-- One level deeper, checks still take the pattern, and the search for an item refuses it: what
    was loaded from the text is not loaded again. -/
theorem deeperPattern_refused :
    Pattern.load (bracketCall 255).source = .ok (some (bracketPattern 255)) ∧
      Pattern.load (.mapping (Value.ofFields (bracketPattern 255))) = .error .foreignValues ∧
      (∀ e, ¬ Refuses hastyWorld (.check (bracketCall 255)) (.new .none) e) ∧
      Refuses hastyWorld (.matchedItem (bracketCall 255) "first") (.new .none) .foreignValues ∧
      Pattern.Error.foreignValues.isMalformed = true := by
  have hload := load_bracketCall (n := 255) (by decide)
  have hdeep : ¬ Pattern.Shallow (bracketPattern 255) := by
    rw [shallow_bracketPattern_iff]
    decide
  exact ⟨hload, Pattern.load_of_not_shallow hdeep, not_refuses_check hload,
    (refuses_matchedItem_iff hload hdeep "first" _).mpr rfl, rfl⟩

end Session

end EventCheck
