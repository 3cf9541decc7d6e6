import EventCheck.Proofs.Session.Failures
import EventCheck.Proofs.Session.Reporting

/-! # Bad patterns

    Five steps of a test take a pattern: a check, a check in the background, a filter, and
    the two searches for an item. Each of them loads it before it does anything else, and
    so it is refused (`Act.Refused`) if that cannot be done.

    - `Act.refused_perform`: the same for every step with a pattern.
    - `Session.takeAll_refused`: a run goes on behind a refused step as if that had not
      been there.
    - `Session.bad_pattern_changes_nothing` puts it together.
-/

namespace EventCheck

/-! ## Section 1: Acts that are refused -/

namespace Act

variable {w : World} {s : Session} {source : Pattern.Source} {e : Pattern.Error}

theorem refused_check {expected : Expectation} (h : Pattern.load expected.source = .error e) :
    (check expected).Refused w s (.badPattern e) := by
  unfold check
  exact (refused_load h).bind _

theorem refused_checkLater {expected : Expectation}
    (h : Pattern.load expected.source = .error e) :
    (checkLater expected).Refused w s (.badPattern e) := by
  unfold checkLater
  exact (refused_load h).bind _

theorem refused_filter (f : Filter) (h : Pattern.load source = .error e) :
    (filter f source).Refused w s (.badPattern e) := by
  unfold filter
  exact (refused_load h).bind _

theorem refused_matchedItem {expected : Expectation}
    (h : Pattern.load expected.source = .error e) (position : String) :
    (matchedItem expected position).Refused w s (.badPattern e) := by
  unfold matchedItem
  exact (refused_load h).bind _

theorem refused_pageElement {expected : Expectation}
    (h : Pattern.load expected.source = .error e) (position : String) :
    (pageElement expected position).Refused w s (.badPattern e) := by
  unfold pageElement
  exact (refused_matchedItem h position).bind _

end Act

/-! ## Section 2: Steps with a pattern -/

/-- The source of the pattern that a step has to load. -/
def Step.source? : Step → Option Pattern.Source
  | .check expected => some expected.source
  | .checkLater expected => some expected.source
  | .filter _ source => some source
  | .matchedItem expected _ => some expected.source
  | .pageElement expected _ => some expected.source
  | _ => none

/-- A step that comes later has no pattern to load when it is put on the agenda. -/
theorem Step.laterCount_of_source {step : Step} {source : Pattern.Source}
    (h : step.source? = some source) : step.laterCount = 0 := by
  cases step with
  | later delay step => cases h
  | _ => rfl

/-- **A step is refused if its pattern cannot be loaded.** -/
theorem Act.refused_perform {w : World} {s : Session} {step : Step} {source : Pattern.Source}
    {e : Pattern.Error} (hstep : step.source? = some source)
    (hload : Pattern.load source = .error e) :
    (perform step).Refused w s (.badPattern e) := by
  cases step with
  | check expected =>
    cases hstep
    exact (refused_check hload).bind _
  | checkLater expected =>
    cases hstep
    exact (refused_checkLater hload).bind _
  | filter f source =>
    cases hstep
    exact (refused_filter f hload).bind _
  | matchedItem expected position =>
    cases hstep
    exact (refused_matchedItem hload position).bind _
  | pageElement expected position =>
    cases hstep
    exact (refused_pageElement hload position).bind _
  | _ => cases hstep

/-! ## Section 3: Runs with refused steps -/

namespace Session

variable {w : World} {s : Session} {step : Step} {failure : Failure}

/-- The outcome of a step that is refused in this session: it leaves nothing behind, and the counts
    and the clock are those of the session. -/
def refusal (s : Session) (failure : Failure) : Outcome where
  reply := .error failure
  fired := []
  titles := []
  attached := []
  journal := []
  stored := s.monitor.store.size
  consumed := ((List.range s.monitor.store.size).map (· + 1)).filter fun (id : Nat) =>
    s.monitor.store.isConsumed id
  pending := s.monitor.registry.length
  clock := s.clock

theorem take_refused (h : (Act.perform step).Refused w s.cleared failure) :
    take w step s = (s.refusal failure, s.cleared) := by
  have htake : Act.take w step s.cleared = (.error failure, s.cleared) := h
  unfold take
  rw [htake]
  rfl

/-- What earlier steps have left behind does not matter to a run. -/
theorem takeAll_cleared (w : World) (steps : List Step) (s : Session) :
    takeAll w steps s.cleared = takeAll w steps s := by
  cases steps with
  | nil => rfl
  | cons step rest => rfl

theorem takeAll_append (w : World) (before behind : List Step) (s : Session) :
    takeAll w (before ++ behind) s = takeAll w before s ++ takeAll w behind (after w before s) := by
  induction before generalizing s with
  | nil => rfl
  | cons step rest ih =>
    rw [List.cons_append, takeAll_cons, takeAll_cons, ih]
    rfl

theorem length_takeAll (w : World) (steps : List Step) (s : Session) :
    (takeAll w steps s).length = steps.length := by
  induction steps generalizing s with
  | nil => rfl
  | cons step rest ih =>
    rw [takeAll_cons, List.length_cons, List.length_cons, ih]

/-- **Behind a refused step the run goes on as if that had not been there.** -/
theorem takeAll_refused (h : ∀ s, (Act.perform step).Refused w s failure)
    (before behind : List Step) (s : Session) :
    takeAll w (before ++ step :: behind) s =
      takeAll w before s ++ (after w before s).refusal failure ::
        takeAll w behind (after w before s) := by
  rw [takeAll_append, takeAll_cons, take_refused (h _), takeAll_cleared]

/-- How deep the later steps of a run may come up in one another. -/
def laterDepth (steps : List Step) : Nat := steps.foldl (fun n step => n + step.laterCount) 0

/-- A step that puts nothing on the agenda can be left out of that. -/
theorem laterDepth_remove (h : step.laterCount = 0) (before behind : List Step) :
    laterDepth (before ++ step :: behind) = laterDepth (before ++ behind) := by
  unfold laterDepth
  rw [List.foldl_append, List.foldl_append, List.foldl_cons, h, Nat.add_zero]

theorem run_eq (setup : Setup) (rivals : Rivals) (steps : List Step) :
    run setup rivals steps =
      takeAll (world setup maxRounds (laterDepth steps)) steps (.new rivals) := rfl

/-- **A bad pattern fails first and changes nothing.** A step has a pattern that cannot be loaded.
    Whatever else it asks for, it fails with the error of the pattern, in every session and every
    world, and the session stays exactly as it was: events, ledger, registry, running checks,
    clock, agenda, records and attachments. If it comes up in a wait, only its failure is noted.
    In a whole run it has an outcome of its own that leaves nothing behind, and without that
    outcome the run is the one without the step. -/
theorem bad_pattern_changes_nothing {source : Pattern.Source} {e : Pattern.Error}
    (hstep : step.source? = some source) (hload : Pattern.load source = .error e) :
    (∀ (w : World) (s : Session), Act.take w step s = (.error (.badPattern e), s)) ∧
    (∀ (setup : Setup) (rounds depth : Nat) (s : Session),
      fire setup rounds (depth + 1) step s =
        { s with fired := s.fired ++ [.error (.badPattern e)] }) ∧
    ∀ (setup : Setup) (rivals : Rivals) (before behind : List Step),
      let outcomes := run setup rivals (before ++ step :: behind)
      let w := world setup maxRounds (laterDepth (before ++ behind))
      outcomes[before.length]? = some ((after w before (.new rivals)).refusal (.badPattern e)) ∧
        outcomes.eraseIdx before.length = run setup rivals (before ++ behind) := by
  have hrefused (w : World) (s : Session) : Act.take w step s = (.error (.badPattern e), s) :=
    Act.refused_perform hstep hload
  refine ⟨hrefused, ?_, ?_⟩
  · intro setup rounds depth s
    rw [fire, hrefused]
  · intro setup rivals before behind outcomes w
    -- the step puts nothing on the agenda, so both runs are taken in one world
    have houtcomes : outcomes = takeAll w (before ++ step :: behind) (.new rivals) := by
      show run setup rivals (before ++ step :: behind) = _
      rw [run_eq, laterDepth_remove (Step.laterCount_of_source hstep)]
    have hplace : (takeAll w before (.new rivals)).length = before.length :=
      length_takeAll w before (.new rivals)
    rw [houtcomes, takeAll_refused (hrefused w), ← hplace]
    constructor
    · rw [List.getElem?_append_right (Nat.le_refl _), Nat.sub_self]
      rfl
    · rw [List.eraseIdx_append_of_length_le (Nat.le_refl _), Nat.sub_self, run_eq, takeAll_append]
      rfl

/-- A list is no pattern. While a check runs in the background, the search for an item with it is
    refused, and the check runs on. -/
theorem listPattern_refused :
    Pattern.load (.text "[]") = .error (.notObject .string "list") ∧
      Act.take hastyWorld (.matchedItem ⟨"order", .text "[]", none, none⟩ "last")
          (after hastyWorld [.checkLater ⟨"order", .none, none, none⟩] (.new .none)) =
        (.error (.badPattern (.notObject .string "list")),
          after hastyWorld [.checkLater ⟨"order", .none, none, none⟩] (.new .none)) := by
  have hload : Pattern.load (.text "[]") = .error (.notObject .string "list") := by cbv
  exact ⟨hload, (bad_pattern_changes_nothing rfl hload).1 _ _⟩

end Session

end EventCheck
