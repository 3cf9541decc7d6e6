import EventCheck.Proofs.Arena.Checks

/-! # The baseline of a check

    A check leaves out as many events at the front of the store as were stored when
    it was scheduled. That is a position and not a moment, and the store may be
    reset before the check looks at it.

    - `Arena.Came`: an event came in some moves and has been stored ever since.
    - `came_of_behind`: what stands behind the baseline came after it was taken,
      whatever was reset.
    - `Came.behind`: without a reset, what came after the baseline stands behind it.
    - `baseline_isolates`: both directions for the checks of a run.
-/

namespace EventCheck

variable {τ : Type}

/-! ## Section 1: Who has taken an id -/

/-- **The caller has taken the id** in the trace, and no reset came since. -/
def TakenBy (trace : List (Note τ)) (caller : Caller) (id : Int) : Prop :=
  ∃ before behind, trace = before ++ .answered caller id true :: behind ∧ .reset ∉ behind

theorem TakenBy.append {trace notes : List (Note τ)} {caller : Caller} {id : Int}
    (h : TakenBy trace caller id) (hr : .reset ∉ notes) : TakenBy (trace ++ notes) caller id := by
  obtain ⟨before, behind, rfl, hbehind⟩ := h
  refine ⟨before, behind ++ notes, by simp, ?_⟩
  rw [List.mem_append, not_or]
  exact ⟨hbehind, hr⟩

theorem TakenBy.mem {trace : List (Note τ)} {caller : Caller} {id : Int}
    (h : TakenBy trace caller id) : .answered caller id true ∈ trace := by
  obtain ⟨before, behind, rfl, -⟩ := h
  simp

/-- What is consumed behind a trace that began with an empty ledger was taken by somebody since
    the last reset. -/
theorem Account.Accepts.takenBy {c c' : Account} {trace : List (Note τ)} (h : c.Accepts trace c')
    (hc : c.consumed = []) {id : Int} (hid : id ∈ c'.consumed) :
    ∃ caller, TakenBy trace caller id := by
  induction trace using List.reverseRecOn generalizing c' with
  | nil =>
    rw [accepts_nil.mp h, hc] at hid
    cases hid
  | append_singleton front note ih =>
    obtain ⟨c₁, hfront, -, hnext⟩ := accepts_append.mp h
    rw [accepts_nil.mp hnext] at hid
    -- either this note took the id, or it was there before and the note is no reset
    by_cases hnote : ∃ caller, note = .answered caller id true
    · obtain ⟨caller, rfl⟩ := hnote
      exact ⟨caller, front, [], rfl, List.not_mem_nil⟩
    · have hthere : id ∈ c₁.consumed ∧ note ≠ .reset := by
        unfold next at hid
        split at hid
        · next who other =>
          rcases List.mem_cons.mp hid with rfl | hid
          · exact absurd ⟨_, rfl⟩ hnote
          · exact ⟨hid, nofun⟩
        · next caller other hcaller =>
          rcases List.mem_cons.mp hid with rfl | hid
          · exact absurd ⟨_, rfl⟩ hnote
          · exact ⟨hid, nofun⟩
        · cases hid
        · next hreset => exact ⟨hid, hreset⟩
      obtain ⟨caller, htaken⟩ := ih hfront hthere.1
      exact ⟨caller, htaken.append fun hin => hthere.2 (List.mem_singleton.mp hin).symm⟩

variable [Time τ]

namespace Arena

/-! ## Section 2: Events that came -/

/-- **The event came in these moves**: one of them stored it, and it has been stored ever since. -/
def Came (a : Arena τ) (moves : List (Move τ)) (e : Event) : Prop :=
  ∃ early move late time, moves = early ++ move :: late ∧
    .stored e time ∈ ((a.after early).step move).2 ∧
    ∀ part, part <+: late → e ∈ (a.after (early ++ move :: part)).store.events

variable {a : Arena τ} {moves : List (Move τ)} {e : Event}

theorem Came.stored (h : a.Came moves e) : e ∈ (a.after moves).store.events := by
  obtain ⟨early, move, late, time, rfl, -, hstored⟩ := h
  exact hstored late (List.prefix_refl _)

/-- What has come and is kept by a further move has come. -/
theorem Came.concat {move : Move τ} (h : a.Came moves e)
    (hkept : e ∈ (a.after (moves ++ [move])).store.events) : a.Came (moves ++ [move]) e := by
  obtain ⟨early, first, late, time, rfl, hnote, hstored⟩ := h
  refine ⟨early, first, late ++ [move], time, by simp, hnote, ?_⟩
  intro part hpart
  rcases List.prefix_concat_iff.mp hpart with rfl | hpart
  · simpa using hkept
  · exact hstored part hpart

/-- **What stands behind the first events came after there were that many**, whatever was reset
    since. -/
theorem came_of_behind {baseline : Nat} (hb : a.store.events.length ≤ baseline)
    (h : e ∈ (a.after moves).store.events.drop baseline) : a.Came moves e := by
  induction moves using List.reverseRecOn with
  | nil =>
    rw [after_nil, List.drop_eq_nil_of_le hb] at h
    cases h
  | append_singleton before move ih =>
    have hin : e ∈ (a.after (before ++ [move])).store.events := List.mem_of_mem_drop h
    have hlast : a.after (before ++ [move]) = ((a.after before).step move).1 := by
      rw [after_append]
      rfl
    rw [hlast] at h
    cases (a.after before).step_events move with
    | kept he hn =>
      rw [he] at h
      exact (ih h).concat hin
    | stored event hs hnotes =>
      rw [(Store.append_ok hs).1, List.drop_append] at h
      rcases List.mem_append.mp h with hold | hnew
      · exact (ih hold).concat hin
      · -- the event that this move has stored
        obtain rfl : e = event := List.mem_singleton.mp (List.mem_of_mem_drop hnew)
        refine ⟨before, move, [], (a.after before).clock, rfl, ?_, ?_⟩
        · rw [hnotes]
          exact List.mem_cons_self
        · intro part hpart
          rw [List.prefix_nil.mp hpart]
          exact hin
    | dropped hs hr =>
      rw [hs] at h
      simp [Store.empty] at h

/-- A move that notes an event as stored has stored it. -/
theorem append_of_stored {move : Move τ} {time : τ} (h : .stored e time ∈ (a.step move).2) :
    ∃ offer now, a.store.append offer now = .ok ((a.step move).1.store, e) := by
  have hchange := a.step_change move
  generalize (a.step move).1 = a', (a.step move).2 = notes at hchange h
  cases hchange with
  | still hs hw hc => cases h
  | @stores offer now event hs hw hc =>
    cases List.mem_singleton.mp h
    exact ⟨offer, now, hs⟩
  | begins hnew hs ho hw hc => cases List.mem_singleton.mp h
  | @plays who w p notes hp =>
    obtain ⟨opening, rfl, hopening⟩ := hp.opened
    rcases List.mem_append.mp h with h | h
    · rcases hopening with ⟨-, rfl⟩ | ⟨-, rfl⟩ <;> simp at h
    · rcases Poll.mem_notes h with ⟨_, _, _, heq⟩ | ⟨_, heq, -⟩ | ⟨heq, -⟩ <;> cases heq
  | attempts id hs hw hc =>
    rcases Rivals.mem_attempt h with ⟨_, _, heq⟩ | heq <;> cases heq
  | resets hs hw hc => cases List.mem_singleton.mp h

/-- **Without a reset, what came stands behind the events that were there.** -/
theorem Came.behind (h : a.Came moves e) (hn : a.store.Numbered)
    (hr : .reset ∉ a.trace moves) : a.store.size < e.id := by
  obtain ⟨early, move, late, time, rfl, hnote, -⟩ := h
  rw [trace_append, List.mem_append, not_or] at hr
  obtain ⟨offer, now, happend⟩ := append_of_stored hnote
  have hid : e.id = (a.after early).store.events.length + 1 := by
    rw [(Store.append_ok happend).2.2.2, (numbered_after hn early).next]
  have hgrow : a.store.events.length ≤ (a.after early).store.events.length :=
    (events_grow hr.1).length_le
  rw [hid]
  exact Nat.lt_succ_of_le hgrow

/-! ## Section 3: The last scan of a check -/

/-- The event that a held check consumes stands behind its baseline. -/
theorem Holds.behind_of_matched {n : Nat} {name : String} {pattern : Option Value}
    {baseline : Nat} (h : a.Holds n ⟨name, pattern, baseline⟩) {move : Move τ}
    (hended : .ended (.background n) (.matched e) ∈ (a.step move).2) :
    e ∈ a.store.events.drop baseline := by
  obtain ⟨c, round, hc, hround, hturn, -⟩ := scanned_of_ended hended nofun
  have hcourse := round.watch.course_poll a.rivals a.clock a.store
  rw [Watch.poll_matched_iff.mp hturn, h.played hc hround] at hcourse
  obtain ⟨hscanned, -, -⟩ := hcourse.found_event
  simpa [Store.eventsSince] using hscanned

/-- When a held check gives up, each event behind its baseline that it wants was consumed before
    its last scan, or a rival takes it in that scan. -/
theorem Holds.taken_of_expired {n : Nat} {q : Query} (h : a.Holds n q) {move : Move τ}
    {error : NotFound τ} (hended : .ended (.background n) (.expired error) ∈ (a.step move).2)
    (hscanned : e ∈ a.store.eventsSince q.baseline) (hwants : q.wants e = true) :
    .reset ∉ (a.step move).2 ∧
      (a.store.isConsumed e.id = true ∨ .answered .rival e.id true ∈ (a.step move).2) := by
  obtain ⟨c, round, hc, hround, hturn, hnotes⟩ := scanned_of_ended hended nofun
  have hquery := h.played hc hround
  have hcourse := round.watch.course_poll a.rivals a.clock a.store
  obtain ⟨front, hends, hover⟩ := hcourse.passed_over
  rw [(Watch.poll_expired hturn).1, hquery] at hends
  obtain rfl : a.store.eventsSince q.baseline = front := hends
  rw [hquery] at hover
  rw [hnotes]
  constructor
  · intro hin
    rcases List.mem_append.mp hin with hin | hin
    · split at hin <;> simp at hin
    · rcases Poll.mem_notes hin with ⟨_, _, _, heq⟩ | ⟨_, heq, -⟩ | ⟨-, _, hmatched⟩
      · cases heq
      · cases heq
      · rw [hturn] at hmatched
        cases hmatched
  · rcases hover e hscanned hwants with hcons | hlost
    · exact .inl hcons
    · right
      apply List.mem_append_right
      apply List.mem_append_left
      exact List.mem_flatMap.mpr ⟨_, hlost, by simp [Note.attempt]⟩

/-! ## Section 4: Isolation and completeness -/

/-- **The baseline isolates a check and loses it nothing.** In every run, what a check consumes came
    after the check was scheduled, also when the store was reset since. If it was not reset and
    the check ends without an event, then every event that came since, has the name and contains
    the pattern was taken by somebody else by the end of the last scan. -/
theorem baseline_isolates (r : Rivals) (clock : τ) (before between : List (Move τ))
    (last : Move τ) (name : String) (pattern : Option Value) (timeout : Seconds τ) (interval : τ) :
    let start := (new r clock).after before
    let here := (start.step (.schedule name pattern timeout interval)).1
    let who : Watcher := .background start.monitor.checks.length
    let run := before ++ .schedule name pattern timeout interval :: between ++ [last]
    (∀ e, .ended who (.matched e) ∈ ((here.after between).step last).2 → here.Came between e) ∧
    (.reset ∉ here.trace between →
      ∀ error, .ended who (.expired error) ∈ ((here.after between).step last).2 →
        ∀ e, here.Came between e → e.name = name →
          (∀ p, pattern = some p → (Value.ofJson e.payload).contains p = .ok true) →
          ∃ caller, caller ≠ .watch who ∧
            TakenBy ((new r clock).trace run) caller e.id) := by
  intro start here who run
  have hholds : (here.after between).Holds start.monitor.checks.length
      ⟨name, pattern, start.store.size⟩ :=
    holds_run (start.holds_scheduled name pattern timeout interval) between
  constructor
  · intro e hended
    exact came_of_behind (Nat.le_refl _) (hholds.behind_of_matched hended)
  · intro hreset error hended e hcame hname hcontains
    have hnumbered : here.store.Numbered := numbered_run r clock before
    -- the event stands behind the baseline, and the check wants it
    have hscanned : e ∈ (here.after between).store.eventsSince start.store.size := by
      rw [(numbered_after hnumbered between).eventsSince_eq]
      have hbehind : start.store.size < e.id := hcame.behind hnumbered hreset
      simp [hcame.stored, hbehind]
    have hwants : Query.wants ⟨name, pattern, start.store.size⟩ e = true := by
      refine Query.wants_iff.mpr ⟨hname, ?_⟩
      unfold Query.admits
      cases pattern with
      | none => rfl
      | some p => exact hcontains p rfl
    obtain ⟨hquiet, htaken⟩ := hholds.taken_of_expired hended hscanned hwants
    have htrace : (new r clock).trace run =
        (new r clock).trace (before ++ .schedule name pattern timeout interval :: between)
          ++ ((here.after between).step last).2 := by
      rw [trace_append, after_append]
      simp [here, start]
    have hsomebody : ∃ caller, TakenBy ((new r clock).trace run) caller e.id := by
      rw [htrace]
      rcases htaken with hcons | hrival
      · have haccepts := (new r clock).accepts_run
          (before ++ .schedule name pattern timeout interval :: between)
        rw [after_append] at haccepts
        obtain ⟨caller, htaken⟩ := haccepts.takenBy rfl (Store.isConsumed_iff.mp hcons)
        exact ⟨caller, htaken.append hquiet⟩
      · obtain ⟨front, behind, heq⟩ := List.append_of_mem hrival
        refine ⟨.rival, _ ++ front, behind, by rw [heq, List.append_assoc], ?_⟩
        intro hin
        apply hquiet
        rw [heq]
        exact List.mem_append_right _ (List.mem_cons_of_mem _ hin)
    obtain ⟨caller, htakenBy⟩ := hsomebody
    refine ⟨caller, ?_, htakenBy⟩
    rintro rfl
    -- had the check taken the id, it would have returned the event
    obtain ⟨e', -, hmatched⟩ := ((new r clock).accepts_run run).returned rfl htakenBy.mem
    have hexpired : .ended who (.expired error) ∈ (new r clock).trace run := by
      rw [htrace]
      exact List.mem_append_right _ hended
    cases (life_run r clock run).ended_once who _ _ hmatched hexpired

end Arena

end EventCheck
