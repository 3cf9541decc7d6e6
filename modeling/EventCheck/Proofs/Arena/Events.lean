import EventCheck.Proofs.Arena.Ledger
import EventCheck.Proofs.Store.Numbering

/-! # The events of a run

    - `step_events`: a move keeps the stored events, stores one more, or drops them
      all, and then its notes tell of a reset.
    - `numbered_run`: in every run of a new arena the store is numbered.
    - `events_grow` and `stored_of_mem`: without a reset events only come, and each
      of them leaves its note.
    - `exists_step_of_mem`: a note of a run is a note of one of its moves.
-/

namespace EventCheck

/-! ## Section 1: Scans -/

/-- A scan keeps the stored events, unless a rival drops them all behind its success. -/
theorem Query.Course.events {q : Query} {r : Rivals} {s s' : Store} {events : List Event}
    {answers : List (Nat × Bool)} {found : Found} (h : q.Course r s events answers found s') :
    s'.events = s.events ∧ s'.nextId = s.nextId ∨
      s' = .empty ∧ ∃ e, found = .event e ∧ r.resetAfter.contains (e.id : Int) = true := by
  induction h with
  | ends s => exact .inl ⟨rfl, rfl⟩
  | skips hc h ih => exact ih
  | declines hc ha h ih => exact ih
  | fails hc ha => exact .inl ⟨rfl, rfl⟩
  | @takes s e rest hc ha hl =>
    unfold Rivals.settle
    split
    · next hreset => exact .inr ⟨rfl, e, rfl, hreset⟩
    · exact .inl ⟨rfl, rfl⟩
  | loses hc ha hl h ih => exact ih

/-- So does an attempt from outside. -/
theorem Rivals.tryConsume_events (r : Rivals) (s : Store) (id : Int) :
    (r.tryConsume s id).2.events = s.events ∧ (r.tryConsume s id).2.nextId = s.nextId ∨
      (r.tryConsume s id).2 = .empty ∧ (r.tryConsume s id).1 = true ∧
        r.resetAfter.contains id = true := by
  cases hcons : s.isConsumed id with
  | true =>
    rw [tryConsume_of_consumed hcons]
    exact .inl ⟨rfl, rfl⟩
  | false =>
    cases hl : r.lost.contains id with
    | true =>
      rw [tryConsume_of_lost hcons hl]
      exact .inl ⟨rfl, rfl⟩
    | false =>
      rw [tryConsume_of_fresh hcons hl]
      unfold settle
      split
      · next hreset => exact .inr ⟨rfl, rfl, hreset⟩
      · exact .inl ⟨rfl, rfl⟩

variable {τ : Type} [Time τ]

namespace Arena

/-! ## Section 2: Moves -/

/-- **What a move does to the events**, with the notes that it leaves. -/
inductive EventsChange (a a' : Arena τ) (notes : List (Note τ)) : Prop where
  /-- The events stay. -/
  | kept (he : a'.store.events = a.store.events) (hn : a'.store.nextId = a.store.nextId)
  /-- One more is stored. -/
  | stored (event : Event) {offer : Incoming} {now : String}
      (hs : a.store.append offer now = .ok (a'.store, event))
      (hnotes : notes = [.stored event a.clock])
  /-- All of them are dropped. -/
  | dropped (hs : a'.store = .empty) (hr : .reset ∈ notes)

theorem step_events (a : Arena τ) (move : Move τ) :
    a.EventsChange (a.step move).1 (a.step move).2 := by
  have hchange := a.step_change move
  generalize (a.step move).1 = a', (a.step move).2 = notes at hchange
  cases hchange with
  | still hs hw hc => exact .kept (by rw [hs]) (by rw [hs])
  | stores hs hw hc => exact .stored _ hs rfl
  | begins hnew hs ho hw hc => exact .kept (by rw [hs]) (by rw [hs])
  | @plays who w p notes hp =>
    cases hp.polled with
    | unlogged => exact .kept (congrArg Store.events hp.store) (congrArg Store.nextId hp.store)
    | scans =>
      rcases (w.course_poll a.rivals a.clock a.store).events with ⟨he, hn⟩ | ⟨hs, e, hf, hreset⟩
      · exact .kept (by rw [hp.store, he]) (by rw [hp.store, hn])
      · refine .dropped (by rw [hp.store, hs]) ?_
        obtain ⟨opening, hnotes, -⟩ := hp.opened
        obtain ⟨lost, -, hpoll⟩ := Poll.notes_of_matched who (Watch.poll_matched_iff.mpr hf)
        rw [hnotes, hpoll, Rivals.aftermath, if_pos hreset]
        simp
  | attempts id hs hw hc =>
    rcases a.rivals.tryConsume_events a.store id with ⟨he, hn⟩ | ⟨hs', htaken, hreset⟩
    · exact .kept (by rw [hs, he]) (by rw [hs, hn])
    · refine .dropped (by rw [hs, hs']) ?_
      rw [if_pos htaken, Rivals.aftermath, if_pos hreset]
      simp
  | resets hs hw hc => exact .dropped hs List.mem_cons_self

theorem numbered_step {a : Arena τ} (h : a.store.Numbered) (move : Move τ) :
    (a.step move).1.store.Numbered := by
  cases a.step_events move with
  | kept he hn => exact h.of_eq he hn
  | stored event hs hnotes => exact h.append hs
  | dropped hs hr =>
    rw [hs]
    exact Store.numbered_empty

/-! ## Section 3: Runs -/

/-- A numbered store stays numbered in every run. -/
theorem numbered_after {a : Arena τ} (h : a.store.Numbered) (moves : List (Move τ)) :
    (a.after moves).store.Numbered := by
  induction moves generalizing a with
  | nil => exact h
  | cons move rest ih => exact ih (numbered_step h move)

/-- The store is numbered in every run of a new arena. -/
theorem numbered_run (r : Rivals) (clock : τ) (moves : List (Move τ)) :
    ((new r clock).after moves).store.Numbered := by
  have hnew : (new r clock).store.Numbered := Store.numbered_empty
  exact numbered_after hnew moves

/-- Without a reset no event is lost. -/
theorem events_grow {a : Arena τ} {moves : List (Move τ)} (h : .reset ∉ a.trace moves) :
    a.store.events <+: (a.after moves).store.events := by
  induction moves generalizing a with
  | nil => exact List.prefix_refl _
  | cons move rest ih =>
    rw [trace_cons, List.mem_append, not_or] at h
    have hrest : (a.step move).1.store.events <+: (a.after (move :: rest)).store.events := ih h.2
    cases a.step_events move with
    | kept he hn => exact he ▸ hrest
    | stored event hs hnotes =>
      apply List.IsPrefix.trans _ hrest
      rw [(Store.append_ok hs).1]
      exact List.prefix_append _ _
    | dropped hs hr => exact absurd hr h.1

/-- Each event that is stored in the end and was not at the start has left its note, with the time
    at which it came. -/
theorem stored_of_mem {a : Arena τ} {moves : List (Move τ)} {e : Event}
    (h : e ∈ (a.after moves).store.events) :
    e ∈ a.store.events ∨
      ∃ before, before <+: moves ∧ .stored e (a.after before).clock ∈ a.trace moves := by
  induction moves generalizing a with
  | nil => exact .inl h
  | cons move rest ih =>
    rcases ih h with hold | ⟨before, hpart, hnote⟩
    · -- it was there behind the first move
      cases a.step_events move with
      | kept he hn =>
        rw [he] at hold
        exact .inl hold
      | stored event hs hnotes =>
        rw [(Store.append_ok hs).1] at hold
        rcases List.mem_append.mp hold with hold | hnew
        · exact .inl hold
        · rw [List.mem_singleton.mp hnew, trace_cons, hnotes]
          exact .inr ⟨[], List.nil_prefix, List.mem_cons_self⟩
      | dropped hs hr =>
        rw [hs] at hold
        cases hold
    · -- it came in a later one
      right
      refine ⟨move :: before, List.cons_prefix_cons.mpr ⟨rfl, hpart⟩, ?_⟩
      rw [trace_cons]
      exact List.mem_append_right _ hnote

/-- A note of a run is a note of one of its moves. -/
theorem exists_step_of_mem {a : Arena τ} {moves : List (Move τ)} {note : Note τ}
    (h : note ∈ a.trace moves) :
    ∃ before move behind, moves = before ++ move :: behind ∧
      note ∈ ((a.after before).step move).2 := by
  induction moves generalizing a with
  | nil => cases h
  | cons move rest ih =>
    rw [trace_cons] at h
    rcases List.mem_append.mp h with h | h
    · exact ⟨[], move, rest, rfl, h⟩
    · obtain ⟨before, other, behind, rfl, hin⟩ := ih h
      exact ⟨move :: before, other, behind, rfl, hin⟩

end Arena

end EventCheck
