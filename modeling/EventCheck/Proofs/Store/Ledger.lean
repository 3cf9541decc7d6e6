import EventCheck.Proofs.Store.History
import EventCheck.Proofs.Watch.Scan

/-! # Which events are born consumed

    An id can be consumed whether an event with that id is stored or not. A reset begins
    the ids anew, so a client that has read an event before it may consume behind it an id
    that another event will get.

    - `reached`: the ids that somebody has reached for since the last reset. These are the
      ones in the ledger (`isConsumed_iff_reached`).
    - `BornFree`: every consumed id belongs to a stored event, and the next event will not
      be consumed when it comes.
    - `bornFree_perform_iff`: a deed keeps that if and only if it reaches for nothing but
      stored events.
    - `bornFree_iff_reaching_stored`: so it holds all the time if and only if everybody
      reaches for stored events only.
    - `staleWatch_spoils`: a watch that scans what was stored before a reset breaks it.
-/

namespace EventCheck

namespace Store

/-! ## Section 1: Reaching for ids -/

/-- The ids that were reached for, behind one more deed. A reset makes all of them good again. -/
def Deed.reach (ids : List Int) : Deed → List Int
  | .append _ _ => ids
  | .tryConsume id => id :: ids
  | .reset => []

/-- **The ids that somebody has reached for** since the last reset. -/
def reached (deeds : List Deed) : List Int := deeds.foldl Deed.reach []

theorem reached_concat (deeds : List Deed) (deed : Deed) :
    reached (deeds ++ [deed]) = deed.reach (reached deeds) := by
  unfold reached
  rw [List.foldl_append]
  rfl

/-- An offer leaves the ledger as it is, accepted or not. -/
theorem isConsumed_append {s : Store} (offer : Incoming) (now : String) (id : Int) :
    (s.perform (.append offer now)).1.isConsumed id = s.isConsumed id := by
  cases happend : s.append offer now with
  | error fields => rw [perform_of_rejected happend]
  | ok result =>
    rw [perform_of_append happend]
    unfold isConsumed
    rw [(append_ok happend).2.2.1]

/-- Behind an attempt the id is in the ledger, whoever has entered it. -/
theorem isConsumed_tryConsume {s : Store} (id other : Int) :
    (s.perform (.tryConsume id)).1.isConsumed other = true ↔
      other = id ∨ s.isConsumed other = true := by
  show (s.tryConsume id).2.isConsumed other = true ↔ _
  unfold tryConsume
  by_cases hconsumed : s.isConsumed id = true
  · rw [if_pos hconsumed]
    constructor
    · intro h
      exact .inr h
    · rintro (rfl | h)
      · exact hconsumed
      · exact h
  · rw [if_neg hconsumed]
    exact isConsumed_mark

/-- **The ledger holds the ids that were reached for**, and no others. -/
theorem isConsumed_iff_reached (deeds : List Deed) (id : Int) :
    (empty.after deeds).isConsumed id = true ↔ id ∈ reached deeds := by
  -- by induction from the end of the history, as the ledger is the work of the last deed on the
  -- ledger that the ones before it left
  induction deeds using List.reverseRecOn with
  | nil => simp [reached, empty, isConsumed]
  | append_singleton before deed ih =>
    rw [after_concat, reached_concat]
    cases deed with
    | append offer now =>
      rw [isConsumed_append]
      exact ih
    | tryConsume other =>
      rw [isConsumed_tryConsume, ih]
      exact List.mem_cons.symm
    | reset =>
      show empty.isConsumed id = true ↔ id ∈ []
      simp [empty, isConsumed]

/-! ## Section 2: Events that are born free -/

/-- **Every event is born free** from this store: what is consumed is stored, and what is stored
    next is not consumed. -/
structure BornFree (s : Store) : Prop where
  stored : ∀ id, s.isConsumed id = true → ∃ e ∈ s.events, (e.id : Int) = id
  next : ∀ offer now e, (s.perform (.append offer now)).2 = .stored e →
    (s.perform (.append offer now)).1.isConsumed e.id = false

/-- An event that is stored gets the next id. -/
theorem id_of_stored {s : Store} {offer : Incoming} {now : String} {e : Event}
    (h : (s.perform (.append offer now)).2 = .stored e) : e.id = s.nextId := by
  have heffect := s.effect_perform (.append offer now)
  rw [h] at heffect
  cases heffect with
  | stores happend => exact (append_ok happend).2.2.2

/-- Where what is consumed is stored, the next event is born free, since its id is a new one. -/
theorem Numbered.bornFree {s : Store} (hs : s.Numbered)
    (h : ∀ id, s.isConsumed id = true → ∃ e ∈ s.events, (e.id : Int) = id) : s.BornFree := by
  refine ⟨h, ?_⟩
  intro offer now e hstored
  rw [isConsumed_append, ← Bool.not_eq_true]
  intro hconsumed
  obtain ⟨x, hx, hid⟩ := h e.id hconsumed
  obtain ⟨i, hi, rfl⟩ := List.mem_iff_getElem.mp hx
  have hnew : e.id = s.events.length + 1 := (id_of_stored hstored).trans hs.next
  have hold : s.events[i].id = i + 1 := hs.id_eq i hi
  omega

theorem bornFree_empty : empty.BornFree := by
  apply numbered_empty.bornFree
  intro id h
  simp [empty, isConsumed] at h

/-- **What keeps a deed harmless**: it reaches for nothing but what is stored. -/
def Deed.ReachesStored (s : Store) : Deed → Prop
  | .tryConsume id => ∃ e ∈ s.events, (e.id : Int) = id
  | .append _ _ => True
  | .reset => True

/-- Reaching for an id changes no event. -/
theorem events_tryConsume (s : Store) (id : Int) :
    (s.perform (.tryConsume id)).1.events = s.events := by
  show (s.tryConsume id).2.events = s.events
  unfold tryConsume
  by_cases hconsumed : s.isConsumed id = true
  · rw [if_pos hconsumed]
  · rw [if_neg hconsumed]

/-- **One deed**: behind it every event is born free if and only if it reaches for nothing but what
    is stored. -/
theorem bornFree_perform_iff {s : Store} (hs : s.Numbered) (hfree : s.BornFree) (deed : Deed) :
    (s.perform deed).1.BornFree ↔ deed.ReachesStored s := by
  have hnumbered : (s.perform deed).1.Numbered := (s.effect_perform deed).numbered hs
  cases deed with
  | append offer now =>
    -- the ledger stays, and so do the stored events
    have hkept : s.events <+: (s.perform (.append offer now)).1.events :=
      (s.effect_perform _).events (isDropped_perform (by simp))
    refine ⟨fun _ => trivial, fun _ => hnumbered.bornFree ?_⟩
    intro id hconsumed
    rw [isConsumed_append] at hconsumed
    obtain ⟨e, he, hid⟩ := hfree.stored id hconsumed
    exact ⟨e, hkept.subset he, hid⟩
  | tryConsume id =>
    show _ ↔ ∃ e ∈ s.events, (e.id : Int) = id
    constructor
    · intro hbehind
      rw [← events_tryConsume s id]
      exact hbehind.stored id ((isConsumed_tryConsume id id).mpr (.inl rfl))
    · intro hstored
      apply hnumbered.bornFree
      intro other hconsumed
      rw [events_tryConsume]
      rcases (isConsumed_tryConsume id other).mp hconsumed with rfl | hbefore
      · exact hstored
      · exact hfree.stored other hbefore
  | reset => exact ⟨fun _ => trivial, fun _ => bornFree_empty⟩

/-- **A whole history**: every event is born free all along it if and only if every deed reaches for
    nothing but what is stored at that moment. -/
theorem bornFree_along_iff (deeds : List Deed) :
    (∀ before, before <+: deeds → (empty.after before).BornFree) ↔
      ∀ before deed, before ++ [deed] <+: deeds → deed.ReachesStored (empty.after before) := by
  constructor
  · intro hall before deed hprefix
    -- both sides of the deed belong to the history
    have hfront : (empty.after before).BornFree :=
      hall before ((List.prefix_append before [deed]).trans hprefix)
    have hbehind : ((empty.after before).perform deed).1.BornFree := by
      rw [← after_concat]
      exact hall (before ++ [deed]) hprefix
    exact (bornFree_perform_iff (numbered_history before) hfront deed).mp hbehind
  · intro hreach before
    induction before using List.reverseRecOn with
    | nil =>
      intro _
      exact bornFree_empty
    | append_singleton before deed ih =>
      intro hprefix
      rw [after_concat]
      have hfront : (empty.after before).BornFree :=
        ih ((List.prefix_append before [deed]).trans hprefix)
      exact (bornFree_perform_iff (numbered_history before) hfront deed).mpr
        (hreach before deed hprefix)

/-! ## Section 3: When no event is born consumed -/

/-- **When no event is born consumed.** Whatever is done to a new store, by any number of clients,
    the ledger holds the ids that were reached for since the last reset, and the next event is
    consumed at once if and only if its id is one of them. It never comes to that, and all that
    is consumed is stored, if and only if nobody reaches for an id that is not stored at that
    moment. What a client has read stays stored until the next reset. -/
theorem bornFree_iff_reaching_stored (deeds : List Deed) :
    let s := empty.after deeds
    (∀ id, s.isConsumed id = true ↔ id ∈ reached deeds) ∧
    (∀ offer now e, (s.perform (.append offer now)).2 = .stored e →
      ((s.perform (.append offer now)).1.isConsumed e.id = true ↔ (e.id : Int) ∈ reached deeds)) ∧
    ((∀ before, before <+: deeds → (empty.after before).BornFree) ↔
      ∀ before id, before ++ [.tryConsume id] <+: deeds →
        ∃ e ∈ (empty.after before).events, (e.id : Int) = id) ∧
    ∀ between, .reset ∉ between → ∀ e ∈ s.events, e ∈ (s.after between).events := by
  intro s
  refine ⟨isConsumed_iff_reached deeds, ?_, ?_, ?_⟩
  · intro offer now e _
    rw [isConsumed_append]
    exact isConsumed_iff_reached deeds e.id
  · rw [bornFree_along_iff]
    constructor
    · intro hreach before id hprefix
      exact hreach before (.tryConsume id) hprefix
    · intro hreach before deed hprefix
      -- only reaching for an id can do harm
      cases deed with
      | append offer now => trivial
      | tryConsume id => exact hreach before id hprefix
      | reset => trivial
  · intro between hreset e he
    exact (events_after hreset s).subset he

/-- An order is offered. -/
def orderComes : Deed := .append (.plain "order" .null none) "noon"

/-- **A watch spoils the next event.** It has read an order, somebody resets the store, and it goes
    on with its scan. The id that it consumes then belongs to no event, the order that comes
    next is born consumed, and no scan will ever find it. -/
theorem staleWatch_spoils :
    let read := empty.after [orderComes]
    let q : Query := ⟨"order", none, 0⟩
    let spoiled := (q.scanEvents .none (read.eventsSince q.baseline) ⟨0, none, []⟩ read.reset).store
    spoiled = empty.after [orderComes, .reset, .tryConsume 1] ∧
    spoiled.events = [] ∧ spoiled.isConsumed 1 = true ∧ ¬ spoiled.BornFree ∧
    ∃ e, (spoiled.perform orderComes).2 = .stored e ∧
      (spoiled.perform orderComes).1.isConsumed e.id = true ∧
      (q.scan .none (spoiled.perform orderComes).1).found = .nothing := by
  intro read q spoiled
  refine ⟨rfl, rfl, rfl, ?_, ⟨1, "order", .null, "noon", none⟩, rfl, rfl, rfl⟩
  intro hfree
  obtain ⟨e, he, -⟩ := hfree.stored 1 rfl
  cases he

end Store

end EventCheck
