import EventCheck.Store.Basic

/-! # The numbers of stored events

    A store numbers its events from one, in the order in which they came. So an
    event stands behind the first `b` ones if and only if its id is greater than
    `b`, and what is stored later has a greater id.
-/

namespace EventCheck

namespace Store

/-- **The store is numbered**: each event has its position as id, and the next id is the next
    position. -/
structure Numbered (s : Store) : Prop where
  next : s.nextId = s.events.length + 1
  id_eq : ∀ i (h : i < s.events.length), s.events[i].id = i + 1

/-- What stands behind a baseline is the rear part of what is stored. -/
theorem eventsSince_sublist (s : Store) (baseline : Int) :
    (s.eventsSince baseline).Sublist s.events := by
  unfold eventsSince
  split
  · exact List.drop_sublist _ _
  · exact List.drop_sublist _ _

theorem mem_of_mem_eventsSince {s : Store} {baseline : Int} {e : Event}
    (h : e ∈ s.eventsSince baseline) : e ∈ s.events :=
  (s.eventsSince_sublist baseline).subset h

theorem eventsSince_natCast (s : Store) (baseline : Nat) :
    s.eventsSince baseline = s.events.drop baseline := by
  simp [eventsSince]

theorem numbered_empty : Store.empty.Numbered := ⟨rfl, by simp [empty]⟩

theorem Numbered.of_eq {s s' : Store} (h : s.Numbered) (he : s'.events = s.events)
    (hn : s'.nextId = s.nextId) : s'.Numbered := by
  obtain ⟨events, consumed, nextId⟩ := s'
  obtain rfl : events = s.events := he
  obtain rfl : nextId = s.nextId := hn
  exact ⟨h.next, h.id_eq⟩

/-- What an accepted offer does to the store. -/
theorem append_ok {s s' : Store} {offer : Incoming} {now : String} {e : Event}
    (h : s.append offer now = .ok (s', e)) :
    s'.events = s.events ++ [e] ∧ s'.nextId = s.nextId + 1 ∧ s'.consumed = s.consumed ∧
      e.id = s.nextId := by
  unfold append at h
  cases haccept : offer.accept s.nextId now with
  | error fields => simp [haccept] at h
  | ok event =>
    rw [haccept] at h
    cases h
    refine ⟨rfl, rfl, rfl, ?_⟩
    unfold Incoming.accept at haccept
    split at haccept
    · cases haccept
      rfl
    · cases haccept

theorem Numbered.append {s s' : Store} {offer : Incoming} {now : String} {e : Event}
    (hs : s.Numbered) (h : s.append offer now = .ok (s', e)) : s'.Numbered := by
  obtain ⟨hevents, hnext, -, hid⟩ := append_ok h
  constructor
  · rw [hnext, hevents, hs.next, List.length_append, List.length_singleton]
  · intro i hi
    simp only [hevents, List.getElem_append]
    split
    · exact hs.id_eq i _
    · rw [List.getElem_singleton, hid, hs.next]
      simp only [hevents, List.length_append, List.length_singleton] at hi
      omega

namespace Numbered

variable {s t : Store}

/-- Ids grow along the store. -/
theorem sorted (h : s.Numbered) : s.events.Pairwise fun x y => x.id < y.id := by
  rw [List.pairwise_iff_getElem]
  intro i j hi hj hlt
  rw [h.id_eq i hi, h.id_eq j hj]
  exact Nat.succ_lt_succ hlt

theorem sorted_eventsSince (h : s.Numbered) (baseline : Int) :
    (s.eventsSince baseline).Pairwise fun x y => x.id < y.id :=
  h.sorted.sublist (s.eventsSince_sublist baseline)

/-- An id belongs to one event. -/
theorem eq_of_id_eq (h : s.Numbered) {x y : Event} (hx : x ∈ s.events) (hy : y ∈ s.events)
    (hid : x.id = y.id) : x = y := by
  obtain ⟨i, hi, rfl⟩ := List.mem_iff_getElem.mp hx
  obtain ⟨j, hj, rfl⟩ := List.mem_iff_getElem.mp hy
  rw [h.id_eq i hi, h.id_eq j hj] at hid
  have hij : i = j := Nat.succ_inj.mp hid
  subst hij
  rfl

/-- What is not stored yet gets a greater id than what is. -/
theorem mem_of_le (ht : t.Numbered) (hp : s.events <+: t.events) {x y : Event}
    (hx : x ∈ t.events) (hy : y ∈ s.events) (hle : x.id ≤ y.id) : x ∈ s.events := by
  obtain ⟨rest, hrest⟩ := hp
  have hsorted := ht.sorted
  rw [← hrest, List.pairwise_append] at hsorted
  rw [← hrest] at hx
  rcases List.mem_append.mp hx with hx | hx
  · exact hx
  · exact absurd (hsorted.2.2 y hy x hx) (Nat.not_lt.mpr hle)

/-- The events behind the first ones are those with greater ids. -/
theorem eventsSince_eq (h : s.Numbered) (b : Nat) :
    s.eventsSince b = s.events.filter fun e => b < e.id := by
  have hfront : (s.events.take b).filter (fun e => b < e.id) = [] := by
    rw [List.filter_eq_nil_iff]
    intro e he
    obtain ⟨i, hi, rfl⟩ := List.mem_take_iff_getElem.mp he
    rw [h.id_eq i _, decide_eq_true_eq]
    omega
  have hrest : (s.events.drop b).filter (fun e => b < e.id) = s.events.drop b := by
    rw [List.filter_eq_self]
    intro e he
    obtain ⟨i, hi, rfl⟩ := List.mem_drop_iff_getElem.mp he
    rw [h.id_eq _ _, decide_eq_true_eq]
    omega
  calc s.eventsSince b = s.events.drop b := s.eventsSince_natCast b
    _ = (s.events.take b ++ s.events.drop b).filter (fun e => b < e.id) := by
        rw [List.filter_append, hfront, hrest, List.nil_append]
    _ = s.events.filter fun e => b < e.id := by rw [List.take_append_drop]

end Numbered

end Store

end EventCheck
