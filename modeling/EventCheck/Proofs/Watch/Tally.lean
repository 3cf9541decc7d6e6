import EventCheck.Proofs.Store.Numbering
import EventCheck.Proofs.Watch.Scan

/-! # What a scan counts

    A scan that gets nothing has looked at every event behind its baseline, so its
    tally is an account of all of them.

    - `Query.free`: the events that the scan finds unconsumed under its name.
    - `Query.lacks`: the pattern was looked for in the event and is not there.
    - `tally_of_nothing`: the scan counts the free events, and remembers the last of
      them that lacks the pattern.

    The ledger changes under the scan when a rival takes an id. That does not disturb
    the account as long as no two events share an id.
-/

namespace EventCheck

namespace Query

/-! ## Section 1: Candidates -/

/-- Was the pattern looked for in the payload of the event, and not found? -/
def lacks (q : Query) (e : Event) : Bool :=
  match q.admits e.payload with
  | .ok admitted => !admitted
  | .error _ => false

theorem lacks_iff {q : Query} {e : Event} :
    q.lacks e = true ↔ q.admits e.payload = .ok false := by
  unfold lacks
  cases q.admits e.payload <;> simp

/-- **The free events of a query**: those behind its baseline that have its name and are not
    consumed. -/
def free (q : Query) (s : Store) : List Event :=
  (s.eventsSince q.baseline).filter (q.isCandidate s)

/-- An id that a rival takes leaves the candidates with other ids as they were. -/
theorem isCandidate_mark {q : Query} {s : Store} {id : Nat} {e : Event} (h : id ≠ e.id) :
    q.isCandidate (s.mark id) e = q.isCandidate s e := by
  have hother : (e.id : Int) ≠ id := fun hid => h (Int.ofNat_inj.mp hid).symm
  have hsame : (s.mark id).isConsumed e.id = s.isConsumed e.id := by
    rw [Bool.eq_iff_iff, Store.isConsumed_mark, or_iff_right hother]
  unfold isCandidate
  rw [hsame]

/-! ## Section 2: The account of a scan -/

/-- The account is carried along the scan: what is counted and remembered behind a place comes on
    top of what the tally holds there. -/
theorem tally_scanEvents {q : Query} {r : Rivals} {events : List Event} {tally : Tally} {s : Store}
    (hids : events.Pairwise fun x y => x.id ≠ y.id)
    (hnothing : (q.scanEvents r events tally s).found = .nothing) :
    (q.scanEvents r events tally s).tally.candidates =
        tally.candidates + (events.filter (q.isCandidate s)).length ∧
      (q.scanEvents r events tally s).tally.last =
        ((events.filter (q.isCandidate s)).filter q.lacks).getLast?.or tally.last := by
  induction events generalizing tally s with
  | nil => exact ⟨rfl, rfl⟩
  | cons e rest ih =>
    obtain ⟨hfresh, hrest⟩ := List.pairwise_cons.mp hids
    by_cases hc : q.isCandidate s e = true
    · rw [List.filter_cons_of_pos hc]
      cases ha : q.admits e.payload with
      | error error =>
        simp [scanEvents, hc, ha] at hnothing
      | ok admitted =>
        cases admitted with
        | false =>
          have hlacks : q.lacks e = true := lacks_iff.mpr ha
          have hstep : q.scanEvents r (e :: rest) tally s =
              q.scanEvents r rest ⟨tally.candidates + 1, some e, tally.answers⟩ s := by
            simp only [scanEvents, hc, ha, if_true]
          rw [hstep] at hnothing ⊢
          obtain ⟨hcount, hlast⟩ := ih hrest hnothing
          constructor
          · rw [hcount, List.length_cons]
            dsimp only
            omega
          · -- the event is the last one so far, unless a later one lacks the pattern too
            rw [hlast, List.filter_cons_of_pos hlacks, List.getLast?_cons]
            cases (List.filter q.lacks (rest.filter (q.isCandidate s))).getLast? <;> rfl
        | true =>
          have hlacks : ¬ q.lacks e = true := by simp [lacks, ha]
          have hfree : s.isConsumed e.id = false := (isCandidate_iff.mp hc).2
          cases hl : r.lost.contains (e.id : Int) with
          | false =>
            simp [scanEvents, hc, ha, Rivals.tryConsume_of_fresh hfree hl] at hnothing
          | true =>
            have hstep : q.scanEvents r (e :: rest) tally s =
                q.scanEvents r rest
                  ⟨tally.candidates + 1, tally.last, tally.answers ++ [(e.id, false)]⟩
                  (s.mark e.id) := by
              simp only [scanEvents, hc, ha, Rivals.tryConsume_of_lost hfree hl, if_true]
            -- what a rival took is not met again
            have hsame : rest.filter (q.isCandidate (s.mark e.id)) =
                rest.filter (q.isCandidate s) :=
              List.filter_congr fun x hx => isCandidate_mark (hfresh x hx)
            rw [hstep] at hnothing ⊢
            obtain ⟨hcount, hlast⟩ := ih hrest hnothing
            rw [hsame] at hcount hlast
            constructor
            · rw [hcount, List.length_cons]
              dsimp only
              omega
            · rw [hlast, List.filter_cons_of_neg hlacks]
    · have hstep : q.scanEvents r (e :: rest) tally s = q.scanEvents r rest tally s := by
        simp only [scanEvents, hc, Bool.false_eq_true, if_false]
      rw [hstep] at hnothing ⊢
      rw [List.filter_cons_of_neg hc]
      exact ih hrest hnothing

/-- **The account of a scan that gets nothing**: it has counted the free events, and remembers the
    last of them that lacks the pattern. -/
theorem tally_of_nothing {q : Query} {r : Rivals} {s : Store}
    (hids : s.events.Pairwise fun x y => x.id ≠ y.id)
    (hnothing : (q.scan r s).found = .nothing) :
    (q.scan r s).tally.candidates = (q.free s).length ∧
      (q.scan r s).tally.last = ((q.free s).filter q.lacks).getLast? := by
  have hscanned : (s.eventsSince q.baseline).Pairwise fun x y => x.id ≠ y.id :=
    hids.sublist (s.eventsSince_sublist _)
  obtain ⟨hcount, hlast⟩ := tally_scanEvents hscanned hnothing
  constructor
  · exact hcount.trans (Nat.zero_add _)
  · exact hlast.trans (Option.or_none ..)

end Query

end EventCheck
