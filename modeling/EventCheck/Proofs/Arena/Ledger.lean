import EventCheck.Proofs.Arena.Life
import EventCheck.Proofs.Store.Numbering

/-! # The ledger of consumed events

    An `Account` is what can be known of the ledger at some point of a trace: the
    ids consumed since the last reset, and the id that a watch has just got and not
    returned yet. `Account.Accepts` is the law that traces follow: an attempt
    succeeds if and only if its id is not in the ledger, and a watch that gets an id
    returns the event at once.

    - `accepts_run`: the trace of every run follows that law, and the ledger that it
      leads to is that of the store.
    - `consumption_exactly_once` is what follows for whole runs.
-/

namespace EventCheck

variable {τ : Type}

/-! ## Section 1: Accounts -/

/-- The two notes stand in the trace in this order, with no reset between them. -/
def SameEpoch (trace : List (Note τ)) (first second : Note τ) : Prop :=
  ∃ before between behind, trace = before ++ first :: between ++ second :: behind ∧
    .reset ∉ between

/-- Of two notes in a trace without a reset one comes first. -/
theorem sameEpoch_of_mem {trace : List (Note τ)} (hr : .reset ∉ trace) {x y : Note τ}
    (hx : x ∈ trace) (hy : y ∈ trace) (hne : x ≠ y) :
    SameEpoch trace x y ∨ SameEpoch trace y x := by
  obtain ⟨before, behind, rfl⟩ := List.append_of_mem hx
  rcases List.mem_append.mp hy with hfront | hrest
  · right
    obtain ⟨start, between, rfl⟩ := List.append_of_mem hfront
    refine ⟨start, between, behind, rfl, ?_⟩
    intro hin
    exact hr (List.mem_append_left _ (List.mem_append_right _ (List.mem_cons_of_mem _ hin)))
  · left
    rcases List.mem_cons.mp hrest with heq | hlater
    · exact absurd heq.symm hne
    · obtain ⟨between, rest, rfl⟩ := List.append_of_mem hlater
      refine ⟨before, between, rest, by simp, ?_⟩
      intro hin
      exact hr (List.mem_append_right _ (List.mem_cons_of_mem _ (List.mem_append_left _ hin)))

/-- What is known of the ledger at a point of a trace. -/
structure Account where
  consumed : List Int
  got : Option (Watcher × Int)

namespace Account

/-- May the note come next? -/
def Admits (c : Account) : Note τ → Prop
  | .answered _ id answer => c.got = none ∧ (answer = true ↔ id ∉ c.consumed)
  | .ended who (.matched e) => c.got = some (who, (e.id : Int))
  | _ => c.got = none

/-- The account behind a note. -/
def next (c : Account) : Note τ → Account
  | .answered (.watch who) id true => ⟨id :: c.consumed, some (who, id)⟩
  | .answered _ id true => ⟨id :: c.consumed, none⟩
  | .reset => ⟨[], none⟩
  | _ => ⟨c.consumed, none⟩

/-- **The law of traces**: they lead from one account to another by notes that may come. -/
def Accepts (c : Account) : List (Note τ) → Account → Prop
  | [], c' => c' = c
  | note :: rest, c' => c.Admits note ∧ (c.next note).Accepts rest c'

@[simp] theorem accepts_nil {c c' : Account} : c.Accepts ([] : List (Note τ)) c' ↔ c' = c :=
  Iff.rfl

@[simp] theorem accepts_cons {c c' : Account} {note : Note τ} {rest : List (Note τ)} :
    c.Accepts (note :: rest) c' ↔ c.Admits note ∧ (c.next note).Accepts rest c' :=
  Iff.rfl

theorem accepts_append {c c'' : Account} {xs ys : List (Note τ)} :
    c.Accepts (xs ++ ys) c'' ↔ ∃ c', c.Accepts xs c' ∧ c'.Accepts ys c'' := by
  induction xs generalizing c with
  | nil => simp
  | cons note rest ih => simp only [List.cons_append, accepts_cons, ih, and_assoc, exists_and_left]

/-- A note that is not a reset takes no id out of the ledger. -/
theorem mem_next {c : Account} {note : Note τ} {id : Int} (hn : note ≠ .reset)
    (h : id ∈ c.consumed) : id ∈ (c.next note).consumed := by
  unfold next
  split
  · exact List.mem_cons_of_mem _ h
  · exact List.mem_cons_of_mem _ h
  · exact absurd rfl hn
  · exact h

/-- What is consumed stays consumed until the next reset. -/
theorem Accepts.mem_consumed {c c' : Account} {trace : List (Note τ)} (h : c.Accepts trace c')
    (hr : .reset ∉ trace) {id : Int} (hid : id ∈ c.consumed) : id ∈ c'.consumed := by
  induction trace generalizing c with
  | nil =>
    rw [accepts_nil.mp h]
    exact hid
  | cons note rest ih =>
    have hnote : note ≠ .reset := fun heq => hr (by rw [heq]; exact List.mem_cons_self)
    exact ih h.2 (fun hin => hr (List.mem_cons_of_mem _ hin)) (mem_next hnote hid)

/-- What is consumed behind a trace was consumed before it or has been taken in it. -/
theorem Accepts.taken_of_mem {c c' : Account} {trace : List (Note τ)} (h : c.Accepts trace c')
    {id : Int} (hid : id ∈ c'.consumed) :
    id ∈ c.consumed ∨ ∃ caller, .answered caller id true ∈ trace := by
  induction trace generalizing c with
  | nil =>
    rw [accepts_nil.mp h] at hid
    exact .inl hid
  | cons note rest ih =>
    rcases ih h.2 with hold | ⟨caller, hin⟩
    · -- either this note took the id, or it was there before
      unfold next at hold
      split at hold
      · rcases List.mem_cons.mp hold with rfl | hold
        · exact .inr ⟨_, List.mem_cons_self⟩
        · exact .inl hold
      · rcases List.mem_cons.mp hold with rfl | hold
        · exact .inr ⟨_, List.mem_cons_self⟩
        · exact .inl hold
      · cases hold
      · exact .inl hold
    · exact .inr ⟨caller, List.mem_cons_of_mem _ hin⟩

/-- What has been taken is consumed. -/
theorem Accepts.mem_of_taken {c c' : Account} {trace : List (Note τ)} (h : c.Accepts trace c')
    (hr : .reset ∉ trace) (caller : Caller) {id : Int}
    (hin : .answered caller id true ∈ trace) : id ∈ c'.consumed := by
  obtain ⟨before, behind, rfl⟩ := List.append_of_mem hin
  obtain ⟨c₁, -, hbehind⟩ := accepts_append.mp h
  have hbook : id ∈ (c₁.next (.answered caller id true : Note τ)).consumed := by
    cases caller <;> exact List.mem_cons_self
  apply hbehind.2.mem_consumed _ hbook
  intro hreset
  exact hr (List.mem_append_right _ (List.mem_cons_of_mem _ hreset))

/-- An id that a watch has got by the end of a trace was free until the last note. -/
theorem Accepts.free_of_got {c c' : Account} {trace : List (Note τ)} (h : c.Accepts trace c')
    (hc : c.got = none) {who : Watcher} {id : Int} (hgot : c'.got = some (who, id)) :
    id ∈ c'.consumed ∧ ∃ before c₁, trace = before ++ [.answered (.watch who) id true] ∧
      c.Accepts before c₁ ∧ id ∉ c₁.consumed := by
  rcases List.eq_nil_or_concat trace with rfl | ⟨before, note, htrace⟩
  · rw [accepts_nil.mp h, hc] at hgot
    cases hgot
  · rw [List.concat_eq_append] at htrace
    subst htrace
    obtain ⟨c₁, hbefore, hadmits, hnext⟩ := accepts_append.mp h
    rw [accepts_nil.mp hnext] at hgot ⊢
    -- only the success of a watch leaves an id that is got
    unfold next at hgot
    split at hgot
    · cases hgot
      exact ⟨List.mem_cons_self, before, c₁, rfl, hbefore, hadmits.2.mp rfl⟩
    all_goals cases hgot

/-- A watch that gets an id returns its event, unless the trace breaks off before. -/
theorem Accepts.returned {c c' : Account} {trace : List (Note τ)} (h : c.Accepts trace c')
    (hc : c'.got = none) {who : Watcher} {id : Int}
    (hin : .answered (.watch who) id true ∈ trace) :
    ∃ e : Event, (e.id : Int) = id ∧ .ended who (.matched e) ∈ trace := by
  obtain ⟨before, behind, rfl⟩ := List.append_of_mem hin
  obtain ⟨c₁, -, -, hbehind⟩ := accepts_append.mp h
  cases behind with
  | nil =>
    -- the trace would end with an event that is not returned
    rw [accepts_nil.mp hbehind] at hc
    cases hc
  | cons note rest =>
    -- of all notes only the return of the event may come next
    have hadmits := hbehind.1
    cases note with
    | ended other outcome =>
      cases outcome with
      | matched e =>
        obtain ⟨rfl, hid⟩ : who = other ∧ id = (e.id : Int) := by
          simpa [Admits, next] using hadmits
        exact ⟨e, hid.symm, by simp⟩
      | _ => cases hadmits
    | answered caller other answer => cases hadmits.1
    | _ => cases hadmits

/-- The accounts around two notes of one epoch. -/
theorem Accepts.sameEpoch {c c' : Account} {trace : List (Note τ)} {first second : Note τ}
    (h : c.Accepts trace c') (hs : SameEpoch trace first second) :
    ∃ (before : List (Note τ)) (c₁ : Account) (between : List (Note τ)) (c₂ : Account), c.Accepts before c₁ ∧ c₁.Admits first ∧
      (c₁.next first).Accepts between c₂ ∧ .reset ∉ between ∧ c₂.Admits second := by
  obtain ⟨before, between, behind, rfl, hreset⟩ := hs
  obtain ⟨c₂, hfront, hsecond, -⟩ := accepts_append.mp h
  obtain ⟨c₁, hbefore, hfirst, hbetween⟩ := accepts_append.mp hfront
  exact ⟨before, c₁, between, c₂, hbefore, hfirst, hbetween, hreset, hsecond⟩

/-- Between resets no id is taken twice. -/
theorem Accepts.not_taken_twice {c c' : Account} {trace : List (Note τ)}
    (h : c.Accepts trace c') (caller caller' : Caller) (id : Int) :
    ¬ SameEpoch trace (.answered caller id true) (.answered caller' id true) := by
  intro hs
  obtain ⟨before, c₁, between, c₂, -, -, hbetween, hreset, hsecond⟩ := h.sameEpoch hs
  have hid : id ∈ (c₁.next (.answered caller id true : Note τ)).consumed := by
    cases caller <;> exact List.mem_cons_self
  exact hsecond.2.mp rfl (hbetween.mem_consumed hreset hid)

/-- Between resets no event is returned twice. -/
theorem Accepts.not_returned_twice {c c' : Account} {trace : List (Note τ)}
    (h : c.Accepts trace c') (hc : c.got = none) {who who' : Watcher} {e e' : Event}
    (hs : SameEpoch trace (.ended who (.matched e)) (.ended who' (.matched e'))) :
    e.id ≠ e'.id := by
  obtain ⟨before, c₁, between, c₂, hbefore, hfirst, hbetween, hreset, hsecond⟩ := h.sameEpoch hs
  have hid : (e.id : Int) ∈ c₁.consumed := (hbefore.free_of_got hc hfirst).1
  -- the second watch got its id between the two notes, when the first id was consumed
  obtain ⟨-, front, c₃, rfl, hfront, hfree⟩ := hbetween.free_of_got rfl hsecond
  have hreset' : .reset ∉ front := fun hin => hreset (List.mem_append_left _ hin)
  have hthere : (e.id : Int) ∈ c₃.consumed := hfront.mem_consumed hreset' hid
  intro heq
  rw [heq] at hthere
  exact hfree hthere

end Account

/-! ## Section 2: Attempts follow the law -/

/-- The account of a store when no watch has an event to return. -/
def Store.account (s : Store) : Account := ⟨s.consumed, none⟩

/-- A rival's reset leaves the account of the settled store. -/
theorem Rivals.accepts_aftermath (r : Rivals) (s : Store) (id : Int) :
    (s.mark id).account.Accepts (r.aftermath id : List (Note τ)) (r.settle s id).account := by
  unfold Rivals.aftermath Rivals.settle
  split
  · exact ⟨rfl, rfl⟩
  · exact rfl

/-- What a scan that ends so leaves to its watch and to the ledger: an event to return, or
    nothing. -/
def Found.Leaves (r : Rivals) (who : Watcher) (c : Account) (s' : Store) : Found → Prop
  | .event e => ∃ s : Store,
      c = ⟨(s.mark e.id).consumed, some (who, (e.id : Int))⟩ ∧ s' = r.settle s e.id
  | _ => c = s'.account

/-- The attempts of a scan follow the law. -/
theorem Query.Course.accepts {q : Query} {r : Rivals} {s s' : Store} {events : List Event}
    {answers : List (Nat × Bool)} {found : Found} (h : q.Course r s events answers found s')
    (who : Watcher) :
    ∃ c, found.Leaves r who c s' ∧
      s.account.Accepts (answers.flatMap (fun (id, answer) =>
        Note.attempt (.watch who) true id answer) : List (Note τ)) c := by
  induction h with
  | ends s => exact ⟨_, rfl, rfl⟩
  | skips hc h ih => exact ih
  | declines hc ha h ih => exact ih
  | fails hc ha => exact ⟨_, rfl, rfl⟩
  | @takes s e rest hc ha hl =>
    have hfree := Store.isConsumed_eq_false_iff.mp (isCandidate_iff.mp hc).2
    exact ⟨_, ⟨s, rfl, rfl⟩, ⟨rfl, fun _ => hfree, fun _ => rfl⟩, rfl⟩
  | @loses s s' e rest answers found hc ha hl h ih =>
    have hfree := Store.isConsumed_eq_false_iff.mp (isCandidate_iff.mp hc).2
    obtain ⟨c, hleaves, haccepts⟩ := ih
    -- the rival takes the id, and so the watch is refused
    refine ⟨c, hleaves, ⟨rfl, fun _ => hfree, fun _ => rfl⟩, ⟨rfl, ?_⟩, haccepts⟩
    simp [Account.next]

/-- The end of a watch that got nothing follows the law anywhere. -/
theorem Turn.accepts_notes {turn : Turn τ} (h : ∀ e, turn ≠ .ended (.matched e)) (r : Rivals)
    (who : Watcher) (s : Store) : s.account.Accepts (turn.notes r who) s.account := by
  cases turn with
  | sleeps d => exact rfl
  | ended outcome =>
    cases outcome with
    | matched e => exact absurd rfl (h e)
    | expired error => exact ⟨rfl, rfl⟩
    | crashed error => exact ⟨rfl, rfl⟩

/-- An attempt from outside follows the law. -/
theorem Rivals.accepts_attempt (r : Rivals) (s : Store) (id : Int) :
    s.account.Accepts (Note.attempt .outsider (!s.isConsumed id) id (r.tryConsume s id).1
        ++ (if (r.tryConsume s id).1 then r.aftermath id else []) : List (Note τ))
      (r.tryConsume s id).2.account := by
  cases hcons : s.isConsumed id with
  | true =>
    have hmem := Store.isConsumed_iff.mp hcons
    rw [tryConsume_of_consumed hcons]
    exact ⟨⟨rfl, by simp [Store.account, hmem]⟩, rfl⟩
  | false =>
    have hfree := Store.isConsumed_eq_false_iff.mp hcons
    cases hl : r.lost.contains id with
    | true =>
      rw [tryConsume_of_lost hcons hl]
      exact ⟨⟨rfl, fun _ => hfree, fun _ => rfl⟩, ⟨rfl, by simp [Account.next]⟩, rfl⟩
    | false =>
      rw [tryConsume_of_fresh hcons hl]
      exact ⟨⟨rfl, fun _ => hfree, fun _ => rfl⟩, r.accepts_aftermath s id⟩

variable [Time τ]

/-- A round follows the law. -/
theorem Watch.accepts_poll (w : Watch τ) (r : Rivals) (now : τ) (s : Store) (who : Watcher) :
    s.account.Accepts ((w.poll r now s).notes r who) (w.poll r now s).store.account := by
  obtain ⟨c, hleaves, haccepts⟩ := (w.course_poll r now s).accepts (τ := τ) who
  refine Account.accepts_append.mpr ⟨c, haccepts, ?_⟩
  cases hf : (w.query.scan r s).found with
  | event e =>
    rw [hf] at hleaves
    obtain ⟨s₁, rfl, hstore⟩ := hleaves
    rw [poll_matched_iff.mpr hf, hstore]
    exact ⟨rfl, r.accepts_aftermath s₁ e.id⟩
  | _ =>
    -- the watch has nothing to return, whether it goes on or fails
    rw [hf] at hleaves
    obtain rfl : c = _ := hleaves
    apply Turn.accepts_notes
    intro e hturn
    rw [poll_matched_iff.mp hturn] at hf
    cases hf

/-- So does a watch that crashes before it scans. -/
theorem Watch.Polls.accepts {w : Watch τ} {r : Rivals} {now : τ} {s : Store} {p : Poll τ}
    (h : w.Polls r now s p) (who : Watcher) :
    s.account.Accepts (p.notes r who) p.store.account := by
  cases h with
  | scans => exact w.accepts_poll r now s who
  | unlogged => exact ⟨rfl, rfl⟩

/-! ## Section 3: Runs follow the law -/

namespace Arena

/-- Every move follows the law. -/
theorem accepts_step (a : Arena τ) (move : Move τ) :
    a.store.account.Accepts (a.step move).2 (a.step move).1.store.account := by
  have hchange := a.step_change move
  generalize (a.step move).1 = a', (a.step move).2 = notes at hchange
  cases hchange with
  | still hs hw hc => exact congrArg Store.account hs
  | stores hs hw hc =>
    unfold Store.append at hs
    split at hs
    · cases hs
    · simp only [Except.ok.injEq, Prod.mk.injEq] at hs
      exact ⟨rfl, by rw [← hs.1]; rfl⟩
  | begins hnew hs ho hw hc => exact ⟨rfl, congrArg Store.account hs⟩
  | @plays who w p notes hp =>
    obtain ⟨opening, rfl, hopening⟩ := hp.opened
    refine Account.accepts_append.mpr ⟨a.store.account, ?_, ?_⟩
    · rcases hopening with ⟨-, rfl⟩ | ⟨-, rfl⟩
      · exact rfl
      · exact ⟨rfl, rfl⟩
    · rw [hp.store]
      exact hp.polled.accepts who
  | attempts id hs hw hc =>
    rw [hs]
    exact a.rivals.accepts_attempt a.store id
  | resets hs hw hc => exact ⟨rfl, congrArg Store.account hs⟩

/-- **The trace of every run follows the law** and leads to the ledger of the store. -/
theorem accepts_run (a : Arena τ) (moves : List (Move τ)) :
    a.store.account.Accepts (a.trace moves) (a.after moves).store.account := by
  induction moves generalizing a with
  | nil => exact rfl
  | cons move rest ih =>
    exact Account.accepts_append.mpr ⟨_, a.accepts_step move, ih (a.step move).1⟩

end Arena

/-! ## Section 4: Exactly once -/

/-- **The watch gets the event** from the store: it is stored, has the name, is free, and
    contains the pattern if there is one. -/
structure Watch.Gets (w : Watch τ) (s : Store) (e : Event) : Prop where
  stored : e ∈ s.events
  named : e.name = w.query.name
  free : s.isConsumed e.id = false
  contains : ∀ pattern, w.query.pattern = some pattern →
    (Value.ofJson e.payload).contains pattern = .ok true

/-- A round that ends with a match has got its event. -/
theorem Watch.gets_of_matched {w : Watch τ} {r : Rivals} {now : τ} {s : Store} {e : Event}
    (h : (w.poll r now s).turn = .ended (.matched e)) : w.Gets s e := by
  have hcourse := w.course_poll r now s
  rw [poll_matched_iff.mp h] at hcourse
  obtain ⟨hmem, hwants, hfree⟩ := hcourse.found_event
  obtain ⟨hname, hadmits⟩ := Query.wants_iff.mp hwants
  refine ⟨Store.mem_of_mem_eventsSince hmem, hname, hfree, ?_⟩
  intro pattern hpattern
  unfold Query.admits at hadmits
  rw [hpattern] at hadmits
  exact hadmits

namespace Arena

/-- A watch that ends in a move has played its last round in it. If it has not crashed, it has scanned
    in that round. -/
theorem plays_of_ended {a : Arena τ} {move : Move τ} {who : Watcher} {outcome : Outcome τ}
    (h : .ended who outcome ∈ (a.step move).2) (hcrash : ∀ error, outcome ≠ .crashed error) :
    ∃ w, a.Plays who w (w.poll a.rivals a.clock a.store) (a.step move).1 (a.step move).2 ∧
      (w.poll a.rivals a.clock a.store).turn = .ended outcome := by
  have hchange := a.step_change move
  generalize (a.step move).1 = a', (a.step move).2 = notes at hchange h
  cases hchange with
  | still hs hw hc => simp at h
  | stores hs hw hc => simp at h
  | begins hnew hs ho hw hc => simp at h
  | @plays other w p notes hp =>
    obtain ⟨opening, hnotes, hopening⟩ := hp.opened
    rw [hnotes] at h
    rcases List.mem_append.mp h with h | h
    · rcases hopening with ⟨-, rfl⟩ | ⟨-, rfl⟩
      · cases h
      · simp at h
    · obtain ⟨rfl, hturn⟩ := Poll.ended_mem_notes.mp h
      obtain rfl : p = w.poll a.rivals a.clock a.store := hp.polled.eq_poll fun error hcrashed =>
        hcrash error (Turn.ended.inj (hturn.symm.trans hcrashed))
      exact ⟨w, hp, hturn⟩
  | attempts id hs hw hc =>
    rcases Rivals.mem_attempt h with ⟨_, _, heq⟩ | heq <;> cases heq
  | resets hs hw hc => simp at h

/-- The watch that plays a round has begun by the end of it. -/
theorem Plays.began {a a' : Arena τ} {who : Watcher} {w : Watch τ} {p : Poll τ}
    {trace notes : List (Note τ)} (hp : a.Plays who w p a' notes) (h : Life a.isOver a.underway? trace) :
    .began who w ∈ trace ++ notes := by
  obtain ⟨opening, rfl, hopening⟩ := hp.opened
  rcases hopening with ⟨hway, rfl⟩ | ⟨-, rfl⟩
  · exact List.mem_append_left _ (h.began_of_way who w hway)
  · simp

/-- **Consumption is exactly once**, in every run of any moves on a new store: between resets no
    id is taken twice and no event is returned by two watches; a watch that returns an event got
    it from the store, and it stays consumed until the next reset; a watch that ends without an
    event has taken none. -/
theorem consumption_exactly_once (r : Rivals) (clock : τ) (moves : List (Move τ)) :
    (∀ caller caller' id, ¬ SameEpoch ((new r clock).trace moves)
      (.answered caller id true) (.answered caller' id true)) ∧
    (∀ who who' e e', SameEpoch ((new r clock).trace moves)
      (.ended who (.matched e)) (.ended who' (.matched e')) → e.id ≠ e'.id) ∧
    (∀ before move behind, moves = before ++ move :: behind →
      ∀ who e, .ended who (.matched e) ∈ (((new r clock).after before).step move).2 →
        (∃ w, .began who w ∈ (new r clock).trace moves ∧
          (∀ w', .began who w' ∈ (new r clock).trace moves → w' = w) ∧
          w.Gets ((new r clock).after before).store e) ∧
        ∀ later further, behind = later ++ further →
          .reset ∉ ((new r clock).after before).trace (move :: later) →
          ((new r clock).after (before ++ move :: later)).store.isConsumed e.id = true) ∧
    (∀ who outcome, .ended who outcome ∈ (new r clock).trace moves →
      (∀ e, outcome ≠ .matched e) →
      ∀ id, .answered (.watch who) id true ∉ (new r clock).trace moves) := by
  have haccepts := (new r clock).accepts_run moves
  have hlife := life_run r clock moves
  refine ⟨haccepts.not_taken_twice, fun who who' e e' => haccepts.not_returned_twice rfl, ?_, ?_⟩
  · rintro before move behind rfl who e hended
    obtain ⟨w, hplays, hturn⟩ := plays_of_ended hended nofun
    constructor
    · have hbegan : .began who w ∈ (new r clock).trace (before ++ move :: behind) := by
        rw [trace_append, trace_cons, ← List.append_assoc]
        exact List.mem_append_left _ (hplays.began (life_run r clock before))
      refine ⟨w, hbegan, ?_, Watch.gets_of_matched hturn⟩
      exact fun w' hbegan' => hlife.began_once who w' w hbegan' hbegan
    · rintro later further rfl hreset
      rw [after_append, Store.isConsumed_iff]
      have hlater := ((new r clock).after before).accepts_run (move :: later)
      apply hlater.mem_of_taken hreset (.watch who)
      obtain ⟨opening, hnotes, -⟩ := hplays.opened
      obtain ⟨lost, -, hpoll⟩ := Poll.notes_of_matched who hturn
      rw [trace_cons, hnotes, hpoll]
      simp
  · intro who outcome hended hlost id htaken
    obtain ⟨e, -, hmatched⟩ := haccepts.returned rfl htaken
    exact hlost e (hlife.ended_once who outcome (.matched e) hended hmatched)

end Arena

end EventCheck
