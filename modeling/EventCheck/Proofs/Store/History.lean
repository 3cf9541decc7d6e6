import EventCheck.Proofs.Store.Numbering
import Mathlib.Data.List.Induction

/-! # The history of a store

    What becomes of a new store to which anything is done in any order.

    - **Deeds**: an event is offered, somebody tries to consume an id, the store is
      reset.
    - **Answers**: the event that was stored, the fields for which an offer was
      rejected, whether the id was still to be had, or that all is dropped.
    - `Effect` says what a deed does to the store, by its answer. Every deed has
      such an effect (`effect_perform`).
    - `InOrder`: ids, size, last event and the events behind a baseline all agree with
      a number of events. By `history_in_order` that is the number of offers
      accepted since the last reset.
-/

namespace EventCheck

namespace Store

/-! ## Section 1: Deeds and answers -/

/-- What can be done to a store. -/
inductive Deed where
  | append (offer : Incoming) (now : String)
  | tryConsume (id : Int)
  | reset

/-- What comes back of a deed. -/
inductive Answer where
  | stored (event : Event)
  | rejected (fields : List EventField)
  | consumed (fresh : Bool)
  | dropped

namespace Answer

def isStored : Answer → Bool
  | .stored _ => true
  | _ => false

def isDropped : Answer → Bool
  | .dropped => true
  | _ => false

end Answer

/-- Does one thing to the store. A rejected offer leaves it as it is. -/
def perform (s : Store) : Deed → Store × Answer
  | .append offer now =>
    match s.append offer now with
    | .ok result => (result.1, .stored result.2)
    | .error fields => (s, .rejected fields)
  | .tryConsume id =>
    let (fresh, s') := s.tryConsume id
    (s', .consumed fresh)
  | .reset => (s.reset, .dropped)

/-- The store behind a history. -/
def after (s : Store) : List Deed → Store
  | [] => s
  | deed :: rest => (s.perform deed).1.after rest

/-- The answers of a history, in order. -/
def answers (s : Store) : List Deed → List Answer
  | [] => []
  | deed :: rest => (s.perform deed).2 :: (s.perform deed).1.answers rest

/-- How many offers were accepted since the store was last reset. -/
def accepted (answers : List Answer) : Nat :=
  (answers.reverse.takeWhile fun answer => !answer.isDropped).countP Answer.isStored

@[simp] theorem after_nil (s : Store) : s.after [] = s := rfl

@[simp] theorem after_cons (s : Store) (deed : Deed) (rest : List Deed) :
    s.after (deed :: rest) = (s.perform deed).1.after rest := rfl

theorem after_concat (s : Store) (deeds : List Deed) (deed : Deed) :
    s.after (deeds ++ [deed]) = ((s.after deeds).perform deed).1 := by
  induction deeds generalizing s with
  | nil => rfl
  | cons first rest ih => exact ih (s.perform first).1

theorem answers_concat (s : Store) (deeds : List Deed) (deed : Deed) :
    s.answers (deeds ++ [deed]) = s.answers deeds ++ [((s.after deeds).perform deed).2] := by
  induction deeds generalizing s with
  | nil => rfl
  | cons first rest ih =>
    show (s.perform first).2 :: (s.perform first).1.answers (rest ++ [deed]) = _
    rw [ih]
    rfl

/-- A reset begins the count anew, an accepted offer adds one, and nothing else counts. -/
theorem accepted_concat (answers : List Answer) (answer : Answer) :
    accepted (answers ++ [answer]) =
      if answer.isDropped then 0
      else accepted answers + if answer.isStored then 1 else 0 := by
  -- the count goes from the last answer back, so it meets the new one first
  unfold accepted
  rw [List.reverse_append, List.reverse_singleton, List.singleton_append]
  by_cases hdropped : answer.isDropped = true
  · rw [List.takeWhile_cons_of_neg (by simp [hdropped]), if_pos hdropped]
    rfl
  · rw [List.takeWhile_cons_of_pos (by simp [hdropped]), if_neg hdropped, List.countP_cons]

/-! ## Section 2: What a deed does -/

theorem perform_of_append {s s' : Store} {offer : Incoming} {now : String} {event : Event}
    (h : s.append offer now = .ok (s', event)) :
    s.perform (.append offer now) = (s', .stored event) := by
  simp only [perform, h]

theorem perform_of_rejected {s : Store} {offer : Incoming} {now : String}
    {fields : List EventField} (h : s.append offer now = .error fields) :
    s.perform (.append offer now) = (s, .rejected fields) := by
  simp only [perform, h]

/-- **What a deed does to the store**, by its answer. -/
inductive Effect (s s' : Store) : Answer → Prop where
  /-- One more event is stored. -/
  | stores {offer : Incoming} {now : String} {event : Event}
      (hs : s.append offer now = .ok (s', event)) : Effect s s' (.stored event)
  /-- Nothing happens. -/
  | rejects {fields : List EventField} (hs : s' = s) : Effect s s' (.rejected fields)
  /-- At most the ledger changes. -/
  | consumes {fresh : Bool} (he : s'.events = s.events) (hn : s'.nextId = s.nextId) :
      Effect s s' (.consumed fresh)
  /-- All is dropped. -/
  | drops (hs : s' = .empty) : Effect s s' .dropped

theorem effect_perform (s : Store) (deed : Deed) :
    Effect s (s.perform deed).1 (s.perform deed).2 := by
  cases deed with
  | append offer now =>
    cases happend : s.append offer now with
    | error fields =>
      rw [perform_of_rejected happend]
      exact .rejects rfl
    | ok result =>
      rw [perform_of_append happend]
      exact .stores happend
  | tryConsume id =>
    show Effect s (s.tryConsume id).2 (.consumed (s.tryConsume id).1)
    unfold tryConsume
    by_cases hconsumed : s.isConsumed id = true
    · rw [if_pos hconsumed]
      exact .consumes rfl rfl
    · rw [if_neg hconsumed]
      exact .consumes rfl rfl
  | reset => exact .drops rfl

namespace Effect

variable {s s' : Store} {answer : Answer}

theorem numbered (h : Effect s s' answer) (hs : s.Numbered) : s'.Numbered := by
  cases h with
  | stores happend => exact hs.append happend
  | rejects hsame => exact hsame ▸ hs
  | consumes he hn => exact hs.of_eq he hn
  | drops hempty => exact hempty ▸ numbered_empty

/-- The number of events goes along with the count of accepted offers. -/
theorem length (h : Effect s s' answer) {earlier : List Answer}
    (hs : s.events.length = accepted earlier) :
    s'.events.length = accepted (earlier ++ [answer]) := by
  rw [accepted_concat]
  cases h with
  | stores happend =>
    have hevents := (append_ok happend).1
    simp [hevents, hs, Answer.isDropped, Answer.isStored]
  | rejects hsame => simp [hsame, hs, Answer.isDropped, Answer.isStored]
  | consumes he hn => simp [he, hs, Answer.isDropped, Answer.isStored]
  | drops hempty => simp [hempty, empty, Answer.isDropped]

/-- Only where all is dropped is an event lost. -/
theorem events (h : Effect s s' answer) (hkept : answer.isDropped = false) :
    s.events <+: s'.events := by
  cases h with
  | stores happend =>
    rw [(append_ok happend).1]
    exact List.prefix_append _ _
  | rejects hsame =>
    subst hsame
    exact List.prefix_refl _
  | consumes he hn => exact he ▸ List.prefix_refl _
  | drops hempty => cases hkept

end Effect

/-- Only a reset drops all. -/
theorem isDropped_perform {s : Store} {deed : Deed} (h : deed ≠ .reset) :
    (s.perform deed).2.isDropped = false := by
  cases deed with
  | append offer now =>
    cases happend : s.append offer now with
    | error fields =>
      rw [perform_of_rejected happend]
      rfl
    | ok result =>
      rw [perform_of_append happend]
      rfl
  | tryConsume id => rfl
  | reset => exact absurd rfl h

/-! ## Section 3: Histories -/

theorem numbered_history (deeds : List Deed) : (empty.after deeds).Numbered := by
  -- by induction from the end of the history, since each deed meets the store that the ones before
  -- it left
  induction deeds using List.reverseRecOn with
  | nil => exact numbered_empty
  | append_singleton before deed ih =>
    rw [after_concat]
    exact (effect_perform _ deed).numbered ih

/-- As many events are stored as offers were accepted since the last reset. -/
theorem length_history (deeds : List Deed) :
    (empty.after deeds).events.length = accepted (empty.answers deeds) := by
  induction deeds using List.reverseRecOn with
  | nil => rfl
  | append_singleton before deed ih =>
    rw [after_concat, answers_concat]
    exact (effect_perform _ deed).length ih

/-- Without a reset the stored events stay, in their places. -/
theorem events_after {deeds : List Deed} (h : .reset ∉ deeds) (s : Store) :
    s.events <+: (s.after deeds).events := by
  induction deeds generalizing s with
  | nil => exact List.prefix_refl _
  | cons deed rest ih =>
    have hfirst : deed ≠ .reset := fun heq => h (heq ▸ List.mem_cons_self)
    have hrest : .reset ∉ rest := fun hin => h (List.mem_cons_of_mem _ hin)
    -- the rest of the history begins with another store
    have hkept := (effect_perform s deed).events (isDropped_perform hfirst)
    exact hkept.trans (ih hrest _)

/-! ## Section 4: Stores in order -/

/-- **The store is in order** with this many events. -/
structure InOrder (s : Store) (n : Nat) : Prop where
  /-- The ids are the numbers from one on. -/
  ids : s.events.map (·.id) = List.range' 1 n
  next : s.nextId = n + 1
  size : s.size = n
  /-- The last event is the one with the greatest id; there is none if nothing is stored. -/
  last : ∀ e, s.last? = some e ↔ e ∈ s.events ∧ e.id = n
  /-- A baseline leaves out the events with the ids up to it, and no others. -/
  since : ∀ b : Int, 0 ≤ b → s.eventsSince b = s.events.filter fun e => b < e.id

namespace Numbered

theorem ids {s : Store} (h : s.Numbered) :
    s.events.map (·.id) = List.range' 1 s.events.length := by
  refine List.ext_getElem (by simp) ?_
  intro i hi hi'
  rw [List.length_map] at hi
  rw [List.getElem_map, h.id_eq i hi, List.getElem_range']
  omega

theorem last?_iff {s : Store} (h : s.Numbered) {e : Event} :
    s.last? = some e ↔ e ∈ s.events ∧ e.id = s.events.length := by
  unfold last?
  rw [List.getLast?_eq_getElem?]
  constructor
  · intro hlast
    obtain ⟨hlt, rfl⟩ := List.getElem?_eq_some_iff.mp hlast
    rw [h.id_eq _ hlt]
    exact ⟨List.getElem_mem hlt, by omega⟩
  · rintro ⟨hin, hid⟩
    obtain ⟨i, hi, rfl⟩ := List.mem_iff_getElem.mp hin
    rw [h.id_eq i hi] at hid
    have hplace : s.events.length - 1 = i := by omega
    rw [hplace]
    exact List.getElem?_eq_getElem hi

/-- A numbered store is in order. -/
theorem inOrder {s : Store} (h : s.Numbered) : s.InOrder s.events.length where
  ids := h.ids
  next := h.next
  size := rfl
  last _ := h.last?_iff
  since b hb := by
    obtain ⟨n, rfl⟩ := Int.eq_ofNat_of_zero_le hb
    simpa using h.eventsSince_eq n

end Numbered

/-- **Every store is in order.** Whatever was done to a new store, it holds as many events as offers
    were accepted since the last reset, and its ids, its next id, its size, its last event and
    what stands behind a baseline agree with that number. From then on only a reset takes
    stored events away, an accepted offer comes behind them with the next id, and a rejected
    one leaves events, ledger and next id as they were. -/
theorem history_in_order (deeds : List Deed) :
    let s := empty.after deeds
    let n := accepted (empty.answers deeds)
    s.InOrder n ∧
    (∀ further, .reset ∉ further → s.events <+: (s.after further).events) ∧
    (∀ offer now e, (s.perform (.append offer now)).2 = .stored e →
      e.id = n + 1 ∧ (s.perform (.append offer now)).1.events = s.events ++ [e] ∧
        (s.perform (.append offer now)).1.consumed = s.consumed) ∧
    (∀ offer now fields, (s.perform (.append offer now)).2 = .rejected fields →
      (s.perform (.append offer now)).1.events = s.events ∧
        (s.perform (.append offer now)).1.consumed = s.consumed ∧
        (s.perform (.append offer now)).1.nextId = s.nextId) := by
  intro s n
  have hnumbered : s.Numbered := numbered_history deeds
  have hlength : s.events.length = n := length_history deeds
  refine ⟨hlength ▸ hnumbered.inOrder, fun further hr => events_after hr s, ?_, ?_⟩
  · intro offer now e hstored
    have heffect := s.effect_perform (.append offer now)
    rw [hstored] at heffect
    cases heffect with
    | stores happend =>
      obtain ⟨hevents, -, hconsumed, hid⟩ := append_ok happend
      refine ⟨?_, hevents, hconsumed⟩
      rw [hid, hnumbered.next, hlength]
  · intro offer now fields hrejected
    have heffect := s.effect_perform (.append offer now)
    rw [hrejected] at heffect
    cases heffect with
    | rejects hs =>
      rw [hs]
      exact ⟨rfl, rfl, rfl⟩

/-- What a reset drops and what is rejected does not count. -/
example : accepted (empty.answers
    [.append (.plain "order" .null none) "noon", .reset, .append (.plain "view" .null none) "noon",
      .append ⟨.str "view", .tuple [], .null, none⟩ "noon", .tryConsume 7]) = 1 := by
  decide

end Store

end EventCheck
