import EventCheck.Proofs.Arena.Round
import Mathlib.Data.List.Induction
import Mathlib.Logic.Function.Basic

/-! # The life of a watch

    A watch begins once and ends once, and it plays rounds only in between.

    `Life` ties what the trace says of the watches to where they stand. It
    holds of a new arena, every move keeps it (`life_step`), so it holds of every
    run (`life_run`).
-/

namespace EventCheck

variable {τ : Type}

/-! ## Section 1: What the notes of a round say of watches -/

namespace Rivals

theorem mem_aftermath {r : Rivals} {id : Int} {note : Note τ} (h : note ∈ r.aftermath id) :
    note = .reset := by
  unfold aftermath at h
  split at h
  · exact List.mem_singleton.mp h
  · cases h

end Rivals

/-- Every note of an attempt is an answer. -/
theorem Note.mem_attempt {caller : Caller} {free : Bool} {id : Int} {answer : Bool}
    {note : Note τ} (h : note ∈ Note.attempt caller free id answer) :
    ∃ caller' answer', note = .answered caller' id answer' := by
  unfold Note.attempt at h
  rcases List.mem_append.mp h with h | h
  · split at h
    · exact ⟨.rival, true, List.mem_singleton.mp h⟩
    · cases h
  · exact ⟨caller, answer, List.mem_singleton.mp h⟩

/-- An attempt from outside leaves answers, and perhaps the reset that follows. -/
theorem Rivals.mem_attempt {r : Rivals} {caller : Caller} {free answer : Bool} {id : Int}
    {note : Note τ}
    (h : note ∈ Note.attempt caller free id answer ++ if answer then r.aftermath id else []) :
    (∃ caller' answer', note = .answered caller' id answer') ∨ note = .reset := by
  rcases List.mem_append.mp h with h | h
  · exact .inl (Note.mem_attempt h)
  · split at h
    · exact .inr (mem_aftermath h)
    · cases h

namespace Poll

/-- The notes of a round are answers, its end, and behind a match perhaps a reset. -/
theorem mem_notes {p : Poll τ} {r : Rivals} {who : Watcher} {note : Note τ}
    (h : note ∈ p.notes r who) :
    (∃ caller id answer, note = .answered caller id answer) ∨
      (∃ outcome, note = .ended who outcome ∧ p.turn = .ended outcome) ∨
      note = .reset ∧ ∃ e, p.turn = .ended (.matched e) := by
  unfold notes at h
  rcases List.mem_append.mp h with h | h
  · obtain ⟨a, -, hin⟩ := List.mem_flatMap.mp h
    obtain ⟨caller, answer, heq⟩ := Note.mem_attempt hin
    exact .inl ⟨caller, _, answer, heq⟩
  · right
    cases hturn : p.turn with
    | sleeps d => simp [hturn, Turn.notes] at h
    | ended outcome =>
      cases outcome with
      | matched e =>
        rw [hturn] at h
        rcases List.mem_cons.mp h with rfl | h
        · exact .inl ⟨_, rfl, rfl⟩
        · exact .inr ⟨Rivals.mem_aftermath h, e, rfl⟩
      | expired error =>
        rw [hturn] at h
        exact .inl ⟨_, List.mem_singleton.mp h, rfl⟩
      | crashed error =>
        rw [hturn] at h
        exact .inl ⟨_, List.mem_singleton.mp h, rfl⟩

theorem ended_mem_notes {p : Poll τ} {r : Rivals} {who other : Watcher} {outcome : Outcome τ} :
    .ended other outcome ∈ p.notes r who ↔ other = who ∧ p.turn = .ended outcome := by
  constructor
  · intro h
    rcases mem_notes h with ⟨caller, id, answer, heq⟩ | ⟨outcome', heq, hturn⟩ | ⟨heq, -⟩
    · cases heq
    · cases heq
      exact ⟨rfl, hturn⟩
    · cases heq
  · rintro ⟨rfl, hturn⟩
    refine List.mem_append_right _ ?_
    rw [hturn]
    cases outcome <;> exact List.mem_cons_self

theorem began_not_mem_notes {p : Poll τ} {r : Rivals} {who other : Watcher} {w : Watch τ} :
    .began other w ∉ p.notes r who := by
  intro h
  rcases mem_notes h with ⟨caller, id, answer, heq⟩ | ⟨outcome, heq, -⟩ | ⟨heq, -⟩ <;> cases heq

end Poll

/-! ## Section 2: The invariant -/

/-- **The life of the watches**: which are finished, which are under way, and what a trace says of
    them. -/
structure Life (finished : Watcher → Bool) (way : Watcher → Option (Watch τ))
    (trace : List (Note τ)) : Prop where
  /-- A watch that is under way has begun. -/
  began_of_way : ∀ who w, way who = some w → .began who w ∈ trace
  /-- A watch that has begun is finished or under way. -/
  standing : ∀ who w, .began who w ∈ trace → finished who = true ∨ way who = some w
  /-- A watch that has ended has begun. -/
  began_of_ended : ∀ who outcome, .ended who outcome ∈ trace → ∃ w, .began who w ∈ trace
  /-- A watch that has ended is finished. -/
  finished_of_ended : ∀ who outcome, .ended who outcome ∈ trace → finished who = true
  /-- A watch begins once. -/
  began_once : ∀ who w w', .began who w ∈ trace → .began who w' ∈ trace → w = w'
  /-- A watch ends once. -/
  ended_once : ∀ who o o', .ended who o ∈ trace → .ended who o' ∈ trace → o = o'

namespace Life

variable {finished : Watcher → Bool} {way : Watcher → Option (Watch τ)} {trace notes : List (Note τ)}

/-- Notes that are not about watches change nothing. -/
theorem quiet (h : Life finished way trace) (hb : ∀ who w, .began who w ∉ notes)
    (he : ∀ who outcome, .ended who outcome ∉ notes) : Life finished way (trace ++ notes) := by
  have hbegan : ∀ who w, .began who w ∈ trace ++ notes ↔ .began who w ∈ trace := fun who w => by
    rw [List.mem_append, or_iff_left (hb who w)]
  have hended : ∀ who outcome, .ended who outcome ∈ trace ++ notes ↔
      .ended who outcome ∈ trace := fun who outcome => by
    rw [List.mem_append, or_iff_left (he who outcome)]
  constructor
  · simpa only [hbegan] using h.began_of_way
  · simpa only [hbegan] using h.standing
  · simpa only [hbegan, hended] using h.began_of_ended
  · simpa only [hended] using h.finished_of_ended
  · simpa only [hbegan] using h.began_once
  · simpa only [hended] using h.ended_once

/-- What was said once of each watch is still said once when something new is said of one. -/
theorem once_of_new {α : Type} {said said' : Watcher → α → Prop} {who : Watcher} {x : α}
    (hsaid : ∀ other y, said' other y ↔ said other y ∨ other = who ∧ y = x)
    (hnew : ∀ y, ¬ said who y) (honce : ∀ other y z, said other y → said other z → y = z) :
    ∀ other y z, said' other y → said' other z → y = z := by
  intro other y z hy hz
  rcases (hsaid other y).mp hy with hold | ⟨rfl, rfl⟩
  · rcases (hsaid other z).mp hz with hold' | ⟨rfl, rfl⟩
    · exact honce other y z hold hold'
    · exact absurd hold (hnew y)
  · rcases (hsaid other z).mp hz with hold' | ⟨-, rfl⟩
    · exact absurd hold' (hnew z)
    · rfl

/-- A watch begins. -/
theorem begins (h : Life finished way trace) {who : Watcher} (w : Watch τ)
    (hover : finished who = false) (hway : way who = none) :
    Life finished (Function.update way who (some w)) (trace ++ [.began who w]) := by
  have hbegan : ∀ other w', .began other w' ∈ trace ++ [.began who w] ↔
      .began other w' ∈ trace ∨ other = who ∧ w' = w := by simp
  have hended : ∀ other outcome, .ended other outcome ∈ trace ++ [.began who w] ↔
      .ended other outcome ∈ trace := by simp
  -- a watch that had begun would be finished or under way
  have hnew : ∀ w', .began who w' ∉ trace := fun w' hin => by
    rcases h.standing who w' hin with hdone | hgone
    · rw [hover] at hdone
      cases hdone
    · rw [hway] at hgone
      cases hgone
  constructor
  · intro other w' hu
    rw [hbegan]
    by_cases hother : other = who
    · rw [hother, Function.update_self] at hu
      exact .inr ⟨hother, (Option.some.inj hu).symm⟩
    · rw [Function.update_of_ne hother] at hu
      exact .inl (h.began_of_way other w' hu)
  · intro other w' hin
    rcases (hbegan other w').mp hin with hold | ⟨rfl, rfl⟩
    · have hother : other ≠ who := fun hother => hnew w' (hother ▸ hold)
      rw [Function.update_of_ne hother]
      exact h.standing other w' hold
    · exact .inr (Function.update_self ..)
  · intro other outcome hin
    obtain ⟨w', hold⟩ := h.began_of_ended other outcome ((hended other outcome).mp hin)
    exact ⟨w', (hbegan other w').mpr (.inl hold)⟩
  · simpa only [hended] using h.finished_of_ended
  · exact once_of_new hbegan hnew h.began_once
  · simpa only [hended] using h.ended_once

/-- A watch ends. -/
theorem ends (h : Life finished way trace) {who : Watcher} {w : Watch τ} {outcome : Outcome τ}
    (hover : finished who = false) (hway : way who = some w)
    (hb : ∀ other w', .began other w' ∉ notes)
    (he : ∀ other o, .ended other o ∈ notes ↔ other = who ∧ o = outcome) :
    Life (Function.update finished who true) (Function.update way who none) (trace ++ notes) := by
  have hbegan : ∀ other w', .began other w' ∈ trace ++ notes ↔ .began other w' ∈ trace :=
    fun other w' => by rw [List.mem_append, or_iff_left (hb other w')]
  have hended : ∀ other o, .ended other o ∈ trace ++ notes ↔
      .ended other o ∈ trace ∨ other = who ∧ o = outcome := fun other o => by
    rw [List.mem_append, he]
  -- a watch that had ended would be finished
  have hnew : ∀ o, .ended who o ∉ trace := fun o hin => by
    have hdone := h.finished_of_ended who o hin
    rw [hover] at hdone
    cases hdone
  constructor
  · intro other w' hu
    rw [hbegan]
    by_cases hother : other = who
    · rw [hother, Function.update_self] at hu
      cases hu
    · rw [Function.update_of_ne hother] at hu
      exact h.began_of_way other w' hu
  · intro other w' hin
    by_cases hother : other = who
    · rw [hother]
      exact .inl (Function.update_self ..)
    · rw [Function.update_of_ne hother, Function.update_of_ne hother]
      exact h.standing other w' ((hbegan other w').mp hin)
  · intro other o hin
    rcases (hended other o).mp hin with hold | ⟨rfl, -⟩
    · obtain ⟨w', hbeg⟩ := h.began_of_ended other o hold
      exact ⟨w', (hbegan other w').mpr hbeg⟩
    · exact ⟨w, (hbegan other w).mpr (h.began_of_way other w hway)⟩
  · intro other o hin
    rcases (hended other o).mp hin with hold | ⟨rfl, -⟩
    · have hother : other ≠ who := fun hother => hnew o (hother ▸ hold)
      rw [Function.update_of_ne hother]
      exact h.finished_of_ended other o hold
    · exact Function.update_self ..
  · simpa only [hbegan] using h.began_once
  · exact once_of_new hended hnew h.ended_once

end Life

/-! ## Section 3: Runs -/

namespace Arena

variable [Time τ] {a a' : Arena τ} {trace notes : List (Note τ)}

omit [Time τ] in
theorem SameWatches.life (hw : a.SameWatches a') (h : Life a.isOver a.underway? trace) :
    Life a'.isOver a'.underway? trace := by
  rw [funext hw.isOver, funext hw.underway]
  exact h

/-- A round keeps the life of the watches: its watch begins, if it is the first round, and ends,
    if it is the last one. -/
theorem Plays.life {who : Watcher} {w : Watch τ} {p : Poll τ} (hp : a.Plays who w p a' notes)
    (h : Life a.isOver a.underway? trace) : Life a'.isOver a'.underway? (trace ++ notes) := by
  obtain ⟨opening, rfl, hopening⟩ := hp.opened
  rw [← List.append_assoc]
  -- behind the opening the watch is under way in either case
  have hopen : Life a.isOver (Function.update a.underway? who (some w)) (trace ++ opening) := by
    rcases hopening with ⟨hway, rfl⟩ | ⟨hway, rfl⟩
    · rw [← hway, Function.update_eq_self, List.append_nil]
      exact h
    · exact h.begins w hp.notOver hway
  cases hturn : p.turn with
  | sleeps d =>
    obtain ⟨hover, hway⟩ := hp.sleeps d hturn
    have ho : a'.isOver = Function.update a.isOver who (a.isOver who) :=
      Function.eq_update_iff.mpr ⟨hover.trans hp.notOver.symm, fun other hne => (hp.others other hne).1⟩
    have hu : a'.underway? = Function.update a.underway? who (some w) :=
      Function.eq_update_iff.mpr ⟨hway, fun other hne => (hp.others other hne).2⟩
    rw [ho, hu, Function.update_eq_self]
    apply hopen.quiet
    · exact fun other w' => Poll.began_not_mem_notes
    · intro other outcome hin
      have hend := (Poll.ended_mem_notes.mp hin).2
      rw [hturn] at hend
      cases hend
  | ended outcome =>
    obtain ⟨hover, hway⟩ := hp.ended outcome hturn
    have ho : a'.isOver = Function.update a.isOver who true :=
      Function.eq_update_iff.mpr ⟨hover, fun other hne => (hp.others other hne).1⟩
    have hu : a'.underway? = Function.update a.underway? who none :=
      Function.eq_update_iff.mpr ⟨hway, fun other hne => (hp.others other hne).2⟩
    have hends : ∀ other o, .ended other o ∈ p.notes a.rivals who ↔
        other = who ∧ o = outcome := by
      intro other o
      rw [Poll.ended_mem_notes, hturn, Turn.ended.injEq, eq_comm (a := outcome)]
    have hlast := hopen.ends hp.notOver (Function.update_self ..)
      (fun other w' => Poll.began_not_mem_notes) hends
    rw [Function.update_idem] at hlast
    rw [ho, hu]
    exact hlast

/-- Every move keeps the life of the watches. -/
theorem life_step (h : Life a.isOver a.underway? trace) (move : Move τ) :
    Life (a.step move).1.isOver (a.step move).1.underway? (trace ++ (a.step move).2) := by
  have hchange := a.step_change move
  generalize (a.step move).1 = a', (a.step move).2 = notes at hchange
  cases hchange with
  | still hs hw hc => exact hw.life (h.quiet (by simp) (by simp))
  | stores hs hw hc => exact hw.life (h.quiet (by simp) (by simp))
  | @begins who w hnew hs ho hw hc =>
    have hu : a'.underway? = Function.update a.underway? who (some w) :=
      funext fun other => (hw other).trans (Function.update_apply ..).symm
    rw [funext ho, hu]
    exact h.begins w hnew.1 hnew.2
  | plays hp => exact hp.life h
  | attempts id hs hw hc =>
    apply hw.life
    apply h.quiet
    all_goals
      intro who x hin
      rcases List.mem_append.mp hin with hin | hin
      · obtain ⟨caller, answer, heq⟩ := Note.mem_attempt hin
        cases heq
      · split at hin
        · cases Rivals.mem_aftermath hin
        · cases hin
  | resets hs hw hc => exact hw.life (h.quiet (by simp) (by simp))

/-- The life of the watches in every run of a new arena. -/
theorem life_run (r : Rivals) (clock : τ) (moves : List (Move τ)) :
    Life ((new r clock).after moves).isOver ((new r clock).after moves).underway?
      ((new r clock).trace moves) := by
  induction moves using List.reverseRecOn with
  | nil =>
    constructor
    · intro who w h
      cases who <;> simp [new, Monitor.new, underway?] at h
    all_goals simp
  | append_singleton before move ih =>
    rw [after_append, trace_append]
    simpa using life_step ih move

end Arena

end EventCheck
