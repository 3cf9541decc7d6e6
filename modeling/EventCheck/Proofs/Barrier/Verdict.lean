import EventCheck.Proofs.Barrier.Basic

/-! # What a join says of its checks

    - `Check.fault?` is the failure with which a join settles a check, and
      `Check.hasFailed` whether there has to be one.
    - `Verdict.on` is the verdict on a list of failures. A join speaks no other
      (`Join.verdict_eq`), and changes only a check that recorded a failure of its own
      (`Join.verdict_check`).
    - `Verdict.Reports` is what a verdict has to report of the checks that were seen;
      `Verdict.on_reports`: it does.
-/

namespace EventCheck

variable {τ : Type}

/-! ## Section 1: The failure of a check -/

namespace Check

/-- The failure with which a join with this bound settles a check. -/
def fault? (c : Check τ) (bound : Option (Seconds τ)) : Option (CheckFailure τ) :=
  if c.isDone then c.failure else bound.map c.unfinished

/-- Has the check recorded a failure, or not ended? -/
def hasFailed (c : Check τ) : Bool := !c.isDone || c.failure.isSome

/-- The failure that the check has recorded, if it has, counts no others. -/
def Fresh (c : Check τ) : Prop := ∀ f, c.failure = some f → f.others = 0

/-- A check fails for a join that is bound to report it, or that waited for its end. -/
theorem fault?_isSome {c : Check τ} {bound : Option (Seconds τ)}
    (h : bound = none → c.isDone = true) : (c.fault? bound).isSome = c.hasFailed := by
  unfold fault? hasFailed
  cases hdone : c.isDone with
  | true => simp
  | false =>
    cases bound with
    | none => simp [hdone] at h
    | some bound => simp

theorem Fresh.of_fault? {c : Check τ} (h : c.Fresh) {bound : Option (Seconds τ)}
    {f : CheckFailure τ} (hf : c.fault? bound = some f) : f.others = 0 := by
  unfold fault? at hf
  split at hf
  · exact h f hf
  · obtain ⟨bound, -, rfl⟩ := Option.map_eq_some_iff.mp hf
    rfl

theorem fresh_scheduled (name : String) (pattern : Option Value) (timeout : Seconds τ)
    (stored : Nat) (interval : τ) : (Check.scheduled name pattern timeout stored interval).Fresh :=
  nofun

theorem Fresh.after {c : Check τ} (h : c.Fresh) (w : Watch τ) (turn : Turn τ) :
    (c.after w turn).Fresh := by
  cases turn with
  | sleeps d => exact h
  | ended outcome =>
    intro f hf
    cases outcome with
    | matched e => cases hf
    | expired error => cases hf; rfl
    | crashed error => cases hf; rfl

end Check

/-- What is told of several failures names the first and counts the others. -/
theorem CheckFailure.message_of_others {f : CheckFailure Float} (h : f.others = 0) {others : Nat}
    (hothers : others ≠ 0) :
    ({ f with others } : CheckFailure Float).message =
      f.message ++ ("\n(and " ++ toString others ++ " more failed event checks)") := by
  have hown : ({ f with others } : CheckFailure Float).own = f.own := rfl
  simp only [CheckFailure.message, hown, if_neg hothers, if_pos h, String.append_empty]

namespace Join

theorem map_fst_failure? {j : Join τ} {m : Monitor τ} {n : Nat} {c : Check τ}
    (hc : m.checks[n]? = some c) : (j.failure? m n).map Prod.fst = c.fault? j.bound := by
  unfold failure? Check.fault?
  rw [hc]
  dsimp only
  split <;> simp [Function.comp_def]

/-- A failure comes with the number of the check that was settled. -/
theorem recorder_of_failure? {j : Join τ} {m : Monitor τ} {n r : Nat} {f : CheckFailure τ}
    (h : j.failure? m n = some (f, some r)) : r = n := by
  unfold failure? at h
  split at h
  · cases h
  · split at h
    · obtain ⟨failure, -, heq⟩ := Option.map_eq_some_iff.mp h
      cases heq
      rfl
    · obtain ⟨bound, -, heq⟩ := Option.map_eq_some_iff.mp h
      cases heq

end Join

/-! ## Section 2: The verdict -/

namespace Verdict

/-- The verdict on failures. The first of them is reported and counts the others. -/
def on (total : Nat) (failures : List (CheckFailure τ)) : Verdict τ :=
  ⟨total, failures, failures.head?.map fun first =>
    if failures.tail.isEmpty then first else { first with others := failures.tail.length }⟩

/-- **A failure is reported if and only if there is one.** -/
theorem reported_isSome (total : Nat) (failures : List (CheckFailure τ)) :
    (on total failures).reported.isSome ↔ failures ≠ [] := by
  cases failures <;> simp [on]

/-- **The first failure is reported, with the number of the others.** -/
theorem reported_of_first (total : Nat) {first : CheckFailure τ} (rest : List (CheckFailure τ))
    (h : first.others = 0) :
    (on total (first :: rest)).reported = some { first with others := rest.length } := by
  cases rest with
  | nil =>
    obtain ⟨name, pattern, fault, others⟩ := first
    cases h
    rfl
  | cons second rest => rfl

/-- **What a verdict has to report** of checks that a join with this bound has seen, in this order:
    a failure if and only if one of them has failed or not ended, and then the failure of the
    first such check, with the number of the others. -/
def Reports (v : Verdict τ) (seen : List (Check τ)) (bound : Option (Seconds τ)) : Prop :=
  (v.reported.isSome ↔ ∃ c ∈ seen, c.hasFailed = true) ∧
    ∀ front c rest, seen = front ++ c :: rest → (∀ c' ∈ front, c'.hasFailed = false) →
      c.hasFailed = true →
      ∃ f, c.fault? bound = some f ∧ f.others = 0 ∧
        v.reported = some { f with others := rest.countP Check.hasFailed }

theorem on_reports (total : Nat) {seen : List (Check τ)} {bound : Option (Seconds τ)}
    (hfresh : ∀ c ∈ seen, c.Fresh) (hdone : bound = none → ∀ c ∈ seen, c.isDone = true) :
    (on total (seen.filterMap (·.fault? bound))).Reports seen bound := by
  have hfails : ∀ c ∈ seen, (c.fault? bound).isSome = c.hasFailed := fun c hc =>
    Check.fault?_isSome fun hbound => hdone hbound c hc
  constructor
  · rw [reported_isSome, Ne, List.filterMap_eq_nil_iff, Classical.not_forall]
    refine exists_congr fun c => ?_
    rw [Classical.not_imp]
    refine and_congr_right fun hc => ?_
    rw [← hfails c hc, Option.isSome_iff_ne_none]
  · rintro front c rest rfl hfront hc
    have hin : c ∈ front ++ c :: rest := by simp
    obtain ⟨f, hf⟩ := Option.isSome_iff_exists.mp ((hfails c hin).trans hc)
    refine ⟨f, hf, (hfresh c hin).of_fault? hf, ?_⟩
    have hnone : front.filterMap (·.fault? bound) = [] := by
      rw [List.filterMap_eq_nil_iff]
      intro c' hc'
      rw [← Option.isNone_iff_eq_none, ← Option.not_isSome,
        hfails c' (List.mem_append_left _ hc'), hfront c' hc']
      rfl
    have hcount : (rest.filterMap (·.fault? bound)).length = rest.countP Check.hasFailed := by
      rw [List.length_filterMap_eq_countP]
      refine List.countP_congr fun c' hc' => ?_
      rw [hfails c' (List.mem_append_right _ (List.mem_cons_of_mem _ hc'))]
    have hfirst : (c :: rest).filterMap (·.fault? bound) = f :: rest.filterMap (·.fault? bound) :=
      List.filterMap_cons_some hf
    rw [List.filterMap_append, hnone, List.nil_append, hfirst,
      reported_of_first total _ ((hfresh c hin).of_fault? hf), hcount]

end Verdict

namespace Join

theorem verdict_eq (j : Join τ) (m : Monitor τ) :
    (j.verdict m).1 = Verdict.on j.total (j.failures.map Prod.fst) := by
  unfold verdict Verdict.on
  cases j.failures with
  | nil => rfl
  | cons first rest => simp

/-- **What the verdict leaves of a check**: it can record what was reported only in a check whose
    own failure it was, and ends none. -/
theorem verdict_check (j : Join τ) (m : Monitor τ) {n : Nat} {c : Check τ}
    (hc : m.checks[n]? = some c) :
    ∃ c', (j.verdict m).2.checks[n]? = some c' ∧ c'.isDone = c.isDone ∧
      (c' = c ∨ ∃ f, (f, some n) ∈ j.failures) := by
  rcases j.verdict_monitor m with h | ⟨f, number, recorded, others, hf, hrecorded, h⟩
  · exact ⟨c, by rw [h, hc], rfl, .inl rfl⟩
  · rw [h, Monitor.setCheck]
    dsimp only
    by_cases heq : number = n
    · subst heq
      rw [hc] at hrecorded
      cases hrecorded
      exact ⟨_, List.getElem?_set_self (List.getElem?_eq_some_iff.mp hc).1, rfl, .inr ⟨f, hf⟩⟩
    · exact ⟨c, by rw [List.getElem?_set_ne heq, hc], rfl, .inl rfl⟩

@[simp] theorem length_verdict (j : Join τ) (m : Monitor τ) :
    (j.verdict m).2.checks.length = m.checks.length := by
  rcases j.verdict_monitor m with h | ⟨f, number, c, others, -, -, h⟩ <;> rw [h]
  exact List.length_set

end Join

end EventCheck
