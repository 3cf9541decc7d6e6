import EventCheck.Proofs.Session.Acts

/-! # How acts fail

    - `Act.FailsWith`: in this session, the act fails with this failure. What comes
      first may fail (`FailsWith.bind`), or it is done at once and what follows fails
      (`AtOnce.bind_fails`).
    - `Act.Refused`: it fails so, and the session stays as it is.
    - `Act.FailsOnly`: all failures of an act, in whatever session, are of one sort.
      `FailsOnly.bind` puts such acts together, so that only the places where
      something is thrown are left to look at.
    - `run_demand`: what cannot be logged is refused, and the session stays as it is.
    - `failsOnly_watch`: a watch fails only because it cannot go on, or because its
      pattern cannot be logged, however long it waits and whatever comes up meanwhile.
-/

namespace EventCheck

namespace Act

variable {α β : Type} {w : World} {s : Session} {failure : Failure} {P : Failure → Prop}

/-! ## Section 1: One failure -/

/-- **In this session the act fails with this failure.** -/
def FailsWith (x : Act α) (w : World) (s : Session) (failure : Failure) : Prop :=
  ∃ s', (x.run w).run s = (.error failure, s')

/-- Two acts in a row are the first one and, if that gives a value, the second one. -/
theorem run_bind (x : Act α) (f : α → Act β) (w : World) (s : Session) :
    ((x >>= f).run w).run s = match (x.run w).run s with
      | (.ok a, s') => ((f a).run w).run s'
      | (.error failure, s') => (.error failure, s') := by
  show (match (x.run w).run s with | (r, s') => ExceptT.bindCont (fun a => (f a).run w) r s') = _
  rcases (x.run w).run s with ⟨⟨failure⟩ | ⟨a⟩, s'⟩ <;> rfl

/-- **The act is refused**: it fails with this failure and leaves the session as it is. -/
def Refused (x : Act α) (w : World) (s : Session) (failure : Failure) : Prop :=
  (x.run w).run s = (.error failure, s)

theorem refused_throw (failure : Failure) : (throw failure : Act α).Refused w s failure := rfl

theorem Refused.failsWith {x : Act α} (h : x.Refused w s failure) : x.FailsWith w s failure :=
  ⟨s, h⟩

/-- What comes behind a refusal is not done. -/
theorem Refused.bind {x : Act α} (h : x.Refused w s failure) (f : α → Act β) :
    (x >>= f).Refused w s failure := by
  unfold Refused at h ⊢
  rw [run_bind, h]

theorem refused_load {source : Pattern.Source} {e : Pattern.Error}
    (h : Pattern.load source = .error e) : (load source).Refused w s (.badPattern e) := by
  unfold load
  rw [h]
  exact refused_throw _

/-- Whether something can be logged decides whether it is let through. -/
theorem run_demand (v : Option Value) (w : World) (s : Session) :
    ((demand v).run w).run s =
      (if v.all Value.isLoggable then .ok () else .error .digits, s) := by
  unfold demand failIf
  cases v.all Value.isLoggable <;> rfl

theorem FailsWith.bind {x : Act α} (h : x.FailsWith w s failure) (f : α → Act β) :
    (x >>= f).FailsWith w s failure := by
  obtain ⟨s', hrun⟩ := h
  refine ⟨s', ?_⟩
  rw [run_bind, hrun]

theorem AtOnce.bind_fails {x : Act α} {f : α → Act β} {a : α} {m : Monitor Float}
    (hx : x.AtOnce w s a m) (hf : ∀ s', (f a).FailsWith w s' failure) :
    (x >>= f).FailsWith w s failure := by
  obtain ⟨s', hrun, -⟩ := hx
  obtain ⟨s'', hrun'⟩ := hf s'
  refine ⟨s'', ?_⟩
  rw [run_bind, hrun]
  exact hrun'

/-! ## Section 2: All failures -/

/-- **All failures of the act are of this sort**, whatever the session. -/
def FailsOnly (x : Act α) (P : Failure → Prop) : Prop :=
  ∀ w s failure, x.FailsWith w s failure → P failure

/-- An act that gives a value in every session does not fail. -/
theorem failsOnly_of_ok {x : Act α} (h : ∀ w s, ∃ a s', (x.run w).run s = (.ok a, s')) :
    x.FailsOnly P := by
  rintro w s failure ⟨s', hfails⟩
  obtain ⟨a, s'', hok⟩ := h w s
  rw [hok] at hfails
  cases hfails

theorem failsOnly_pure (a : α) : (pure a : Act α).FailsOnly P :=
  failsOnly_of_ok fun _ s => ⟨a, s, rfl⟩

theorem failsOnly_read : (read : Act World).FailsOnly P := failsOnly_of_ok fun w s => ⟨w, s, rfl⟩

theorem failsOnly_get : (get : Act Session).FailsOnly P := failsOnly_of_ok fun _ s => ⟨s, s, rfl⟩

theorem failsOnly_set (s' : Session) : (set s' : Act PUnit).FailsOnly P :=
  failsOnly_of_ok fun _ _ => ⟨⟨⟩, s', rfl⟩

theorem failsOnly_change (f : Session → Session) : (change f).FailsOnly P :=
  failsOnly_of_ok fun _ s => ⟨(), f s, rfl⟩

theorem failsOnly_throw (h : P failure) : (throw failure : Act α).FailsOnly P := by
  rintro w s failure ⟨s', hfails⟩
  cases hfails
  exact h

/-- What is refused for its digits fails over nothing else. -/
theorem failsOnly_demand (h : P .digits) (v : Option Value) : (demand v).FailsOnly P := by
  rintro w s failure ⟨s', hfails⟩
  rw [run_demand] at hfails
  split at hfails
  · cases hfails
  · cases hfails
    exact h

/-- **Two acts in a row fail as one of them does.** -/
theorem FailsOnly.bind {x : Act α} {f : α → Act β} (hx : x.FailsOnly P)
    (hf : ∀ a, (f a).FailsOnly P) : (x >>= f).FailsOnly P := by
  rintro w s failure ⟨s', hrun⟩
  rw [run_bind] at hrun
  rcases hfirst : (x.run w).run s with ⟨⟨failure'⟩ | ⟨a⟩, s''⟩
  · rw [hfirst] at hrun
    cases hrun
    exact hx w s failure ⟨s', hfirst⟩
  · rw [hfirst] at hrun
    exact hf a w s'' failure ⟨s', hrun⟩

/-! ## Section 3: Watches -/

theorem failsOnly_logAll (rs : List Log.Record) : (logAll rs).FailsOnly P := failsOnly_change _

theorem failsOnly_sleep (duration : Float) : (sleep duration).FailsOnly P :=
  failsOnly_read.bind fun _ => failsOnly_change _

/-- The rounds of a watch do not fail. What comes up while a watch sleeps may well fail, but it
    leaves its failures with the session. -/
theorem failsOnly_rounds (watch : Watch Float) (count : Nat) : (rounds watch count).FailsOnly P := by
  induction count with
  | zero => exact failsOnly_pure none
  | succ count ih =>
    rw [rounds]
    refine failsOnly_get.bind fun s => ?_
    refine (failsOnly_set _).bind fun _ => ?_
    refine (failsOnly_logAll _).bind fun _ => ?_
    split
    · exact failsOnly_pure _
    · exact (failsOnly_sleep _).bind fun _ => ih

/-- **A watch fails only because it cannot go on**, or because its pattern cannot be logged. -/
theorem failsOnly_watch (h : ∀ error, P (.watch error)) (hdigits : P .digits) (q : Search)
    (baseline : Int) : (watch q baseline).FailsOnly P := by
  unfold watch
  refine failsOnly_read.bind fun w => ?_
  refine failsOnly_get.bind fun s => ?_
  refine (failsOnly_demand hdigits _).bind fun _ => ?_
  refine (failsOnly_change _).bind fun _ => ?_
  refine (failsOnly_rounds _ _).bind fun outcome => ?_
  split
  · exact failsOnly_throw (h _)
  · exact failsOnly_pure _
  · exact failsOnly_pure _

/-! ## Section 4: Steps -/

/-- A step fails in a session if the act that it stands for fails. -/
theorem reply_take_iff {step : Step} :
    (Session.take w step s).1.reply = .error failure ↔
      (perform step).FailsWith w s.cleared failure := by
  show (((perform step).run w).run s.cleared).1 = .error failure ↔ _
  constructor
  · intro h
    exact ⟨_, Prod.ext h rfl⟩
  · rintro ⟨s', h⟩
    rw [h]

end Act

end EventCheck
