import EventCheck.Endpoint.Basic
import Mathlib

/-! # What the endpoint sends

    A handler stores and sends one thing after the other, and it may raise in between.
    What it has done by then stays done: an exception takes back neither an event nor
    a response. So it has to be shown that a call is answered once, and how it ends.

    - `Handler`: a handler with all that it does, over an `Exchange`. Only the handler of
      POST catches what it raises.
    - `Exchange.run_serve`: a handler sends the response that `Endpoint.handle` gives,
      that one and no other, and leaves the store that it gives.
    - `Endpoint.answered_iff`: every POST is answered, and a GET if and only if its
      target can be split.
    - `Endpoint.openBracket_unanswered`: a target for which a GET is not answered.
-/

namespace EventCheck

/-! ## Section 1: Handlers -/

/-- **How far a call has come**: the store, and what was sent by now, in order. -/
structure Exchange where
  store : Store
  sent : List Response

/-- A handler, or a part of it. It may raise, and what it has done by then stays done. -/
abbrev Handler (α : Type) := EStateM CallError Exchange α

namespace Handler

def send (response : Response) : Handler Unit :=
  modify fun x => { x with sent := x.sent ++ [response] }

/-- The parts of the target. A target that cannot be split raises. -/
def partsOf (call : Call) : Handler Target :=
  match Target.split call.target with
  | .ok parts => pure parts
  | .error e => throw (.target e)

/-- The body, as much of it as the headers announce. To announce too much raises. -/
def bodyOf (call : Call) : Handler (List UInt8) :=
  if Endpoint.maxLength ≤ call.headers.contentLength then throw .tooLong
  else pure (Endpoint.bodyOf call)

def ingest (body : List UInt8) (request : Request) (now : String) : Handler Unit :=
  modify fun x => { x with store := (x.store.ingest (.bytes body) (some request) now).store }

/-- A POST, as far as it goes if nothing is caught. -/
def accept (paths : List String) (call : Call) (now : String) : Handler Unit := do
  let parts ← partsOf call
  if !paths.contains parts.path then send .notFound
  else do
    let body ← bodyOf call
    ingest body (Endpoint.requestOf call parts) now
    send .ok

/-- A POST. Whatever is raised in it is answered. -/
def post (paths : List String) (call : Call) (now : String) : Handler Unit :=
  tryCatch (accept paths call now) fun _ => send .failed

/-- A GET. Nothing is caught here. -/
def get (call : Call) : Handler Unit := do
  let parts ← partsOf call
  send (if parts.path = Endpoint.healthPath then .ok else .notFound)

/-- The handler of a call. -/
def serve (paths : List String) (call : Call) (now : String) : Handler Unit :=
  match call.method with
  | "POST" => post paths call now
  | "GET" => get call
  | _ => send .unsupported

end Handler

/-! ## Section 2: How handlers end -/

namespace Exchange

open Handler

/-- A call that has just come in. -/
def start (s : Store) : Exchange := ⟨s, []⟩

/-- **What a call comes to**: one response, and the store with what was ingested. -/
def ofHandled (s : Store) (handled : Handled) : Exchange :=
  ⟨(handled.ingested.map fun (_, i) => i.store).getD s, [handled.response]⟩

variable (paths : List String) (call : Call) (now : String) (s : Store)

/-- **How a POST goes before anything is caught.** It raises before it has stored or sent
    anything, or it does all that it is to do. -/
theorem run_accept : (accept paths call now).run (start s) =
    match Target.split call.target with
    | .error e => .error (.target e) (start s)
    | .ok parts =>
      if !paths.contains parts.path then .ok () ⟨s, [.notFound]⟩
      else if Endpoint.maxLength ≤ call.headers.contentLength then .error .tooLong (start s)
      else .ok () ⟨(s.ingest (.bytes (Endpoint.bodyOf call))
        (some (Endpoint.requestOf call parts)) now).store, [.ok]⟩ := by
  rw [accept, EStateM.run_bind]
  unfold partsOf
  cases Target.split call.target with
  | error e => rfl
  | ok parts =>
    show (if !paths.contains parts.path then send .notFound else _ : Handler Unit).run (start s) = _
    dsimp only
    by_cases hpath : (!paths.contains parts.path) = true
    · rw [if_pos hpath, if_pos hpath]
      rfl
    rw [if_neg hpath, if_neg hpath, EStateM.run_bind]
    unfold bodyOf
    by_cases hlength : Endpoint.maxLength ≤ call.headers.contentLength
    · rw [if_pos hlength, if_pos hlength]
      rfl
    · rw [if_neg hlength, if_neg hlength]
      rfl

/-- **Whatever a POST does, it ends without raising**, with what it comes to. -/
theorem run_post : (post paths call now).run (start s) =
    .ok () (ofHandled s (Endpoint.post paths call s now)) := by
  rw [Handler.post, EStateM.run_tryCatch, run_accept]
  unfold Endpoint.post
  cases Target.split call.target with
  | error e => rfl
  | ok parts =>
    dsimp only
    by_cases hpath : (!paths.contains parts.path) = true
    · rw [if_pos hpath, if_pos hpath]
      rfl
    rw [if_neg hpath, if_neg hpath]
    by_cases hlength : Endpoint.maxLength ≤ call.headers.contentLength
    · rw [if_pos hlength, if_pos hlength]
      rfl
    · rw [if_neg hlength, if_neg hlength]
      rfl

/-- **A GET ends as the split of its target does.** -/
theorem run_get : (get call).run (start s) =
    match Endpoint.get call with
    | .ok handled => .ok () (ofHandled s handled)
    | .error e => .error (.target e) (start s) := by
  rw [Handler.get, EStateM.run_bind]
  unfold partsOf Endpoint.get
  cases Target.split call.target <;> rfl

/-- **A handler sends the one response that its call is to have**, and leaves the store that it is to
    leave; if there is none, it raises and has done nothing. -/
theorem run_serve : (serve paths call now).run (start s) =
    match Endpoint.handle paths call s now with
    | .ok handled => .ok () (ofHandled s handled)
    | .error e => .error (.target e) (start s) := by
  unfold serve Endpoint.handle
  generalize call.method = method
  split
  · exact run_post paths call now s
  · exact run_get call s
  · simp only
    rfl

end Exchange

/-! ## Section 3: Targets -/

namespace Target

/-- What stands between brackets cannot be wrong where there are none. -/
theorem hostFault_of_no_brackets {host : List Char} (hopen : '[' ∉ host) (hclose : ']' ∉ host) :
    hostFault host = none := by
  simp [hostFault, hopen, hclose]

theorem mem_of_mem_normal {target : List Char} {c : Char} (h : c ∈ normal target) :
    c ∈ target := by
  unfold normal at h
  split at h
  · next rest =>
    rcases List.mem_cons.mp h with rfl | hin
    · exact List.mem_cons_self
    · exact (List.dropWhile_sublist _).mem hin
  · exact h

theorem mem_of_mem_clean {cs : List Char} {c : Char} (h : c ∈ clean cs) : c ∈ cs :=
  (List.dropWhile_sublist _).mem (List.mem_filter.mp h).1

theorem mem_of_mem_withoutScheme {cs : List Char} {c : Char} (h : c ∈ withoutScheme cs) :
    c ∈ cs := by
  unfold withoutScheme at h
  dsimp only at h
  split at h
  · next rest hrest =>
    split at h
    · have hin : c ∈ cs.dropWhile (· != ':') := by
        rw [hrest]
        exact List.mem_cons_of_mem _ h
      exact (List.dropWhile_sublist _).mem hin
    · exact h
  · exact h

/-- **A target without brackets can be split.** -/
theorem split_of_no_brackets {target : String} (hopen : '[' ∉ target.toList)
    (hclose : ']' ∉ target.toList) : ∃ parts, split target = .ok parts := by
  have hmem : ∀ c, c ∈ withoutScheme (clean (normal target.toList)) → c ∈ target.toList :=
    fun c hin => mem_of_mem_normal (mem_of_mem_clean (mem_of_mem_withoutScheme hin))
  unfold split withoutHost
  split
  · next e hsplit =>
    split at hsplit
    · next rest hrest =>
      have hin : ∀ c, c ∈ rest.takeWhile (fun c => !endsHost c) → c ∈ target.toList := by
        intro c hc
        apply hmem
        rw [hrest]
        exact List.mem_cons_of_mem _ (List.mem_cons_of_mem _ ((List.takeWhile_sublist _).mem hc))
      rw [hostFault_of_no_brackets (fun h => hopen (hin _ h)) (fun h => hclose (hin _ h))] at hsplit
      cases hsplit
    · cases hsplit
  · exact ⟨_, rfl⟩

end Target

/-! ## Section 4: Answers -/

namespace Endpoint

variable (paths : List String) (call : Call) (s : Store) (now : String)

/-- **The call is answered**: this response is sent and no other, and nothing is raised. -/
def Answered (response : Response) : Prop :=
  ∃ store, (Handler.serve paths call now).run (.start s) = .ok () ⟨store, [response]⟩

/-- **The call is left without an answer**: an exception escapes, and nothing was sent before. -/
def Unanswered (e : CallError) : Prop :=
  (Handler.serve paths call now).run (.start s) = .error e (.start s)

variable {paths call s now}

theorem answered_of_handle {handled : Handled} (h : handle paths call s now = .ok handled) :
    Answered paths call s now handled.response := by
  refine ⟨(Exchange.ofHandled s handled).store, ?_⟩
  rw [Exchange.run_serve, h]
  rfl

theorem unanswered_of_handle {e : TargetError} (h : handle paths call s now = .error e) :
    Unanswered paths call s now (.target e) := by
  unfold Unanswered
  rw [Exchange.run_serve, h]

theorem not_answered_of_unanswered {e : CallError} (h : Unanswered paths call s now e)
    (response : Response) : ¬ Answered paths call s now response := by
  rintro ⟨store, hrun⟩
  unfold Unanswered at h
  rw [h] at hrun
  cases hrun

/-- **Something is raised** in a POST. -/
def Raises (paths : List String) (call : Call) (s : Store) (now : String) : Prop :=
  ∃ e x, (Handler.accept paths call now).run (.start s) = .error e x

/-- The responses with status 200, 404 and 500. -/
def responses : List Response := [.ok, .notFound, .failed]

theorem response_post_mem : (post paths call s now).response ∈ responses := by
  unfold post responses
  cases Target.split call.target with
  | error e => simp
  | ok parts =>
    dsimp only
    split
    · simp
    · split <;> simp

/-- **What raises in a POST is answered with 500**, and this is answered to nothing else. -/
theorem response_post_eq_failed_iff :
    (post paths call s now).response = .failed ↔ Raises paths call s now := by
  unfold Raises
  rw [Exchange.run_accept]
  unfold post
  cases Target.split call.target with
  | error e => simp
  | ok parts =>
    dsimp only
    by_cases hpath : (!paths.contains parts.path) = true
    · rw [if_pos hpath, if_pos hpath]
      simp [Response.notFound, Response.failed]
    rw [if_neg hpath, if_neg hpath]
    by_cases hlength : maxLength ≤ call.headers.contentLength
    · rw [if_pos hlength, if_pos hlength]
      simp
    · rw [if_neg hlength, if_neg hlength]
      simp [Response.ok, Response.failed]

/-- **Which calls are answered.** Whatever its target, a POST is answered with one response, of
    status 200, 404 or 500, and with 500 if and only if something is raised in it. A GET is
    answered if and only if its target can be split, with one response of status 200 for the
    health path and of status 404 for any other. If the target cannot be split, the exception
    escapes before anything was sent. A target without brackets can be split. -/
theorem answered_iff (paths : List String) (call : Call) (s : Store) (now : String) :
    (∃ response ∈ responses, Answered paths { call with method := "POST" } s now response ∧
      (response = .failed ↔ Raises paths call s now)) ∧
    ((∃ response ∈ responses, Answered paths { call with method := "GET" } s now response) ↔
      ∃ parts, Target.split call.target = .ok parts) ∧
    (∀ parts, Target.split call.target = .ok parts →
      Answered paths { call with method := "GET" } s now
        (if parts.path = healthPath then .ok else .notFound)) ∧
    (∀ e, Target.split call.target = .error e →
      Unanswered paths { call with method := "GET" } s now (.target e)) ∧
    ('[' ∉ call.target.toList → ']' ∉ call.target.toList →
      ∃ response ∈ responses, Answered paths { call with method := "GET" } s now response) := by
  have hparts : ∀ parts, Target.split call.target = .ok parts →
      Answered paths { call with method := "GET" } s now
        (if parts.path = healthPath then .ok else .notFound) := by
    intro parts hsplit
    have hget : handle paths { call with method := "GET" } s now =
        .ok ⟨if parts.path = healthPath then .ok else .notFound, none, none⟩ := by
      show Except.map _ (Target.split call.target) = _
      rw [hsplit]
      rfl
    exact answered_of_handle hget
  have herror : ∀ e, Target.split call.target = .error e →
      Unanswered paths { call with method := "GET" } s now (.target e) := by
    intro e hsplit
    have hget : handle paths { call with method := "GET" } s now = .error e := by
      show Except.map _ (Target.split call.target) = _
      rw [hsplit]
      rfl
    exact unanswered_of_handle hget
  have hmem : ∀ parts, Target.split call.target = .ok parts →
      ∃ response ∈ responses, Answered paths { call with method := "GET" } s now response := by
    intro parts hsplit
    refine ⟨_, ?_, hparts parts hsplit⟩
    split <;> simp [responses]
  refine ⟨?_, ⟨?_, ?_⟩, hparts, herror, ?_⟩
  · have hanswered : Answered paths { call with method := "POST" } s now
        (post paths call s now).response := answered_of_handle rfl
    exact ⟨_, response_post_mem, hanswered, response_post_eq_failed_iff⟩
  · rintro ⟨response, -, hanswered⟩
    cases hsplit : Target.split call.target with
    | ok parts => exact ⟨parts, rfl⟩
    | error e => exact absurd hanswered (not_answered_of_unanswered (herror e hsplit) response)
  · rintro ⟨parts, hsplit⟩
    exact hmem parts hsplit
  · intro hopen hclose
    obtain ⟨parts, hsplit⟩ := Target.split_of_no_brackets hopen hclose
    exact hmem parts hsplit

/-- A call to a host whose address is not closed. -/
def openBracket (method : String) : Call := ⟨method, "http://[bad/health", [], [], "10.0.0.5:5000"⟩

/-- A bracket that is not closed leaves a GET without an answer; a POST to the same target is
    answered with 500. -/
theorem openBracket_unanswered :
    Unanswered defaultPaths (openBracket "GET") .empty "noon" (.target .brackets) ∧
      (∀ response, ¬ Answered defaultPaths (openBracket "GET") .empty "noon" response) ∧
      Answered defaultPaths (openBracket "POST") .empty "noon" .failed := by
  have hsplit : Target.split "http://[bad/health" = .error .brackets := by rfl
  have hget : handle defaultPaths (openBracket "GET") .empty "noon" = .error .brackets := by
    show get (openBracket "GET") = _
    unfold get openBracket
    rw [hsplit]
    rfl
  have hpost : handle defaultPaths (openBracket "POST") .empty "noon" =
      .ok ⟨.failed, none, some (.target .brackets)⟩ := by
    show Except.ok (post defaultPaths (openBracket "POST") .empty "noon") = _
    unfold post openBracket
    rw [hsplit]
  have hescapes := unanswered_of_handle hget
  exact ⟨hescapes, not_answered_of_unanswered hescapes, answered_of_handle hpost⟩

end Endpoint

end EventCheck
