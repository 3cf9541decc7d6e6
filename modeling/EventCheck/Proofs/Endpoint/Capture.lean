import EventCheck.Proofs.Endpoint.Exchange
import EventCheck.Proofs.Session.Ingesting
import EventCheck.Proofs.Store.Bodies

/-! # The endpoint stores what it accepts

    The answer to a POST tells what became of its body.

    - `Endpoint.Reads`: how much of the body is read, by what the headers announce.
    - `Endpoint.raises_iff`: where something is raised before the call is answered.
    - `Endpoint.Settled`: how the answer and the store go together, for a path that is
      configured, for one that is not, and where something is raised.
    - `Act.capture_settled`: every POST of a session is answered once, and its answer
      and the store go together.
-/

namespace EventCheck

/-! ## Section 1: Bodies -/

/-- **The headers announce a length.** Of several lengths the first one counts. -/
def Headers.Announces (headers : Headers) (n : Int) : Prop :=
  ∃ value, (headers.values "Content-Length").head? = some value ∧ Numeral.int? value = some n

theorem Headers.contentLength_of_announces {headers : Headers} {n : Int}
    (h : headers.Announces n) : headers.contentLength = n.toNat := by
  obtain ⟨value, hvalue, hn⟩ := h
  unfold contentLength
  cases hvalues : headers.values "Content-Length" with
  | nil =>
    rw [hvalues] at hvalue
    cases hvalue
  | cons first rest =>
    rw [hvalues] at hvalue
    cases hvalue
    dsimp only
    rw [hn, Option.getD_some]

/-- Where no length is announced, or what is no number, the length is zero. -/
theorem Headers.contentLength_of_not_announces {headers : Headers}
    (h : ∀ n, ¬ headers.Announces n) : headers.contentLength = 0 := by
  unfold contentLength
  cases hvalues : headers.values "Content-Length" with
  | nil => rfl
  | cons first rest =>
    dsimp only
    cases hn : Numeral.int? first with
    | none => rfl
    | some n => exact absurd ⟨first, by rw [hvalues]; rfl, hn⟩ (h n)

namespace Endpoint

/-- **This much of the body is read**: as many bytes as are announced, and nothing if no length is
    announced or none above zero. -/
inductive Reads (call : Call) : List UInt8 → Prop where
  | announced {n : Nat} (h : call.headers.Announces n) : Reads call (call.body.take n)
  | nothing (h : ∀ n, call.headers.Announces n → n ≤ 0) : Reads call []

theorem contentLength_of_nothing {call : Call} (h : ∀ n, call.headers.Announces n → n ≤ 0) :
    call.headers.contentLength = 0 := by
  by_cases hsome : ∃ n, call.headers.Announces n
  · obtain ⟨n, hn⟩ := hsome
    rw [Headers.contentLength_of_announces hn]
    exact Int.toNat_of_nonpos (h n hn)
  · exact Headers.contentLength_of_not_announces fun n hn => hsome ⟨n, hn⟩

theorem reads_iff {call : Call} {body : List UInt8} : Reads call body ↔ body = bodyOf call := by
  unfold bodyOf
  constructor
  · intro h
    cases h with
    | announced h => rw [Headers.contentLength_of_announces h, Int.toNat_natCast]
    | nothing h => rw [contentLength_of_nothing h, List.take_zero]
  · intro hbody
    by_cases hsome : ∃ n : Nat, call.headers.Announces n
    · obtain ⟨n, hn⟩ := hsome
      rw [Headers.contentLength_of_announces hn, Int.toNat_natCast] at hbody
      rw [hbody]
      exact .announced hn
    · -- a length above zero would be one that is announced
      have hnone : ∀ n, call.headers.Announces n → n ≤ 0 := by
        intro n hn
        by_contra hpos
        apply hsome
        refine ⟨n.toNat, ?_⟩
        rw [Int.toNat_of_nonneg (by omega)]
        exact hn
      rw [contentLength_of_nothing hnone, List.take_zero] at hbody
      rw [hbody]
      exact .nothing hnone

/-- **The length is too large** for anything to be read. -/
def Excessive (call : Call) : Prop := ∃ n, call.headers.Announces n ∧ 2 ^ 63 ≤ n

theorem excessive_iff {call : Call} :
    Excessive call ↔ maxLength ≤ call.headers.contentLength := by
  have hmax : (maxLength : Int) = 2 ^ 63 := by decide
  constructor
  · rintro ⟨n, hn, hlarge⟩
    rw [Headers.contentLength_of_announces hn]
    omega
  · intro hlarge
    by_cases hsome : ∃ n, call.headers.Announces n
    · obtain ⟨n, hn⟩ := hsome
      refine ⟨n, hn, ?_⟩
      rw [Headers.contentLength_of_announces hn] at hlarge
      omega
    · rw [Headers.contentLength_of_not_announces fun n hn => hsome ⟨n, hn⟩] at hlarge
      omega

/-! ## Section 2: What a POST comes to -/

variable {paths : List String} {call : Call} {s : Store} {now : String}

/-- A target that cannot be split raises, and so does a length that is too large, and nothing
    else. -/
theorem raises_iff : Raises paths call s now ↔
    (∃ e, Target.split call.target = .error e) ∨
      ∃ parts, Target.split call.target = .ok parts ∧ parts.path ∈ paths ∧ Excessive call := by
  unfold Raises
  rw [Exchange.run_accept, excessive_iff]
  cases Target.split call.target with
  | error e => simp
  | ok parts =>
    dsimp only
    by_cases hpath : parts.path ∈ paths
    · by_cases hlength : maxLength ≤ call.headers.contentLength
      · simp [hpath, hlength]
      · simp [hpath, hlength]
    · simp [hpath]

/-- **The answer to a POST and the store that it leaves go together.**

    * `accepted`: for a path that is configured the answer is 200, and the store is the one
      that ingesting the body leaves. Each new event has the path and the query of the target.
    * `unreadable`: so a body that is no JSON, an empty one above all, is one event with its text.
    * `unknown`: for any other path the answer is 404, and the store stays.
    * `raised`: where something is raised the answer is 500, and the store stays. -/
structure Settled (paths : List String) (call : Call) (s : Store) (now : String)
    (response : Response) (store : Store) : Prop where
  accepted : ∀ parts body, Target.split call.target = .ok parts → parts.path ∈ paths →
    ¬ Excessive call → Reads call body →
    response = .ok ∧
      store = (s.ingest (.bytes body) (some (requestOf call parts)) now).store ∧
      ∃ stored, store.events = s.events ++ stored ∧
        ∀ e ∈ stored, ∃ request, e.request = some request ∧ request.uri = parts.path ∧
          request.query = if parts.query = "" then none else some parts.query
  unreadable : ∀ parts body, Target.split call.target = .ok parts → parts.path ∈ paths →
    ¬ Excessive call → Reads call body → Json.read? (Utf8.lenient body) = none →
    ∃ e, store.events = s.events ++ [e] ∧ e.name = Body.batchName ∧
      e.payload = .str (Utf8.lenient body)
  unknown : ∀ parts, Target.split call.target = .ok parts → parts.path ∉ paths →
    response = .notFound ∧ store = s
  raised : Raises paths call s now → response = .failed ∧ store = s

/-- A POST that is accepted. -/
theorem post_of_accepted {parts : Target} (hsplit : Target.split call.target = .ok parts)
    (hpath : parts.path ∈ paths) (hlength : ¬ Excessive call) :
    post paths call s now = ⟨.ok, some (requestOf call parts,
      s.ingest (.bytes (bodyOf call)) (some (requestOf call parts)) now), none⟩ := by
  have hknown : ¬ (!paths.contains parts.path) = true := by simp [hpath]
  rw [excessive_iff] at hlength
  unfold post
  rw [hsplit]
  dsimp only
  rw [if_neg hknown, if_neg hlength]

/-- A POST to an unknown path. -/
theorem post_of_unknown {parts : Target} (hsplit : Target.split call.target = .ok parts)
    (hpath : parts.path ∉ paths) : post paths call s now = ⟨.notFound, none, none⟩ := by
  have hunknown : (!paths.contains parts.path) = true := by simp [hpath]
  unfold post
  rw [hsplit]
  dsimp only
  rw [if_pos hunknown]

/-- A POST in which something is raised. -/
theorem post_of_raises (h : Raises paths call s now) :
    ∃ e, post paths call s now = ⟨.failed, none, some e⟩ := by
  unfold post
  rcases raises_iff.mp h with ⟨e, hsplit⟩ | ⟨parts, hsplit, hpath, hlength⟩
  · rw [hsplit]
    exact ⟨_, rfl⟩
  · have hknown : ¬ (!paths.contains parts.path) = true := by simp [hpath]
    rw [hsplit]
    dsimp only
    rw [if_neg hknown, if_pos (excessive_iff.mp hlength)]
    exact ⟨_, rfl⟩

/-- **Every POST is settled**: what it comes to is what its handler sends and stores. -/
theorem settled_post : Settled paths call s now (post paths call s now).response
    (Exchange.ofHandled s (post paths call s now)).store := by
  constructor
  case accepted =>
    intro parts body hsplit hpath hlength hbody
    rw [post_of_accepted hsplit hpath hlength, reads_iff.mp hbody]
    refine ⟨rfl, rfl, ?_⟩
    have hstocks := s.stocks_ingest (.bytes (bodyOf call)) (some (requestOf call parts)) now
    refine ⟨_, hstocks.events, ?_⟩
    intro e hin
    refine ⟨requestOf call parts, hstocks.requests e hin, rfl, ?_⟩
    simp [requestOf, String.isEmpty_iff]
  case unreadable =>
    intro parts body hsplit hpath hlength hbody hread
    rw [post_of_accepted hsplit hpath hlength, ← reads_iff.mp hbody]
    have hkept : (s.ingest (.bytes body) (some (requestOf call parts)) now).Keeps s
        (Body.content (Utf8.lenient body)) (some (requestOf call parts)) :=
      Store.keeps_unreadable rfl hread s
    obtain ⟨e, -, hstore, -, hname, hpayload, -⟩ := hkept
    rw [Body.content_of_unreadable hread] at hpayload
    refine ⟨e, ?_, hname, hpayload⟩
    show (s.ingest (.bytes body) (some (requestOf call parts)) now).store.events = _
    rw [hstore]
  case unknown =>
    intro parts hsplit hpath
    rw [post_of_unknown hsplit hpath]
    exact ⟨rfl, rfl⟩
  case raised =>
    intro hraises
    obtain ⟨e, hpost⟩ := post_of_raises hraises
    rw [hpost]
    exact ⟨rfl, rfl⟩

end Endpoint

/-! ## Section 3: Calls of a session -/

namespace Act

variable {w : World} {s : Session}

/-- **A call is handled at once.** Of the session only the store changes, to the one that the
    handler leaves. -/
theorem atOnce_handle {call : Call} {handled : Handled}
    (h : Endpoint.handle w.setup.paths call s.monitor.store s.now = .ok handled) :
    (handle call).AtOnce w s handled.response
      { s.monitor with store := (Exchange.ofHandled s.monitor.store handled).store } := by
  obtain ⟨response, ingested, problem⟩ := handled
  have hlogged : ∀ (e : CallError) (t : Session), AtOnce (do
      log (Session.record .error "event_server" "batch_handler_error"
        [("error", .str e.message), ("exc_info", .bool true)])
      pure response) w t response t.monitor := by
    intro e t
    refine (atOnce_log _).bind fun t' ht' => ?_
    rw [← ht'.monitor]
    exact atOnce_pure response
  unfold handle
  refine atOnce_read.bind fun s₁ hs₁ => ?_
  refine atOnce_get.bind fun s₂ hs₂ => ?_
  have hs : s₁.monitor = s.monitor := hs₁.monitor
  have hnow : s₁.now = s.now := by
    unfold Session.now
    rw [hs₁.clock]
  rw [hs, hnow, h]
  -- what was ingested is finished first, and then what went wrong is logged
  cases ingested with
  | none =>
    show AtOnce _ w s₂ response s.monitor
    rw [← hs, ← hs₂.monitor]
    cases problem with
    | none => exact atOnce_pure response
    | some e => exact hlogged e s₂
  | some found =>
    obtain ⟨request, i⟩ := found
    refine (atOnce_finishIngestion _ _).bind fun s₃ hs₃ => ?_
    rw [hs₂.monitor, hs] at hs₃
    show AtOnce _ w s₃ response { s.monitor with store := i.store }
    rw [← hs₃.monitor]
    cases problem with
    | none => exact atOnce_pure response
    | some e => exact hlogged e s₃

/-- **The endpoint stores what it accepts.** Whatever the store holds, and whatever the target, the
    headers and the body of a POST are, one response is sent and nothing escapes. The response
    and the store that is left behind go together, and nothing else of the session changes. -/
theorem capture_settled (w : World) (s : Session) (call : Call) :
    ∃ response store,
      (handle { call with method := "POST" }).AtOnce w s response
        { s.monitor with store := store } ∧
      (Handler.serve w.setup.paths { call with method := "POST" } s.now).run
        (.start s.monitor.store) = .ok () ⟨store, [response]⟩ ∧
      Endpoint.Settled w.setup.paths { call with method := "POST" } s.monitor.store s.now
        response store := by
  have hhandle : Endpoint.handle w.setup.paths { call with method := "POST" } s.monitor.store
      s.now = .ok (Endpoint.post w.setup.paths { call with method := "POST" } s.monitor.store
        s.now) := rfl
  refine ⟨_, _, atOnce_handle hhandle, ?_, Endpoint.settled_post⟩
  rw [Exchange.run_serve, hhandle]
  rfl

end Act

end EventCheck
