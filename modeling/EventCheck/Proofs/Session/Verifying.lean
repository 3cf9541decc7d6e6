import EventCheck.Proofs.Json.Reading
import EventCheck.Proofs.Matching.Reflexive
import EventCheck.Proofs.Session.Acts
import EventCheck.Proofs.Store.Ingestion
import Mathlib.Data.List.Basic

/-! # What is ingested can be verified

    An envelope is ingested into a fresh store, and then each of its elements is asked
    for by its name and all of its fields, one after the other.

    - `take_check`: a check gets the first event that is not consumed, if that one is
      what it asks for.
    - `Recited`: the first events are consumed, and no time has passed.
      `recited_check` goes from one check to the next.
    - `ingested_is_verifiable`: every check gets the event of its element.
-/

namespace EventCheck

/-- The expectation recites an element: it has its name, and all its fields for a pattern. -/
def Expectation.Recites (call : Expectation) (element : Fields) : Prop :=
  Keyed.get? element "name" = some (.str call.name) ∧
    call.source = .mapping (Value.ofFields element)

namespace Session

/-- The session behind some steps. -/
def after (w : World) : List Step → Session → Session
  | [], s => s
  | step :: rest, s => after w rest (take w step s).2

theorem after_append (w : World) (before behind : List Step) (s : Session) :
    after w (before ++ behind) s = after w behind (after w before s) := by
  induction before generalizing s with
  | nil => rfl
  | cons step rest ih => exact ih (take w step s).2

/-! ## Section 1: One check -/

/-- What a check with these fields for a pattern looks for. -/
def queryOf (name : String) (pattern : Fields) : Query := ⟨name, some (.ofJson (.obj pattern)), 0⟩

theorem queryOf_wants {name : String} {pattern : Fields} {e : Event} (hname : e.name = name)
    (h : e.payload.contains pattern = true) : (queryOf name pattern).wants e = true := by
  rw [Query.wants_iff]
  refine ⟨hname, ?_⟩
  have hcontains := Value.contains_ofJson e.payload pattern
  rwa [h] at hcontains

/-- **A check gets the first event that is not consumed**, if that has its name and contains its
    pattern. It does so at once. -/
theorem take_check {w : World} (hw : 0 < w.rounds) {s : Session} {call : Expectation}
    {pattern : Fields} {front rest : List Event} {e : Event}
    (hrivals : s.monitor.rivals = .none) (hload : Pattern.load call.source = .ok (some pattern))
    (hlog : (Value.ofJson (.obj pattern)).isLoggable = true)
    (hevents : s.monitor.store.events = front ++ e :: rest)
    (hfront : ∀ x ∈ front, s.monitor.store.isConsumed x.id = true)
    (hfree : s.monitor.store.isConsumed e.id = false) (hname : e.name = call.name)
    (hcontains : e.payload.contains pattern = true) :
    ((queryOf call.name pattern).scan s.monitor.rivals s.monitor.store).found = .event e ∧
      (take w (.check call) s).1.reply = .ok (.event (some e)) ∧
      (take w (.check call) s).1.fired = [] ∧
      (take w (.check call) s).2.monitor =
        { s.monitor with store := s.monitor.store.mark e.id } ∧
      (take w (.check call) s).2.clock = s.clock ∧
      (take w (.check call) s).2.agenda = s.agenda := by
  have hlost : s.monitor.rivals.lost.contains (e.id : Int) = false := by
    rw [hrivals]
    rfl
  obtain ⟨hfound, hstore⟩ :=
    Query.scan_first rfl hevents hfront hfree (queryOf_wants hname hcontains) hlost
  have hmark : s.monitor.rivals.settle s.monitor.store e.id = s.monitor.store.mark e.id := by
    rw [hrivals]
    rfl
  refine ⟨hfound, take_of_atOnce ?_⟩
  have hcheck := Act.atOnce_check (s := s.cleared) hw hload hlog hfound
  rw [Act.perform]
  refine hcheck.bind fun s' hs' => ?_
  have hleft : s'.monitor = { s.monitor with store := s.monitor.store.mark e.id } := by
    rw [hs'.monitor, ← hmark, ← hstore]
    rfl
  rw [← hleft]
  exact Act.atOnce_pure _

/-! ## Section 2: One check after the other -/

/-- **The first of these events are consumed, and nothing else has happened** since the session
    stood like `s₀`. -/
structure Recited (s₀ : Session) (events : List Event) (count : Nat) (s : Session) : Prop where
  rivals : s.monitor.rivals = .none
  events : s.monitor.store.events = events
  consumed : ∀ id : Nat, s.monitor.store.isConsumed id = true ↔ 1 ≤ id ∧ id ≤ count
  clock : s.clock = s₀.clock
  agenda : s.agenda = s₀.agenda

/-- **A check for the next of the events gets it**, and that is all that happens. -/
theorem recited_check {w : World} (hw : 0 < w.rounds) {s₀ s : Session} {events : List Event}
    {count : Nat} (h : s₀.Recited events count s)
    (hids : ∀ (i : Nat) (e : Event), events[i]? = some e → e.id = i + 1) {e : Event}
    (he : events[count]? = some e) {call : Expectation} {pattern : Fields}
    (hload : Pattern.load call.source = .ok (some pattern))
    (hlog : (Value.ofJson (.obj pattern)).isLoggable = true) (hname : e.name = call.name)
    (hcontains : e.payload.contains pattern = true) :
    ((queryOf call.name pattern).scan s.monitor.rivals s.monitor.store).found = .event e ∧
      (take w (.check call) s).1.reply = .ok (.event (some e)) ∧
      (take w (.check call) s).1.fired = [] ∧
      s₀.Recited events (count + 1) (take w (.check call) s).2 := by
  obtain ⟨hlt, hget⟩ := List.getElem?_eq_some_iff.mp he
  have hid : e.id = count + 1 := hids count e he
  have hsplit : s.monitor.store.events = events.take count ++ e :: events.drop (count + 1) := by
    rw [h.events, ← hget, List.getElem_cons_drop, List.take_append_drop]
  have hfront : ∀ x ∈ events.take count, s.monitor.store.isConsumed x.id = true := by
    intro x hx
    obtain ⟨i, hi, rfl⟩ := List.mem_take_iff_getElem.mp hx
    rw [h.consumed, hids i _ (List.getElem?_eq_getElem _)]
    omega
  have hfree : s.monitor.store.isConsumed e.id = false := by
    rw [← Bool.not_eq_true, h.consumed, hid]
    omega
  obtain ⟨hfound, hreply, hfired, hmonitor, hclock, hagenda⟩ :=
    take_check hw h.rivals hload hlog hsplit hfront hfree hname hcontains
  refine ⟨hfound, hreply, hfired, ?_⟩
  constructor
  case rivals => rw [hmonitor, h.rivals]
  case events => rw [hmonitor, Store.mark_events, h.events]
  case clock => rw [hclock, h.clock]
  case agenda => rw [hagenda, h.agenda]
  case consumed =>
    intro id
    rw [hmonitor, Store.isConsumed_mark, h.consumed, hid, Int.ofNat_inj]
    omega

/-! ## Section 3: All that was ingested -/

end Session

namespace Envelope

variable {text : String} {header : Json} {elements : List Fields}

/-- No element of an envelope has a key twice. -/
theorem sound (h : Envelope text header elements) {element : Fields} (hin : element ∈ elements) :
    (Json.obj element).Sound := by
  obtain ⟨fields, htext, -, hevents⟩ := h.written
  have hfields := (Json.sound_of_read? htext).2
  have harray : (Json.arr (elements.map .obj)).Sound :=
    Json.soundFields_iff.mp hfields _ (Keyed.mem_of_get? hevents)
  exact Json.soundItems_iff.mp harray _ (List.mem_map_of_mem hin)

/-- The payload of its event contains the element. -/
theorem contains (h : Envelope text header elements) {element : Fields} (hin : element ∈ elements) :
    (Body.payloadOf header element).contains element = true :=
  Json.contains_inside nofun (Body.leads_payloadOf header element) (h.sound hin)

/-- It can be logged, since a text wrote it. -/
theorem loggable (h : Envelope text header elements) {element : Fields} (hin : element ∈ elements) :
    (Value.ofJson (.obj element)).isLoggable = true := by
  have hlog : (Body.ofRaw (.str text)).Loggable := Body.loggable_ofText text
  rw [h.ofRaw_eq] at hlog
  exact hlog.2 _ (List.mem_map_of_mem hin)

/-- What recites an element asks for all of its fields. -/
theorem load (h : Envelope text header elements) {element : Fields} (hin : element ∈ elements)
    {call : Expectation} (hcall : call.Recites element) :
    Pattern.load call.source = .ok (some element) := by
  rw [hcall.2]
  exact Pattern.load_ofFields
    (Json.storable_of_leads (Body.leads_payloadOf header element) (h.storable element hin))

end Envelope

namespace Session

variable {w : World} {s₀ s : Session} {text : String} {header : Json} {elements : List Fields}
  {events : List Event}

/-- **An ingestion of an envelope is done at once**, and nothing is consumed behind it. -/
theorem recited_ingest (henvelope : Envelope text header elements)
    (hstore : s.monitor.store = .empty) (hrivals : s.monitor.rivals = .none)
    {request : Option Fields}
    (hrequest : ∀ given, request = some given → ∃ r, Request.ofFields given = .ok r) :
    ∃ events, EventsOf header elements 1 events ∧
      (take w (.ingest (.str text) request) s).1.reply = .ok (.ids (events.map (·.id))) ∧
      s.Recited events 0 (take w (.ingest (.str text) request) s).2 := by
  obtain ⟨r, hr⟩ := Act.atOnce_requestOf (w := w) (s := s.cleared) hrequest
  obtain ⟨events, hevents, hingest, hids⟩ := henvelope.ingest s.monitor.store r s.now
  have hdone : (Act.perform (.ingest (.str text) request)).AtOnce w s.cleared
      (.ids (events.map (·.id)))
      { s.monitor with
        store := ⟨s.monitor.store.events ++ events, s.monitor.store.consumed,
          s.monitor.store.nextId + elements.length⟩ } := by
    rw [Act.perform]
    refine hr.bind fun s₁ hs₁ => ?_
    -- no time has passed since the step began
    have hsame : s₁.monitor.store.ingest (.str text) r s₁.now =
        s.monitor.store.ingest (.str text) r s.now := by
      rw [hs₁.monitor, now, hs₁.clock]
      rfl
    have hdone := Act.atOnce_ingest (w := w) (s := s₁) (.str text) r
    rw [hsame, hingest, hids, hs₁.monitor] at hdone
    refine hdone.bind fun s₂ hs₂ => ?_
    have hleft := hs₂.monitor
    dsimp only at hleft
    exact hleft ▸ Act.atOnce_pure _
  obtain ⟨hreply, -, hmonitor, hclock, hagenda⟩ := take_of_atOnce hdone
  rw [hstore] at hmonitor hevents
  refine ⟨events, hevents, hreply, ?_⟩
  constructor
  case rivals => rw [hmonitor, hrivals]
  case events => rw [hmonitor]; rfl
  case clock => exact hclock
  case agenda => exact hagenda
  case consumed =>
    intro id
    rw [hmonitor]
    simp [Store.isConsumed, Store.empty]
    omega

/-- **The check that recites the next element gets its event.** -/
theorem recited_next (hw : 0 < w.rounds) (henvelope : Envelope text header elements)
    (hevents : EventsOf header elements 1 events) {count : Nat}
    (h : s₀.Recited events count s) {call : Expectation} {element : Fields}
    (helement : elements[count]? = some element) (hcall : call.Recites element) :
    ∃ e, (e.id = count + 1 ∧ e.name = call.name ∧ e.payload = Body.payloadOf header element) ∧
      ((queryOf call.name element).scan s.monitor.rivals s.monitor.store).found = .event e ∧
      (take w (.check call) s).1.reply = .ok (.event (some e)) ∧
      (take w (.check call) s).1.fired = [] ∧
      s₀.Recited events (count + 1) (take w (.check call) s).2 := by
  have hin : element ∈ elements := List.mem_of_getElem? helement
  have hlt : count < events.length := by
    rw [hevents.length]
    exact (List.getElem?_eq_some_iff.mp helement).1
  have he : events[count]? = some events[count] := List.getElem?_eq_getElem hlt
  have hids : ∀ (i : Nat) (e : Event), events[i]? = some e → e.id = i + 1 := fun i e hi =>
    (hevents.id_eq i e hi).trans (Nat.add_comm 1 i)
  have hpayload := hevents.payload count element _ helement he
  have hname : events[count].name = call.name := by
    have hstored := hevents.name count element _ helement he
    rw [hcall.1] at hstored
    exact (Json.str.inj (Option.some.inj hstored)).symm
  have hcontains : events[count].payload.contains element = true := by
    rw [hpayload]
    exact henvelope.contains hin
  exact ⟨events[count], ⟨hids count _ he, hname, hpayload⟩,
    recited_check hw h hids he (henvelope.load hin hcall) (henvelope.loggable hin) hname hcontains⟩

/-- **Behind the first checks the events of their elements are consumed.** -/
theorem recited_after (hw : 0 < w.rounds) (henvelope : Envelope text header elements)
    (hevents : EventsOf header elements 1 events) (h : s₀.Recited events 0 s)
    {calls : List Expectation}
    (hcalls : ∀ (i : Nat) (call : Expectation) (element : Fields), calls[i]? = some call →
      elements[i]? = some element → call.Recites element)
    {i : Nat} (hi : i ≤ calls.length) (hi' : i ≤ elements.length) :
    s₀.Recited events i (after w ((calls.take i).map .check) s) := by
  induction i with
  | zero => exact h
  | succ i ih =>
    have hcall : calls[i]? = some calls[i] := List.getElem?_eq_getElem hi
    have helement : elements[i]? = some elements[i] := List.getElem?_eq_getElem hi'
    have hbefore := ih (Nat.le_of_succ_le hi) (Nat.le_of_succ_le hi')
    obtain ⟨e, -, -, -, -, hnext⟩ :=
      recited_next hw henvelope hevents hbefore helement (hcalls i _ _ hcall helement)
    rw [List.take_add_one, hcall, List.map_append, after_append]
    exact hnext

/-- **Whatever is ingested can be verified by its own content.** An envelope is ingested into a
    fresh store, and then each element is asked for by its name and all its fields, one after the
    other. Each time the first scan gets the event of the element. No time passes, and nothing is
    put on the agenda. -/
theorem ingested_is_verifiable (hw : 0 < w.rounds) (henvelope : Envelope text header elements)
    (hstore : s.monitor.store = .empty) (hrivals : s.monitor.rivals = .none)
    {request : Option Fields}
    (hrequest : ∀ given, request = some given → ∃ r, Request.ofFields given = .ok r)
    {calls : List Expectation}
    (hcalls : ∀ (i : Nat) (call : Expectation) (element : Fields), calls[i]? = some call →
      elements[i]? = some element → call.Recites element) :
    (take w (.ingest (.str text) request) s).1.reply =
        .ok (.ids (List.range' 1 elements.length)) ∧
      ∀ (i : Nat) (call : Expectation) (element : Fields), calls[i]? = some call →
        elements[i]? = some element →
        let before := after w (.ingest (.str text) request :: (calls.take i).map .check) s
        let taken := take w (.check call) before
        ∃ e, (e.id = i + 1 ∧ e.name = call.name ∧ e.payload = Body.payloadOf header element) ∧
          ((queryOf call.name element).scan before.monitor.rivals before.monitor.store).found =
            .event e ∧
          taken.1.reply = .ok (.event (some e)) ∧ taken.1.fired = [] ∧
          taken.2.clock = s.clock ∧ taken.2.agenda = s.agenda := by
  obtain ⟨events, hevents, hreply, hrecited⟩ :=
    recited_ingest (w := w) henvelope hstore hrivals hrequest
  have hids : events.map (·.id) = List.range' 1 elements.length := by
    refine List.ext_getElem ?_ fun i hi hi' => ?_
    · rw [List.length_map, hevents.length, List.length_range']
    · rw [List.length_map] at hi
      rw [List.getElem_map, List.getElem_range', Nat.one_mul]
      exact hevents.id_eq i _ (List.getElem?_eq_getElem hi)
  refine ⟨hids ▸ hreply, fun i call element hcall helement => ?_⟩
  have hi := (List.getElem?_eq_some_iff.mp hcall).1
  have hi' := (List.getElem?_eq_some_iff.mp helement).1
  have hbefore := recited_after hw henvelope hevents hrecited hcalls
    (Nat.le_of_lt hi) (Nat.le_of_lt hi')
  obtain ⟨e, he, hfound, hanswer, hfired, hbehind⟩ :=
    recited_next hw henvelope hevents hbefore helement (hcalls i call element hcall helement)
  exact ⟨e, he, hfound, hanswer, hfired, hbehind.clock, hbehind.agenda⟩

/-- An envelope of two elements. As a pattern the second one matches the first as well. -/
def starsText : String :=
  "\x7b\"meta\": 7, \"events\": [\x7b\"name\": \"*\", \"mark\": \"~x\"\x7d, "
    ++ "\x7b\"name\": \"*\", \"mark\": \"*\"\x7d]\x7d"

def stars : List Fields :=
  [[("name", .str "*"), ("mark", .str "~x")], [("name", .str "*"), ("mark", .str "*")]]

theorem name_of_star : ∀ element ∈ stars, Keyed.get? element "name" = some (.str "*") := by
  simp [stars, Keyed.get?]

theorem stars_envelope : Envelope starsText (.int 7) stars where
  written := by
    refine ⟨[("meta", .int 7), ("events", .arr (stars.map .obj))], ?_, rfl, rfl⟩
    cbv
  named element hin := ⟨"*", name_of_star element hin, by decide⟩
  storable := by
    have hstars : stars.all (fun element => (Body.payloadOf (.int 7) element).storable) = true := by
      decide
    exact List.all_eq_true.mp hstars

/-- A world in which a wait ends with the first thing that comes up. -/
def hastyWorld : World := ⟨⟨.whole 10, 0.5, ⟨.default, true⟩, [], .nothing⟩, fun _ s => s, 1⟩

/-- Expectations that recite the elements, which all have this name. -/
def starCalls : List Expectation :=
  stars.map fun element => ⟨"*", .mapping (Value.ofFields element), none, none⟩

theorem starCalls_recite (i : Nat) (call : Expectation) (element : Fields)
    (hcall : starCalls[i]? = some call) (helement : stars[i]? = some element) :
    call.Recites element := by
  rw [starCalls, List.getElem?_map, helement] at hcall
  cases hcall
  exact ⟨name_of_star element (List.mem_of_getElem? helement), rfl⟩

/-- The second star gets its own event, since that of the first is consumed by then. -/
theorem secondStar_is_verifiable :
    Envelope starsText (.int 7) stars ∧
      ∃ call, starCalls[1]? = some call ∧ ∃ e, e.id = 2 ∧
        (take hastyWorld (.check call)
          (after hastyWorld (.ingest (.str starsText) none :: (starCalls.take 1).map .check)
            (.new .none))).1.reply = .ok (.event (some e)) := by
  have hrequest : ∀ given : Fields, (none : Option Fields) = some given →
      ∃ r, Request.ofFields given = .ok r := nofun
  have hsecond : starCalls[1]? = some ⟨"*", .mapping (Value.ofFields
      [("name", .str "*"), ("mark", .str "*")]), none, none⟩ := rfl
  obtain ⟨e, ⟨hid, -, -⟩, -, hreply, -⟩ :=
    (ingested_is_verifiable (w := hastyWorld) (s := .new .none) (by decide) stars_envelope rfl rfl
      hrequest starCalls_recite).2 1 _ _ hsecond rfl
  exact ⟨stars_envelope, _, hsecond, e, hid, hreply⟩

end Session

end EventCheck
