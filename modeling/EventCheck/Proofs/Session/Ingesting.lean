import EventCheck.Proofs.Session.Acts
import EventCheck.Proofs.Store.Batches
import Mathlib.Algebra.Ring.Int.Defs
import Mathlib.Data.List.Induction

/-! # What an ingestion accounts for

    An ingestion gives back the ids of what it stored, whatever was sent and wherever
    it had to stop. Only an event that cannot be logged is stored and not accounted for.

    - `Body.IsEnvelope` and `Body.Names` say on their own what an envelope is and what the
      name of an element is; `ofRaw_eq_envelope_iff` and `names_nameOf` tie them to
      what an ingestion computes.
    - `Store.Stocks` says what an ingestion stores of what was sent.
    - `ingestion_accounts_iff`: every ingestion is done at once and never fails. It accounts
      for what it stored if all of that can be logged.

    Texts are what the reader makes of them, with U+FFFD for single halves of surrogate
    pairs. Where such a half is kept, a value that holds it cannot be written to a file,
    and counts with those that cannot be logged.
-/

namespace EventCheck

/-! ## Section 1: Envelopes and their elements -/

namespace Body

variable {raw header : Value} {elements : List Value}

/-- **What was sent is decoded to this value**: a text, or bytes as text, to what it writes; a value
    that came decoded to itself. -/
inductive Decodes : Value → Value → Prop where
  | text {s : String} {v : Json} (h : Json.read? s = some v) : Decodes (.str s) (.ofJson v)
  | bytes {bs : List UInt8} {v : Json} (h : Json.read? (Utf8.lenient bs) = some v) :
      Decodes (.bytes bs) (.ofJson v)
  | itself {v : Value} (hs : ∀ s, v ≠ .str s) (hb : ∀ bs, v ≠ .bytes bs) : Decodes v v

/-- **What was sent is an envelope**: an object whose events are an array. Its header is null if it
    has none. -/
def IsEnvelope (raw header : Value) (elements : List Value) : Prop :=
  ∃ fields, Decodes raw (.obj fields) ∧ Keyed.get? fields "events" = some (.arr elements) ∧
    (Keyed.get? fields "meta").getD .null = header

/-- **The name of an element**: what stands under its key for the name, as text; the name for
    unknown events if nothing stands there, or what counts as nothing. -/
inductive Names : Value → String → Prop where
  | given {fields : Keyed Value} {v : Value} (hget : Keyed.get? fields "name" = some v)
      (hv : isVoid v = false) : Names (.obj fields) (plain v)
  | unknown {element : Value}
      (h : ∀ fields v, element = .obj fields → Keyed.get? fields "name" = some v →
        isVoid v = true) : Names element unknownName

theorem names_nameOf (element : Value) : Names element (nameOf element) := by
  unfold nameOf
  cases hgiven : given? element "name" with
  | some v =>
    -- only an object gives a name, and only one that does not count as nothing
    cases element with
    | obj fields =>
      obtain ⟨hget, hv⟩ := Option.filter_eq_some_iff.mp hgiven
      exact .given hget (by simpa using hv)
    | _ => cases hgiven
  | none =>
    refine .unknown ?_
    rintro fields v rfl hget
    have hfilter := Option.filter_eq_none_iff.mp hgiven v hget
    simpa using hfilter

theorem ofValue_eq_envelope_iff {v : Value} :
    ofValue v = .envelope header elements ↔
      ∃ fields, v = .obj fields ∧ Keyed.get? fields "events" = some (.arr elements) ∧
        (Keyed.get? fields "meta").getD .null = header := by
  constructor
  · intro h
    unfold ofValue at h
    split at h
    · next fields =>
      split at h
      · next hevents =>
        cases h
        exact ⟨fields, rfl, hevents, rfl⟩
      · cases h
    · cases h
  · rintro ⟨fields, rfl, hevents, rfl⟩
    simp only [ofValue, hevents]

theorem ofText_eq_envelope_iff {text : String} :
    ofText text = .envelope header elements ↔
      ∃ v, Json.read? text = some v ∧ ofValue (.ofJson v) = .envelope header elements := by
  unfold ofText
  cases Json.read? text with
  | some v => simp
  | none => simp

theorem ofRaw_eq_envelope_iff :
    ofRaw raw = .envelope header elements ↔ IsEnvelope raw header elements := by
  have hdecoded : ofRaw raw = .envelope header elements ↔
      ∃ v, Decodes raw v ∧ ofValue v = .envelope header elements := by
    constructor
    · intro h
      cases raw with
      | str s =>
        obtain ⟨v, hread, hv⟩ := ofText_eq_envelope_iff.mp h
        exact ⟨.ofJson v, .text hread, hv⟩
      | bytes bs =>
        obtain ⟨v, hread, hv⟩ := ofText_eq_envelope_iff.mp h
        exact ⟨.ofJson v, .bytes hread, hv⟩
      | _ => exact ⟨_, .itself nofun nofun, h⟩
    · rintro ⟨v, hdecodes, hv⟩
      cases hdecodes with
      | text hread => exact ofText_eq_envelope_iff.mpr ⟨_, hread, hv⟩
      | bytes hread => exact ofText_eq_envelope_iff.mpr ⟨_, hread, hv⟩
      | itself hs hb =>
        cases raw with
        | str s => exact absurd rfl (hs s)
        | bytes bs => exact absurd rfl (hb bs)
        | _ => exact hv
  rw [hdecoded]
  constructor
  · rintro ⟨v, hdecodes, hv⟩
    obtain ⟨fields, rfl, hfields⟩ := ofValue_eq_envelope_iff.mp hv
    exact ⟨fields, hdecodes, hfields⟩
  · rintro ⟨fields, hdecodes, hfields⟩
    exact ⟨.obj fields, hdecodes, ofValue_eq_envelope_iff.mpr ⟨fields, rfl, hfields⟩⟩

/-- Whatever a body offers comes with the request that brought it. -/
theorem request_of_mem_offers {body : Body} {request : Option Request} {offer : Incoming}
    (h : offer ∈ body.offers request) : offer.request = request := by
  cases body with
  | unreadable text =>
    cases List.mem_singleton.mp h
    rfl
  | envelope header elements =>
    obtain ⟨element, -, rfl⟩ := List.mem_map.mp h
    rfl
  | document v =>
    cases List.mem_singleton.mp h
    rfl

end Body

/-! ## Section 2: What is stored -/

/-- **What an ingestion stores.** The stored events come behind those that were there, under the next
    ids of the store, and the ledger stays. Each event has the request that brought it. Of an
    envelope the elements in front are stored one by one. Only the last event can be one that
    cannot be logged; if it can, the first element that is not stored would not be stored on its
    own either. -/
structure Store.Stocks (s : Store) (raw : Value) (request : Option Request) (now : String)
    (s' : Store) (stored : List Event) : Prop where
  events : s'.events = s.events ++ stored
  ledger : s'.consumed = s.consumed
  next : s'.nextId = s.nextId + stored.length
  consecutive : stored.map (·.id) = List.range' s.nextId stored.length
  requests : ∀ e ∈ stored, e.request = request
  stops : ∀ e ∈ stored.dropLast, e.isLoggable = true
  elements : ∀ header elements, Body.IsEnvelope raw header elements →
    ∃ front, front <+: elements ∧
      List.Forall₂ (fun element e => Body.Names element e.name ∧
        (Value.obj [("meta", header), ("event", element)]).toJson? = some e.payload)
        front stored ∧
      ((∀ e ∈ stored, e.isLoggable = true) → ∀ element, elements[front.length]? = some element →
        Body.fits header request now element = false)

namespace Ingestion

variable {now : String} {offers : List Incoming} {id : Nat} {events : List Event}

/-- The events that offers become take the ids from here on. -/
theorem Become.ids (h : Become now offers id events) :
    events.map (·.id) = List.range' id events.length := by
  refine List.ext_getElem (by simp) ?_
  intro i hi hi'
  rw [List.length_map] at hi
  obtain ⟨offer, -, haccept⟩ := h.offer_of_event (List.getElem?_eq_getElem hi)
  have hid : events[i].id = id + i := (Incoming.of_accept haccept).1
  rw [List.getElem_map, List.getElem_range', Nat.one_mul, hid]

/-- A request that all offers came with is that of all events. -/
theorem Become.requests (h : Become now offers id events) {request : Option Request}
    (hall : ∀ offer ∈ offers, offer.request = request) : ∀ e ∈ events, e.request = request := by
  intro e he
  obtain ⟨i, he⟩ := List.mem_iff_getElem?.mp he
  obtain ⟨offer, hin, haccept⟩ := h.offer_of_event he
  obtain ⟨-, -, -, -, hrequest⟩ := Incoming.of_accept haccept
  rw [hrequest, hall offer hin]

end Ingestion

section Reached

variable {α : Type} {fits goesOn : α → Bool} {l : List α}

/-- If all that is reached lets what is behind it be reached, what comes next does not fit. -/
theorem not_fits_behind_reached (h : ∀ x ∈ reachedOf fits goesOn l, goesOn x = true) {x : α}
    (hx : l[(reachedOf fits goesOn l).length]? = some x) : fits x = false := by
  induction l with
  | nil => cases hx
  | cons y rest ih =>
    by_cases hfits : fits y = true
    · by_cases hgoes : goesOn y = true
      · rw [reachedOf_cons_of_goesOn hfits hgoes] at h hx
        rw [List.length_cons, List.getElem?_cons_succ] at hx
        exact ih (fun z hz => h z (List.mem_cons_of_mem _ hz)) hx
      · rw [reachedOf_cons_of_ends hfits hgoes] at h
        exact absurd (h y List.mem_cons_self) hgoes
    · rw [reachedOf_cons_of_misfit hfits] at hx
      cases hx
      simpa using hfits

/-- Where only the last one can fail, the first ones that do not are all, or all but the last. -/
theorem takeWhile_of_dropLast {p : α → Bool} (h : ∀ x ∈ l.dropLast, p x = true) :
    (∀ x ∈ l, p x = true) ∧ l.takeWhile p = l ∨
      (¬ ∀ x ∈ l, p x = true) ∧ l.takeWhile p = l.dropLast := by
  induction l using List.reverseRecOn with
  | nil => exact .inl ⟨nofun, rfl⟩
  | append_singleton front last =>
    rw [List.dropLast_concat] at h ⊢
    rw [List.takeWhile_append_of_pos h]
    by_cases hlast : p last = true
    · refine .inl ⟨fun x hin => ?_, by simp [hlast]⟩
      rcases List.mem_append.mp hin with hin | hin
      · exact h x hin
      · exact List.mem_singleton.mp hin ▸ hlast
    · exact .inr ⟨fun hall => hlast (hall last (by simp)), by simp [hlast]⟩

end Reached

/-- The event of an element can be logged if the element and its header can. -/
theorem Event.Tells.isLoggable {header element : Value} {e : Event} (h : e.Tells header element) :
    e.isLoggable = Body.logs header element := by
  have hpayload := Value.isLoggable_of_toJson? _ h.payload
  rw [Event.isLoggable, hpayload, Body.payloadWith, Value.isLoggable_obj]
  simp [Body.logs]

/-- **An ingestion stores what it can**, also if it has to stop. -/
theorem Store.stocks_ingest (s : Store) (raw : Value) (request : Option Request)
    (now : String) :
    s.Stocks raw request now (s.ingest raw request now).store
      (s.ingest raw request now).added := by
  obtain ⟨hbecome, hstore, hstops, -⟩ := s.stores_ingest raw request now
  constructor
  case events => rw [hstore]
  case ledger => rw [hstore]
  case next => rw [hstore]
  case consecutive => exact hbecome.ids
  case requests =>
    exact hbecome.requests fun offer hin =>
      Body.request_of_mem_offers ((reachedOf_front _ _ _).mem hin)
  case stops => exact hstops
  case elements =>
    intro header elements henvelope
    have hfront := s.ingest_batch (Body.ofRaw_eq_envelope_iff.mpr henvelope) request now
    refine ⟨reachedOf (Body.fits header request now) (Body.logs header) elements,
      reachedOf_front _ _ _, ?_, ?_⟩
    · refine hfront.imp ?_
      intro element e htells
      exact ⟨htells.name ▸ Body.names_nameOf element, htells.payload⟩
    · intro hlog element helement
      refine not_fits_behind_reached (fun x hx => ?_) helement
      -- the event of the element can be logged, and so can the element
      obtain ⟨i, hi, rfl⟩ := List.mem_iff_getElem.mp hx
      have hi' : i < (s.ingest raw request now).added.length := hfront.length_eq ▸ hi
      have htells := hfront.get hi hi'
      exact htells.isLoggable.symm.trans (hlog _ (List.getElem_mem hi'))

/-- All that is stored can be logged if what was sent can. -/
theorem Store.isLoggable_of_added {raw : Value} (h : raw.isLoggable = true) (s : Store)
    (request : Option Request) (now : String) :
    ∀ e ∈ (s.ingest raw request now).added, e.isLoggable = true := by
  have hbecome := (s.stores_ingest raw request now).become
  exact hbecome.isLoggable fun offer hin =>
    (Body.loggable_ofRaw h).offers request offer ((reachedOf_front _ _ _).mem hin)

/-! ## Section 3: Ingestions in a session -/

/-- **What comes back accounts for what was stored, unless that cannot be logged.** Whatever is sent,
    and whatever the store holds by then, an ingestion gives back ids and does not fail, and
    nothing but the store changes. The ids are those of the stored events if and only if all of
    these can be logged, and they can if what was sent can; all texts and bytes can. Otherwise
    the id of the last event is missing. -/
theorem Act.ingestion_accounts_iff (w : World) (s : Session) (raw : Value)
    (request : Option Request) :
    ∃ store stored ids,
      (Act.ingest raw request).AtOnce w s ids { s.monitor with store := store } ∧
      s.monitor.store.Stocks raw request s.now store stored ∧
      (ids = stored.map (·.id) ↔ ∀ e ∈ stored, e.isLoggable = true) ∧
      (ids ≠ stored.map (·.id) → ids = stored.dropLast.map (·.id)) ∧
      (raw.isLoggable = true → ids = stored.map (·.id)) := by
  have hstores := s.monitor.store.stores_ingest raw request s.now
  refine ⟨_, _, _, atOnce_ingest raw request, s.monitor.store.stocks_ingest raw request s.now, ?_⟩
  rw [hstores.ids]
  rcases takeWhile_of_dropLast hstores.stops with ⟨hall, heq⟩ | ⟨hsome, heq⟩
  · rw [heq]
    exact ⟨iff_of_true rfl hall, fun hne => absurd rfl hne, fun _ => rfl⟩
  · rw [heq]
    have hne : (s.monitor.store.ingest raw request s.now).added.dropLast.map (·.id) ≠
        (s.monitor.store.ingest raw request s.now).added.map (·.id) := by
      intro hsame
      have hlength := congrArg List.length hsame
      rw [List.length_map, List.length_map, List.length_dropLast] at hlength
      -- a list as long as itself without the last entry is empty
      have hempty : (s.monitor.store.ingest raw request s.now).added = [] :=
        List.length_eq_zero_iff.mp (by omega)
      rw [hempty] at hsome
      exact hsome nofun
    refine ⟨iff_of_false hne hsome, fun _ => rfl, fun hlog => ?_⟩
    exact absurd (s.monitor.store.isLoggable_of_added hlog request s.now) hsome

/-- An envelope of two elements, the first of which holds a number that is too long for the log. -/
def longNumber : Value :=
  .obj [("events", .arr [.obj [("name", .str "paid"), ("sum", .int (10 ^ Json.maxDigits))],
    .obj [("name", .str "sent")]])]

/-- The first element is stored, but its id does not come back, and the second element is lost. -/
theorem longNumber_not_accounted :
    (Store.empty.ingest longNumber none "noon").store.events.map (·.name) = ["paid"] ∧
      (Store.empty.ingest longNumber none "noon").added.map (·.id) = [1] ∧
      (Store.empty.ingest longNumber none "noon").ids = [] := by
  decide +kernel

end EventCheck
