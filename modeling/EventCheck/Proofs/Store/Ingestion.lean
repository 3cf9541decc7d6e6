import EventCheck.Ingest
import EventCheck.Proofs.Log.Values
import EventCheck.Proofs.Matching.Structure

/-! # What an ingestion stores

    - `Incoming.acceptable`: a store would take the offer if it came alone.
    - `reachedOf`: what is reached of a list whose entries may not fit, or end the way.
    - `Ingestion.Stores`: the offers that are reached are stored, in order, under the ids
      that come next. The ids that come back are those of the events in front of the first
      one that cannot be logged. `stores_storeAll`: every ingestion does that.
    - `Body.Loggable`: there is nothing in a body that cannot be logged.
    - `Envelope`: a text writes an envelope whose elements can be stored. They become
      events (`EventsOf`) with their names, and with the header beside them in their
      payloads (`Envelope.ingest`).
-/

namespace EventCheck

/-! ## Section 1: Offers -/

namespace Incoming

/-- **What becomes of an accepted offer.** -/
theorem of_accept {offer : Incoming} {id : Nat} {now : String} {e : Event}
    (h : offer.accept id now = .ok e) :
    e.id = id ∧ offer.name? = some e.name ∧ offer.payload? = some e.payload ∧
      offer.time? now = some e.time ∧ e.request = offer.request := by
  unfold accept at h
  split at h
  · next name payload time hname hpayload htime =>
    cases h
    exact ⟨rfl, hname, hpayload, htime, rfl⟩
  · cases h

/-- An offer of which every field fits is accepted under any id. -/
theorem accept_of_fits {offer : Incoming} {now name time : String} {payload : Json}
    (hname : offer.name? = some name) (hpayload : offer.payload? = some payload)
    (htime : offer.time? now = some time) (id : Nat) :
    offer.accept id now = .ok ⟨id, name, payload, time, offer.request⟩ := by
  simp only [accept, hname, hpayload, htime]

theorem payload?_ofJson {name time : Value} {payload : Json} {request : Option Request}
    (h : payload.storable = true) :
    payload? ⟨name, .ofJson payload, time, request⟩ = some payload := by
  simp only [payload?, Value.toJson?_ofJson, h, if_true]

theorem payload?_eq_some_iff {offer : Incoming} {v : Json} :
    offer.payload? = some v ↔ offer.payload.toJson? = some v ∧ v.storable = true := by
  unfold payload?
  cases offer.payload.toJson? with
  | none => simp
  | some u =>
    by_cases hu : u.storable = true
    · simp only [hu, if_true, Option.some.injEq]
      constructor
      · rintro rfl
        exact ⟨rfl, hu⟩
      · exact fun h => h.1
    · simp only [hu, Bool.false_eq_true, if_false, reduceCtorEq, Option.some.injEq, false_iff]
      rintro ⟨rfl, hv⟩
      exact hu hv

/-- Can the payload of the offer be logged? -/
def isLoggable (offer : Incoming) : Bool := offer.payload.isLoggable

/-- An event can be logged if its offer can. -/
theorem isLoggable_of_accept {offer : Incoming} {id : Nat} {now : String} {e : Event}
    (h : offer.accept id now = .ok e) : e.isLoggable = offer.isLoggable := by
  obtain ⟨-, -, hpayload, -⟩ := of_accept h
  exact Value.isLoggable_of_toJson? _ (payload?_eq_some_iff.mp hpayload).1

/-- **Would a new store accept the offer?** -/
def acceptable (now : String) (offer : Incoming) : Bool := (Store.empty.append offer now).isOk

/-- An offer that is accepted under one id is accepted under each. -/
theorem accept_of_accept {offer : Incoming} {id : Nat} {now : String} {e : Event}
    (h : offer.accept id now = .ok e) (other : Nat) : ∃ e', offer.accept other now = .ok e' := by
  obtain ⟨-, hname, hpayload, htime, -⟩ := of_accept h
  exact ⟨_, accept_of_fits hname hpayload htime other⟩

/-- It does not matter to which store the offer comes. -/
theorem acceptable_iff {offer : Incoming} {now : String} (id : Nat) :
    offer.acceptable now = true ↔ ∃ e, offer.accept id now = .ok e := by
  unfold acceptable Store.append
  constructor
  · intro h
    cases haccept : offer.accept Store.empty.nextId now with
    | error fields =>
      rw [haccept] at h
      cases h
    | ok e => exact accept_of_accept haccept id
  · rintro ⟨e, haccept⟩
    obtain ⟨e', haccept'⟩ := accept_of_accept haccept Store.empty.nextId
    rw [haccept']
    rfl

theorem not_acceptable_of_payload {offer : Incoming} (h : offer.payload? = none) (now : String) :
    ¬ acceptable now offer = true := by
  intro hfits
  obtain ⟨e, haccept⟩ := (acceptable_iff 0).mp hfits
  obtain ⟨-, -, hpayload, -⟩ := of_accept haccept
  rw [h] at hpayload
  cases hpayload

end Incoming

/-! ## Section 2: What is reached -/

section Reached

variable {α β : Type} {fits goesOn : α → Bool} {x : α} {rest l : List α}

/-- **What is reached** of a list: all in front of the first that does not fit, or all up to the
    first that fits but lets nothing behind it be reached. -/
def reachedOf (fits goesOn : α → Bool) : List α → List α
  | [] => []
  | x :: rest => if fits x then x :: (if goesOn x then reachedOf fits goesOn rest else []) else []

theorem reachedOf_cons_of_goesOn (hfits : fits x = true) (hgoes : goesOn x = true) :
    reachedOf fits goesOn (x :: rest) = x :: reachedOf fits goesOn rest := by
  rw [reachedOf, if_pos hfits, if_pos hgoes]

theorem reachedOf_cons_of_ends (hfits : fits x = true) (hends : ¬ goesOn x = true) :
    reachedOf fits goesOn (x :: rest) = [x] := by
  rw [reachedOf, if_pos hfits, if_neg hends]

theorem reachedOf_cons_of_misfit (hfits : ¬ fits x = true) :
    reachedOf fits goesOn (x :: rest) = [] := by
  rw [reachedOf, if_neg hfits]

theorem reachedOf_singleton (hfits : fits x = true) : reachedOf fits goesOn [x] = [x] := by
  simp [reachedOf, hfits]

theorem reachedOf_eq_self (hfits : ∀ x ∈ l, fits x = true) (hgoes : ∀ x ∈ l, goesOn x = true) :
    reachedOf fits goesOn l = l := by
  induction l with
  | nil => rfl
  | cons x rest ih =>
    rw [reachedOf_cons_of_goesOn (hfits x List.mem_cons_self) (hgoes x List.mem_cons_self),
      ih (fun y hin => hfits y (List.mem_cons_of_mem _ hin))
        (fun y hin => hgoes y (List.mem_cons_of_mem _ hin))]

theorem reachedOf_front (fits goesOn : α → Bool) (l : List α) : reachedOf fits goesOn l <+: l := by
  induction l with
  | nil => exact List.prefix_rfl
  | cons x rest ih =>
    by_cases hfits : fits x = true
    · by_cases hgoes : goesOn x = true
      · rw [reachedOf_cons_of_goesOn hfits hgoes]
        exact List.cons_prefix_cons.mpr ⟨rfl, ih⟩
      · rw [reachedOf_cons_of_ends hfits hgoes]
        exact List.cons_prefix_cons.mpr ⟨rfl, List.nil_prefix⟩
    · rw [reachedOf_cons_of_misfit hfits]
      exact List.nil_prefix

theorem reachedOf_map (f : β → α) (l : List β) :
    reachedOf fits goesOn (l.map f) = (reachedOf (fits ∘ f) (goesOn ∘ f) l).map f := by
  induction l with
  | nil => rfl
  | cons x rest ih =>
    rw [List.map_cons, reachedOf, reachedOf, ih]
    by_cases hfits : fits (f x) = true <;> by_cases hgoes : goesOn (f x) = true <;>
      simp [hfits, hgoes]

/-- What is reached in front of a first entry of some sort. -/
theorem reachedOf_takeWhile (p : α → Bool) (l : List α) :
    reachedOf fits goesOn (l.takeWhile p) = reachedOf (fun x => p x && fits x) goesOn l := by
  induction l with
  | nil => rfl
  | cons x rest ih =>
    by_cases hp : p x = true
    · rw [List.takeWhile_cons_of_pos hp, reachedOf, reachedOf, ih]
      simp [hp]
    · rw [List.takeWhile_cons_of_neg hp, reachedOf, reachedOf]
      simp [hp]

/-- What stands in front of the last entry. -/
theorem mem_dropLast_cons {y : α} (h : y ∈ (x :: rest).dropLast) : y = x ∨ y ∈ rest.dropLast := by
  cases rest with
  | nil => cases h
  | cons z rest => exact List.mem_cons.mp h

end Reached

/-! ## Section 3: Batches -/

namespace Ingestion

/-- The events behind the first place are those that the offers become under the ids from here
    on. -/
def Become (now : String) (offers : List Incoming) (id : Nat) (events : List Event) : Prop :=
  events.length = offers.length ∧
    ∀ (i : Nat) (offer : Incoming) (e : Event), offers[i]? = some offer → events[i]? = some e →
      offer.accept (id + i) now = .ok e

theorem Become.cons {now : String} {offer : Incoming} {rest : List Incoming} {id : Nat} {e : Event}
    {events : List Event} (h : offer.accept id now = .ok e)
    (hrest : Become now rest (id + 1) events) : Become now (offer :: rest) id (e :: events) := by
  refine ⟨congrArg (· + 1) hrest.1, ?_⟩
  intro i o x ho hx
  cases i with
  | zero =>
    cases ho
    cases hx
    exact h
  | succ i =>
    have hlater := hrest.2 i o x ho hx
    rwa [Nat.add_assoc, Nat.add_comm 1 i] at hlater

/-- **What an ingestion of these offers did**: those that are reached have become events, which stand
    behind those that were there. Of these events only the last can be one that cannot be logged,
    and the ids that come back are those of the others. -/
structure Stores (i : Ingestion) (now : String) (offers : List Incoming) (s : Store) : Prop where
  become : Become now (reachedOf (Incoming.acceptable now) Incoming.isLoggable offers) s.nextId
    i.added
  store : i.store = ⟨s.events ++ i.added, s.consumed, s.nextId + i.added.length⟩
  stops : ∀ e ∈ i.added.dropLast, e.isLoggable = true
  ids : i.ids = (i.added.takeWhile Event.isLoggable).map (·.id)

section Steps

variable {now : String} {offer : Incoming} {rest : List Incoming} {s : Store} {e : Event}

/-- An offer that is stored and logged comes in front of what is done behind it. -/
theorem Stores.cons {i : Ingestion} (he : offer.accept s.nextId now = .ok e)
    (hlog : e.isLoggable = true)
    (h : i.Stores now rest ⟨s.events ++ [e], s.consumed, s.nextId + 1⟩) :
    Stores { i with added := e :: i.added, ids := e.id :: i.ids } now (offer :: rest) s := by
  obtain ⟨hbecome, hstore, hstops, hids⟩ := h
  have hfits : offer.acceptable now = true := (Incoming.acceptable_iff s.nextId).mpr ⟨e, he⟩
  have hoffer : offer.isLoggable = true := Incoming.isLoggable_of_accept he ▸ hlog
  constructor
  case become =>
    rw [reachedOf_cons_of_goesOn hfits hoffer]
    exact hbecome.cons he
  case store =>
    dsimp only
    rw [hstore, List.append_assoc, List.singleton_append, List.length_cons, Nat.add_assoc,
      Nat.add_comm 1]
  case stops =>
    intro x hin
    rcases mem_dropLast_cons hin with rfl | hin
    · exact hlog
    · exact hstops x hin
  case ids =>
    dsimp only
    rw [hids, List.takeWhile_cons_of_pos hlog, List.map_cons]

/-- One that is stored but cannot be logged is the last, and its id does not come back. -/
theorem stores_unlogged (he : offer.accept s.nextId now = .ok e) (hlog : ¬ e.isLoggable = true)
    (stop : Option Stop) (readable : Bool) :
    Stores ⟨⟨s.events ++ [e], s.consumed, s.nextId + 1⟩, [e], [], stop, readable⟩ now
      (offer :: rest) s := by
  have hfits : offer.acceptable now = true := (Incoming.acceptable_iff s.nextId).mpr ⟨e, he⟩
  have hoffer : ¬ offer.isLoggable = true := Incoming.isLoggable_of_accept he ▸ hlog
  constructor
  case become =>
    rw [reachedOf_cons_of_ends hfits hoffer]
    exact .cons he ⟨rfl, nofun⟩
  case store => rfl
  case stops => nofun
  case ids =>
    rw [List.takeWhile_cons_of_neg hlog]
    rfl

/-- One that is rejected ends the batch in front of it. -/
theorem stores_rejected (hfits : ¬ offer.acceptable now = true) (stop : Option Stop)
    (readable : Bool) : Stores ⟨s, [], [], stop, readable⟩ now (offer :: rest) s := by
  constructor
  case become =>
    rw [reachedOf_cons_of_misfit hfits]
    exact ⟨rfl, nofun⟩
  case store => simp
  case stops => nofun
  case ids => rfl

end Steps

/-- **Every batch is stored as far as it is reached**, in order. By induction on the offers; each of
    them is stored and logged, or stored only, or rejected. -/
theorem stores_storeAll (now : String) (rest? : Option Stop) (readable : Bool)
    (offers : List Incoming) (s : Store) :
    (storeAll now rest? readable offers s).Stores now offers s := by
  induction offers generalizing s with
  | nil =>
    rw [storeAll]
    exact ⟨⟨rfl, nofun⟩, by simp, nofun, rfl⟩
  | cons offer rest ih =>
    rw [storeAll]
    cases haccept : offer.accept s.nextId now with
    | ok e =>
      have happend : s.append offer now =
          .ok (⟨s.events ++ [e], s.consumed, s.nextId + 1⟩, e) := by
        simp only [Store.append, haccept]
      simp only [happend]
      by_cases hlog : e.isLoggable = true
      · rw [if_pos hlog]
        exact (ih _).cons haccept hlog
      · rw [if_neg hlog]
        exact stores_unlogged haccept hlog _ _
    | error fields =>
      have happend : s.append offer now = .error fields := by
        simp only [Store.append, haccept]
      have hfits : ¬ offer.acceptable now = true := by
        rw [Incoming.acceptable_iff s.nextId, haccept]
        rintro ⟨e, he⟩
        cases he
      simp only [happend]
      exact stores_rejected hfits _ _

/-- Each event is what an offer has become, under the id of its place. -/
theorem Become.offer_of_event {now : String} {offers : List Incoming} {id : Nat}
    {events : List Event} (h : Become now offers id events) {i : Nat} {e : Event}
    (he : events[i]? = some e) : ∃ offer ∈ offers, offer.accept (id + i) now = .ok e := by
  obtain ⟨hi, -⟩ := List.getElem?_eq_some_iff.mp he
  have hi' : i < offers.length := h.1 ▸ hi
  exact ⟨offers[i], List.getElem_mem hi', h.2 i _ e (List.getElem?_eq_getElem hi') he⟩

/-- If all offers can be logged, all events can. -/
theorem Become.isLoggable {now : String} {offers : List Incoming} {id : Nat}
    {events : List Event} (h : Become now offers id events)
    (hall : ∀ offer ∈ offers, offer.isLoggable = true) : ∀ e ∈ events, e.isLoggable = true := by
  intro e hin
  obtain ⟨i, he⟩ := List.mem_iff_getElem?.mp hin
  obtain ⟨offer, hoffer, haccept⟩ := h.offer_of_event he
  rw [Incoming.isLoggable_of_accept haccept, hall offer hoffer]

/-- If all offers can be stored and logged, all are, and all ids come back. -/
theorem Stores.of_loggable {i : Ingestion} {now : String} {offers : List Incoming} {s : Store}
    (h : i.Stores now offers s) (hfits : ∀ offer ∈ offers, offer.acceptable now = true)
    (hlog : ∀ offer ∈ offers, offer.isLoggable = true) :
    Become now offers s.nextId i.added ∧ i.ids = i.added.map (·.id) := by
  have hbecome := h.become
  rw [reachedOf_eq_self hfits hlog] at hbecome
  refine ⟨hbecome, ?_⟩
  rw [h.ids, List.takeWhile_eq_self_iff.mpr (hbecome.isLoggable hlog)]

end Ingestion

/-- **An ingestion stores what a body offers**, as far as it is reached. -/
theorem Store.stores_ingest (s : Store) (raw : Value) (request : Option Request) (now : String) :
    (s.ingest raw request now).Stores now ((Body.ofRaw raw).offers request) s :=
  Ingestion.stores_storeAll _ _ _ _ s

/-! ## Section 4: Bodies that can be logged -/

namespace Body

theorem isLoggable_of_get? {fields : Keyed Value} {key : String} {v : Value}
    (h : (Value.obj fields).isLoggable = true) (hget : Keyed.get? fields key = some v) :
    v.isLoggable = true := by
  rw [Value.isLoggable_obj, List.all_eq_true] at h
  exact h (key, v) (Keyed.mem_of_get? hget)

/-- What can be logged can be shown. -/
theorem isShowable_of_isLoggable {element : Value} (h : element.isLoggable = true) :
    isShowable element = true := by
  have hfield : ∀ key, (given? element key).all Value.isLoggable = true := by
    intro key
    cases hgiven : given? element key with
    | none => rfl
    | some v =>
      cases element with
      | obj fields =>
        obtain ⟨hget, -⟩ := Option.filter_eq_some_iff.mp hgiven
        exact isLoggable_of_get? h hget
      | _ => cases hgiven
  simp [isShowable, hfield]

@[simp] theorem isLoggable_offerOf (header element : Value) (request : Option Request) :
    (offerOf header element request).isLoggable = (header.isLoggable && element.isLoggable) := by
  simp [Incoming.isLoggable, offerOf]

/-- **There is nothing in the body that cannot be logged.** -/
def Loggable : Body → Prop
  | .unreadable _ => True
  | .envelope header elements =>
    header.isLoggable = true ∧ ∀ element ∈ elements, element.isLoggable = true
  | .document v => v.isLoggable = true

theorem loggable_ofValue {v : Value} (h : v.isLoggable = true) : (ofValue v).Loggable := by
  unfold ofValue
  split
  · next fields =>
    split
    · next elements hevents =>
      have helements := isLoggable_of_get? h hevents
      rw [Value.isLoggable_arr, List.all_eq_true] at helements
      refine ⟨?_, helements⟩
      cases hmeta : Keyed.get? fields "meta" with
      | none => rfl
      | some header => exact isLoggable_of_get? h hmeta
    · exact h
  · exact h

theorem loggable_ofText (text : String) : (ofText text).Loggable := by
  unfold ofText
  cases hread : Json.read? text with
  | none => trivial
  | some v => exact loggable_ofValue (Json.isLoggable_of_read? hread)

/-- **Texts and bytes can always be logged**, and so can any other value without a number that is
    too long. -/
theorem loggable_ofRaw {raw : Value} (h : raw.isLoggable = true) : (ofRaw raw).Loggable := by
  cases raw with
  | str s => exact loggable_ofText s
  | bytes bs => exact loggable_ofText _
  | _ => exact loggable_ofValue h

theorem Loggable.takeWhile_eq {header : Value} {elements : List Value}
    (h : (Body.envelope header elements).Loggable) : elements.takeWhile isShowable = elements :=
  List.takeWhile_eq_self_iff.mpr fun element hin => isShowable_of_isLoggable (h.2 element hin)

theorem Loggable.offers {body : Body} (h : body.Loggable) (request : Option Request) :
    ∀ offer ∈ body.offers request, offer.isLoggable = true := by
  cases body with
  | unreadable text => simp [Body.offers, Incoming.isLoggable]
  | envelope header elements =>
    intro offer hin
    rw [Body.offers, h.takeWhile_eq] at hin
    obtain ⟨element, helement, rfl⟩ := List.mem_map.mp hin
    rw [isLoggable_offerOf, h.1, h.2 element helement, Bool.and_self]
  | document v =>
    simp only [Body.offers, List.mem_singleton, forall_eq]
    exact h

end Body

/-! ## Section 5: Envelopes -/

namespace Body

/-- The header of an envelope with these fields. -/
def headerOf (fields : Fields) : Json := (Keyed.get? fields "meta").getD .null

/-- The payload of the event that an element of an envelope with this header becomes. -/
def payloadOf (header : Json) (element : Fields) : Json :=
  .obj [("meta", header), ("event", .obj element)]

/-- An element stands inside the payload of its event. -/
theorem leads_payloadOf (header : Json) (element : Fields) :
    (payloadOf header element).Leads [.key "event"] (.obj element) :=
  .field (List.mem_cons_of_mem _ List.mem_cons_self) (.here _)

theorem ofText_envelope {text : String} {fields : Fields} {elements : List Fields}
    (htext : Json.read? text = some (.obj fields))
    (hevents : Keyed.get? fields "events" = some (.arr (elements.map .obj))) :
    ofText text = .envelope (.ofJson (headerOf fields))
      (elements.map fun element => .ofJson (.obj element)) := by
  have hheader : (Keyed.get? (Value.ofFields fields) "meta").getD .null =
      .ofJson (headerOf fields) := by
    rw [Value.get?_ofFields, headerOf]
    cases Keyed.get? fields "meta" <;> rfl
  have hitems : Keyed.get? (Value.ofFields fields) "events" =
      some (.arr (elements.map fun element => .ofJson (.obj element))) := by
    rw [Value.get?_ofFields, hevents, Option.map_some, Value.ofJson, Value.ofItems_eq_map,
      List.map_map]
    rfl
  rw [ofText, htext]
  simp only [Value.ofJson, ofValue, hitems, hheader]

/-- An element with a name that is not empty is stored under it. -/
theorem nameOf_element {element : Fields} {name : String}
    (h : Keyed.get? element "name" = some (.str name)) (hne : name ≠ "") :
    nameOf (.ofJson (.obj element)) = name := by
  have hgiven : given? (.ofJson (.obj element)) "name" = some (.str name) := by
    rw [Value.ofJson, given?, Value.get?_ofFields, h, Option.map_some, Value.ofJson,
      Option.filter_some]
    simp [isVoid, hne]
  rw [nameOf, hgiven]
  rfl

/-- The time of an element never stands in the way. -/
theorem time?_timeOf (element : Value) (offer : Incoming) (h : offer.time = timeOf element)
    (now : String) : ∃ time, offer.time? now = some time := by
  unfold Incoming.time?
  rw [h, timeOf]
  cases given? element "event_time" with
  | none => exact ⟨now, rfl⟩
  | some v => exact ⟨_, rfl⟩

end Body

/-- **The text writes an envelope** with this header and these objects for elements, and all of them
    can be stored: each has a name that is not empty, and nests no deeper than storage allows. -/
structure Envelope (text : String) (header : Json) (elements : List Fields) : Prop where
  written : ∃ fields, Json.read? text = some (.obj fields) ∧ Body.headerOf fields = header ∧
    Keyed.get? fields "events" = some (.arr (elements.map .obj))
  named : ∀ element ∈ elements, ∃ name, Keyed.get? element "name" = some (.str name) ∧ name ≠ ""
  storable : ∀ element ∈ elements, (Body.payloadOf header element).storable = true

/-- **The events of an envelope's elements**, numbered from here on: each has the name of its
    element, and the header of the envelope beside it. -/
structure EventsOf (header : Json) (elements : List Fields) (first : Nat) (events : List Event) :
    Prop where
  length : events.length = elements.length
  id_eq : ∀ (i : Nat) (e : Event), events[i]? = some e → e.id = first + i
  name : ∀ (i : Nat) (element : Fields) (e : Event), elements[i]? = some element →
    events[i]? = some e → Keyed.get? element "name" = some (.str e.name)
  payload : ∀ (i : Nat) (element : Fields) (e : Event), elements[i]? = some element →
    events[i]? = some e → e.payload = Body.payloadOf header element

namespace Envelope

variable {text : String} {header : Json} {elements : List Fields}

/-- What the fields of the offer for an element are taken as. -/
theorem fits (h : Envelope text header elements) {element : Fields} (hin : element ∈ elements)
    (request : Option Request) (now : String) {offer : Incoming}
    (ho : offer = Body.offerOf (.ofJson header) (.ofJson (.obj element)) request) :
    (∃ name, Keyed.get? element "name" = some (.str name) ∧ offer.name? = some name) ∧
      offer.payload? = some (Body.payloadOf header element) ∧
      ∃ time, offer.time? now = some time := by
  subst ho
  obtain ⟨name, hname, hne⟩ := h.named element hin
  refine ⟨⟨name, hname, ?_⟩, Incoming.payload?_ofJson (h.storable element hin),
    Body.time?_timeOf _ _ rfl now⟩
  exact congrArg some (Body.nameOf_element hname hne)

theorem ofRaw_eq (h : Envelope text header elements) : Body.ofRaw (.str text) =
    .envelope (.ofJson header) (elements.map fun element => .ofJson (.obj element)) := by
  obtain ⟨fields, htext, rfl, hevents⟩ := h.written
  exact Body.ofText_envelope htext hevents

theorem offers_eq (h : Envelope text header elements) (request : Option Request) :
    (Body.ofRaw (.str text)).offers request = elements.map fun element =>
      Body.offerOf (.ofJson header) (.ofJson (.obj element)) request := by
  have hlog : (Body.ofRaw (.str text)).Loggable := Body.loggable_ofText text
  rw [h.ofRaw_eq] at hlog ⊢
  rw [Body.offers, hlog.takeWhile_eq, List.map_map]
  rfl

/-- **The elements of an envelope become events.** -/
theorem ingest (h : Envelope text header elements) (s : Store) (request : Option Request)
    (now : String) :
    ∃ events, EventsOf header elements s.nextId events ∧
      (s.ingest (.str text) request now).store =
        ⟨s.events ++ events, s.consumed, s.nextId + elements.length⟩ ∧
      (s.ingest (.str text) request now).ids = events.map (·.id) := by
  have hoffers := h.offers_eq request
  have haccepted : ∀ offer ∈ (Body.ofRaw (.str text)).offers request,
      offer.acceptable now = true := by
    intro offer ho
    rw [hoffers] at ho
    obtain ⟨element, hin, heq⟩ := List.mem_map.mp ho
    obtain ⟨⟨name, -, hname⟩, hpayload, time, htime⟩ := h.fits hin request now heq.symm
    exact (Incoming.acceptable_iff 0).mpr ⟨_, Incoming.accept_of_fits hname hpayload htime 0⟩
  have hstores := s.stores_ingest (.str text) request now
  obtain ⟨⟨hlength, hbecome⟩, hids⟩ :=
    hstores.of_loggable haccepted ((Body.loggable_ofText text).offers request)
  rw [hoffers, List.length_map] at hlength
  -- the event in a place is what the offer for the element there has become
  have heach : ∀ (i : Nat) (element : Fields) (e : Event), elements[i]? = some element →
      (s.ingest (.str text) request now).added[i]? = some e →
      (Body.offerOf (.ofJson header) (.ofJson (.obj element)) request).accept (s.nextId + i) now =
        .ok e := by
    intro i element e helement he
    refine hbecome i _ e ?_ he
    rw [hoffers, List.getElem?_map, helement, Option.map_some]
  refine ⟨_, ⟨hlength, ?_, ?_, ?_⟩, ?_, hids⟩
  · intro i e he
    have hlt : i < elements.length := by
      rw [← hlength]
      exact (List.getElem?_eq_some_iff.mp he).1
    exact (Incoming.of_accept (heach i _ e (List.getElem?_eq_getElem hlt) he)).1
  · intro i element e helement he
    obtain ⟨-, hname, -⟩ := Incoming.of_accept (heach i element e helement he)
    obtain ⟨⟨name, hget, hname'⟩, -⟩ :=
      h.fits (List.mem_of_getElem? helement) request now rfl
    rw [hget, Option.some.inj (hname'.symm.trans hname)]
  · intro i element e helement he
    obtain ⟨-, -, hpayload, -⟩ := Incoming.of_accept (heach i element e helement he)
    obtain ⟨-, hpayload', -⟩ := h.fits (List.mem_of_getElem? helement) request now rfl
    exact Option.some.inj (hpayload.symm.trans hpayload')
  · rw [hstores.store, hlength]

end Envelope

end EventCheck
