import EventCheck.Proofs.Json.Texts
import EventCheck.Proofs.Store.Ingestion
import Mathlib

/-! # Bodies that are no envelopes

    A body that is no envelope becomes one event, with the document that it writes or
    with its text. Reading and storing have limits of their own: a document that
    can be read may still nest too deep for the store, and then it is not stored at all,
    not even as text.

    - `Body.content`: what a body ought to be kept as.
    - `Ingestion.Keeps`: one event with this payload is stored, and nothing else happens.
    - `body_kept_iff`: a body is kept if and only if the document in it, if there is
      one, may be stored.

    The document is the one that the reader gives, with U+FFFD for each single half of a
    surrogate pair.
-/

namespace EventCheck

/-! ## Section 1: Bodies and their texts -/

namespace Body

/-- The text of a body that came as text or as bytes. -/
def textOf? : Value → Option String
  | .str s => some s
  | .bytes bs => some (Utf8.lenient bs)
  | _ => none

theorem ofRaw_of_text {raw : Value} {text : String} (h : textOf? raw = some text) :
    ofRaw raw = ofText text := by
  cases raw with
  | str s =>
    cases h
    rfl
  | bytes bs =>
    cases h
    rfl
  | _ => cases h

/-- **The text writes an envelope**: an object whose events are an array. -/
def WritesEnvelope (text : String) : Prop :=
  ∃ fields elements, Json.read? text = some (.obj fields) ∧
    Keyed.get? fields "events" = some (.arr elements)

theorem ofText_unreadable {text : String} (h : Json.read? text = none) :
    ofText text = .unreadable text := by
  rw [ofText, h]

theorem ofText_document {text : String} {v : Json} (hread : Json.read? text = some v)
    (hplain : ¬ WritesEnvelope text) : ofText text = .document (.ofJson v) := by
  rw [ofText, hread]
  dsimp only
  cases v with
  | obj fields =>
    -- only an object can be an envelope, and this one has no array of events
    show ofValue (.obj (Value.ofFields fields)) = .document (.obj (Value.ofFields fields))
    rw [ofValue, Value.get?_ofFields]
    cases hevents : Keyed.get? fields "events" with
    | none => rfl
    | some inner =>
      cases inner with
      | arr elements => exact absurd ⟨fields, elements, hread, hevents⟩ hplain
      | _ => rfl
  | _ => rfl

/-- **What a body is to be kept as**, if it is no envelope: the document that it writes, or its text
    if it writes none or one that nests too deep. -/
def content (text : String) : Json :=
  match Json.read? text with
  | some v => if v.storable then v else .str text
  | none => .str text

theorem content_of_unreadable {text : String} (h : Json.read? text = none) :
    content text = .str text := by
  rw [content, h]

theorem content_of_storable {text : String} {v : Json} (h : Json.read? text = some v)
    (hv : v.storable = true) : content text = v := by
  rw [content, h]
  exact if_pos hv

theorem content_of_unstorable {text : String} {v : Json} (h : Json.read? text = some v)
    (hv : ¬ v.storable = true) : content text = .str text := by
  rw [content, h]
  exact if_neg hv

end Body

/-! ## Section 2: Ingestions of one offer -/

/-- **The ingestion keeps the body with this payload**: it adds one event of the name for whole
    bodies, and nothing else happens. -/
def Ingestion.Keeps (i : Ingestion) (s : Store) (payload : Json) (request : Option Request) :
    Prop :=
  ∃ e, i.added = [e] ∧ i.store = ⟨s.events ++ [e], s.consumed, s.nextId + 1⟩ ∧
    e.id = s.nextId ∧ e.name = Body.batchName ∧ e.payload = payload ∧ e.request = request

/-- **The ingestion loses the body**: nothing happens at all. -/
def Ingestion.Loses (i : Ingestion) (s : Store) : Prop := i.added = [] ∧ i.store = s

namespace Store

variable {raw : Value} {text : String} {payload : Json} {request : Option Request} {now : String}

theorem not_keeps_of_loses {i : Ingestion} {s : Store} (h : i.Loses s) :
    ¬ i.Keeps s payload request := by
  rintro ⟨e, hadded, -⟩
  rw [h.1] at hadded
  cases hadded

/-- A body that is one offer of a payload that may be stored is kept. -/
theorem keeps_of_storable (hv : payload.storable = true)
    (hoffers : (Body.ofRaw raw).offers request =
      [⟨.str Body.batchName, .ofJson payload, .null, request⟩]) (s : Store) :
    (s.ingest raw request now).Keeps s payload request := by
  have haccept : ∀ id, Incoming.accept ⟨.str Body.batchName, .ofJson payload, .null, request⟩ id
      now = .ok ⟨id, Body.batchName, payload, now, request⟩ :=
    Incoming.accept_of_fits rfl (Incoming.payload?_ofJson hv) rfl
  obtain ⟨⟨hlength, hbecome⟩, hstore, -⟩ := s.stores_ingest raw request now
  rw [hoffers, reachedOf_singleton ((Incoming.acceptable_iff 0).mpr ⟨_, haccept 0⟩)]
    at hlength hbecome
  -- one offer that is acceptable becomes one event
  obtain ⟨e, hadded⟩ := List.length_eq_one_iff.mp hlength
  rw [hadded] at hbecome hstore
  have heq := hbecome 0 _ e rfl rfl
  rw [haccept] at heq
  cases heq
  exact ⟨_, hadded, hstore, rfl, rfl, rfl, rfl⟩

/-- A body that is one offer of a payload that may not be stored is lost. -/
theorem loses_of_unstorable (hv : ¬ payload.storable = true)
    (hoffers : (Body.ofRaw raw).offers request =
      [⟨.str Body.batchName, .ofJson payload, .null, request⟩]) (s : Store) :
    (s.ingest raw request now).Loses s := by
  have hpayload : Incoming.payload? ⟨.str Body.batchName, .ofJson payload, .null, request⟩ =
      none := by
    simp only [Incoming.payload?, Value.toJson?_ofJson, if_neg hv]
  obtain ⟨hbecome, hstore, -⟩ := s.stores_ingest raw request now
  rw [hoffers, reachedOf_cons_of_misfit (Incoming.not_acceptable_of_payload hpayload now)] at hbecome
  have hnone : (s.ingest raw request now).added = [] := List.eq_nil_of_length_eq_zero hbecome.1
  refine ⟨hnone, ?_⟩
  rw [hstore, hnone, List.append_nil]
  rfl

/-- A text is short of any limit on nesting. -/
theorem storable_str (text : String) : (Json.str text).storable = true := by
  show decide (1 ≤ maxLevels) = true
  decide

/-! ## Section 3: Which bodies are kept -/

/-- A body that cannot be read is kept as text. -/
theorem keeps_unreadable (htext : Body.textOf? raw = some text)
    (hread : Json.read? text = none) (s : Store) :
    (s.ingest raw request now).Keeps s (Body.content text) request := by
  rw [Body.content_of_unreadable hread]
  apply keeps_of_storable (storable_str text)
  rw [Body.ofRaw_of_text htext, Body.ofText_unreadable hread]
  rfl

/-- A document that may be stored is kept. -/
theorem keeps_document (htext : Body.textOf? raw = some text)
    (hplain : ¬ Body.WritesEnvelope text) {v : Json} (hread : Json.read? text = some v)
    (hv : v.storable = true) (s : Store) :
    (s.ingest raw request now).Keeps s (Body.content text) request := by
  rw [Body.content_of_storable hread hv]
  apply keeps_of_storable hv
  rw [Body.ofRaw_of_text htext, Body.ofText_document hread hplain]
  rfl

/-- A document that nests too deep for the store is lost. -/
theorem loses_document (htext : Body.textOf? raw = some text)
    (hplain : ¬ Body.WritesEnvelope text) {v : Json} (hread : Json.read? text = some v)
    (hv : ¬ v.storable = true) (s : Store) : (s.ingest raw request now).Loses s := by
  apply loses_of_unstorable hv
  rw [Body.ofRaw_of_text htext, Body.ofText_document hread hplain]
  rfl

/-- **When a body is kept.** A body of text or bytes that is no envelope is kept as it ought to be,
    as its document or as its text, if and only if it writes no document or one that may be
    stored. If it writes one that nests too deep for the store, it is lost. -/
theorem body_kept_iff (htext : Body.textOf? raw = some text)
    (hplain : ¬ Body.WritesEnvelope text) (s : Store) (request : Option Request) (now : String) :
    ((s.ingest raw request now).Keeps s (Body.content text) request ↔
      ∀ v, Json.read? text = some v → v.storable = true) ∧
    ((∃ v, Json.read? text = some v ∧ v.storable = false) →
      (s.ingest raw request now).Loses s) := by
  constructor
  · constructor
    · intro hkept v hread
      -- what may not be stored is lost, and then nothing is kept
      by_contra hv
      exact not_keeps_of_loses (loses_document htext hplain hread hv s) hkept
    · intro hall
      cases hread : Json.read? text with
      | none => exact keeps_unreadable htext hread s
      | some v => exact keeps_document htext hplain hread (hall v hread) s
  · rintro ⟨v, hread, hv⟩
    exact loses_document htext hplain hread (by simp [hv]) s

/-- Bytes between braces that are no text are kept with a mark in their place. -/
theorem brokenBytes_kept :
    Body.textOf? (.bytes [0x7B, 0xFF, 0x7D]) = some "\x7b\ufffd\x7d" ∧
      ¬ Body.WritesEnvelope "\x7b\ufffd\x7d" ∧
      (empty.ingest (.bytes [0x7B, 0xFF, 0x7D]) none "noon").Keeps empty
        (.str "\x7b\ufffd\x7d") none := by
  have htext : Body.textOf? (.bytes [0x7B, 0xFF, 0x7D]) = some "\x7b\ufffd\x7d" := by cbv
  have hread : Json.read? "\x7b\ufffd\x7d" = none := by cbv
  have hplain : ¬ Body.WritesEnvelope "\x7b\ufffd\x7d" := by
    rintro ⟨fields, elements, henvelope, -⟩
    rw [hread] at henvelope
    cases henvelope
  have hkept := ((body_kept_iff htext hplain empty none "noon").1).mpr (by simp [hread])
  rw [Body.content_of_unreadable hread] at hkept
  exact ⟨htext, hplain, hkept⟩

/-! ## Section 4: Bodies that nest too deep -/

theorem not_writesEnvelope_brackets {n : Nat} (h : n < Json.maxNesting) :
    ¬ Body.WritesEnvelope (String.ofList (Json.brackets n)) := by
  rintro ⟨fields, elements, hread, -⟩
  rw [Json.read?_brackets h] at hread
  cases n <;> cases hread

/-- **Between the two limits bodies are lost**: brackets that nest too deep to be stored, and not too
    deep to be read. -/
theorem loses_brackets {n : Nat} (h : maxLevels ≤ n) (h' : n < Json.maxNesting) (s : Store)
    (request : Option Request) (now : String) :
    (s.ingest (.str (String.ofList (Json.brackets n))) request now).Loses s := by
  have hv : ¬ (Json.nested n).storable = true := by
    rw [Json.storable_nested_iff]
    omega
  exact loses_document rfl (not_writesEnvelope_brackets h') (Json.read?_brackets h') hv s

/-- The text of 256 brackets that open and as many that close. -/
def deepText : String := String.ofList (Json.brackets 255)

/-- It should be kept as text, and it is lost. -/
theorem deepText_lost :
    Body.textOf? (.str deepText) = some deepText ∧ ¬ Body.WritesEnvelope deepText ∧
      Body.content deepText = .str deepText ∧
      ¬ (empty.ingest (.str deepText) none "noon").Keeps empty (Body.content deepText) none ∧
      (empty.ingest (.str deepText) none "noon").added = [] := by
  have hread : Json.read? deepText = some (Json.nested 255) := Json.read?_brackets (by decide)
  have hv : ¬ (Json.nested 255).storable = true := by
    rw [Json.storable_nested_iff]
    decide
  have hlost : (empty.ingest (.str deepText) none "noon").Loses empty :=
    loses_brackets (by decide) (by decide) empty none "noon"
  exact ⟨rfl, not_writesEnvelope_brackets (by decide), Body.content_of_unstorable hread hv,
    not_keeps_of_loses hlost, hlost.1⟩

end Store

end EventCheck
