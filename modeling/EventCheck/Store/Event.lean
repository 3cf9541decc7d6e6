import EventCheck.Log.Datum
import EventCheck.Pattern
import EventCheck.Text.Utf8
import EventCheck.Validation

/-! # Events

    - `Request` says which HTTP request brought an event; it plays no part in
      matching.
    - `Event` is a stored event. Its payload is JSON by its type.
    - `Incoming` is what a client offers for storage. `Incoming.accept` makes an
      event of it or names the fields that do not fit.
-/

namespace EventCheck

/-- The HTTP request that brought an event: its path, the client's address, its headers and its
    query. -/
structure Request where
  uri : String
  remoteAddress : String
  headers : Keyed (List String)
  query : Option String
  deriving DecidableEq, Repr, Inhabited

namespace Request

def text (v : Json) : Checked String :=
  match v with
  | .str s => .ok s
  | _ => .misfit .notText

/-- The values of one header. -/
def headerValues (v : Json) : Checked (List String) :=
  match v with
  | .arr items => .all (items.zipIdx.map fun (v, i) => Checked.under (toString i) (text v))
  | _ => .misfit .notList

/-- The headers of a request, if they are given. -/
def headersOf (v : Option Json) : Checked (Keyed (List String)) :=
  match v with
  | none => .ok []
  | some (.obj fields) =>
    .all (fields.map fun (k, v) =>
      Checked.under k ((headerValues v).map fun values => (k, values)))
  | some _ => .misfit .notMapping

/-- The query of a request, if there is one. -/
def queryOf (v : Option Json) : Checked (Option String) :=
  match v with
  | none | some .null => .ok none
  | some v => (text v).map some

/-- The address has two spellings of its name; the first counts. -/
def addressOf (fields : Fields) : Checked String :=
  match Keyed.get? fields "remoteAddress", Keyed.get? fields "remote_address" with
  | some v, _ => Checked.under "remoteAddress" (text v)
  | none, some v => Checked.under "remote_address" (text v)
  | none, none => Checked.under "remoteAddress" (.misfit .missing)

/-- A request from its fields; further fields do not matter. -/
def ofFields (fields : Fields) : Checked Request :=
  let uri :=
    match Keyed.get? fields "uri" with
    | some v => text v
    | none => .misfit .missing
  let parts :=
    Checked.both (Checked.under "uri" uri)
      (Checked.both (addressOf fields)
        (Checked.both (Checked.under "headers" (headersOf (Keyed.get? fields "headers")))
          (Checked.under "query" (queryOf (Keyed.get? fields "query")))))
  parts.map fun (uri, address, headers, query) => ⟨uri, address, headers, query⟩

end Request

/-- A stored event. Ids count from one. -/
structure Event where
  id : Nat
  name : String
  payload : Json
  time : String
  request : Option Request
  deriving Inhabited

/-- Can the event be logged? Its payload can hold whole numbers that are too long for that. -/
def Event.isLoggable (e : Event) : Bool := (Value.ofJson e.payload).isLoggable

/-- The fields of an event that a client can get wrong. -/
inductive EventField where
  | name | payload | time
  deriving DecidableEq, Repr

def EventField.text : EventField → String
  | .name => "name"
  | .payload => "payload"
  | .time => "event_time"

/-- What a client offers for storage. Where no time is given, or an empty one, the time of storage
    counts. -/
structure Incoming where
  name : Value
  payload : Value
  time : Value
  request : Option Request
  deriving Inhabited

namespace Incoming

/-- The name, if it is a text, also as bytes. -/
def name? (offer : Incoming) : Option String :=
  match offer.name with
  | .str s => some s
  | .bytes bs => (Utf8.strict bs).toOption
  | _ => none

/-- The payload, if it is JSON and not nested too deep. -/
def payload? (offer : Incoming) : Option Json :=
  match offer.payload.toJson? with
  | some v => if v.storable then some v else none
  | none => none

/-- The time of the event, given the time of storage. -/
def time? (offer : Incoming) (now : String) : Option String :=
  match offer.time with
  | .str s => some (if s.isEmpty then now else s)
  | v =>
    match v.toJson? with
    | some v => if v.isVoid then some now else none
    | none => none

/-- The event under a given id, or the fields that do not fit. -/
def accept (offer : Incoming) (id : Nat) (now : String) : Except (List EventField) Event :=
  match offer.name?, offer.payload?, offer.time? now with
  | some name, some payload, some time => .ok ⟨id, name, payload, time, offer.request⟩
  | name, payload, time =>
    .error ((if name.isNone then [.name] else []) ++ (if payload.isNone then [.payload] else [])
      ++ (if time.isNone then [.time] else []))

/-- An offer of JSON data with no time of its own. -/
def plain (name : String) (payload : Json) (request : Option Request) : Incoming :=
  ⟨.str name, .ofJson payload, .null, request⟩

end Incoming

end EventCheck
