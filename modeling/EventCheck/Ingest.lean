import EventCheck.Json.Reader
import EventCheck.Store.Basic

/-! # Ingestion

    What the application under test sends becomes events of the store.

    - An envelope is an object whose `events` is an array: each element becomes
      an event of its own, named by its `name`, with the `meta` of the envelope.
    - Any other JSON document becomes one event with the decoded document, and a
      body that is not JSON one with its text.
    - Whatever goes wrong ends the ingestion, and what was stored by then stays: the
      store rejects an offer, an element has a name or a time that cannot be shown, or
      an event cannot be logged. An event is stored before it is logged, so one that
      cannot be logged is in the store, but its id does not come back.
-/

namespace EventCheck

/-- Why an ingestion stops before its end: the store rejects an offer, or something has too many
    digits to be shown or logged. -/
inductive Ingestion.Stop where
  | rejected
  | digits
  deriving DecidableEq

def Ingestion.Stop.message : Ingestion.Stop → String
  | .rejected => "validation error"
  | .digits => Log.Obstacle.digits.message

/-- A body as it is understood. -/
inductive Body where
  | unreadable (text : String)
  | envelope (header : Value) (elements : List Value)
  | document (value : Value)

namespace Body

/-- A decoded document, or an envelope if it is one. -/
def ofValue (v : Value) : Body :=
  match v with
  | .obj fields =>
    match Keyed.get? fields "events" with
    | some (.arr elements) => .envelope ((Keyed.get? fields "meta").getD .null) elements
    | _ => .document v
  | v => .document v

def ofText (text : String) : Body :=
  match Json.read? text with
  | some v => ofValue (.ofJson v)
  | none => .unreadable text

/-- What was sent: bytes, text, or a value that is decoded already. -/
def ofRaw : Value → Body
  | .bytes bs => ofText (Utf8.lenient bs)
  | .str s => ofText s
  | v => ofValue v

/-- The name of an event that holds a whole body. -/
def batchName : String := "BATCH"

/-- The name of an event that has none. -/
def unknownName : String := "UNKNOWN"

/-- Does the value count as nothing? -/
def isVoid : Value → Bool
  | .null => true
  | .bool b => !b
  | .int n => n == 0
  | .float x => x == 0
  | .str s => s.isEmpty
  | .arr items | .tuple items | .set items => items.isEmpty
  | .obj fields => fields.isEmpty
  | .bytes bs => bs.isEmpty
  | .other _ => false

/-- A value as a name. -/
def plain : Value → String
  | .str s => s
  | v => v.shown

/-- A field of an element, unless it counts as nothing. -/
def given? (element : Value) (key : String) : Option Value :=
  match element with
  | .obj fields => (Keyed.get? fields key).filter fun v => !isVoid v
  | _ => none

/-- The name of an element. -/
def nameOf (element : Value) : String := ((given? element "name").map plain).getD unknownName

/-- The time of an element, as text. -/
def timeOf (element : Value) : Value :=
  match given? element "event_time" with
  | some v => .str (plain v)
  | none => .null

/-- Can the name and the time of an element be shown? -/
def isShowable (element : Value) : Bool :=
  ["name", "event_time"].all fun key => (given? element key).all Value.isLoggable

/-- The event that an element of an envelope is. -/
def offerOf (header element : Value) (request : Option Request) : Incoming :=
  ⟨.str (nameOf element), .obj [("meta", header), ("event", element)], timeOf element, request⟩

/-- The events that a body is, up to an element of which none can be made. -/
def offers (body : Body) (request : Option Request) : List Incoming :=
  match body with
  | .unreadable text => [⟨.str batchName, .str text, .null, request⟩]
  | .envelope header elements =>
    (elements.takeWhile isShowable).map fun element => offerOf header element request
  | .document v => [⟨.str batchName, v, .null, request⟩]

/-- What there is to stop for behind all these events. -/
def rest? (body : Body) : Option Ingestion.Stop :=
  match body with
  | .envelope _ elements => if elements.all isShowable then none else some .digits
  | _ => none

def isReadable : Body → Bool
  | .unreadable _ => false
  | _ => true

end Body

/-- What an ingestion did: the store that it leaves, the events that it added, the ids that it gives
    back, why it stopped if it did, and whether the body could be read at all. -/
structure Ingestion where
  store : Store
  added : List Event
  ids : List Nat
  stop : Option Ingestion.Stop
  readable : Bool

namespace Ingestion

/-- Stores one offer after the other and logs each event, up to a fault. Behind the last of them
    there may be something to stop for. -/
def storeAll (now : String) (rest? : Option Stop) (readable : Bool) :
    List Incoming → Store → Ingestion
  | [], s => ⟨s, [], [], rest?, readable⟩
  | offer :: rest, s =>
    match s.append offer now with
    | .error _ => ⟨s, [], [], some .rejected, readable⟩
    | .ok (s, event) =>
      if event.isLoggable then
        let later := storeAll now rest? readable rest s
        { later with added := event :: later.added, ids := event.id :: later.ids }
      else ⟨s, [event], [], some .digits, readable⟩

end Ingestion

/-- Ingests what was sent. -/
def Store.ingest (s : Store) (raw : Value) (request : Option Request) (now : String) : Ingestion :=
  let body := Body.ofRaw raw
  Ingestion.storeAll now body.rest? body.isReadable (body.offers request) s

end EventCheck
