import EventCheck.Endpoint.Headers
import EventCheck.Endpoint.Target
import EventCheck.Ingest

/-! # The capture endpoint

    The application under test posts its batches here.

    - A POST to one of the configured paths is ingested and answered with 200; any
      other path is answered with 404. A target that cannot be split is answered
      with 500, like a body that is too long.
    - A GET of `/health` is answered with 200, any other with 404.
    - No other method is served.
-/

namespace EventCheck

/-- A request as it comes in. -/
structure Call where
  method : String
  target : String
  headers : Headers
  body : List UInt8
  client : String

/-- An answer; the body is plain text. -/
structure Response where
  code : Nat
  body : Option String
  deriving DecidableEq, Repr

namespace Response

def ok : Response := ⟨200, some "OK"⟩

def notFound : Response := ⟨404, some "Not Found"⟩

def failed : Response := ⟨500, some "Internal Server Error"⟩

/-- The method is not served. -/
def unsupported : Response := ⟨501, none⟩

def contentType : String := "text/plain; charset=utf-8"

def length (body : String) : Nat := body.utf8ByteSize

end Response

/-- What can go wrong with a call: its target cannot be split, or it announces a body that is too
    long to be read. -/
inductive CallError where
  | target (error : TargetError)
  | tooLong
  deriving DecidableEq, Repr

def CallError.message : CallError → String
  | .target e => e.message
  | .tooLong => "cannot fit 'int' into an index-sized integer"

/-- How a call was handled: the answer, what was ingested and from which request, and what went
    wrong. -/
structure Handled where
  response : Response
  ingested : Option (Request × Ingestion)
  problem : Option CallError

namespace Endpoint

/-- The paths that take events if no others are configured. -/
def defaultPaths : List String := ["/event", "/m/batch"]

def healthPath : String := "/health"

/-- The request that is kept with the events of a call. -/
def requestOf (call : Call) (target : Target) : Request :=
  ⟨target.path, call.client, call.headers.grouped,
    if target.query.isEmpty then none else some target.query⟩

/-- From this length on a body is too long to be read. That memory may not suffice for a shorter one
    is left aside: a body below this length can be read. -/
def maxLength : Nat := Nat.pow 2 63

/-- The part of the body that the headers announce. -/
def bodyOf (call : Call) : List UInt8 := call.body.take call.headers.contentLength

def post (paths : List String) (call : Call) (s : Store) (now : String) : Handled :=
  match Target.split call.target with
  | .error e => ⟨.failed, none, some (.target e)⟩
  | .ok target =>
    if !paths.contains target.path then ⟨.notFound, none, none⟩
    else if maxLength ≤ call.headers.contentLength then ⟨.failed, none, some .tooLong⟩
    else
      let request := requestOf call target
      ⟨.ok, some (request, s.ingest (.bytes (bodyOf call)) (some request) now), none⟩

/-- A GET; a target that cannot be split gets no answer. -/
def get (call : Call) : Except TargetError Handled :=
  (Target.split call.target).map fun target =>
    ⟨if target.path = healthPath then .ok else .notFound, none, none⟩

/-- Handles a call. -/
def handle (paths : List String) (call : Call) (s : Store) (now : String) :
    Except TargetError Handled :=
  match call.method with
  | "POST" => .ok (post paths call s now)
  | "GET" => get call
  | _ => .ok ⟨.unsupported, none, none⟩

end Endpoint

end EventCheck
