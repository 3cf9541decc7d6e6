import EventCheck.Json.Reader
import EventCheck.Settings.Basic
import EventCheck.Text.Case

/-! # Settings in the environment

    A variable `EVENTPROBE_<GROUP>` holds a group as JSON, and a variable
    `EVENTPROBE_<GROUP>__<FIELD>` a single field. Names may be written in letters
    of either case.

    - A field counts over the same field in the JSON of its group, and both count
      over settings from elsewhere (`Environment.onTop`).
    - A list stands in a variable as JSON. A value that has to be JSON and is not
      is an error of its group.
-/

namespace EventCheck

/-- A variable of the environment holds no JSON where it has to. -/
structure EnvironmentError where
  group : String
  deriving DecidableEq, Repr

def EnvironmentError.message (e : EnvironmentError) : String :=
  "error parsing value for field \"" ++ e.group ++ "\" from source \"EnvSettingsSource\""

/-- The variables, by name. -/
abbrev Environment := Keyed String

namespace Environment

/-! ## Names -/

/-- What the names of all variables begin with, in small letters. -/
def mark : String := "eventprobe_"

/-- The steps of a name, separated by two underscores. -/
def steps (cs : List Char) : List String :=
  let rec go (current : List Char) : List Char → List String
    | '_' :: '_' :: rest => String.ofList current.reverse :: go [] rest
    | c :: rest => go (c :: current) rest
    | [] => [String.ofList current.reverse]
  go [] cs

/-- What is left of a name behind its beginning. -/
def behind? (beginning name : String) : Option (List Char) :=
  if beginning.toList.isPrefixOf name.toList then some (name.toList.drop beginning.length)
  else none

/-- The variables with their names in small letters; of equal names the last one counts, in the
    place of the first. -/
def lowered (env : Environment) : Environment :=
  Keyed.ofPairs (env.map fun (name, v) => (Case.lower name, v))

/-! ## Values -/

/-- Some fields with others over them; where both have an object its fields are merged. -/
def onTop (fields : Keyed Value) : Keyed Value → Keyed Value
  | [] => fields
  | (k, v) :: rest =>
    let v :=
      match v, Keyed.get? fields k with
      | .obj upper, some (.obj lower) => .obj (onTop lower upper)
      | v, _ => v
    onTop (Keyed.put fields k v) rest

/-- The value behind some steps set to a text. Steps through something that is no object lead
    nowhere. -/
def setAt (fields : Keyed Value) (v : Value) : List String → Keyed Value
  | [] => fields
  | [last] => Keyed.put fields last v
  | step :: rest =>
    match Keyed.get? fields step with
    | none => Keyed.put fields step (.obj (setAt [] v rest))
    | some (.obj inner) => Keyed.put fields step (.obj (setAt inner v rest))
    | some _ => fields

/-- The fields of the groups. -/
def fieldNames : String → List String
  | "events" => ["timeout_sec", "polling_interval_ms", "join_timeout_sec", "await_on_teardown"]
  | "server" => ["enabled", "host", "port", "paths"]
  | "reporting" => ["allure_dir", "attach_events_on_success", "attach_events_on_fail"]
  | _ => []

/-- Is the value behind these steps a list? -/
def isList (group : String) (steps : List String) : Bool := group == "server" && steps == ["paths"]

/-- The value of a variable for a single field. -/
def fieldValue (group : String) (steps : List String) (text : String) :
    Except EnvironmentError Value :=
  if isList group steps && !text.isEmpty then
    match Json.read? text with
    | some v => .ok (.ofJson v)
    | none => .error ⟨group⟩
  else .ok (.str text)

/-- The fields of a group that variables of their own set. -/
def fieldsOf (env : Environment) (group : String) :
    Except EnvironmentError (Keyed Value) :=
  env.foldlM (fun fields (name, text) =>
    match behind? (mark ++ group ++ "__") name with
    | none => .ok fields
    | some rest =>
      let steps := steps rest
      (fieldValue group steps text).map fun v => setAt fields v steps) []

/-- Fields with the names of the group's own fields in their own letters. -/
def named (group : String) (fields : Keyed Value) : Keyed Value :=
  fields.foldl (fun all (k, v) =>
    let name := (fieldNames group).find? fun name => name == Case.lower k
    Keyed.put all (name.getD k) v) []

/-- What the environment says of a group, if it says anything. -/
def groupValue (env : Environment) (group : String) : Except EnvironmentError (Option Value) := do
  match Keyed.get? env (mark ++ group) with
  | none =>
    let fields ← fieldsOf env group
    pure (if fields.isEmpty then none else some (.obj (named group fields)))
  | some text =>
    match Json.read? text with
    | none => .error ⟨group⟩
    | some (.obj fields) =>
      let single ← fieldsOf env group
      pure (some (.obj (named group (onTop (Value.ofFields fields) single))))
    | some .null => pure none
    | some v => pure (some (.ofJson v))

/-- Everything that the environment says. -/
def groupsOf (env : Environment) : Except EnvironmentError (Keyed Value) :=
  let env := lowered env
  Settings.groups.foldlM (fun fields group => do
    match ← groupValue env group with
    | none => pure fields
    | some v => pure (fields ++ [(group, v)])) []

end Environment

/-- Why there are no settings. -/
inductive SettingsError where
  | environment (error : EnvironmentError)
  | invalid (violations : List Violation)
  deriving Repr

/-- The settings that fields and environment give together. -/
def Settings.load (fields : Keyed Value) (env : Environment) :
    Except SettingsError Settings :=
  match Environment.groupsOf env with
  | .error e => .error (.environment e)
  | .ok upper =>
    match Settings.ofFields (Environment.onTop fields upper) with
    | .error vs => .error (.invalid vs)
    | .ok settings => .ok settings

end EventCheck
