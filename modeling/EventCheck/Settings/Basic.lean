import EventCheck.Settings.Coercion
import EventCheck.Watch.Result

/-! # Settings

    Three groups: the timing of checks, the capture endpoint, and reporting.
    Each field has a default, and `Settings.ofFields` reads the groups from
    fields. Unknown fields inside a group do not matter, unknown groups do.
-/

namespace EventCheck

/-- Timing of checks: how long they wait, how long they sleep between scans, how long the join at
    the end of a test waits, and whether there is one. -/
structure Timing where
  timeout : Seconds Float
  pollingMs : Int
  joinTimeout : Float
  joinsAtEnd : Bool

namespace Timing

def default : Timing := ⟨.whole 15, 500, 30, true⟩

/-- The sleep between scans in seconds. -/
def polling (t : Timing) : Float := Binary64.ofInt t.pollingMs / 1000

def ofFields (fields : Keyed Value) : Checked Timing :=
  let timeout (v : Value) := (Coercion.number v).map Seconds.fractional
  let parts :=
    Checked.both (Coercion.field fields "timeout_sec" timeout default.timeout)
      (Checked.both
        (Coercion.field fields "polling_interval_ms" Coercion.whole default.pollingMs)
        (Checked.both
          (Coercion.field fields "join_timeout_sec" Coercion.number default.joinTimeout)
          (Coercion.field fields "await_on_teardown" Coercion.flag default.joinsAtEnd)))
  parts.map fun (timeout, pollingMs, joinTimeout, joinsAtEnd) =>
    ⟨timeout, pollingMs, joinTimeout, joinsAtEnd⟩

end Timing

/-- The capture endpoint: whether there is one, where it listens, and the paths that take
    events. -/
structure ServerSettings where
  enabled : Bool
  host : String
  port : Option Int
  paths : List String

namespace ServerSettings

def default : ServerSettings := ⟨true, "127.0.0.1", none, ["/event", "/m/batch"]⟩

def ofFields (fields : Keyed Value) : Checked ServerSettings :=
  let parts :=
    Checked.both (Coercion.field fields "enabled" Coercion.flag default.enabled)
      (Checked.both (Coercion.field fields "host" Coercion.text default.host)
        (Checked.both (Coercion.field fields "port" (Coercion.optional Coercion.whole) default.port)
          (Coercion.field fields "paths" Coercion.texts default.paths)))
  parts.map fun (enabled, host, port, paths) => ⟨enabled, host, port, paths⟩

end ServerSettings

/-- Reporting: the directory of the results, and which checks attach what they saw. -/
structure Reporting where
  directory : String
  onSuccess : Bool
  onFailure : Bool

namespace Reporting

def default : Reporting := ⟨"artifacts/allure", true, true⟩

def ofFields (fields : Keyed Value) : Checked Reporting :=
  let parts :=
    Checked.both (Coercion.field fields "allure_dir" Coercion.text default.directory)
      (Checked.both
        (Coercion.field fields "attach_events_on_success" Coercion.flag default.onSuccess)
        (Coercion.field fields "attach_events_on_fail" Coercion.flag default.onFailure))
  parts.map fun (directory, onSuccess, onFailure) => ⟨directory, onSuccess, onFailure⟩

end Reporting

structure Settings where
  timing : Timing
  server : ServerSettings
  reporting : Reporting

namespace Settings

def default : Settings := ⟨.default, .default, .default⟩

/-- A group of settings from the value of its field. -/
def group {α : Type} (read : Keyed Value → Checked α) (v : Value) : Checked α :=
  match v with
  | .obj fields => read fields
  | _ => .misfit .notRecord

/-- The names of the groups. -/
def groups : List String := ["events", "server", "reporting"]

/-- The violations of fields that are no groups. -/
def strangers (fields : Keyed Value) : Checked Unit :=
  match fields.filter fun (k, _) => !groups.contains k with
  | [] => .ok ()
  | extra => .error (extra.map fun (k, _) => ⟨[k], .extra⟩)

/-- All settings from fields. -/
def ofFields (fields : Keyed Value) : Checked Settings :=
  let parts :=
    Checked.both (Coercion.field fields "events" (group Timing.ofFields) .default)
      (Checked.both (Coercion.field fields "server" (group ServerSettings.ofFields) .default)
        (Checked.both (Coercion.field fields "reporting" (group Reporting.ofFields) .default)
          (strangers fields)))
  parts.map fun (timing, server, reporting, _) => ⟨timing, server, reporting⟩

end Settings

end EventCheck
