import EventCheck.Settings.Environment
import EventCheck.Text.Lines
import EventCheck.Yaml.Data

/-! # The settings file

    Settings stand in a file of three groups. A file that is missing or empty, or
    that holds something else than a mapping, says nothing.

    `Settings.start` gives the settings of a test run: those of the file, under
    those of the environment, under a timeout given to the run itself.
-/

namespace EventCheck

/-- Why a file gives no fields. -/
inductive SettingsFileError where
  | undecodable (error : Utf8.DecodeError)
  | document (fault : Yaml.Data.Fault)
  | oddKeys
  deriving DecidableEq, Repr

def SettingsFileError.message : SettingsFileError → String
  | .undecodable e => e.message
  | .document fault => fault.message
  | .oddKeys => "keywords must be strings"

namespace SettingsFile

/-- The path of the file if no other is given. -/
def usualPath : String := "configs/eventprobe.yaml"

/-- The text of a file. It is read piece by piece, and what the end of the file cuts off is a piece
    of its own. -/
def decode (bytes : List UInt8) : Except Utf8.DecodeError String :=
  match Utf8.strict bytes with
  | .ok text => .ok (Lines.unify text)
  | .error e => .error (if e.fault = .cutShort then { e with position := 0 } else e)

/-- The fields that a file gives. -/
def fields (content : Option (List UInt8)) :
    Except SettingsFileError (Keyed Value) :=
  match content with
  | none => .ok []
  | some bytes =>
    match decode bytes with
    | .error e => .error (.undecodable e)
    | .ok text =>
      match Yaml.Node.ofText? text with
      | none => .error (.document .malformed)
      | some none => .ok []
      | some (some node) =>
        match Yaml.Data.ofNode node with
        | .error fault => .error (.document fault)
        | .ok (.obj fields) => if Yaml.Data.hasOddKeys node then .error .oddKeys else .ok fields
        | .ok _ => .ok []

end SettingsFile

/-- Why a test run does not begin. -/
inductive StartError where
  | file (error : SettingsFileError)
  | settings (error : SettingsError)
  deriving Repr

namespace Settings

/-- The settings with another timeout. -/
def withTimeout (s : Settings) (timeout : Option (Seconds Float)) : Settings :=
  match timeout with
  | none => s
  | some timeout => { s with timing := { s.timing with timeout := timeout } }

/-- The settings of a test run. -/
def start (file : Option (List UInt8)) (env : Environment) (timeout : Option (Seconds Float)) :
    Except StartError Settings :=
  match SettingsFile.fields file with
  | .error e => .error (.file e)
  | .ok fields =>
    match load fields env with
    | .error e => .error (.settings e)
    | .ok settings => .ok (settings.withTimeout timeout)

end Settings

end EventCheck
