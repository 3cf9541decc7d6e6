/-! # Options of a test run

    The command line of a test run takes the path of the settings file and a
    timeout that counts over all settings.
-/

namespace EventCheck

/-- An option of the command line: the group it is shown in, its name, what becomes of its value,
    the sort of value unless it is a text, and what it is for. Without it there is no value. -/
structure CommandOption where
  group : String
  name : String
  action : String
  sort : Option String
  help : String
  deriving DecidableEq, Repr

namespace CommandOption

def heading : String := "eventprobe"

def settingsFile : CommandOption :=
  ⟨heading, "--config", "store", none, "Path to YAML configuration file"⟩

def timeout : CommandOption :=
  ⟨heading, "--event-timeout", "store", some "float",
    "Default timeout of event checks, in seconds"⟩

/-- All options. -/
def all : List CommandOption := [settingsFile, timeout]

end CommandOption

end EventCheck
