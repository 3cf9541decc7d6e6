import EventCheck.Log.Datum
import EventCheck.Text.Lines
import EventCheck.Text.Utf8

/-! # Log files

    Every record is one line of the common log. A record that names a test is
    also a line of the log of that test.

    - The name of a test becomes part of a file name with separators, blanks and
      colons replaced (`testFile`), so every file lies in the log directory.
    - What the file system refuses is left out: all lines where the directory cannot
      be made, and those for a file whose name is too long. Any other fault stops the
      record, and whoever wrote it (`Sink`): a record that cannot be written, before
      anything is opened; a line that cannot be encoded, and a name with a NUL
      character, when the file is opened.
-/

namespace EventCheck

namespace Log

/-! ## Paths -/

/-- The file that holds all records. -/
def commonFile : String := "framework.log"

/-- A character of a test's name as it stands in a file name. -/
def fileChar (c : Char) : Char := if c == '/' || c == ' ' || c == ':' then '_' else c

/-- The file for the records of a test. -/
def testFile (test : String) : String :=
  "test_" ++ String.ofList (test.toList.map fileChar) ++ ".log"

/-- The file for a test, if there is a name; the common file otherwise. -/
def fileFor (test : Option String) : String :=
  match test with
  | none => commonFile
  | some test => if test.isEmpty then commonFile else testFile test

/-- The directory of the files. -/
def directory : String := "artifacts/logs"

def path (test : Option String) : String := directory ++ "/" ++ fileFor test

/-! ## Writing -/

/-- Files by name, each with what it holds. -/
abbrev Files := Keyed String

/-- Adds text to the end of a file. A file that is not there comes to be. -/
def addTo (files : Files) (name text : String) : Files :=
  match files with
  | [] => [(name, text)]
  | (n, content) :: rest =>
    if n = name then (n, content ++ text) :: rest else (n, content) :: addTo rest name text

/-- A record as the files get it: data under names. -/
abbrev Row := Keyed Datum

namespace Row

/-- The entries of a record that holds what callers hand in. -/
def ofEntries (entries : Keyed Value) : Row := entries.map fun (name, v) => (name, .ofValue v)

/-- The record as one datum. -/
def datum (row : Row) : Datum := .dict (row.map fun (name, d) => (.text (.ofString name), d))

/-- The line of a record, with its end. -/
def line (row : Row) : Except Obstacle Text := row.datum.dump.map (· ++ [.char '\n'])

/-- Can the record be written? -/
def isWritable (row : Row) : Bool := row.datum.isWritable

/-- The name of the test that a record names, if it names one. A name with half of a pair in it
    stands in a line that cannot be encoded, so no file is needed for it. -/
def test? (row : Row) : Option String :=
  match Keyed.get? row "test" with
  | some (.text test) =>
    match test.encode with
    | .ok test => if test.isEmpty then none else some test
    | .error _ => none
  | _ => none

end Row

/-- The greatest number of bytes in a file name. -/
def maxNameBytes : Nat := 255

/-- What can go wrong when a record is written: the file system refuses a file, no JSON text can be
    made of the record, its line cannot be encoded, or the name of a file holds a NUL
    character. -/
inductive Fault where
  | refused
  | unwritable (obstacle : Obstacle)
  | unencodable (halves : Halves)
  | nul
  deriving DecidableEq

def Fault.message : Fault → String
  | .refused => "File name too long"
  | .unwritable obstacle => obstacle.message
  | .unencodable halves => halves.message
  | .nul => "embedded null byte"

/-- An act on the files. What it has written before a fault stays written. -/
abbrev Sink (α : Type) := EStateM Fault Files α

/-- Opens a file, which comes to be if it is not there. -/
def openFile (name : String) : Sink Unit :=
  if name.toList.contains '\x00' then throw .nul
  else if maxNameBytes < name.utf8ByteSize then throw .refused
  else modify fun files => addTo files name ""

/-- Adds a line to a file. -/
def append (line : Text) (name : String) : Sink Unit := do
  openFile name
  match line.encode with
  | .ok text => modify fun files => addTo files name text
  | .error halves => throw (.unencodable halves)

/-- The files that a record goes to. -/
def targets (row : Row) : List String :=
  match row.test? with
  | none => [commonFile]
  | some test => [commonFile, testFile test]

/-- Adds a line to some files. Where the directory cannot be made, all of them are refused. -/
def appendAll (blocked : Bool) (line : Text) (names : List String) : Sink Unit :=
  if blocked then throw .refused else names.forM (append line)

/-- **What becomes of a record**: its line is added to its files, and it is passed on. What the file
    system refuses is left out, and any other fault stops it. -/
def mirror (blocked : Bool) (row : Row) : Sink Row := do
  match row.line with
  | .error obstacle => throw (.unwritable obstacle)
  | .ok line =>
    tryCatch (appendAll blocked line (targets row)) fun
      | .refused => pure ()
      | fault => throw fault
    pure row

/-- What becomes of some records. The first that is stopped stops all. -/
def mirrorAll (blocked : Bool) : List Row → Sink (List Row)
  | [] => pure []
  | row :: rest => do
    let passed ← mirror blocked row
    let others ← mirrorAll blocked rest
    pure (passed :: others)

/-- The files after some records, in a directory that held none. -/
def writeAll (blocked : Bool) (rows : List Row) : Except Fault Files :=
  match (mirrorAll blocked rows).run [] with
  | .ok _ files => .ok files
  | .error fault _ => .error fault

/-! ## Reading -/

/-- How many lines of a log a report shows. -/
def tailLines : Nat := 200

/-- The last lines of a log. Bytes that are no text are passed over. -/
def tail (bytes : List UInt8) : String :=
  let lines := Lines.split (Lines.unify (Utf8.skipping bytes))
  String.join (lines.drop (lines.length - tailLines))

end Log

end EventCheck
