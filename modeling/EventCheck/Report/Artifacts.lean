import EventCheck.Json.Reader
import EventCheck.Log.Record
import EventCheck.Report.LineDiff
import EventCheck.Settings.Basic

/-! # Artifacts of a check

    A check attaches what was expected and what was seen to the report and, if it
    failed, their difference.

    - Values are attached as indented JSON (`readable`). A text that is itself
      JSON is attached as what it says, any other text as it is.
    - Reporting never fails a check: what goes wrong is a log record.
    - A whole number is attached however many digits it has; none of more than 4300 comes
      out of a text.
-/

namespace EventCheck

/-- What an attachment holds. -/
inductive Attachment.Format where
  | json | text
  deriving DecidableEq, Repr

structure Attachment where
  name : String
  format : Attachment.Format
  body : String
  deriving DecidableEq, Repr

/-- The end of a check of which its artifacts are attached. -/
inductive Occasion where
  | success | failure | other
  deriving DecidableEq, Repr

/-- What reporting leaves behind. -/
structure Report where
  attached : List Attachment
  records : List Log.Record

/-- Where reports go: the settings, and whether attaching works at all. -/
structure Reporter where
  settings : Reporting
  works : Bool

namespace Reporter

/-- Attaching does not work. -/
def brokenMessage : String := "allure is broken"

/-- A value as it is attached, or what went wrong in reading it. A value that is no text is always
    written, whatever numbers are in it. -/
def readable (v : Value) : Except String String :=
  match v with
  | .str s =>
    match Json.read s with
    | .ok v => .ok v.pretty
    | .error e => if e.isTooDeep then .error e.message else .ok s
  | v => .ok v.renderShown.pretty

/-- An optional value as it is attached; null is no value. -/
def readable? (v : Option Value) : Except String (Option String) :=
  match v with
  | none | some .null => .ok none
  | some v => (readable v).map some

/-- Do the settings ask for artifacts? -/
def wants (settings : Reporting) : Occasion → Bool
  | .success => settings.onSuccess
  | .failure => settings.onFailure
  | .other => true

/-- The difference of two texts as an attachment, unless there is none. -/
def difference (name expected actual : String) : List Attachment :=
  let diff := LineDiff.unified "expected" "actual" expected actual
  if diff.isEmpty then [] else [⟨name ++ " diff.txt", .text, diff⟩]

/-- What is attached of two readable values. -/
def attachments (name : String) (occasion : Occasion) (expected actual : Option String) :
    List Attachment :=
  let one (what : String) (body : Option String) : List Attachment :=
    match body with
    | none => []
    | some body => [⟨name ++ " " ++ what ++ ".json", .json, body⟩]
  let diff :=
    match occasion, expected, actual with
    | .failure, some expected, some actual => difference name expected actual
    | _, _, _ => []
  one "expected" expected ++ one "actual" actual ++ diff

/-- The record of something that went wrong. -/
def problem (name message : String) : Log.Record :=
  ⟨.warning, "manager", "event_artifacts_attach_failed",
    [("prefix", .str name), ("error", .str message)]⟩

/-- Attaches the artifacts of a check. -/
def attach (r : Reporter) (name : String) (occasion : Occasion) (expected actual : Option Value) :
    Report :=
  if wants r.settings occasion then
    let texts := do
      let expected ← readable? expected
      let actual ← readable? actual
      pure (attachments name occasion expected actual)
    match texts with
    | .error message => ⟨[], [problem name message]⟩
    | .ok [] => ⟨[], []⟩
    | .ok attached =>
      if r.works then ⟨attached, []⟩ else ⟨[], [problem name brokenMessage]⟩
  else ⟨[], []⟩

end Reporter

end EventCheck
