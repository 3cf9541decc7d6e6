import EventCheck.Log.Files
import EventCheck.Report.Artifacts

/-! # Recent logs of a failed test

    When a test fails, or what follows it, the end of its log is attached to the
    report. A log that is empty or cannot be read is passed over.
-/

namespace EventCheck

/-- A part of a test run. -/
inductive Stage where
  | before | test | after
  deriving DecidableEq, Repr

namespace RecentLogs

/-- The name of the attachment. -/
def title : String := "Recent logs"

/-- What a stage of a test attaches, given what its log holds if it can be read. -/
def attach (stage : Stage) (failed : Bool) (log : Option (List UInt8)) (works : Bool) : Report :=
  let text := (log.map Log.tail).getD ""
  if stage = .before || !failed || text.isEmpty then ⟨[], []⟩
  else if works then ⟨[⟨title, .text, text⟩], []⟩
  else ⟨[], [⟨.warning, "hooks", "log_attach_failed", [("error", .str Reporter.brokenMessage)]⟩]⟩

end RecentLogs

end EventCheck
