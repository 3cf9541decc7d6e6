import EventCheck.Background.Check
import EventCheck.Background.Monitor
import EventCheck.Endpoint.Address
import EventCheck.Endpoint.Basic
import EventCheck.Endpoint.Headers
import EventCheck.Endpoint.Opening
import EventCheck.Endpoint.Target
import EventCheck.Filter
import EventCheck.Ingest
import EventCheck.Json.Basic
import EventCheck.Json.Reader
import EventCheck.Json.Value
import EventCheck.Json.Writer
import EventCheck.Keyed
import EventCheck.Locator
import EventCheck.Log.Datum
import EventCheck.Log.Files
import EventCheck.Log.Record
import EventCheck.Matching.Foreign
import EventCheck.Matching.Items
import EventCheck.Matching.Leaf
import EventCheck.Matching.Search
import EventCheck.Matching.Structure
import EventCheck.Number.Binary64
import EventCheck.Number.Digits
import EventCheck.Number.Shortest
import EventCheck.Pattern
import EventCheck.Regex.Basic
import EventCheck.Regex.Reader
import EventCheck.Regex.Search
import EventCheck.Report.Artifacts
import EventCheck.Report.LineDiff
import EventCheck.Report.RecentLogs
import EventCheck.Session.Agenda
import EventCheck.Session.Basic
import EventCheck.Session.Moment
import EventCheck.Session.Run
import EventCheck.Session.Step
import EventCheck.Session.Verifier
import EventCheck.Session.Waiting
import EventCheck.Settings.Basic
import EventCheck.Settings.Coercion
import EventCheck.Settings.Environment
import EventCheck.Settings.File
import EventCheck.Settings.Options
import EventCheck.Store.Basic
import EventCheck.Store.Event
import EventCheck.Text.Blank
import EventCheck.Text.Case
import EventCheck.Text.Encoding
import EventCheck.Text.Lines
import EventCheck.Text.Parts
import EventCheck.Text.Printable
import EventCheck.Text.Quoted
import EventCheck.Text.Ranges
import EventCheck.Text.Utf8
import EventCheck.Text.Word
import EventCheck.Validation
import EventCheck.Watch.Pace
import EventCheck.Watch.Poll
import EventCheck.Watch.Result
import EventCheck.Watch.Scan
import EventCheck.Yaml.Cursor
import EventCheck.Yaml.Data
import EventCheck.Yaml.Node
import EventCheck.Yaml.Scalar
import EventCheck.Yaml.Tag
import EventCheck.Yaml.Token
import EventCheck.Proofs.Watch.Scan
import EventCheck.Proofs.Arena.Basic
import EventCheck.Proofs.Arena.Round
import EventCheck.Proofs.Arena.Life
import EventCheck.Proofs.Arena.Ledger
import EventCheck.Proofs.Arena.Events
import EventCheck.Proofs.Arena.Contest
import EventCheck.Proofs.Arena.Checks
import EventCheck.Proofs.Arena.Baseline
import EventCheck.Proofs.Json.Tree
import EventCheck.Proofs.Matching.Structure
import EventCheck.Proofs.Matching.Embedding
import EventCheck.Proofs.Matching.Search
import EventCheck.Proofs.Matching.Answers
import EventCheck.Proofs.Matching.Items
import EventCheck.Proofs.Json.Extension
import EventCheck.Proofs.Matching.Monotone
import EventCheck.Proofs.Barrier.Basic
import EventCheck.Proofs.Barrier.Verdict
import EventCheck.Proofs.Barrier.Invariant
import EventCheck.Proofs.Barrier.Accounting
import EventCheck.Proofs.Json.Reading
import EventCheck.Proofs.Json.Values
import EventCheck.Proofs.Matching.Reflexive
import EventCheck.Proofs.Store.Ingestion
import EventCheck.Proofs.Session.Acts
import EventCheck.Proofs.Session.Verifying
import EventCheck.Proofs.Watch.Tally
import EventCheck.Proofs.Watch.First
import EventCheck.Proofs.Arena.Truthful
import EventCheck.Proofs.Store.History
import EventCheck.Proofs.Store.Ledger
import EventCheck.Proofs.Json.Texts
import EventCheck.Proofs.Store.Bodies
import EventCheck.Proofs.Store.Batches
import EventCheck.Proofs.Session.Ingesting
import EventCheck.Proofs.Json.Contents
import EventCheck.Proofs.Matching.Transitive
import EventCheck.Proofs.Session.Failures
import EventCheck.Proofs.Session.Reloading
import EventCheck.Proofs.Json.Escapes
import EventCheck.Proofs.Json.Numerals
import EventCheck.Proofs.Number.Rounding
import EventCheck.Proofs.Number.Shortest
import EventCheck.Proofs.Json.Floats
import EventCheck.Proofs.Json.RoundTrip
import EventCheck.Proofs.Json.Recoding
import EventCheck.Proofs.Matching.DoubleEncoding
import EventCheck.Proofs.Matching.Spelling
import EventCheck.Proofs.Barrier.Outcomes
import EventCheck.Proofs.Session.Querying
import EventCheck.Proofs.Session.Alike
import EventCheck.Proofs.Session.Reporting
import EventCheck.Proofs.Session.Refusing
import EventCheck.Proofs.Session.Searching
import EventCheck.Proofs.Watch.Deadline
import EventCheck.Proofs.Barrier.Bounded
import EventCheck.Proofs.Barrier.Telling
import EventCheck.Proofs.Report.Evidence
import EventCheck.Pattern.Memory
import EventCheck.Proofs.Watch.Independence
import EventCheck.Proofs.Matching.Listing
import EventCheck.Proofs.Text.Utf8
import EventCheck.Proofs.Json.Inversion
import EventCheck.Proofs.Json.LineEnds
import EventCheck.Proofs.Pattern.Memory
import EventCheck.Proofs.Pattern.Loading
import EventCheck.Proofs.Locator.XPath
import EventCheck.Proofs.Locator.Denoting
import EventCheck.Proofs.Matching.Recursion
import EventCheck.Proofs.Endpoint.Exchange
import EventCheck.Proofs.Endpoint.Capture
import EventCheck.Proofs.Json.Unbroken
import EventCheck.Proofs.Log.Data
import EventCheck.Proofs.Log.Files
import EventCheck.Proofs.Log.Values
