import ProcessStart.Binary64
import ProcessStart.Binary64.Shortest
import ProcessStart.CommandLine.Arguments
import ProcessStart.CommandLine.Run
import ProcessStart.Failure
import ProcessStart.Files
import ProcessStart.Host
import ProcessStart.InitArray
import ProcessStart.Json.Decode
import ProcessStart.Json.Fault
import ProcessStart.Json.Field
import ProcessStart.Json.Reader
import ProcessStart.Json.Scan
import ProcessStart.Json.Skip
import ProcessStart.Json.Value
import ProcessStart.Json.Writer
import ProcessStart.Launch
import ProcessStart.Launch.Conventional
import ProcessStart.Launcher
import ProcessStart.LinkLine
import ProcessStart.Loader.Terminated
import ProcessStart.Loader.TraceFlag
import ProcessStart.Loader.Vector
import ProcessStart.Log.Emitter
import ProcessStart.Log.Entry
import ProcessStart.Log.File
import ProcessStart.Log.Schema
import ProcessStart.Logged
import ProcessStart.Main
import ProcessStart.MemoryMap
import ProcessStart.Plan
import ProcessStart.Proofs.Decision
import ProcessStart.Proofs.Forwarding
import ProcessStart.Proofs.Host
import ProcessStart.Proofs.InitArray
import ProcessStart.Proofs.Initialization
import ProcessStart.Proofs.Json.Decoding
import ProcessStart.Proofs.Json.Layout
import ProcessStart.Proofs.Json.Loops
import ProcessStart.Proofs.Json.Numbers
import ProcessStart.Proofs.Json.Occurrences
import ProcessStart.Proofs.Json.Ordered
import ProcessStart.Proofs.Json.Records
import ProcessStart.Proofs.Json.RoundTrip
import ProcessStart.Proofs.Json.Texts
import ProcessStart.Proofs.LinkLine
import ProcessStart.Proofs.Loader.Entries
import ProcessStart.Proofs.Loader.Flag
import ProcessStart.Proofs.Loader.Reads
import ProcessStart.Proofs.Log.Appending
import ProcessStart.Proofs.Log.Decoding
import ProcessStart.Proofs.Log.Emitting
import ProcessStart.Proofs.Log.Fields
import ProcessStart.Proofs.Log.Findings
import ProcessStart.Proofs.Log.Labels
import ProcessStart.Proofs.Log.RoundTrip
import ProcessStart.Proofs.Log.Rules
import ProcessStart.Proofs.Log.Validation
import ProcessStart.Proofs.MemoryMap
import ProcessStart.Proofs.Prediction
import ProcessStart.Proofs.Report.RoundTrip
import ProcessStart.Proofs.Resolution
import ProcessStart.Proofs.Text.Ascii
import ProcessStart.Proofs.Text.Blank
import ProcessStart.Proofs.Text.Digits
import ProcessStart.Proofs.Text.Lines
import ProcessStart.Proofs.Text.Numerals
import ProcessStart.Proofs.Text.Order
import ProcessStart.Proofs.Text.Utf8
import ProcessStart.Proofs.Time.Calendar
import ProcessStart.Proofs.Time.Conversion
import ProcessStart.Proofs.Time.Dates
import ProcessStart.Proofs.Time.Text
import ProcessStart.Proofs.Trace.Delivery
import ProcessStart.Proofs.Trace.Record
import ProcessStart.Proofs.Tracing
import ProcessStart.Proofs.Tracing.Truth
import ProcessStart.Proofs.Tracing.Writes
import ProcessStart.Proofs.Version.Grammar
import ProcessStart.Proofs.Version.RoundTrip
import ProcessStart.Report
import ProcessStart.Report.Reader
import ProcessStart.Sha256
import ProcessStart.Symbol
import ProcessStart.Text.Numeral
import ProcessStart.Text.Quoted
import ProcessStart.Text.Split
import ProcessStart.Text.Utf8
import ProcessStart.Time
import ProcessStart.Trace.Buffer
import ProcessStart.Trace.Descriptor
import ProcessStart.Trace.Record
import ProcessStart.Version
