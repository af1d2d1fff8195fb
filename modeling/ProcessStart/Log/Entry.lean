import ProcessStart.Json.Decode
import ProcessStart.Json.Writer
import ProcessStart.Time

/-!
Entries of the structured log, and the line of JSON that each is. Four fields
are always there; the others are left out of the line when absent. The order
of the fields in the line is fixed.
-/
namespace ProcessStart.Log

inductive Level where
  | trace
  | debug
  | info
  | warn
  | error
  | fatal
  deriving DecidableEq, Repr

inductive Outcome where
  | pass
  | fail
  | skip
  | error
  deriving DecidableEq, Repr

namespace Level

def label : Level → String
  | .trace => "trace"
  | .debug => "debug"
  | .info => "info"
  | .warn => "warn"
  | .error => "error"
  | .fatal => "fatal"

def labels : List (String × Level) :=
  [.trace, .debug, .info, .warn, .error, .fatal].map fun l : Level => (l.label, l)

@[simp] theorem lookup_label (l : Level) : labels.lookup l.label = some l := by
  cases l <;> rfl

end Level

namespace Outcome

def label : Outcome → String
  | .pass => "pass"
  | .fail => "fail"
  | .skip => "skip"
  | .error => "error"

def labels : List (String × Outcome) :=
  [.pass, .fail, .skip, .error].map fun o : Outcome => (o.label, o)

@[simp] theorem lookup_label (o : Outcome) : labels.lookup o.label = some o := by
  cases o <;> rfl

end Outcome

def startDecision : String := "startup_decision"

structure Entry where
  timestamp : String
  traceId : String
  level : Level
  event : String
  apiFamily : Option String := none
  symbol : Option String := none
  outcome : Option Outcome := none
  exitCode : Option Int32 := none
  artifactRefs : Option (List String) := none
  /-- Free in form, but for the event of a start decision. -/
  details : Option Json := none

namespace Entry

def members (e : Entry) : List (String × Json) :=
  ("timestamp", .text e.timestamp) :: ("trace_id", .text e.traceId) ::
    ("level", .text e.level.label) :: ("event", .text e.event) ::
    (Json.optionalMember "api_family" (e.apiFamily.map .text) ++
      Json.optionalMember "symbol" (e.symbol.map .text) ++
      Json.optionalMember "outcome" (e.outcome.map fun o => .text o.label) ++
      Json.optionalMember "exit_code" (e.exitCode.map fun n => .number (.integer n.toInt)) ++
      Json.optionalMember "artifact_refs" (e.artifactRefs.map fun refs => .array (refs.map .text)) ++
      Json.optionalMember "details" e.details)

/-- The entry on one line, without a line feed. -/
def line (e : Entry) : List Char := Json.write (.object e.members)

/-- Decodes the fields in ascending order of their names, then asks for those that must be there;
so of several faults, the first in this order is the one reported. -/
def ofMembers (ms : List (String × Json)) : Except Json.Mismatch Entry := do
  let apiFamily ← Json.decodeField ms "api_family" (Json.decodeOptional Json.decodeText)
  let artifactRefs ← Json.decodeField ms "artifact_refs"
    (Json.decodeOptional (Json.decodeArray Json.decodeText))
  let details ← Json.decodeField ms "details" (Json.decodeOptional .ok)
  let event ← Json.decodeField ms "event" Json.decodeText
  let exitCode ← Json.decodeField ms "exit_code" (Json.decodeOptional Json.decodeInt32)
  let level ← Json.decodeField ms "level" (Json.decodeVariant Level.labels)
  let outcome ← Json.decodeField ms "outcome"
    (Json.decodeOptional (Json.decodeVariant Outcome.labels))
  let symbol ← Json.decodeField ms "symbol" (Json.decodeOptional Json.decodeText)
  let timestamp ← Json.decodeField ms "timestamp" Json.decodeText
  let traceId ← Json.decodeField ms "trace_id" Json.decodeText
  return {
    timestamp := ← Json.require "timestamp" timestamp
    traceId := ← Json.require "trace_id" traceId
    level := ← Json.require "level" level
    event := ← Json.require "event" event
    apiFamily := apiFamily.join
    symbol := symbol.join
    outcome := outcome.join
    exitCode := exitCode.join
    artifactRefs := artifactRefs.join
    details := details.join }

end Entry
end ProcessStart.Log
