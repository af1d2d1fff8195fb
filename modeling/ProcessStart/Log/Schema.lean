import ProcessStart.Json.Reader
import ProcessStart.Log.Entry
import ProcessStart.Plan
import ProcessStart.Text.Split

/-!
What a line of the log has to be. The line must be a JSON object; its fields
are first held against the rules, each of which looks only at values that are
texts, and all complaints are gathered. An object without complaints is then
decoded, which can fail once more.
-/
namespace ProcessStart.Log

inductive Complaint where
  | notJson (cause : Json.Cause) (position : Json.Position)
  | notObject
  | missing (name : String)
  | unknownLevel (label : String)
  | unknownOutcome (label : String)
  | unscopedTraceId (id : String)
  | unknownGeneration (found : Option String)
  | wrongStrategy (generation : Generation) (found : Option String)
  | undecodable (mismatch : Json.Mismatch)
  deriving DecidableEq, Repr

namespace Complaint

/-- The field complained of; a name in angle brackets stands for the whole line. -/
def field : Complaint → String
  | .notJson _ _ => "<json>"
  | .notObject => "<root>"
  | .missing name => name
  | .unknownLevel _ => "level"
  | .unknownOutcome _ => "outcome"
  | .unscopedTraceId _ => "trace_id"
  | .unknownGeneration _ => "details.generation"
  | .wrongStrategy _ _ => "details.strategy"
  | .undecodable _ => "<deserialization>"

def shown (found : Option String) : String :=
  String.ofList (Text.quoted? (found.map String.toList))

def message : Complaint → String
  | .notJson cause position => "invalid JSON: " ++ cause.messageAt position
  | .notObject => "expected JSON object"
  | .missing _ => "required field missing"
  | .unknownLevel label => "invalid level: '" ++ label ++ "'"
  | .unknownOutcome label => "invalid outcome: '" ++ label ++ "'"
  | .unscopedTraceId id =>
    "trace_id should follow <scope>::<run_id>::<seq> format, got: '" ++ id ++ "'"
  | .unknownGeneration found =>
    "startup decision needs generation legacy|modern, got " ++ shown found
  | .wrongStrategy generation found =>
    "generation " ++ shown (some generation.label) ++ " requires strategy '" ++
      generation.strategy.label ++ "', got " ++ shown found
  | .undecodable mismatch => "failed to deserialize: " ++ mismatch.message

end Complaint

structure Violation where
  line : Nat
  complaint : Complaint
  deriving DecidableEq, Repr

def Violation.text (v : Violation) : String :=
  "line " ++ String.ofList (Text.decimal v.line) ++ ": field '" ++ v.complaint.field ++ "': " ++
    v.complaint.message

namespace Schema

/-- The text under a name; a value that is none counts as absent. -/
def textAt (ms : List (String × Json)) (name : String) : Option String :=
  (ms.lookup name).bind Json.text?

def requiredFields : List String := ["timestamp", "trace_id", "level", "event"]

def missing (ms : List (String × Json)) : List Complaint :=
  (requiredFields.filter fun name => (ms.lookup name).isNone).map .missing

def levelRule (ms : List (String × Json)) : List Complaint :=
  match textAt ms "level" with
  | none => []
  | some label => if (Level.labels.lookup label).isSome then [] else [.unknownLevel label]

def outcomeRule (ms : List (String × Json)) : List Complaint :=
  match textAt ms "outcome" with
  | none => []
  | some label => if (Outcome.labels.lookup label).isSome then [] else [.unknownOutcome label]

/-- Whether a trace id has parts, with two colons between them. -/
def isScoped (id : String) : Bool := Text.occurs [':', ':'] id.toList

def traceIdRule (ms : List (String × Json)) : List Complaint :=
  match textAt ms "trace_id" with
  | none => []
  | some id => if isScoped id then [] else [.unscopedTraceId id]

/-- The members of the details; details that are no object have none. -/
def details (ms : List (String × Json)) : List (String × Json) :=
  ((ms.lookup "details").bind Json.members?).getD []

/-- A start decision names its generation, and the strategy that the generation requires. -/
def decisionRule (ms : List (String × Json)) : List Complaint :=
  if textAt ms "event" = some startDecision then
    let generation := textAt (details ms) "generation"
    let strategy := textAt (details ms) "strategy"
    match generation.bind Generation.ofLabel? with
    | none => [.unknownGeneration generation]
    | some g => if strategy = some g.strategy.label then [] else [.wrongStrategy g strategy]
  else []

def complaints (ms : List (String × Json)) : List Complaint :=
  missing ms ++ levelRule ms ++ outcomeRule ms ++ traceIdRule ms ++ decisionRule ms

/-- An object against the rules, then decoded. -/
def checkMembers (ms : List (String × Json)) : Except (List Complaint) Entry :=
  match complaints ms with
  | [] => (Entry.ofMembers ms).mapError fun mismatch => [.undecodable mismatch]
  | found => .error found

/-- The entry that a line holds, or all that is wrong with it. -/
def checkLine (line : List Char) : Except (List Complaint) Entry :=
  match Json.readChars line with
  | .error fault => .error [.notJson fault.cause (fault.position line)]
  | .ok (.object ms) => checkMembers ms
  | .ok _ => .error [.notObject]

/-- The same, for the line of this number. -/
def check (line : List Char) (number : Nat) : Except (List Violation) Entry :=
  (checkLine line).mapError fun found => found.map (⟨number, ·⟩)

end Schema
end ProcessStart.Log
