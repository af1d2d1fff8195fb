import ProcessStart.CommandLine.Arguments
import ProcessStart.Failure
import ProcessStart.Host
import ProcessStart.LinkLine
import ProcessStart.Log.Emitter
import ProcessStart.Log.File

/-!
What each command does: it reads and writes files, prints, and ends with a
status. A command that fails shows the failure last; arguments that make no
request have a status of their own.
-/
namespace ProcessStart.CommandLine

structure Outcome where
  status : Nat
  output : List Char
  diagnostics : List Char
  files : Files

/-- What a command has done, and whether it failed. -/
structure Effect where
  output : List Char
  diagnostics : List Char
  files : Files
  failure : Option Failure

namespace Effect

def start (files : Files) : Effect := ⟨[], [], files, none⟩

def print (e : Effect) (line : List Char) : Effect := { e with output := e.output ++ line ++ ['\n'] }

def note (e : Effect) (line : List Char) : Effect :=
  { e with diagnostics := e.diagnostics ++ line ++ ['\n'] }

def fail (e : Effect) (f : Failure) : Effect := { e with failure := some f }

/-- Goes on unless the command has failed. -/
def andThen (e : Effect) (next : Effect → Effect) : Effect :=
  match e.failure with
  | none => next e
  | some _ => e

/-- An access to a file, which can fail. -/
def access (e : Effect) (path : List UInt8) (result : Files → Except FileError Files) : Effect :=
  match result e.files with
  | .ok files => { e with files := files }
  | .error error => e.fail (.file path error)

def outcome (e : Effect) : Outcome :=
  match e.failure with
  | none => ⟨0, e.output, e.diagnostics, e.files⟩
  | some f => ⟨1, e.output, (e.note ("Error: " ++ f.shown).toList).diagnostics, e.files⟩

end Effect

def linkArguments (files : Files) (flavor : List Char) (library : Option (List UInt8))
    (asJson : Bool) : Effect :=
  match LinkLine.Flavor.ofName? flavor with
  | none => (Effect.start files).fail (.unknownFlavor flavor)
  | some f =>
    let arguments := LinkLine.arguments f library
    (Effect.start files).print <|
      if asJson then (Json.array (arguments.map fun a => .text (String.ofList a))).write
      else [' '].intercalate arguments

def summary (log : List UInt8) (found : Log.Findings) : List Char :=
  "Validated ".toList ++ Text.utf8Shown log ++ ": lines=".toList ++ Text.decimal found.lines ++
    ", violations=".toList ++ Text.decimal found.violations.length

def validateLog (files : Files) (log : List UInt8) : Effect :=
  match files.readText log with
  | .error e => (Effect.start files).fail (.file log e)
  | .ok text =>
    let found := Log.Findings.ofText text
    let noted := found.violations.foldl (fun e v => e.note v.text.toList) (Effect.start files)
    let noted := noted.note (summary log found)
    if found.violations.isEmpty then noted
    else noted.fail (.invalidLog log found.violations.length)

def probeEntry (timestamp : String) (output : Option (List UInt8)) (r : Report) : Log.Entry :=
  { timestamp := timestamp
    traceId := ""
    level := .info
    event := "probe_decision"
    apiFamily := some "startup"
    symbol := some r.symbol
    outcome := some (if r.isInconsistent then .fail else .pass)
    exitCode := some (if r.isInconsistent then 1 else 0)
    artifactRefs := some
      ((output.map fun path => String.ofList (Text.utf8Shown path)).toList ++ r.object.toList)
    details := some r.sortedJson }

def probeRecord (runId : List Char) (e : Log.Entry) : List UInt8 :=
  ((Log.Emitter.opened "probe" (String.ofList runId) []).emitEntry e).flush.target.held

def reportFailure (r : Report) : Failure :=
  .inconsistent r.generation (r.runtimeVersion.getD "?")

/-- The log is written before the report, and a report that does not go together with the library's
version is written all the same. -/
def probe (h : Host) (timestamp : String) (files : Files) (output log : Option (List UInt8))
    (runId : List Char) : Effect :=
  match h.probe files with
  | .error e => (Effect.start files).fail (.start e)
  | .ok r =>
    let logged :=
      match log with
      | none => Effect.start files
      | some path => (Effect.start files).access path fun files =>
        files.append path (probeRecord runId (probeEntry timestamp output r))
    let text := r.json.writeIndented 0
    let written := logged.andThen fun e =>
      match output with
      | none => e.print text
      | some path => (e.access path fun files => files.write path (Text.utf8Encode text)).andThen
        fun e => e.note ("Wrote probe report to ".toList ++ Text.utf8Shown path)
    written.andThen fun e => if r.isInconsistent then e.fail (reportFailure r) else e

def usage : String := "usage: probe | link-args | validate-log | help, with their options"

/-- Runs the program; the timestamp is that of the entry it may log. How it is used is said on the
output if that was asked for, and among the diagnostics if nothing else was. -/
def run (h : Host) (timestamp : String) (files : Files) (arguments : List (List UInt8)) : Outcome :=
  match parse arguments with
  | none => ⟨2, [], usage.toList ++ ['\n'], files⟩
  | some .help => ⟨0, usage.toList ++ ['\n'], [], files⟩
  | some (.probe output log runId) => (probe h timestamp files output log runId).outcome
  | some (.linkArguments flavor library asJson) =>
    (linkArguments files flavor library asJson).outcome
  | some (.validateLog log) => (validateLog files log).outcome

end ProcessStart.CommandLine
