import ProcessStart.CommandLine.Run
import Std.Time.Format

/-!
The program as a process. What a command decides is decided on a copy of the
files that its arguments name; this module makes the copy, and writes back
what has changed. No symbols can be looked up from here, so a probe always
finds that the start routine is missing.
-/
namespace ProcessStart.Program

def paths : CommandLine.Command → List (List UInt8)
  | .probe output log _ => output.toList ++ log.toList
  | .linkArguments _ _ _ => []
  | .validateLog log => [log]
  | .help => []

def pathText (place : List Name) : String :=
  String.ofList (place.flatMap fun name => '/' :: Text.utf8Shown name)

def copyNode (t : Files) (place : List Name) : IO Files := do
  match ← (IO.FS.readBinFile (pathText place)).toBaseIO with
  | .ok content => return t.put place (.file content.toList)
  | .error (.inappropriateType _ _ _) => return t.put place .directory
  | .error _ => return t

/-- Copies all that stands on the way along these names. -/
def copyWay (t : Files) (place : List Name) : List Name → IO Files
  | [] => return t
  | name :: rest => do
    match t.step place name with
    | .error _ => return t
    | .ok place => copyWay (← copyNode t place) place rest

def copyFiles (named : List (List UInt8)) : IO Files := do
  let here := Files.names (toString (← IO.currentDir)).toUTF8.toList
  let start : Files := ⟨[], here.filter fun name => !name.isEmpty⟩
  let start ← copyWay start [] start.workingDirectory
  named.foldlM (fun t path => copyWay t (t.origin path) (Files.names path)) start

/-- Writes the files whose content is another than before. -/
def writeBack (before after : Files) : IO Unit := do
  for (place, node) in after.nodes do
    match node with
    | .file content =>
      if before.at? place != some node then
        IO.FS.writeBinFile (pathText place) content.toByteArray
    | .directory => pure ()

def clock : IO Instant := do
  let nanos := (← Std.Time.Timestamp.now).toNanosecondsSinceUnixEpoch.val.toNat
  return ⟨UInt64.ofNat (nanos / 1000000000), UInt32.ofNat (nanos % 1000000000)⟩

def host : IO Host := do
  let memory ← (IO.FS.readBinFile "/proc/self/maps").toBaseIO
  return {
    resolver := fun _ => none
    self := ⟨1, by decide⟩
    versionText := none
    memory := memory.toOption.map fun listing => listing.toList }

def run (args : List String) : IO UInt32 := do
  let args := args.map fun a => a.toUTF8.toList
  let files ← copyFiles ((CommandLine.parse args).toList.flatMap paths)
  let outcome := CommandLine.run (← host) (toString (← clock)) files args
  writeBack files outcome.files
  (← IO.getStdout).putStr (String.ofList outcome.output)
  (← IO.getStderr).putStr (String.ofList outcome.diagnostics)
  return UInt32.ofNat outcome.status

end ProcessStart.Program

def main (args : List String) : IO UInt32 := ProcessStart.Program.run args
