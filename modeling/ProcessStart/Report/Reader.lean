import ProcessStart.Json.Decode
import ProcessStart.Json.Field
import ProcessStart.Report

/-!
Reading a report back from its JSON form: an object in which fields may stand
in any order and unknown ones are passed over, or an array of all fields in
order. A field must not be given twice; the four last may be missing or null
in an object.
-/
namespace ProcessStart

open Json (Fault Scanned Mismatch)

namespace CutoverFinding

structure Draft where
  version : Option String := none
  found : Option Bool := none

def Draft.member (d : Draft) (key : String) (s : List Char) : Except Fault (Scanned Draft) := do
  match key with
  | "version" =>
    let (v, s) ← Json.scanFieldOnce key d.version Json.scanTextField s
    .ok ({ d with version := some v }, s)
  | "found" =>
    let (v, s) ← Json.scanFieldOnce key d.found Json.scanBoolField s
    .ok ({ d with found := some v }, s)
  | _ => .ok (d, ← Json.skipValue (← Json.scanColon s))

def Draft.finish (d : Draft) : Except Mismatch CutoverFinding := do
  return ⟨← Json.require "version" d.version, ← Json.require "found" d.found⟩

def scanObject (s : List Char) : Except Fault (Scanned CutoverFinding) := do
  let (draft, s) ← Json.scanMembers Draft.member true (s.length + 1) {} s
  match draft.finish with
  | .ok probe => .ok (probe, s)
  | .error m => Json.mismatched m s

def scanArray (s : List Char) : Except Fault (Scanned CutoverFinding) := do
  let record := "struct VersionedProbe with 2 elements"
  let (version, s) ← Json.scanFieldAt record 0 Json.scanTextField s
  let (found, s) ← Json.scanFieldAt record 1 Json.scanBoolField s
  .ok (⟨version, found⟩, ← Json.scanArrayEnd s)

def scan (s : List Char) : Except Fault (Scanned CutoverFinding) :=
  Json.scanRecord "struct VersionedProbe" scanObject scanArray s

end CutoverFinding

namespace Report

/-- The fields read so far. A field that may be absent is known once it was read, as null too. -/
structure Draft where
  symbol : Option String := none
  resolved : Option String := none
  cutover : Option CutoverFinding := none
  generation : Option String := none
  strategy : Option String := none
  runtimeVersion : Option (Option String) := none
  consistent : Option (Option Bool) := none
  object : Option (Option String) := none
  digest : Option (Option String) := none

def Draft.member (d : Draft) (key : String) (s : List Char) : Except Fault (Scanned Draft) := do
  match key with
  | "symbol" =>
    let (v, s) ← Json.scanFieldOnce key d.symbol Json.scanTextField s
    .ok ({ d with symbol := some v }, s)
  | "start_main_resolved" =>
    let (v, s) ← Json.scanFieldOnce key d.resolved Json.scanTextField s
    .ok ({ d with resolved := some v }, s)
  | "versioned_probe" =>
    let (v, s) ← Json.scanFieldOnce key d.cutover CutoverFinding.scan s
    .ok ({ d with cutover := some v }, s)
  | "generation" =>
    let (v, s) ← Json.scanFieldOnce key d.generation Json.scanTextField s
    .ok ({ d with generation := some v }, s)
  | "strategy" =>
    let (v, s) ← Json.scanFieldOnce key d.strategy Json.scanTextField s
    .ok ({ d with strategy := some v }, s)
  | "runtime_version" =>
    let (v, s) ← Json.scanFieldOnce key d.runtimeVersion (Json.scanOptional Json.scanTextField) s
    .ok ({ d with runtimeVersion := some v }, s)
  | "consistent" =>
    let (v, s) ← Json.scanFieldOnce key d.consistent (Json.scanOptional Json.scanBoolField) s
    .ok ({ d with consistent := some v }, s)
  | "libc_object" =>
    let (v, s) ← Json.scanFieldOnce key d.object (Json.scanOptional Json.scanTextField) s
    .ok ({ d with object := some v }, s)
  | "libc_sha256" =>
    let (v, s) ← Json.scanFieldOnce key d.digest (Json.scanOptional Json.scanTextField) s
    .ok ({ d with digest := some v }, s)
  | _ => .ok (d, ← Json.skipValue (← Json.scanColon s))

def Draft.finish (d : Draft) : Except Mismatch Report := do
  return {
    symbol := ← Json.require "symbol" d.symbol
    resolved := ← Json.require "start_main_resolved" d.resolved
    cutover := ← Json.require "versioned_probe" d.cutover
    generation := ← Json.require "generation" d.generation
    strategy := ← Json.require "strategy" d.strategy
    runtimeVersion := d.runtimeVersion.join
    consistent := d.consistent.join
    object := d.object.join
    digest := d.digest.join }

def scanObject (s : List Char) : Except Fault (Scanned Report) := do
  let (draft, s) ← Json.scanMembers Draft.member true (s.length + 1) {} s
  match draft.finish with
  | .ok report => .ok (report, s)
  | .error m => Json.mismatched m s

def scanArray (s : List Char) : Except Fault (Scanned Report) := do
  let record := "struct ProbeReport with 9 elements"
  let text := Json.scanTextField
  let (symbol, s) ← Json.scanFieldAt record 0 text s
  let (resolved, s) ← Json.scanFieldAt record 1 text s
  let (cutover, s) ← Json.scanFieldAt record 2 CutoverFinding.scan s
  let (generation, s) ← Json.scanFieldAt record 3 text s
  let (strategy, s) ← Json.scanFieldAt record 4 text s
  let (runtimeVersion, s) ← Json.scanFieldAt record 5 (Json.scanOptional text) s
  let (consistent, s) ← Json.scanFieldAt record 6 (Json.scanOptional Json.scanBoolField) s
  let (object, s) ← Json.scanFieldAt record 7 (Json.scanOptional text) s
  let (digest, s) ← Json.scanFieldAt record 8 (Json.scanOptional text) s
  .ok (⟨symbol, resolved, cutover, generation, strategy, runtimeVersion, consistent, object,
    digest⟩, ← Json.scanArrayEnd s)

def scan (s : List Char) : Except Fault (Scanned Report) :=
  Json.scanRecord "struct ProbeReport" scanObject scanArray s

def readChars (s : List Char) : Except Fault Report := do
  let (report, rest) ← scan s
  Json.scanEnd rest
  .ok report

def read (text : String) : Except Fault Report := readChars text.toList

end Report
end ProcessStart
