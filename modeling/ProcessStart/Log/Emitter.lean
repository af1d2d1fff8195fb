import ProcessStart.Log.Entry
import ProcessStart.Text.Utf8

/-!
Writing a log. An emitter adds one line per entry behind what its target
already holds. It gives numbered trace ids to entries that have none, counting
in a word of 64 bits. Opening the target anew flushes and starts the numbers
again, but never takes text away.

The target is a file that is written at its end and through a buffer. Bytes are
kept back as long as the buffer has room for them; bytes that would fill it
alone go past it, behind what was kept back before them. A flush, and the end
of the writer, leave nothing back.
-/
namespace ProcessStart.Log

structure Target where
  /-- What the file holds. -/
  held : List UInt8
  /-- What is kept back. -/
  pending : List UInt8
  deriving DecidableEq, Repr

namespace Target

def capacity : Nat := 8192

def opened (held : List UInt8) : Target := ⟨held, []⟩

def flush (t : Target) : Target := opened (t.held ++ t.pending)

/-- Flushes unless so many bytes find room. -/
def makeRoom (t : Target) (count : Nat) : Target :=
  if t.pending.length + count ≤ capacity then t else t.flush

def write (t : Target) (bytes : List UInt8) : Target :=
  let roomy := t.makeRoom bytes.length
  if bytes.length < capacity then { roomy with pending := roomy.pending ++ bytes }
  else { roomy with held := roomy.held ++ bytes }

/-- All that was written, in the file or kept back. -/
def content (t : Target) : List UInt8 := t.held ++ t.pending

@[simp] theorem held_flush (t : Target) : t.flush.held = t.content := rfl

@[simp] theorem content_opened (held : List UInt8) : (opened held).content = held :=
  List.append_nil held

@[simp] theorem content_flush (t : Target) : t.flush.content = t.content :=
  content_opened t.content

end Target

/-- Scope, run and a number of at least three digits. -/
def numberedId (scope runId : String) (number : Nat) : String :=
  scope ++ "::" ++ runId ++ "::" ++ String.ofList (Text.padded 3 number)

structure Emitter where
  scope : String
  runId : String
  /-- How many trace ids it has given. -/
  count : UInt64
  target : Target
  deriving DecidableEq, Repr

namespace Emitter

/-- An emitter behind what its target holds. -/
def opened (scope runId : String) (held : List UInt8) : Emitter :=
  ⟨scope, runId, 0, Target.opened held⟩

def push (m : Emitter) (e : Entry) : Emitter :=
  { m with target := (m.target.write (Text.utf8Encode e.line)).write (Text.utf8Encode ['\n']) }

/-- Writes an entry with nothing but what it must have, and gives it back. -/
def emit (m : Emitter) (timestamp : String) (level : Level) (event : String) : Entry × Emitter :=
  let number := m.count + 1
  let entry : Entry := ⟨timestamp, numberedId m.scope m.runId number.toNat, level, event,
    none, none, none, none, none, none⟩
  (entry, { m with count := number }.push entry)

/-- Writes an entry; only one without a trace id is given one. -/
def emitEntry (m : Emitter) (e : Entry) : Emitter :=
  if e.traceId = "" then
    let number := m.count + 1
    { m with count := number }.push
      { e with traceId := numberedId m.scope m.runId number.toNat }
  else m.push e

def flush (m : Emitter) : Emitter := { m with target := m.target.flush }

/-- A new emitter takes the place of this one, which flushes on its end. -/
def reopen (m : Emitter) : Emitter := opened m.scope m.runId m.flush.target.held

inductive Operation where
  | emit (timestamp : String) (level : Level) (event : String)
  | emitEntry (entry : Entry)
  | flush
  | reopen

def step (m : Emitter) : Operation → Emitter
  | .emit timestamp level event => (m.emit timestamp level event).2
  | .emitEntry entry => m.emitEntry entry
  | .flush => m.flush
  | .reopen => m.reopen

def run (m : Emitter) : List Operation → Emitter
  | [] => m
  | o :: os => run (m.step o) os

@[simp] theorem run_nil (m : Emitter) : m.run [] = m := rfl

@[simp] theorem run_cons (m : Emitter) (o : Operation) (os : List Operation) :
    m.run (o :: os) = (m.step o).run os := rfl

end Emitter

end ProcessStart.Log
