import ProcessStart.Log.Entry
import ProcessStart.Plan
import ProcessStart.Trace.Buffer

/-!
The record of a start decision: one line of the log, put together from pieces
without any help of the C library, so that it can be written before that is up.
-/
namespace ProcessStart.Trace

structure Record where
  time : Instant
  pid : UInt32
  generation : Generation
  strategy : Strategy
  routine : UInt64
  deriving DecidableEq, Repr

namespace Record

def ofPlan (time : Instant) (pid : UInt32) (p : Plan) : Record :=
  ⟨time, pid, p.generation, p.strategy, p.routine.val⟩

/-- The texts between the values, and the values. -/
def pieces (r : Record) : List (List Char) :=
  [ "\x7b\"timestamp\":\"".toList,
    r.time.text,
    "\",\"trace_id\":\"libcshim::startup::".toList,
    Text.decimal r.pid.toNat,
    "\",\"level\":\"info\",\"event\":\"".toList,
    Log.startDecision.toList,
    "\",\"api_family\":\"startup\",\"symbol\":\"".toList,
    startMain.toList,
    "\",\"outcome\":\"pass\",\"details\":\x7b\"generation\":\"".toList,
    r.generation.label.toList,
    "\",\"strategy\":\"".toList,
    r.strategy.label.toList,
    "\",\"start_main\":\"".toList,
    Text.address r.routine.toNat,
    "\"\x7d\x7d\n".toList ]

def line (r : Record) : List Char := r.pieces.flatten

def render (r : Record) : Except Buffer Buffer := Buffer.empty.pushPieces r.pieces

end Record
end ProcessStart.Trace
