import ProcessStart.InitArray
import ProcessStart.Loader.TraceFlag
import ProcessStart.Trace.Descriptor
import ProcessStart.Trace.Record

/-!
The start of a process through the substitute: the start routine is found, the
trace is written if the environment asks for it, and the routine is called
with what the loader handed over, but for `init` where the plan says so. If no
routine is found, nothing else is done.
-/
namespace ProcessStart

/-- What a start routine is called with. The type stands for what `init` can be. -/
structure StartArguments (ι : Type) where
  main : Option SymbolAddress
  argc : Int32
  argv : Loader.Pointer
  init : Option ι
  fini : Option SymbolAddress
  rtldFini : Option SymbolAddress
  stackEnd : UInt64
  deriving DecidableEq

namespace StartArguments

variable {ι : Type}

def envp (a : StartArguments ι) : Loader.Pointer := Loader.environment a.argc a.argv

/-- What `init` is called with in turn. -/
def forInit (a : StartArguments ι) : InitArguments := ⟨a.argc, a.argv, a.envp⟩

end StartArguments

/-- The process around the start: the loader's vector, the clock, the process number, and the
descriptor for diagnostics. -/
structure Surroundings where
  slots : Loader.Slots
  clock : Instant
  pid : UInt32
  diagnostics : Trace.Descriptor

/-- A start routine: what it does when called, and what it returns. -/
abbrev StartRoutine (ι ε : Type) := StartArguments ι → Logged ε Int32

/-- What a start does, `ε` being what the called routine does in turn. -/
inductive Deed (ι ε : Type) where
  | lookup (query : Lookup)
  | read (what : Loader.Read)
  | write (call : Trace.WriteCall)
  | call (routine : SymbolAddress) (arguments : StartArguments ι)
  | inner (event : ε)

namespace Launch

variable {ι ε : Type}

/-- The writes of a line in its buffer; one that does not fit is dropped. -/
def lineWrites (d : Trace.Descriptor) : Except Trace.Buffer Trace.Buffer → List Trace.WriteCall
  | .error _ => []
  | .ok line => d.send line.content

/-- The writes of the trace. A record always fits its buffer. -/
def traceWrites (s : Surroundings) (p : Plan) : List Trace.WriteCall :=
  lineWrites s.diagnostics (Trace.Record.ofPlan s.clock s.pid p).render

@[simp] theorem lineWrites_error (d : Trace.Descriptor) (b : Trace.Buffer) :
    lineWrites d (.error b) = [] := rfl

@[simp] theorem lineWrites_ok (d : Trace.Descriptor) (line : Trace.Buffer) :
    lineWrites d (.ok line) = d.send line.content := rfl

def trace (s : Surroundings) (p : Plan) (on : Bool) : Logged (Deed ι ε) Unit :=
  ⟨(), if on then (traceWrites s p).map .write else []⟩

def handed (p : Plan) (a : StartArguments ι) (fallback : ι) : StartArguments ι :=
  { a with init := p.strategy.pick a.init (some fallback) }

def forward (s : Surroundings) (routines : SymbolAddress → StartRoutine ι ε)
    (a : StartArguments ι) (fallback : ι) (p : Plan) : Logged (Deed ι ε) Int32 := do
  let on ← (Loader.TraceFlag.ofEnvironment s.slots a.envp).mapLog .read
  trace s p on
  Logged.note (.call p.routine (handed p a fallback))
  (routines p.routine (handed p a fallback)).mapLog .inner

/-- The whole start; `self` is the address of the substitute. -/
def run (r : Resolver) (self : SymbolAddress) (s : Surroundings)
    (routines : SymbolAddress → StartRoutine ι ε) (a : StartArguments ι) (fallback : ι) :
    Logged (Deed ι ε) (Except StartError Int32) := do
  match ← (plan r self).mapLog .lookup with
  | .error e => pure (.error e)
  | .ok p => .ok <$> forward s routines a fallback p

end Launch
end ProcessStart
