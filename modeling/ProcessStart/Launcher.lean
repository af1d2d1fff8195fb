import ProcessStart.Launch.Conventional

/-!
A small program that is started through the substitute. Its main function says
where the substitute is and whether the program's one initializer has run, and
ends with a status of its own. If the start fails, nothing can report it any
more, and the process aborts.
-/
namespace ProcessStart.Launcher

inductive Ending where
  | exited (status : Nat)
  | killed (signal : Nat)
  deriving DecidableEq, Repr

structure Outcome where
  ending : Ending
  output : List Char
  diagnostics : List UInt8

def status : Nat := 37

def abortSignal : Nat := 6

/-- What a call of an address without code leads to. -/
def faultSignal : Nat := 11

def initializers : InitArray Unit := [some ()]

abbrev Event := Launch.Event Unit

/-- Whoever runs it. -/
def isInitializer : Deed Launch.Init Event → Bool
  | .inner (.initializer (.entry _ _)) => true
  | .inner (.walked (.entry _ _)) => true
  | _ => false

def write? : Deed Launch.Init Event → Option Trace.WriteCall
  | .write call => some call
  | _ => none

def call? : Deed Launch.Init Event → Option SymbolAddress
  | .call routine _ => some routine
  | _ => none

def report (self : SymbolAddress) (initialized : Bool) : List Char :=
  "shim_entry=".toList ++ self.text ++ "\nctor_before_main=".toList ++
    (if initialized then "true" else "false").toList ++ ['\n']

/-- The arguments that the program's entry hands over: it has no `init` of its own. -/
def arguments (argc : Int32) (stackEnd : UInt64) (main fini : SymbolAddress) :
    StartArguments Launch.Init :=
  { main := some main, argc := argc, argv := some 0, init := none, fini := none,
    rtldFini := some fini, stackEnd := stackEnd }

/-- The start routines that have code, by address. -/
abbrev Routines := SymbolAddress → Option (StartRoutine Launch.Init Event)

def idle : StartRoutine Launch.Init Event := fun _ => pure 0

def run (r : Resolver) (self : SymbolAddress) (s : Surroundings) (routines : Routines)
    (a : StartArguments Launch.Init) : Outcome :=
  let result := Launch.run r self s (fun routine => (routines routine).getD idle) a .fallback
  let diagnostics := Trace.delivered (result.log.filterMap write?)
  match result.value with
  | .error _ => ⟨.killed abortSignal, [], diagnostics⟩
  | .ok _ =>
    if (result.log.filterMap call?).all fun routine => (routines routine).isSome then
      ⟨.exited status, report self (result.log.any isInitializer), diagnostics⟩
    else ⟨.killed faultSignal, [], diagnostics⟩

end ProcessStart.Launcher
