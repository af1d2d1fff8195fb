import ProcessStart.Symbol

/-!
The decision taken once at process entry: which start routine is called, and
which `init` it is handed.

From version 2.34 on, the start routine walks the init array by itself. Before
that the caller's `init` has to, and a program linked for a newer library has
none, so a substitute is handed over. The only sign of the side one is on is
whether the routine exists at the cut-over version.
-/
namespace ProcessStart

/-- The two sides of the cut-over. -/
inductive Generation where
  | legacy
  | modern
  deriving DecidableEq, Repr

inductive Strategy where
  | passThrough
  | fallback
  deriving DecidableEq, Repr

namespace Generation

/-- The side that an answer at the cut-over version shows. -/
def ofFound (found : Bool) : Generation := if found then .modern else .legacy

def strategy : Generation → Strategy
  | .legacy => .fallback
  | .modern => .passThrough

def label : Generation → String
  | .legacy => "legacy"
  | .modern => "modern"

def ofLabel? : String → Option Generation
  | "legacy" => some .legacy
  | "modern" => some .modern
  | _ => none

@[simp] theorem ofLabel?_label (g : Generation) : ofLabel? g.label = some g := by
  cases g <;> rfl

end Generation

namespace Strategy

def label : Strategy → String
  | .passThrough => "pass_through"
  | .fallback => "fallback"

/-- The one of two values that the strategy hands over. -/
def pick {α : Type} (s : Strategy) (caller substitute : α) : α :=
  match s with
  | .passThrough => caller
  | .fallback => substitute

end Strategy

/-- The generation by a single lookup. -/
def Generation.observe (r : Resolver) : Logged Lookup Generation :=
  (fun answer => Generation.ofFound answer.isSome) <$> r.ask .cutover

inductive StartError where
  | unresolved
  | pseudoAddress (address : UInt64)
  /-- Calling the substitute from itself would never end. -/
  | resolvedToSelf (address : UInt64)
  deriving DecidableEq, Repr

def StartError.message : StartError → String
  | .unresolved => s!"real startup routine \x60{startMain}\x60 could not be resolved"
  | .pseudoAddress a =>
    s!"startup routine \x60{startMain}\x60 resolved to implausible address " ++
      String.ofList (Text.address a.toNat)
  | .resolvedToSelf a =>
    s!"startup routine \x60{startMain}\x60 resolved to the shim entry itself at " ++
      String.ofList (Text.address a.toNat)

structure Plan where
  routine : SymbolAddress
  generation : Generation
  strategy : Strategy
  deriving DecidableEq

namespace Plan

/-- The lookups by which the start routine is sought, in order. A versioned lookup never finds the
substitute, whose exported alias has no version. -/
def candidates : List Lookup := [.cutover, .baseline, .default]

/-- The first answer decides; it is not passed over for a later one if it is refused. -/
def judge (self : SymbolAddress) : Option (Lookup × SymbolAddress) → Except StartError Plan
  | none => .error .unresolved
  | some (q, a) =>
    if !isPlausible a.val then .error (.pseudoAddress a.val)
    else if a = self then .error (.resolvedToSelf a.val)
    else
      let generation := Generation.ofFound (q == .cutover)
      .ok ⟨a, generation, generation.strategy⟩

end Plan

/-- Finds the start routine; `self` is the address of the substitute. -/
def plan (r : Resolver) (self : SymbolAddress) : Logged Lookup (Except StartError Plan) :=
  Plan.judge self <$> r.firstAnswer Plan.candidates

end ProcessStart
