import ProcessStart.Json.Writer
import ProcessStart.Plan

/-!
The report on a plan: what was found, what follows from it, and whether the
version that the library gives of itself is on the same side of the cut-over.
The fields are texts, as they stand in the report's JSON form; those that are
absent are left out of it.
-/
namespace ProcessStart

/-- The lookup that tells the generations apart, and whether it was answered. -/
structure CutoverFinding where
  version : String
  found : Bool
  deriving DecidableEq, Repr

structure Report where
  symbol : String
  resolved : String
  cutover : CutoverFinding
  generation : String
  strategy : String
  runtimeVersion : Option String
  consistent : Option Bool
  /-- The file mapped where the lookup without version is answered. -/
  object : Option String
  digest : Option String
  deriving DecidableEq, Repr

namespace Report

/-- The report on a plan, with the version that the library gives of itself. -/
def describe (p : Plan) (runtime : Option Version) : Report where
  symbol := startMain
  resolved := String.ofList p.routine.text
  cutover := ⟨Lookup.cutoverTag, p.generation == .modern⟩
  generation := p.generation.label
  strategy := p.strategy.label
  runtimeVersion := runtime.map fun v => String.ofList v.text
  consistent := runtime.map fun v => v.walksInitArray == (p.generation == .modern)
  object := none
  digest := none

def probe (r : Resolver) (self : SymbolAddress) (runtime : Option Version) :
    Logged Lookup (Except StartError Report) :=
  (fun found => found.map (describe · runtime)) <$> plan r self

/-- The report as a JSON value, its objects put together in this way. -/
def jsonBy (assemble : List (String × Json) → Json) (r : Report) : Json :=
  assemble <|
    ("symbol", .text r.symbol) :: ("start_main_resolved", .text r.resolved) ::
      ("versioned_probe",
        assemble [("version", .text r.cutover.version),
          ("found", .bool r.cutover.found)]) ::
      ("generation", .text r.generation) :: ("strategy", .text r.strategy) ::
      (Json.optionalMember "runtime_version" (r.runtimeVersion.map .text) ++
        Json.optionalMember "consistent" (r.consistent.map .bool) ++
        Json.optionalMember "libc_object" (r.object.map .text) ++
        Json.optionalMember "libc_sha256" (r.digest.map .text))

def json (r : Report) : Json := r.jsonBy .object

/-- Members in the order of their names. -/
def sortedJson (r : Report) : Json := r.jsonBy Json.ofMembers

def isInconsistent (r : Report) : Bool := r.consistent == some false

end Report
end ProcessStart
