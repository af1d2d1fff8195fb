import ProcessStart.Logged
import ProcessStart.Version

/-!
Dynamic symbols: what is looked up, what answers, and which addresses can be
those of a routine. A lookup names a symbol and, perhaps, one exact version of
it; a lookup without version takes whatever the default search scope shows
first. An answered lookup is never the null address.
-/
namespace ProcessStart

structure SymbolAddress where
  val : UInt64
  ne_zero : val ≠ 0
  deriving DecidableEq

namespace SymbolAddress

def ofWord? (w : UInt64) : Option SymbolAddress := if h : w ≠ 0 then some ⟨w, h⟩ else none

def text (a : SymbolAddress) : List Char := Text.address a.val.toNat

end SymbolAddress

/-- The highest address is a pseudo handle that some interposers hand out as an address. -/
def isPlausible (w : UInt64) : Bool := w != 0 && w != 0xffffffffffffffff

structure Lookup where
  symbol : String
  version : Option String
  deriving DecidableEq, Repr

def startMain : String := "__libc_start_main"

/-- The name under which the substitute for the start routine is exported. -/
def substitute : String := "__dynamic_libc_start_main"

namespace Lookup

/-- The version that the start routine got when it took over the init array. -/
def cutoverTag : String := "GLIBC_2.34"

/-- The first version of every symbol of the x86-64 library. -/
def baselineTag : String := "GLIBC_2.2.5"

def cutover : Lookup := ⟨startMain, some cutoverTag⟩

def baseline : Lookup := ⟨startMain, some baselineTag⟩

def default : Lookup := ⟨startMain, none⟩

theorem cutoverTag_eq : cutoverTag.toList = Version.cutover.tag := by decide

end Lookup

/-- What answers lookups; the same lookup always has the same answer. -/
abbrev Resolver := Lookup → Option SymbolAddress

namespace Resolver

def ask (r : Resolver) (q : Lookup) : Logged Lookup (Option SymbolAddress) := ⟨r q, [q]⟩

/-- Asks in order until one answers. -/
def firstAnswer (r : Resolver) : List Lookup → Logged Lookup (Option (Lookup × SymbolAddress))
  | [] => pure none
  | q :: qs => do
    match ← r.ask q with
    | some a => pure (some (q, a))
    | none => firstAnswer r qs

@[simp] theorem value_ask (r : Resolver) (q : Lookup) : (r.ask q).value = r q := rfl

@[simp] theorem log_ask (r : Resolver) (q : Lookup) : (r.ask q).log = [q] := rfl

@[simp] theorem firstAnswer_nil (r : Resolver) : r.firstAnswer [] = pure none := rfl

theorem firstAnswer_of_some {r : Resolver} {q : Lookup} {a : SymbolAddress} (h : r q = some a)
    (qs : List Lookup) : r.firstAnswer (q :: qs) = ⟨some (q, a), [q]⟩ := by
  simp only [firstAnswer, bind, ask, h]
  rfl

theorem firstAnswer_of_none {r : Resolver} {q : Lookup} (h : r q = none) (qs : List Lookup) :
    r.firstAnswer (q :: qs) = ⟨(r.firstAnswer qs).value, q :: (r.firstAnswer qs).log⟩ := by
  simp only [firstAnswer, bind, ask, h]
  rfl

end Resolver
end ProcessStart
