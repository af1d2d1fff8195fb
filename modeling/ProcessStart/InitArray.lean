import ProcessStart.Loader.Vector

/-!
Arrays of initializers. A program's initializers run once, in the order of the
array, each with the same arguments; null entries are skipped. A constructor
of the whole program may come before them.
-/
namespace ProcessStart

/-- What every initializer is called with. -/
structure InitArguments where
  argc : Int32
  argv : Loader.Pointer
  envp : Loader.Pointer
  deriving DecidableEq, Repr

inductive InitCall (ρ : Type) where
  | constructor
  | entry (routine : ρ) (arguments : InitArguments)
  deriving DecidableEq, Repr

/-- Routines and null entries. -/
abbrev InitArray (ρ : Type) := List (Option ρ)

namespace InitArray

variable {ρ : Type}

/-- The calls of the entries that are not null. -/
def calls (entries : InitArray ρ) (arguments : InitArguments) : List (InitCall ρ) :=
  entries.filterMap fun entry => entry.map fun routine => .entry routine arguments

/-- All calls, that of the constructor first. -/
def run (withConstructor : Bool) (entries : InitArray ρ) (arguments : InitArguments) :
    List (InitCall ρ) :=
  if withConstructor then .constructor :: entries.calls arguments else entries.calls arguments

def entrySize : Nat := 8

/-- The entries that lie between two addresses, given as bytes from the beginning of the array; a
null address bounds nothing, and an entry that is only partly between them is not counted. -/
def between (entries : InitArray ρ) (start stop : Option Nat) : InitArray ρ :=
  match start, stop with
  | some start, some stop =>
    if stop ≤ start then []
    else (entries.drop (start / entrySize)).take ((stop - start) / entrySize)
  | _, _ => []

@[simp] theorem calls_nil (arguments : InitArguments) :
    calls ([] : InitArray ρ) arguments = [] := rfl

@[simp] theorem calls_cons_none (entries : InitArray ρ) (arguments : InitArguments) :
    calls (none :: entries) arguments = calls entries arguments := rfl

@[simp] theorem calls_cons_some (routine : ρ) (entries : InitArray ρ)
    (arguments : InitArguments) :
    calls (some routine :: entries) arguments =
      .entry routine arguments :: calls entries arguments := rfl

@[simp] theorem calls_append (entries others : InitArray ρ) (arguments : InitArguments) :
    calls (entries ++ others) arguments = calls entries arguments ++ calls others arguments := by
  simp [calls]

end InitArray
end ProcessStart
