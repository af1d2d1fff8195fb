import ProcessStart.Loader.Terminated

/-!
The vector that the loader leaves for a process: the arguments, a null slot,
the environment, a null slot. The environment is walked by a cursor that never
goes behind the first null slot of it, nor further than a fixed number of
entries, and never reads more than a fixed number of bytes of an entry.
-/
namespace ProcessStart.Loader

/-- The slots of the vector: null, or the text that stands there. -/
abbrev Slots := Nat → Option Memory

/-- A pointer into the vector: null, or the number of a slot. -/
abbrev Pointer := Option Nat

inductive Read where
  | slot (index : Nat)
  | byte (slot index : Nat)
  deriving DecidableEq, Repr

def entryLimit : Nat := 4096

def byteLimit : Nat := 256

/-- A negative count of arguments counts as none. -/
def argumentCount (argc : Int32) : Nat := argc.toInt.toNat

/-- The environment begins behind the null slot that ends the arguments. -/
def environment (argc : Int32) (argv : Pointer) : Pointer :=
  argv.map fun place => place + (argumentCount argc + 1)

/-- The slot that comes next, and how many entries may still be taken. -/
structure Cursor where
  place : Nat
  remaining : Nat
  deriving DecidableEq, Repr

namespace Cursor

def done : Cursor := ⟨0, 0⟩

/-- A cursor at the beginning of an environment; a null pointer has no entries. -/
def start : Pointer → Cursor
  | none => done
  | some place => ⟨place, entryLimit⟩

/-- The next entry, if there is one. -/
def next (slots : Slots) (c : Cursor) : Logged Read (Option (List UInt8) × Cursor) :=
  match c.remaining with
  | 0 => pure (none, c)
  | remaining + 1 => do
    Logged.note (.slot c.place)
    match slots c.place with
    | none => pure (none, { c with remaining := 0 })
    | some m =>
      let entry ← (terminated m byteLimit).mapLog (.byte c.place)
      pure (some entry, ⟨c.place + 1, remaining⟩)

/-- The entries up to the first that there is not, at most this many. -/
def take (slots : Slots) : Nat → Cursor → Logged Read (List (List UInt8))
  | 0, _ => pure []
  | n + 1, c => do
    match ← c.next slots with
    | (none, _) => pure []
    | (some entry, c) => (entry :: ·) <$> take slots n c

/-- The answers to so many calls, whatever they are. -/
def answers (slots : Slots) : Nat → Cursor → Logged Read (List (Option (List UInt8)))
  | 0, _ => pure []
  | n + 1, c => do
    let (answer, c) ← c.next slots
    (answer :: ·) <$> answers slots n c

/-- All entries; a cursor has no more than it may still take. -/
def entries (slots : Slots) (c : Cursor) : Logged Read (List (List UInt8)) :=
  c.take slots c.remaining

@[simp] theorem next_of_none_remaining (slots : Slots) (place : Nat) :
    next slots ⟨place, 0⟩ = pure (none, ⟨place, 0⟩) := rfl

@[simp] theorem take_zero (slots : Slots) (c : Cursor) : c.take slots 0 = pure [] := rfl

end Cursor
end ProcessStart.Loader
