import ProcessStart.Loader.Vector
import ProcessStart.Text.Utf8

/-!
The variable of the environment that turns the start trace on. The first entry
of its name decides, and entries behind it are not read.
-/
namespace ProcessStart.Loader

/-- What is left of a byte string behind a first part, if it begins with that. -/
def behind? : List UInt8 → List UInt8 → Option (List UInt8)
  | [], s => some s
  | _ :: _, [] => none
  | b :: bs, c :: s => if b = c then behind? bs s else none

/-- The value of an entry for this name: all behind the first equals sign. -/
def entryValue? (name entry : List UInt8) : Option (List UInt8) :=
  (behind? name entry).bind (behind? [0x3d])

namespace TraceFlag

def variableName : String := "LIBCSHIM_STARTUP_TRACE"

def key : List UInt8 := Text.utf8Encode variableName.toList

def onSpellings : List (List UInt8) :=
  ["1", "true", "on", "yes"].map fun s => Text.utf8Encode s.toList

/-- Letters outside ASCII stay as they are. -/
def lowerCase (b : UInt8) : UInt8 := if 0x41 ≤ b && b ≤ 0x5a then b + 0x20 else b

def isOn (value : List UInt8) : Bool := onSpellings.contains (value.map lowerCase)

/-- What an entry says, if it is one of the variable. -/
def ofEntry? (entry : List UInt8) : Option Bool := (entryValue? key entry).map isOn

/-- The first entry that says something decides; without one the flag is off. -/
def ofEntries (entries : List (List UInt8)) : Bool := (entries.findSome? ofEntry?).getD false

/-- The flag by at most this many entries. -/
def within (slots : Slots) : Nat → Cursor → Logged Read Bool
  | 0, _ => pure false
  | n + 1, c => do
    match ← c.next slots with
    | (none, _) => pure false
    | (some entry, c) =>
      match ofEntry? entry with
      | some on => pure on
      | none => within slots n c

def ofEnvironment (slots : Slots) (place : Pointer) : Logged Read Bool :=
  within slots (Cursor.start place).remaining (Cursor.start place)

@[simp] theorem ofEntries_nil : ofEntries [] = false := rfl

theorem ofEntries_cons_some {entry : List UInt8} {on : Bool} (h : ofEntry? entry = some on)
    (entries : List (List UInt8)) : ofEntries (entry :: entries) = on := by
  simp [ofEntries, h]

theorem ofEntries_cons_none {entry : List UInt8} (h : ofEntry? entry = none)
    (entries : List (List UInt8)) : ofEntries (entry :: entries) = ofEntries entries := by
  simp [ofEntries, h]

end TraceFlag
end ProcessStart.Loader
