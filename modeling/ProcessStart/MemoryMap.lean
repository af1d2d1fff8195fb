import ProcessStart.Text.Numeral
import ProcessStart.Text.Split
import ProcessStart.Text.Utf8

/-!
The listing of a process's memory, a mapping a line: the range of addresses,
four further fields, and what is mapped, separated by blanks. The upper end of
a range does not belong to it. The last field may hold blanks itself; it names
a file if it begins with a slash.
-/
namespace ProcessStart.MemoryMap

/-- Addresses have 64 bits. -/
def address? (field : List Char) : Option Nat := Text.numeral? 16 0xffffffffffffffff field

def range? (field : List Char) : Option (Nat × Nat) :=
  (Text.cut? '-' field).bind fun ends =>
    (address? ends.1).bind fun low => (address? ends.2).map fun high => (low, high)

def fileName? (field : List Char) : Option (List Char) :=
  match Text.trimStart field with
  | '/' :: path => some ('/' :: path)
  | _ => none

/-- The file that a line of the listing maps at an address. -/
def fileAt? (address : Nat) (line : List Char) : Option (List Char) :=
  match Text.piecesUpTo ' ' 5 line with
  | [range, _, _, _, _, name] =>
    (range? range).bind fun (low, high) =>
      if low ≤ address ∧ address < high then fileName? name else none
  | _ => none

/-- The file that is mapped at an address. -/
def search (address : Nat) (listing : List Char) : Option (List Char) :=
  (Text.lines listing).findSome? (fileAt? address)

/-- The same for a listing in bytes; one that is not text throughout cannot be used. -/
def fileOf? (address : Nat) (listing : List UInt8) : Option (List Char) :=
  (Text.utf8Decode? listing).bind (search address)

end ProcessStart.MemoryMap
