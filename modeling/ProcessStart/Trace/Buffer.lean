import ProcessStart.Text.Utf8

/-!
A buffer of fixed capacity for one line. A text that does not fit into what is
left is refused as a whole and changes nothing, so that a later, shorter one
can still be taken.
-/
namespace ProcessStart.Trace

def capacity : Nat := 512

structure Buffer where
  content : List UInt8
  length_le : content.length ≤ capacity
  deriving DecidableEq

namespace Buffer

def empty : Buffer := ⟨[], by simp⟩

def length (b : Buffer) : Nat := b.content.length

def isEmpty (b : Buffer) : Bool := b.length == 0

def push? (b : Buffer) (bytes : List UInt8) : Option Buffer :=
  if h : (b.content ++ bytes).length ≤ capacity then some ⟨b.content ++ bytes, h⟩ else none

/-- Adds a text, or leaves the buffer as it is. -/
def push (b : Buffer) (text : List Char) : Buffer := (b.push? (Text.utf8Encode text)).getD b

/-- Adds pieces up to the first that does not fit; what was taken before that stays. -/
def pushPieces (b : Buffer) : List (List Char) → Except Buffer Buffer
  | [] => .ok b
  | piece :: pieces =>
    match b.push? (Text.utf8Encode piece) with
    | none => .error b
    | some b => b.pushPieces pieces

theorem push?_of_le {b : Buffer} {bytes : List UInt8}
    (h : (b.content ++ bytes).length ≤ capacity) :
    b.push? bytes = some ⟨b.content ++ bytes, h⟩ := dif_pos h

theorem push?_of_lt {b : Buffer} {bytes : List UInt8}
    (h : capacity < (b.content ++ bytes).length) : b.push? bytes = none :=
  dif_neg (Nat.not_le.mpr h)

@[simp] theorem pushPieces_nil (b : Buffer) : b.pushPieces [] = .ok b := rfl

end Buffer
end ProcessStart.Trace
