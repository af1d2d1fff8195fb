import ProcessStart.Logged

/-!
Texts in memory that end with a zero byte. A scan looks for the zero, but not
behind a bound: before the C library is up, nothing says that a text ends at
all. What a scan reads is noted byte by byte.
-/
namespace ProcessStart.Loader

/-- The bytes from an address on. -/
abbrev Memory := Nat → UInt8

namespace Memory

/-- The memory of a text with a zero byte behind it. -/
def ofBytes (bytes : List UInt8) : Memory := fun i => bytes[i]?.getD 0

end Memory

/-- How many bytes stand before the zero, or that the bound came first. -/
structure Extent where
  length : Nat
  terminated : Bool
  deriving DecidableEq, Repr

/-- Reads from the byte at an index on, at most `bound` further bytes. -/
def scanFrom (m : Memory) : Nat → Nat → Logged Nat Extent
  | 0, index => pure ⟨index, false⟩
  | bound + 1, index => do
    Logged.note index
    if m index = 0 then pure ⟨index, true⟩ else scanFrom m bound (index + 1)

def scan (m : Memory) (bound : Nat) : Logged Nat Extent := scanFrom m bound 0

/-- The bytes before the zero, or before the bound. -/
def terminated (m : Memory) (bound : Nat) : Logged Nat (List UInt8) :=
  (fun extent => (List.range extent.length).map m) <$> scan m bound

@[simp] theorem scanFrom_zero (m : Memory) (index : Nat) :
    scanFrom m 0 index = pure ⟨index, false⟩ := rfl

theorem scanFrom_of_zero {m : Memory} {index : Nat} (h : m index = 0) (bound : Nat) :
    scanFrom m (bound + 1) index = ⟨⟨index, true⟩, [index]⟩ := by
  simp only [scanFrom, bind, h]
  rfl

theorem scanFrom_of_ne_zero {m : Memory} {index : Nat} (h : m index ≠ 0) (bound : Nat) :
    scanFrom m (bound + 1) index =
      ⟨(scanFrom m bound (index + 1)).value, index :: (scanFrom m bound (index + 1)).log⟩ := by
  simp only [scanFrom, bind, h]
  rfl

end ProcessStart.Loader
