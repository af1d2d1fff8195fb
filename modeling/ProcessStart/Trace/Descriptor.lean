/-!
Writing bytes to a descriptor that may take fewer than it is offered. A write
that takes none, or fails, ends the attempt; nothing is tried again.
-/
namespace ProcessStart.Trace

/-- What the write of each number answers to the bytes offered: how many it takes, or that it
fails. -/
abbrev Descriptor := Nat → List UInt8 → Int

structure WriteCall where
  offered : List UInt8
  answer : Int
  deriving DecidableEq, Repr

namespace WriteCall

def accepted (c : WriteCall) : List UInt8 := c.offered.take c.answer.toNat

end WriteCall

namespace Descriptor

def accepting : Descriptor := fun _ bytes => bytes.length

def refusing : Descriptor := fun _ _ => -1

/-- Offers what has not been taken, from the write of this number on. -/
def sendFrom (d : Descriptor) (number : Nat) (bytes : List UInt8) : List WriteCall :=
  match bytes with
  | [] => []
  | b :: bs =>
    let answer := d number (b :: bs)
    if answer ≤ 0 then [⟨b :: bs, answer⟩]
    else ⟨b :: bs, answer⟩ :: d.sendFrom (number + 1) ((b :: bs).drop answer.toNat)
termination_by bytes.length
decreasing_by simp only [List.length_drop, List.length_cons]; omega

def send (d : Descriptor) (bytes : List UInt8) : List WriteCall := d.sendFrom 0 bytes

@[simp] theorem sendFrom_nil (d : Descriptor) (number : Nat) : d.sendFrom number [] = [] := by
  simp [sendFrom]

end Descriptor

def delivered (calls : List WriteCall) : List UInt8 := calls.flatMap (·.accepted)

@[simp] theorem delivered_nil : delivered [] = [] := rfl

@[simp] theorem delivered_cons (c : WriteCall) (calls : List WriteCall) :
    delivered (c :: calls) = c.accepted ++ delivered calls := rfl

end ProcessStart.Trace
