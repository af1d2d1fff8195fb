/-!
Numerals: writing a number in a base, padding it with zeros, and reading it
back with a bound. Reading takes one leading plus sign, then at least one
digit, and nothing else; a hexadecimal digit may be of either case.
-/
namespace ProcessStart.Text

/-- The value of a digit, if it is one in this base. -/
def digit? (base : Nat) (c : Char) : Option Nat :=
  let value :=
    if '0' ≤ c ∧ c ≤ '9' then c.toNat - 48
    else if 'a' ≤ c ∧ c ≤ 'f' then c.toNat - 87
    else if 'A' ≤ c ∧ c ≤ 'F' then c.toNat - 55
    else 16
  if value < base then some value else none

/-- The positional value of a string of digits, appended to a number. -/
def positional? (base : Nat) : Nat → List Char → Option Nat
  | n, [] => some n
  | n, c :: s => (digit? base c).bind fun d => positional? base (base * n + d) s

@[simp] theorem positional?_nil (base n : Nat) : positional? base n [] = some n := rfl

/-- One leading plus sign counts for nothing. -/
def unsigned : List Char → List Char
  | '+' :: s => s
  | s => s

/-- The number that a numeral stands for, if it is one and not above `limit`. -/
def numeral? (base limit : Nat) (s : List Char) : Option Nat :=
  match unsigned s with
  | [] => none
  | digits => (positional? base 0 digits).filter fun n => n ≤ limit

def decimal (n : Nat) : List Char := Nat.toDigits 10 n

/-- At least `width` digits, with zeros in front. -/
def padded (width n : Nat) : List Char :=
  List.replicate (width - (decimal n).length) '0' ++ decimal n

def hexadecimal (n : Nat) : List Char := Nat.toDigits 16 n

/-- An address as it is shown: lower case, no leading zeros. -/
def address (n : Nat) : List Char := '0' :: 'x' :: hexadecimal n

def octet (b : UInt8) : List Char :=
  [Nat.digitChar (b.toNat / 16), Nat.digitChar (b.toNat % 16)]

/-- Two lower-case hexadecimal digits a byte. -/
def octets (bytes : List UInt8) : List Char := bytes.flatMap octet

@[simp] theorem octets_nil : octets [] = [] := rfl

@[simp] theorem octets_cons (b : UInt8) (bytes : List UInt8) :
    octets (b :: bytes) = octet b ++ octets bytes := rfl

def signedDecimal : Int → List Char
  | .ofNat n => decimal n
  | .negSucc n => '-' :: decimal (n + 1)

end ProcessStart.Text
