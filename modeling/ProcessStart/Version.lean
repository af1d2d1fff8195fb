import ProcessStart.Text.Numeral
import ProcessStart.Text.Split

/-!
Versions of the C library. Three spellings are read: a symbol version tag
(`GLIBC_2.34`), the text that the library reports of itself (`2.35`), and a
development snapshot (`2.37.9000`), whose further components must be numbers
but take no part in the version. Versions are ordered by major, then minor.
-/
namespace ProcessStart

structure Version where
  major : UInt16
  minor : UInt16
  deriving DecidableEq, Repr

namespace Version

instance : LT Version where
  lt v w := v.major < w.major ∨ v.major = w.major ∧ v.minor < w.minor

instance : LE Version where
  le v w := v.major < w.major ∨ v.major = w.major ∧ v.minor ≤ w.minor

instance (v w : Version) : Decidable (v < w) :=
  inferInstanceAs (Decidable (v.major < w.major ∨ v.major = w.major ∧ v.minor < w.minor))

instance (v w : Version) : Decidable (v ≤ w) :=
  inferInstanceAs (Decidable (v.major < w.major ∨ v.major = w.major ∧ v.minor ≤ w.minor))

instance : Ord Version where
  compare v w := compareOfLessAndEq v w

/-- The first version whose start routine walks the init array by itself. -/
def cutover : Version := ⟨2, 34⟩

/-- Whether the start routine of this version walks the init array by itself. -/
def walksInitArray (v : Version) : Bool := cutover ≤ v

inductive ParseError where
  | empty
  | missingMinor
  | notNumeric (index : Nat)
  deriving DecidableEq, Repr

def ParseError.message : ParseError → String
  | .empty => "empty glibc version string"
  | .missingMinor => "glibc version is missing a minor component"
  | .notNumeric index => s!"glibc version component {index} is not numeric"

def tagMark : List Char := "GLIBC_".toList

/-- The text without one leading tag mark, if it has one. -/
def withoutTag (s : List Char) : List Char :=
  if tagMark.isPrefixOf s then s.drop tagMark.length else s

def component? (s : List Char) : Option UInt16 := (Text.numeral? 10 65535 s).map UInt16.ofNat

/-- Reads components from the left; the first that is none is the fault. -/
def readComponents : Nat → List (List Char) → Except ParseError (List UInt16)
  | _, [] => .ok []
  | index, c :: cs =>
    match component? c with
    | none => .error (.notNumeric index)
    | some n => (readComponents (index + 1) cs).map (n :: ·)

/-- The components of a spelling, as texts, blanks and tag taken off. -/
def spelling (s : List Char) : List Char := withoutTag (Text.trim s)

def parseChars (s : List Char) : Except ParseError Version :=
  match spelling s with
  | [] => .error .empty
  | bare => (readComponents 0 (Text.pieces '.' bare)).bind fun
    | major :: minor :: _ => .ok ⟨major, minor⟩
    | _ => .error .missingMinor

def parse (s : String) : Except ParseError Version := parseChars s.toList

def text (v : Version) : List Char :=
  Text.decimal v.major.toNat ++ '.' :: Text.decimal v.minor.toNat

def tag (v : Version) : List Char := tagMark ++ v.text

instance : ToString Version := ⟨fun v => String.ofList v.text⟩

@[simp] theorem readComponents_nil (index : Nat) : readComponents index [] = .ok [] := rfl

theorem parse_ofList (s : List Char) : parse (String.ofList s) = parseChars s := by
  simp [parse]

end Version
end ProcessStart
