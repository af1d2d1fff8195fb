import ProcessStart.Log.Schema
import ProcessStart.Text.Split

/-!
A whole log. Every line takes part in the numbering, which starts at one;
lines that are blank are not counted and not checked, and blanks at the two
ends of a line do not matter.
-/
namespace ProcessStart.Log

/-- The number of lines that are not blank, and what is wrong with them. -/
structure Findings where
  lines : Nat
  violations : List Violation
  deriving DecidableEq, Repr

namespace Findings

def empty : Findings := ⟨0, []⟩

def append (a b : Findings) : Findings := ⟨a.lines + b.lines, a.violations ++ b.violations⟩

instance : Append Findings := ⟨append⟩

def ofLine (number : Nat) (line : List Char) : Findings :=
  match Text.trim line with
  | [] => empty
  | trimmed =>
    match Schema.check trimmed number with
    | .ok _ => ⟨1, []⟩
    | .error violations => ⟨1, violations⟩

/-- The lines from the top, the first of them having this number. -/
def ofLines : Nat → List (List Char) → Findings
  | _, [] => empty
  | number, line :: rest => ofLine number line ++ ofLines (number + 1) rest

def ofText (text : List Char) : Findings := ofLines 1 (Text.lines text)

@[simp] theorem ofLines_nil (number : Nat) : ofLines number [] = empty := rfl

@[simp] theorem ofLines_cons (number : Nat) (line : List Char) (rest : List (List Char)) :
    ofLines number (line :: rest) = ofLine number line ++ ofLines (number + 1) rest := rfl

@[simp] theorem lines_append (a b : Findings) : (a ++ b).lines = a.lines + b.lines := rfl

@[simp] theorem violations_append (a b : Findings) :
    (a ++ b).violations = a.violations ++ b.violations := rfl

end Findings
end ProcessStart.Log
