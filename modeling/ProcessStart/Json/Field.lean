import ProcessStart.Json.Skip

/-!
Reading typed values straight from a text. A record is an object of its
fields, or an array of them in order. A fault of a single value is noticed
behind it; a fault of the whole record behind its closing bracket.
-/
namespace ProcessStart.Json

def mismatched {α : Type} (m : Mismatch) (s : List Char) : Except Fault α :=
  .error ⟨.mismatch m, s, 0⟩

/-- A value that is not of the expected kind. A bracket is not read, all else is. -/
def otherThan {α : Type} (expected : String) (s : List Char) : Except Fault α :=
  match skipBlank s with
  | [] => here .endInValue []
  | '[' :: s => mismatched (.wrongType .array expected) ('[' :: s)
  | '{' :: s => mismatched (.wrongType .object expected) ('{' :: s)
  | s => do
    let (v, s) ← scanValue 0 s
    mismatched (.wrongType v.shape expected) s

def scanTextField (s : List Char) : Except Fault (Scanned String) :=
  match skipBlank s with
  | '"' :: s => scanText s
  | s => otherThan "a string" s

def scanBoolField (s : List Char) : Except Fault (Scanned Bool) :=
  match skipBlank s with
  | 't' :: s => do .ok (true, ← word ['r', 'u', 'e'] s)
  | 'f' :: s => do .ok (false, ← word ['a', 'l', 's', 'e'] s)
  | s => otherThan "a boolean" s

/-- A null is an absent value. -/
def scanOptional {α : Type} (scan : List Char → Except Fault (Scanned α)) (s : List Char) :
    Except Fault (Scanned (Option α)) :=
  match skipBlank s with
  | 'n' :: s => do .ok (none, ← word ['u', 'l', 'l'] s)
  | s => do
    let (a, s) ← scan s
    .ok (some a, s)

/-- The text behind blanks and, if it stands there, the closing bracket. -/
def behindClosing (closing : Char) (s : List Char) : List Char :=
  match skipBlank s with
  | [] => []
  | c :: s => if c = closing then s else c :: s

/-- The value of a field behind its key; the field must not have had one. -/
def scanFieldOnce {α : Type} (name : String) (known : Option α)
    (scan : List Char → Except Fault (Scanned α)) (s : List Char) : Except Fault (Scanned α) :=
  match known with
  | some _ => mismatched (.repeatedField name) (behindClosing '}' s)
  | none => do scan (← scanColon s)

/-- The value of a field by its place in an array, counted from zero. -/
def scanFieldAt {α : Type} (record : String) (index : Nat)
    (scan : List Char → Except Fault (Scanned α)) (s : List Char) : Except Fault (Scanned α) := do
  match ← nextItem (index == 0) s with
  | .closed s => mismatched (.wrongLength index record) s
  | .item s => scan s

def scanArrayEnd (s : List Char) : Except Fault (List Char) :=
  match skipBlank s with
  | [] => here .endInArray []
  | ']' :: s => .ok s
  | ',' :: s =>
    match skipBlank s with
    | ']' :: s => peeking .trailingComma (']' :: s)
    | s => peeking .trailingCharacters s
  | s => peeking .trailingCharacters s

/-- A record by what follows an opening brace, or an opening bracket. -/
def scanRecord {α : Type} (record : String) (fromObject fromArray : List Char →
    Except Fault (Scanned α)) (s : List Char) : Except Fault (Scanned α) :=
  match skipBlank s with
  | '{' :: s => fromObject s
  | '[' :: s => fromArray s
  | s => otherThan record s

end ProcessStart.Json
