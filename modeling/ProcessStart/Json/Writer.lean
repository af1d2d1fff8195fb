import ProcessStart.Binary64.Shortest
import ProcessStart.Json.Value

/-!
Writing JSON, on one line or indented by two blanks a level. In a text only
the quote, the backslash and the control characters below the blank are
escaped. Members are written in the order in which they stand.
-/
namespace ProcessStart.Json

/-- A control character without an escape of its own: four hexadecimal digits. -/
def controlEscape (c : Char) : List Char :=
  ['\\', 'u', '0', '0', Nat.digitChar (c.toNat / 16), Nat.digitChar (c.toNat % 16)]

def writeChar (c : Char) : List Char :=
  if c = '"' ∨ c = '\\' then ['\\', c]
  else if c = '\n' then ['\\', 'n']
  else if c = '\r' then ['\\', 'r']
  else if c = '\t' then ['\\', 't']
  else if c = '\x08' then ['\\', 'b']
  else if c = '\x0c' then ['\\', 'f']
  else if c < ' ' then controlEscape c
  else [c]

def writeText (s : List Char) : List Char := '"' :: s.flatMap writeChar ++ ['"']

def writeNumber : Number → List Char
  | .integer n => Text.signedDecimal n
  | .float x => x.text

def commaSeparated : List (List Char) → List Char
  | [] => []
  | [t] => t
  | t :: ts => t ++ ',' :: commaSeparated ts

mutual

def write : Json → List Char
  | .null => ['n', 'u', 'l', 'l']
  | .bool true => ['t', 'r', 'u', 'e']
  | .bool false => ['f', 'a', 'l', 's', 'e']
  | .number n => writeNumber n
  | .text s => writeText s.toList
  | .array items => '[' :: commaSeparated (writeItems items) ++ [']']
  | .object ms => '{' :: commaSeparated (writeMembers ms) ++ ['}']

def writeItems : List Json → List (List Char)
  | [] => []
  | v :: vs => write v :: writeItems vs

def writeMembers : List (String × Json) → List (List Char)
  | [] => []
  | (k, v) :: ms => (writeText k.toList ++ ':' :: write v) :: writeMembers ms

end

def newLine (indent : Nat) : List Char := '\n' :: List.replicate indent ' '

mutual

def writeIndented (indent : Nat) : Json → List Char
  | .array [] => ['[', ']']
  | .array (v :: vs) =>
    '[' :: commaSeparated (indentedItems (indent + 2) (v :: vs)) ++ newLine indent ++ [']']
  | .object [] => ['{', '}']
  | .object (m :: ms) =>
    '{' :: commaSeparated (indentedMembers (indent + 2) (m :: ms)) ++ newLine indent ++ ['}']
  | .null => write .null
  | .bool b => write (.bool b)
  | .number n => write (.number n)
  | .text s => write (.text s)

def indentedItems (indent : Nat) : List Json → List (List Char)
  | [] => []
  | v :: vs => (newLine indent ++ writeIndented indent v) :: indentedItems indent vs

def indentedMembers (indent : Nat) : List (String × Json) → List (List Char)
  | [] => []
  | (k, v) :: ms =>
    (newLine indent ++ writeText k.toList ++ ':' :: ' ' :: writeIndented indent v) ::
      indentedMembers indent ms

end

@[simp] theorem commaSeparated_nil : commaSeparated [] = [] := rfl

@[simp] theorem commaSeparated_singleton (t : List Char) : commaSeparated [t] = t := rfl

@[simp] theorem commaSeparated_cons_cons (t u : List Char) (ts : List (List Char)) :
    commaSeparated (t :: u :: ts) = t ++ ',' :: commaSeparated (u :: ts) := rfl

def compact (v : Json) : String := String.ofList v.write

/-- One line a member or item. -/
def pretty (v : Json) : String := String.ofList (v.writeIndented 0)

end ProcessStart.Json
