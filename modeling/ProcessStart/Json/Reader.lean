import ProcessStart.Json.Scan

/-!
Reading JSON values. Brackets and braces nest at most 127 deep. A repeated key
counts at its last occurrence. The loops over items and members do not know
what is read there, so that readers of typed values share them.
-/
namespace ProcessStart.Json

/-- What stands next in an array: its end, or an item at the text left. -/
inductive NextItem where
  | closed (s : List Char)
  | item (s : List Char)

/-- Finds the next item; all but the first have a comma in front. -/
def nextItem (first : Bool) (s : List Char) : Except Fault NextItem :=
  match skipBlank s with
  | [] => here .endInArray []
  | ']' :: s => .ok (.closed s)
  | c :: s =>
    if first then .ok (.item (c :: s))
    else if c = ',' then
      match skipBlank s with
      | [] => here .endInValue []
      | ']' :: s => peeking .trailingComma (']' :: s)
      | s => .ok (.item s)
    else peeking .noCommaOrBracket (c :: s)

/-- What stands next in an object: its end, or a member whose key has been read. -/
inductive NextMember where
  | closed (s : List Char)
  | member (key : String) (s : List Char)

def scanKey : List Char → Except Fault NextMember
  | [] => here .endInValue []
  | '"' :: s => do
    let (key, s) ← scanText s
    .ok (.member key s)
  | '}' :: s => peeking .trailingComma ('}' :: s)
  | s => peeking .keyNotText s

/-- Finds the next member; all but the first have a comma in front. -/
def nextMember (first : Bool) (s : List Char) : Except Fault NextMember :=
  match skipBlank s with
  | [] => here .endInObject []
  | '}' :: s => .ok (.closed s)
  | c :: s =>
    if first then scanKey (c :: s)
    else if c = ',' then scanKey (skipBlank s)
    else peeking .noCommaOrBrace (c :: s)

def scanColon (s : List Char) : Except Fault (List Char) :=
  match skipBlank s with
  | [] => here .endInObject []
  | ':' :: s => .ok s
  | s => peeking .noColon s

/-- Items up to the closing bracket. Each reads at least one character, so the length of the text
and one more are fuel enough. -/
def scanItems {α : Type} (item : List Char → Except Fault (Scanned α)) (first : Bool) :
    Nat → List Char → Except Fault (Scanned (List α))
  | 0, s => here .endInArray s
  | fuel + 1, s => do
    match ← nextItem first s with
    | .closed s => .ok ([], s)
    | .item s =>
      let (a, s) ← item s
      let (as, s) ← scanItems item false fuel s
      .ok (a :: as, s)

/-- Members up to the closing brace, gathered from the left; `member` goes on behind the key. -/
def scanMembers {σ : Type} (member : σ → String → List Char → Except Fault (Scanned σ))
    (first : Bool) : Nat → σ → List Char → Except Fault (Scanned σ)
  | 0, _, s => here .endInObject s
  | fuel + 1, state, s => do
    match ← nextMember first s with
    | .closed s => .ok (state, s)
    | .member key s =>
      let (state, s) ← member state key s
      scanMembers member false fuel state s

/-- A value; `depth` more brackets and braces may open. -/
def scanValue (depth : Nat) (s : List Char) : Except Fault (Scanned Json) :=
  match skipBlank s with
  | [] => here .endInValue []
  | 'n' :: s => do .ok (.null, ← word ['u', 'l', 'l'] s)
  | 't' :: s => do .ok (.bool true, ← word ['r', 'u', 'e'] s)
  | 'f' :: s => do .ok (.bool false, ← word ['a', 'l', 's', 'e'] s)
  | '"' :: s => do
    let (t, s) ← scanText s
    .ok (.text t, s)
  | '-' :: s => do
    let (n, s) ← scanNumber true s
    .ok (.number n, s)
  | '[' :: s =>
    match depth with
    | 0 => peeking .nestedTooDeep ('[' :: s)
    | depth + 1 => do
      let (items, s) ← scanItems (scanValue depth) true (s.length + 1) s
      .ok (.array items, s)
  | '{' :: s =>
    match depth with
    | 0 => peeking .nestedTooDeep ('{' :: s)
    | depth + 1 => do
      let member (ms : List (String × Json)) (key : String) (s : List Char) :
          Except Fault (Scanned (List (String × Json))) := do
        let (v, s) ← scanValue depth (← scanColon s)
        .ok (put key v ms, s)
      let (ms, s) ← scanMembers member true (s.length + 1) [] s
      .ok (.object ms, s)
  | c :: s =>
    if isDigit c then do
      let (n, s) ← scanNumber false (c :: s)
      .ok (.number n, s)
    else peeking .noValue (c :: s)

def nestingLimit : Nat := 127

/-- Nothing but blanks may follow a value. -/
def scanEnd (s : List Char) : Except Fault Unit :=
  match skipBlank s with
  | [] => .ok ()
  | s => peeking .trailingCharacters s

def readChars (s : List Char) : Except Fault Json := do
  let (v, rest) ← scanValue nestingLimit s
  scanEnd rest
  .ok v

def read (text : String) : Except Fault Json := readChars text.toList

end ProcessStart.Json
