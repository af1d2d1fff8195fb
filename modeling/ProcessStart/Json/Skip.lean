import ProcessStart.Json.Reader

/-!
Passing over a value that nobody reads. The grammar is the same, but nothing
is converted: numbers can be of any size, code points of any kind, and the
nesting is not limited, since the open brackets are kept in a list. A comma
behind the last item or member is noticed only where the next one is missed.
-/
namespace ProcessStart.Json

def skipEscape : List Char → Except Fault (List Char)
  | [] => here .endInText []
  | c :: s =>
    if ['"', '\\', '/', 'b', 'f', 'n', 'r', 't'].contains c then .ok s
    else if c = 'u' then do
      let (_, s) ← fourDigits s
      .ok s
    else peeking .badEscape (c :: s)

/-- To behind the closing quote. Each step reads at least one character, so the length of the text
is fuel enough. -/
def skipTextFrom : Nat → List Char → Except Fault (List Char)
  | _, [] => here .endInText []
  | 0, s => here .endInText s
  | fuel + 1, c :: s =>
    if c = '"' then .ok s
    else if c = '\\' then do skipTextFrom fuel (← skipEscape s)
    else if c < ' ' then here .controlCharacter (c :: s)
    else skipTextFrom fuel s

def skipText (s : List Char) : Except Fault (List Char) := skipTextFrom s.length s

def skipDigits : List Char → Except Fault (List Char)
  | [] => here .badNumber []
  | c :: s => if isDigit c then .ok (s.dropWhile isDigit) else peeking .badNumber (c :: s)

def skipExponent : List Char → Except Fault (List Char)
  | '+' :: s => skipDigits s
  | '-' :: s => skipDigits s
  | s => skipDigits s

def skipExponentIfAny : List Char → Except Fault (List Char)
  | [] => .ok []
  | c :: s => if isExponentMark c then skipExponent s else .ok (c :: s)

/-- What may follow the whole part of a number. -/
def skipFraction : List Char → Except Fault (List Char)
  | '.' :: s => do skipExponentIfAny (← skipDigits s)
  | s => skipExponentIfAny s

/-- A number behind its sign. A zero in front stands alone. -/
def skipNumber : List Char → Except Fault (List Char)
  | '0' :: s =>
    match s with
    | [] => .ok []
    | c :: t => if isDigit c then peeking .badNumber (c :: t) else skipFraction (c :: t)
  | s => do skipFraction (← skipDigits s)

def skipScalar : List Char → Except Fault (List Char)
  | [] => here .endInValue []
  | 'n' :: s => word ['u', 'l', 'l'] s
  | 't' :: s => word ['r', 'u', 'e'] s
  | 'f' :: s => word ['a', 'l', 's', 'e'] s
  | '-' :: s => skipNumber s
  | '"' :: s => skipText s
  | c :: s => if isDigit c then skipNumber (c :: s) else peeking .noValue (c :: s)

/-- What an open bracket belongs to. -/
inductive Frame where
  | array
  | object
  deriving DecidableEq, Repr

namespace Frame

def closing : Frame → Char
  | .array => ']'
  | .object => '}'

def ended : Frame → Breach
  | .array => .endInArray
  | .object => .endInObject

def noComma : Frame → Breach
  | .array => .noCommaOrBracket
  | .object => .noCommaOrBrace

/-- What stands before a value: nothing in an array, a key and a colon in an object. -/
def skipKey : Frame → List Char → Except Fault (List Char)
  | .array, s => .ok s
  | .object, s =>
    match skipBlank s with
    | [] => here .endInObject []
    | '"' :: s => do scanColon (← skipText s)
    | s => peeking .keyNotText s

end Frame

/-- What comes next: nothing, or a value inside these open brackets. -/
inductive Due where
  | done (s : List Char)
  | value (frames : List Frame) (s : List Char)

/-- Behind a value inside these open brackets. -/
def behindValue : List Frame → List Char → Except Fault Due
  | [], s => .ok (.done s)
  | frame :: frames, s =>
    match skipBlank s with
    | [] => here frame.ended []
    | c :: s =>
      if c = ',' then do .ok (.value (frame :: frames) (← frame.skipKey s))
      else if c = frame.closing then behindValue frames s
      else peeking frame.noComma (c :: s)

/-- Behind an opening bracket. -/
def behindOpening (frame : Frame) (frames : List Frame) (s : List Char) : Except Fault Due :=
  match skipBlank s with
  | [] => here frame.ended []
  | c :: s =>
    if c = frame.closing then behindValue frames s
    else do .ok (.value (frame :: frames) (← frame.skipKey (c :: s)))

/-- To behind the outermost value. Each step reads at least one character, so the length of the
text and one more are fuel enough. -/
def skipFrom : Nat → List Frame → List Char → Except Fault (List Char)
  | 0, _, s => here .endInValue s
  | fuel + 1, frames, s => do
    let due ← match skipBlank s with
      | '[' :: s => behindOpening .array frames s
      | '{' :: s => behindOpening .object frames s
      | s => do behindValue frames (← skipScalar s)
    match due with
    | .done s => .ok s
    | .value frames s => skipFrom fuel frames s

def skipValue (s : List Char) : Except Fault (List Char) := skipFrom (s.length + 1) [] s

end ProcessStart.Json
