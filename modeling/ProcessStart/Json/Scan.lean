import ProcessStart.Json.Fault

/-!
The parts of a JSON text below the value: blanks, words, texts and numbers.
Every scanner takes the unread text and gives what it read with the text left,
or a fault.

A number is an integer if it has neither fraction nor exponent and fits 64
bits, signed or unsigned; a negative zero is no integer. Of any other number
only the leading digits that fit 64 bits count; digits of the whole part that
are left out raise the exponent, those of the fraction are lost.
-/
namespace ProcessStart.Json

/-- What was read from a text, with the text left. -/
abbrev Scanned (α : Type) := α × List Char

/-- Noticed at the text, none of it looked at. -/
def here {α : Type} (b : Breach) (s : List Char) : Except Fault α := .error ⟨.breach b, s, 0⟩

/-- Noticed by looking at the next byte; at the end of the text there is none. -/
def peeking {α : Type} (b : Breach) (s : List Char) : Except Fault α := .error ⟨.breach b, s, 1⟩

def isJsonBlank (c : Char) : Bool := c = ' ' || c = '\n' || c = '\t' || c = '\r'

def skipBlank (s : List Char) : List Char := s.dropWhile isJsonBlank

def word : List Char → List Char → Except Fault (List Char)
  | [], s => .ok s
  | _ :: _, [] => here .endInValue []
  | w :: ws, c :: s => if c = w then word ws s else peeking .badWord (c :: s)

/-- Four hexadecimal digits. Fewer than four bytes are the end of the text. -/
def fourDigits : List Char → Except Fault (Scanned Nat)
  | a :: b :: c :: d :: s =>
    match Text.positional? 16 0 [a, b, c, d] with
    | some n => .ok (n, s)
    | none => .error ⟨.breach .badEscape, a :: b :: c :: d :: s, 4⟩
  | s => if byteCount s < 4 then here .endInText [] else .error ⟨.breach .badEscape, s, 4⟩

def isLeading (n : Nat) : Bool := 0xd800 ≤ n && n ≤ 0xdbff

def isTrailing (n : Nat) : Bool := 0xdc00 ≤ n && n ≤ 0xdfff

def ofPair (leading trailing : Nat) : Char :=
  Char.ofNat ((leading - 0xd800) * 1024 + (trailing - 0xdc00) + 0x10000)

/-- A character by number, behind the `u`; surrogates come in pairs. -/
def numberedChar (s : List Char) : Except Fault (Scanned Char) := do
  let (n, s) ← fourDigits s
  if isTrailing n then here .loneSurrogate s
  else if !isLeading n then .ok (Char.ofNat n, s)
  else
    match s with
    | [] => here .endInText []
    | '\\' :: [] => here .endInText []
    | '\\' :: 'u' :: s =>
      let (m, s) ← fourDigits s
      if isTrailing m then .ok (ofPair n m, s) else here .loneSurrogate s
    | '\\' :: s => peeking .endOfEscape s
    | s => peeking .endOfEscape s

def escapedChar : List Char → Except Fault (Scanned Char)
  | [] => here .endInText []
  | c :: s =>
    if c = '"' ∨ c = '\\' ∨ c = '/' then .ok (c, s)
    else if c = 'b' then .ok ('\x08', s)
    else if c = 'f' then .ok ('\x0c', s)
    else if c = 'n' then .ok ('\n', s)
    else if c = 'r' then .ok ('\r', s)
    else if c = 't' then .ok ('\t', s)
    else if c = 'u' then numberedChar s
    else peeking .badEscape (c :: s)

/-- The characters up to the closing quote. Each step reads at least one character, so the length
of the text is fuel enough. -/
def textFrom : Nat → List Char → Except Fault (Scanned (List Char))
  | _, [] => here .endInText []
  | 0, s => here .endInText s
  | fuel + 1, c :: s =>
    if c = '"' then .ok ([], s)
    else if c = '\\' then do
      let (e, s) ← escapedChar s
      let (cs, s) ← textFrom fuel s
      .ok (e :: cs, s)
    else if c < ' ' then here .controlCharacter s
    else do
      let (cs, s) ← textFrom fuel s
      .ok (c :: cs, s)

def scanText (s : List Char) : Except Fault (Scanned String) := do
  let (cs, s) ← textFrom s.length s
  .ok (String.ofList cs, s)

def isDigit (c : Char) : Bool := '0' ≤ c && c ≤ '9'

def digitValue (c : Char) : Nat := c.toNat - 48

def scanDigits (s : List Char) : List Char × List Char := s.span isDigit

/-- Appends digits as long as the number fits 64 bits; gives the number and how many are left. -/
def absorb : Nat → List Char → Nat × Nat
  | n, [] => (n, 0)
  | n, d :: ds =>
    if 10 * n + digitValue d < 0x10000000000000000 then absorb (10 * n + digitValue d) ds
    else (n, ds.length + 1)

/-- The digits of an exponent: its value, or none at the digit with which it leaves 32 bits. -/
def exponentValue : Nat → List Char → Option Nat × List Char
  | n, [] => (some n, [])
  | n, c :: s =>
    if isDigit c then
      if 10 * n + digitValue c < 0x80000000 then exponentValue (10 * n + digitValue c) s
      else (none, s)
    else (some n, c :: s)

def float (negative : Bool) (m : Magnitude) : Number := .float ⟨negative, m⟩

/-- The number, or the fault of being too great, noticed behind it. -/
def scaledNumber (negative : Bool) (significand : Nat) (exponent : Int) (s : List Char) :
    Except Fault (Scanned Number) :=
  match Magnitude.ofDecimal? significand exponent with
  | some m => .ok (float negative m, s)
  | none => here .numberTooGreat s

/-- The exponent behind its mark. One that leaves 32 bits makes zero, or a number too great. -/
def exponentPart (negative : Bool) (significand : Nat) (exponent : Int) (s : List Char) :
    Except Fault (Scanned Number) :=
  let (down, s) : Bool × List Char :=
    match s with
    | '-' :: s => (true, s)
    | '+' :: s => (false, s)
    | s => (false, s)
  match s with
  | [] => here .endInValue []
  | c :: t =>
    if !isDigit c then peeking .badNumber (c :: t)
    else
      match exponentValue 0 (c :: t) with
      | (some e, s) =>
        scaledNumber negative significand (if down then exponent - e else exponent + e) s
      | (none, s) =>
        if significand ≠ 0 ∧ !down then here .numberTooGreat s
        else .ok (float negative .zero, s.dropWhile isDigit)

def isExponentMark (c : Char) : Bool := c = 'e' || c = 'E'

/-- The digits behind the point, of which there must be one. -/
def fractionPart (negative : Bool) (significand left : Nat) (s : List Char) :
    Except Fault (Scanned Number) :=
  let (digits, s) := scanDigits s
  if digits.isEmpty then
    if s.isEmpty then here .endInValue [] else peeking .badNumber s
  else
    let (n, lost) := absorb significand digits
    let exponent : Int := (left : Int) - (digits.length - lost : Nat)
    match s with
    | c :: t => if isExponentMark c then exponentPart negative n exponent t
      else scaledNumber negative n exponent (c :: t)
    | [] => scaledNumber negative n exponent []

/-- A whole number: an integer as far as 64 bits go, but for the negative zero. -/
def wholeNumber (negative : Bool) (n : Nat) : Number :=
  if !negative then .integer n
  else if 0 < n ∧ n ≤ 0x8000000000000000 then .integer (-n)
  else float true (.ofNat n)

/-- What follows the digits of the whole part, of which `left` were left out. -/
def behindWhole (negative : Bool) (significand left : Nat) (s : List Char) :
    Except Fault (Scanned Number) :=
  let plain (s : List Char) : Except Fault (Scanned Number) :=
    if left = 0 then .ok (wholeNumber negative significand, s)
    else scaledNumber negative significand left s
  match s with
  | [] => plain []
  | c :: t =>
    if c = '.' then fractionPart negative significand left t
    else if isExponentMark c then exponentPart negative significand left t
    else plain (c :: t)

/-- A number behind its sign. A zero in front stands alone. -/
def scanNumber (negative : Bool) : List Char → Except Fault (Scanned Number)
  | [] => here .endInValue []
  | c :: s =>
    if !isDigit c then peeking .badNumber (c :: s)
    else if c = '0' then
      match s with
      | d :: t =>
        if isDigit d then peeking .badNumber (d :: t) else behindWhole negative 0 0 (d :: t)
      | [] => behindWhole negative 0 0 []
    else
      let (digits, t) := scanDigits (c :: s)
      let (n, left) := absorb 0 digits
      behindWhole negative n left t

end ProcessStart.Json
