import ProcessStart.Binary64.Shortest
import ProcessStart.Json.Value
import ProcessStart.Text.Quoted

/-!
What is wrong with a JSON text, and where. A text can break the grammar, or
hold a value of another shape than its reader expects. A fault in a text is
noted by the text that is still unread and how many bytes of it have been
looked at; its line and column follow from these. Columns count bytes.
-/
namespace ProcessStart.Json

inductive Breach where
  | endInValue
  | endInArray
  | endInObject
  | endInText
  | noColon
  | noCommaOrBracket
  | noCommaOrBrace
  | badWord
  | noValue
  | badEscape
  | badNumber
  | numberTooGreat
  | controlCharacter
  | keyNotText
  | loneSurrogate
  | endOfEscape
  | trailingComma
  | trailingCharacters
  | nestedTooDeep
  deriving DecidableEq, Repr

def Breach.message : Breach → String
  | .endInValue => "EOF while parsing a value"
  | .endInArray => "EOF while parsing a list"
  | .endInObject => "EOF while parsing an object"
  | .endInText => "EOF while parsing a string"
  | .noColon => "expected `:`"
  | .noCommaOrBracket => "expected `,` or `]`"
  | .noCommaOrBrace => "expected `,` or `\x7d`"
  | .badWord => "expected ident"
  | .noValue => "expected value"
  | .badEscape => "invalid escape"
  | .badNumber => "invalid number"
  | .numberTooGreat => "number out of range"
  | .controlCharacter => "control character (\\u0000-\\u001F) found while parsing a string"
  | .keyNotText => "key must be a string"
  | .loneSurrogate => "lone leading surrogate in hex escape"
  | .endOfEscape => "unexpected end of hex escape"
  | .trailingComma => "trailing comma"
  | .trailingCharacters => "trailing characters"
  | .nestedTooDeep => "recursion limit exceeded"

/-- A value as far as a complaint about it shows it. -/
inductive Shape where
  | null
  | bool (b : Bool)
  | number (n : Number)
  | text (s : String)
  | array
  | object
  deriving DecidableEq, Repr

def Shape.message : Shape → String
  | .null => "null"
  | .bool true => "boolean `true`"
  | .bool false => "boolean `false`"
  | .number (.integer n) => "integer `" ++ String.ofList (Text.signedDecimal n) ++ "`"
  | .number (.float x) => "floating point `" ++ String.ofList x.text ++ "`"
  | .text s => "string " ++ String.ofList (Text.quoted s.toList)
  | .array => "sequence"
  | .object => "map"

def shape : Json → Shape
  | .null => .null
  | .bool b => .bool b
  | .number n => .number n
  | .text s => .text s
  | .array _ => .array
  | .object _ => .object

/-- Values of another shape than expected. -/
inductive Mismatch where
  | wrongType (found : Shape) (expected : String)
  | wrongValue (found : Shape) (expected : String)
  | wrongLength (length : Nat) (expected : String)
  | unknownVariant (found : String) (variants : List String)
  | missingField (name : String)
  | repeatedField (name : String)
  deriving DecidableEq, Repr

def ticked (s : String) : String := "`" ++ s ++ "`"

def Mismatch.message : Mismatch → String
  | .wrongType found expected => "invalid type: " ++ found.message ++ ", expected " ++ expected
  | .wrongValue found expected => "invalid value: " ++ found.message ++ ", expected " ++ expected
  | .wrongLength length expected =>
    "invalid length " ++ String.ofList (Text.decimal length) ++ ", expected " ++ expected
  | .unknownVariant found variants =>
    "unknown variant " ++ ticked found ++ ", expected one of " ++
      ", ".intercalate (variants.map ticked)
  | .missingField name => "missing field " ++ ticked name
  | .repeatedField name => "duplicate field " ++ ticked name

inductive Cause where
  | breach (b : Breach)
  | mismatch (m : Mismatch)
  deriving DecidableEq, Repr

def Cause.message : Cause → String
  | .breach b => b.message
  | .mismatch m => m.message

/-- A cause, the unread text at which it was noticed, and the bytes of it looked at. -/
structure Fault where
  cause : Cause
  rest : List Char
  ahead : Nat
  deriving DecidableEq, Repr

structure Position where
  line : Nat
  column : Nat
  deriving DecidableEq, Repr

def Position.start : Position := ⟨1, 0⟩

/-- The position a number of bytes further on; never behind the end of the text. -/
def Position.advance : Nat → Position → List Char → Position
  | _, p, [] => p
  | bytes, p, c :: s =>
    if bytes < c.utf8Size then ⟨p.line, p.column + bytes⟩
    else if c = '\n' then advance (bytes - 1) ⟨p.line + 1, 0⟩ s
    else advance (bytes - c.utf8Size) ⟨p.line, p.column + c.utf8Size⟩ s

def byteCount (s : List Char) : Nat := s.foldr (fun c n => c.utf8Size + n) 0

def Fault.position (f : Fault) (text : List Char) : Position :=
  .advance (byteCount text - byteCount f.rest + f.ahead) .start text

def Cause.messageAt (cause : Cause) (p : Position) : String :=
  cause.message ++ " at line " ++ String.ofList (Text.decimal p.line) ++ " column " ++
    String.ofList (Text.decimal p.column)

/-- The cause and its place in the text. -/
def Fault.message (f : Fault) (text : List Char) : String := f.cause.messageAt (f.position text)

end ProcessStart.Json
