/-!
Bytes as UTF-8. A byte string falls into well-formed characters and bad runs:
a bad run is the longest start of a character that cannot be completed, or one
byte that starts none. Strict reading refuses bad runs; showing puts one
replacement character for each.
-/
namespace ProcessStart.Text

inductive Utf8Piece where
  | char : Char → Utf8Piece
  | bad : List UInt8 → Utf8Piece
  deriving DecidableEq, Repr

def isContinuation (b : UInt8) : Bool := 0x80 ≤ b && b ≤ 0xbf

def startsTwo (a b : UInt8) : Bool := 0xc2 ≤ a && a ≤ 0xdf && isContinuation b

/-- No overlong form and no surrogate. -/
def startsThree (a b : UInt8) : Bool :=
  isContinuation b && (a == 0xe0 && 0xa0 ≤ b || 0xe1 ≤ a && a ≤ 0xec || a == 0xed && b ≤ 0x9f ||
    a == 0xee || a == 0xef)

/-- No overlong form and nothing above the last code point. -/
def startsFour (a b : UInt8) : Bool :=
  isContinuation b && (a == 0xf0 && 0x90 ≤ b || 0xf1 ≤ a && a ≤ 0xf3 || a == 0xf4 && b ≤ 0x8f)

def payload (b : UInt8) : Nat := b.toNat % 64

def utf8Pieces : List UInt8 → List Utf8Piece
  | [] => []
  | a :: s =>
    if a < 0x80 then .char (Char.ofNat a.toNat) :: utf8Pieces s
    else match s with
      | [] => [.bad [a]]
      | b :: t =>
        if startsTwo a b then
          .char (Char.ofNat (a.toNat % 32 * 64 + payload b)) :: utf8Pieces t
        else if startsThree a b then
          match t with
          | [] => [.bad [a, b]]
          | c :: u =>
            if isContinuation c then
              .char (Char.ofNat ((a.toNat % 16 * 64 + payload b) * 64 + payload c)) ::
                utf8Pieces u
            else .bad [a, b] :: utf8Pieces (c :: u)
        else if startsFour a b then
          match t with
          | [] => [.bad [a, b]]
          | c :: u =>
            if isContinuation c then
              match u with
              | [] => [.bad [a, b, c]]
              | d :: v =>
                if isContinuation d then
                  .char (Char.ofNat
                    (((a.toNat % 8 * 64 + payload b) * 64 + payload c) * 64 + payload d)) ::
                    utf8Pieces v
                else .bad [a, b, c] :: utf8Pieces (d :: v)
            else .bad [a, b] :: utf8Pieces (c :: u)
        else .bad [a] :: utf8Pieces (b :: t)

def Utf8Piece.char? : Utf8Piece → Option Char
  | .char c => some c
  | .bad _ => none

/-- The text, if the bytes are well formed throughout. -/
def utf8Decode? (bytes : List UInt8) : Option (List Char) := (utf8Pieces bytes).mapM (·.char?)

def utf8Encode (s : List Char) : List UInt8 := s.flatMap String.utf8EncodeChar

def replacement : Char := Char.ofNat 0xfffd

/-- The text as it is shown to a reader. -/
def utf8Shown (bytes : List UInt8) : List Char :=
  (utf8Pieces bytes).map fun
    | .char c => c
    | .bad _ => replacement

@[simp] theorem utf8Pieces_nil : utf8Pieces [] = [] := rfl

@[simp] theorem utf8Encode_nil : utf8Encode [] = [] := rfl

@[simp] theorem utf8Encode_append (s t : List Char) :
    utf8Encode (s ++ t) = utf8Encode s ++ utf8Encode t := by simp [utf8Encode]

end ProcessStart.Text
