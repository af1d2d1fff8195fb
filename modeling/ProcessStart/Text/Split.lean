/-!
The characters with the Unicode property White_Space, and what can be taken off
a text or out of it: the blanks at its two ends, the pieces between separator
characters, and its lines. A cut loses nothing but the separators, so a text
with n of them has n + 1 pieces.
-/
namespace ProcessStart.Text

/-- The Unicode property White_Space: 25 characters in ten ranges. -/
def isBlank (c : Char) : Bool :=
  let n := c.toNat
  (0x09 ≤ n && n ≤ 0x0d) || n == 0x20 || n == 0x85 || n == 0xa0 || n == 0x1680 ||
    (0x2000 ≤ n && n ≤ 0x200a) || (0x2028 ≤ n && n ≤ 0x2029) || n == 0x202f ||
    n == 0x205f || n == 0x3000

def trimStart (s : List Char) : List Char := s.dropWhile isBlank

def trimEnd (s : List Char) : List Char := (s.reverse.dropWhile isBlank).reverse

def trim (s : List Char) : List Char := trimEnd (trimStart s)

@[simp] theorem trimStart_nil : trimStart [] = [] := rfl

theorem trimStart_cons_blank {c : Char} (h : isBlank c = true) (s : List Char) :
    trimStart (c :: s) = trimStart s := by simp [trimStart, h]

theorem trimStart_cons_other {c : Char} (h : isBlank c = false) (s : List Char) :
    trimStart (c :: s) = c :: s := by simp [trimStart, h]

def growFirst (c : Char) : List (List Char) → List (List Char)
  | [] => [[c]]
  | p :: ps => (c :: p) :: ps

/-- The pieces between the separators; the empty text is one empty piece. -/
def pieces (separator : Char) : List Char → List (List Char)
  | [] => [[]]
  | c :: s =>
    if c = separator then [] :: pieces separator s else growFirst c (pieces separator s)

@[simp] theorem pieces_nil (separator : Char) : pieces separator [] = [[]] := rfl

@[simp] theorem pieces_cons_separator (separator : Char) (s : List Char) :
    pieces separator (separator :: s) = [] :: pieces separator s := by simp [pieces]

theorem pieces_cons_other {separator c : Char} (h : c ≠ separator) (s : List Char) :
    pieces separator (c :: s) = growFirst c (pieces separator s) := by simp [pieces, h]

theorem growFirst_append {c : Char} {ps : List (List Char)} (h : ps ≠ []) (qs : List (List Char)) :
    growFirst c (ps ++ qs) = growFirst c ps ++ qs := by
  cases ps with
  | nil => exact absurd rfl h
  | cons p ps => rfl

theorem pieces_ne_nil (separator : Char) (s : List Char) : pieces separator s ≠ [] := by
  induction s with
  | nil => simp
  | cons c s ih =>
    by_cases h : c = separator
    · simp [pieces, h]
    · rw [pieces_cons_other h]
      cases hp : pieces separator s <;> simp [growFirst]

/-- A separator cuts the pieces of the two sides apart. -/
theorem pieces_append (separator : Char) (s t : List Char) :
    pieces separator (s ++ separator :: t) = pieces separator s ++ pieces separator t := by
  induction s with
  | nil => simp
  | cons c s ih =>
    by_cases h : c = separator
    · simp [pieces, h, ih]
    · rw [List.cons_append, pieces_cons_other h, pieces_cons_other h, ih,
        growFirst_append (pieces_ne_nil separator s)]

/-- At most `n` cuts, from the left; the last piece keeps its separators. -/
def piecesUpTo (separator : Char) : Nat → List Char → List (List Char)
  | 0, s => [s]
  | _ + 1, [] => [[]]
  | n + 1, c :: s =>
    if c = separator then [] :: piecesUpTo separator n s
    else growFirst c (piecesUpTo separator (n + 1) s)

/-- The text before the first separator and the text behind it. -/
def cut? (separator : Char) : List Char → Option (List Char × List Char)
  | [] => none
  | c :: s =>
    if c = separator then some ([], s)
    else (cut? separator s).map fun parts => (c :: parts.1, parts.2)

def withoutReturn (line : List Char) : List Char :=
  if line.getLast? = some '\r' then line.dropLast else line

/-- A line ends with a line feed, or with a carriage return and a line feed; what stands behind
the last line feed is a line too, carriage return included, unless it is empty. -/
def lines (s : List Char) : List (List Char) :=
  (pieces '\n' s).dropLast.map withoutReturn ++
    (pieces '\n' s).getLast?.toList.filter fun last => !last.isEmpty

def occurs (part : List Char) : List Char → Bool
  | [] => part.isEmpty
  | c :: s => part.isPrefixOf (c :: s) || occurs part s

end ProcessStart.Text
