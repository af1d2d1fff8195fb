import ProcessStart.Text.Split

/-!
The pieces of a text: they are the text again with separators between them,
none of them holds a separator, and there is one more of them than there are
separators. The lines of a text come of its pieces, each with or without a
carriage return. What stands behind the last line feed is a line that is not
finished; text that is written there goes on with it.
-/
namespace ProcessStart.Text

section

variable (separator : Char)

theorem length_growFirst {ps : List (List Char)} (h : ps ≠ []) (c : Char) :
    (growFirst c ps).length = ps.length := by
  cases ps with
  | nil => exact absurd rfl h
  | cons p ps => rfl

/-- There is one piece more than there are separators. -/
theorem length_pieces (s : List Char) : (pieces separator s).length = s.count separator + 1 := by
  induction s with
  | nil => rfl
  | cons c s ih =>
    by_cases h : c = separator
    · rw [h, pieces_cons_separator, List.length_cons, ih, List.count_cons_self]
    · rw [pieces_cons_other h, length_growFirst (pieces_ne_nil separator s), ih,
        List.count_cons_of_ne h]

theorem pieces_of_not_mem {separator : Char} {s : List Char} (h : separator ∉ s) :
    pieces separator s = [s] := by
  induction s with
  | nil => rfl
  | cons c s ih =>
    rw [List.mem_cons, not_or] at h
    rw [pieces_cons_other (Ne.symm h.1), ih h.2]
    rfl

theorem not_mem_of_mem_pieces {separator : Char} {s p : List Char} (h : p ∈ pieces separator s) :
    separator ∉ p := by
  induction s generalizing p with
  | nil =>
    rw [pieces_nil, List.mem_singleton] at h
    rw [h]
    exact List.not_mem_nil
  | cons c s ih =>
    by_cases hc : c = separator
    · rw [hc, pieces_cons_separator, List.mem_cons] at h
      cases h with
      | inl h => rw [h]; exact List.not_mem_nil
      | inr h => exact ih h
    · rw [pieces_cons_other hc] at h
      cases hp : pieces separator s with
      | nil => exact absurd hp (pieces_ne_nil separator s)
      | cons q qs =>
        rw [hp] at h ih
        rw [growFirst, List.mem_cons] at h
        cases h with
        | inl h =>
          rw [h, List.mem_cons, not_or]
          exact ⟨Ne.symm hc, ih List.mem_cons_self⟩
        | inr h => exact ih (List.mem_cons_of_mem q h)

/-- The pieces lose nothing but the separators between them. -/
theorem intercalate_pieces (s : List Char) :
    [separator].intercalate (pieces separator s) = s := by
  induction s with
  | nil => rfl
  | cons c s ih =>
    cases hp : pieces separator s with
    | nil => exact absurd hp (pieces_ne_nil separator s)
    | cons p ps =>
      rw [hp] at ih
      by_cases h : c = separator
      · rw [h, pieces_cons_separator, hp, List.intercalate_cons_cons, ih]
        rfl
      · rw [pieces_cons_other h, hp, growFirst]
        cases ps with
        | nil => rw [List.intercalate_singleton] at ih ⊢; rw [ih]
        | cons q qs =>
          rw [List.intercalate_cons_cons] at ih ⊢
          rw [← ih]
          rfl

end

/-- Cut at every separator: no piece holds one, and with one between any two they are the text. -/
structure ArePieces (separator : Char) (s : List Char) (ps : List (List Char)) : Prop where
  ne_nil : ps ≠ []
  free : ∀ p ∈ ps, separator ∉ p
  joined : [separator].intercalate ps = s

/-- Pieces without a separator are found again when they are joined. -/
theorem pieces_intercalate {separator : Char} {ps : List (List Char)} (hne : ps ≠ [])
    (hfree : ∀ p ∈ ps, separator ∉ p) : pieces separator ([separator].intercalate ps) = ps := by
  induction ps with
  | nil => exact absurd rfl hne
  | cons p ps ih =>
    obtain ⟨hp, hps⟩ := List.forall_mem_cons.mp hfree
    cases ps with
    | nil => rw [List.intercalate_singleton, pieces_of_not_mem hp]
    | cons q qs =>
      rw [List.intercalate_cons_cons, List.append_assoc, List.singleton_append, pieces_append,
        pieces_of_not_mem hp, ih (List.cons_ne_nil q qs) hps]
      rfl

/-- There is one way to cut a text at every separator. -/
theorem arePieces_iff {separator : Char} {s : List Char} {ps : List (List Char)} :
    ArePieces separator s ps ↔ ps = pieces separator s := by
  constructor
  · rintro ⟨hne, hfree, rfl⟩
    rw [pieces_intercalate hne hfree]
  · rintro rfl
    exact ⟨pieces_ne_nil separator s, fun _ => not_mem_of_mem_pieces,
      intercalate_pieces separator s⟩

/-- A cut falls on the first separator. -/
theorem piecesUpTo_append {separator : Char} {s : List Char} (h : separator ∉ s) (n : Nat)
    (t : List Char) :
    piecesUpTo separator (n + 1) (s ++ separator :: t) = s :: piecesUpTo separator n t := by
  induction s with
  | nil => simp [piecesUpTo]
  | cons c s ih =>
    rw [List.mem_cons, not_or] at h
    rw [List.cons_append, piecesUpTo, if_neg (Ne.symm h.1), ih h.2]
    rfl

theorem piecesUpTo_of_not_mem {separator : Char} {s : List Char} (h : separator ∉ s) (n : Nat) :
    piecesUpTo separator n s = [s] := by
  cases n with
  | zero => rw [piecesUpTo]
  | succ n =>
    induction s with
    | nil => rfl
    | cons c s ih =>
      rw [List.mem_cons, not_or] at h
      rw [piecesUpTo, if_neg (Ne.symm h.1), ih h.2]
      rfl

theorem cut?_append {separator : Char} {s : List Char} (h : separator ∉ s) (t : List Char) :
    cut? separator (s ++ separator :: t) = some (s, t) := by
  induction s with
  | nil => simp [cut?]
  | cons c s ih =>
    rw [List.mem_cons, not_or] at h
    rw [List.cons_append, cut?, if_neg (Ne.symm h.1), ih h.2]
    rfl

/-- A text that is these lines, none of which holds a line break. A carriage return behind a line
belongs to the line feed after it; the last line may be without one. -/
inductive AreLines : List Char → List (List Char) → Prop where
  | nil : AreLines [] []
  | last {line : List Char} (hne : line ≠ []) (hfree : '\n' ∉ line) : AreLines line [line]
  | feed {line s : List Char} {ls : List (List Char)} (hfree : '\n' ∉ line)
      (hreturn : line.getLast? ≠ some '\r') (hrest : AreLines s ls) :
      AreLines (line ++ '\n' :: s) (line :: ls)
  | returnFeed {line s : List Char} {ls : List (List Char)} (hfree : '\n' ∉ line)
      (hrest : AreLines s ls) : AreLines (line ++ '\r' :: '\n' :: s) (line :: ls)

theorem lines_append {line : List Char} (h : '\n' ∉ line) (s : List Char) :
    lines (line ++ '\n' :: s) = withoutReturn line :: lines s := by
  have hpieces : pieces '\n' (line ++ '\n' :: s) = line :: pieces '\n' s := by
    rw [pieces_append, pieces_of_not_mem h]
    rfl
  cases hs : pieces '\n' s with
  | nil => exact absurd hs (pieces_ne_nil '\n' s)
  | cons p ps =>
    rw [lines, lines, hpieces, hs, List.dropLast_cons_cons, List.map_cons, List.getLast?_cons_cons]
    rfl

theorem lines_of_not_mem {s : List Char} (h : '\n' ∉ s) : lines s = if s = [] then [] else [s] := by
  rw [lines, pieces_of_not_mem h]
  cases s <;> rfl

theorem withoutReturn_of_ne {line : List Char} (h : line.getLast? ≠ some '\r') :
    withoutReturn line = line := if_neg h

theorem withoutReturn_append (line : List Char) : withoutReturn (line ++ ['\r']) = line := by
  rw [withoutReturn, List.getLast?_concat, if_pos rfl, List.dropLast_concat]

/-- A text is made of lines in one way only. -/
theorem AreLines.eq_lines {s : List Char} {ls : List (List Char)} (h : AreLines s ls) :
    ls = lines s := by
  induction h with
  | nil => rfl
  | last hne hfree => rw [lines_of_not_mem hfree, if_neg hne]
  | feed hfree hreturn _ ih => rw [lines_append hfree, withoutReturn_of_ne hreturn, ← ih]
  | @returnFeed line s ls hfree _ ih =>
    have hfree' : '\n' ∉ line ++ ['\r'] := by simp [hfree]
    have hs : line ++ '\r' :: '\n' :: s = line ++ ['\r'] ++ '\n' :: s := by simp
    rw [hs, lines_append hfree', withoutReturn_append, ← ih]

/-- Every text is made of its lines. -/
theorem areLines_lines (s : List Char) : AreLines s (lines s) := by
  obtain ⟨ps, hps⟩ : ∃ ps, pieces '\n' s = ps := ⟨_, rfl⟩
  induction ps generalizing s with
  | nil => exact absurd hps (pieces_ne_nil '\n' s)
  | cons p ps ih =>
    obtain ⟨-, hfree, hjoined⟩ := arePieces_iff.mpr hps.symm
    have hp : '\n' ∉ p := hfree p List.mem_cons_self
    cases ps with
    | nil =>
      rw [List.intercalate_singleton] at hjoined
      rw [← hjoined, lines_of_not_mem hp]
      split
      · rename_i hnil
        rw [hnil]
        exact .nil
      · rename_i hne
        exact .last hne hp
    | cons q qs =>
      rw [List.intercalate_cons_cons, List.append_assoc, List.singleton_append] at hjoined
      have hrest : AreLines (['\n'].intercalate (q :: qs)) (lines (['\n'].intercalate (q :: qs))) :=
        ih _ (pieces_intercalate (List.cons_ne_nil q qs) (List.forall_mem_cons.mp hfree).2)
      rw [← hjoined, lines_append hp]
      by_cases hreturn : p.getLast? = some '\r'
      · obtain ⟨line, rfl⟩ := List.getLast?_eq_some_iff.mp hreturn
        rw [withoutReturn_append, List.append_assoc]
        exact .returnFeed (fun hmem => hp (List.mem_append_left _ hmem)) hrest
      · rw [withoutReturn_of_ne hreturn]
        exact .feed hp hreturn hrest

/-- There is one way to read a text as lines. -/
theorem areLines_iff {s : List Char} {ls : List (List Char)} : AreLines s ls ↔ ls = lines s := by
  constructor
  · exact AreLines.eq_lines
  · rintro rfl
    exact areLines_lines s

/-- A text behind which a new line begins. -/
def EndsLine (s : List Char) : Prop := s = [] ∨ s.getLast? = some '\n'

theorem EndsLine.cases {s : List Char} (h : EndsLine s) : s = [] ∨ ∃ t, s = t ++ ['\n'] :=
  h.imp_right List.getLast?_eq_some_iff.mp

/-- Behind the last line feed. -/
def unfinished (s : List Char) : List Char := (s.reverse.takeWhile (· != '\n')).reverse

/-- Up to the last line feed. -/
def finished (s : List Char) : List Char := (s.reverse.dropWhile (· != '\n')).reverse

theorem finished_append_unfinished (s : List Char) : finished s ++ unfinished s = s := by
  rw [finished, unfinished, ← List.reverse_append, List.takeWhile_append_dropWhile,
    List.reverse_reverse]

theorem not_mem_unfinished (s : List Char) : '\n' ∉ unfinished s := by
  intro h
  have hall := List.all_eq_true.mp (List.all_takeWhile (p := (· != '\n')) (l := s.reverse))
  simpa using hall '\n' (List.mem_reverse.mp h)

theorem endsLine_finished (s : List Char) : EndsLine (finished s) := by
  cases h : s.reverse.dropWhile (· != '\n') with
  | nil => exact .inl (by rw [finished, h]; rfl)
  | cons c t =>
    have hc := List.head?_dropWhile_not (· != '\n') s.reverse
    rw [h] at hc
    refine .inr ?_
    rw [finished, h, List.getLast?_reverse, List.head?_cons]
    simpa using hc

end ProcessStart.Text
