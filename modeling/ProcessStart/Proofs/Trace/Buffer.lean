import ProcessStart.Proofs.Text.Ascii
import ProcessStart.Trace.Record

/-!
A buffer over many writes. It holds the texts that there was room for when they
came, one behind the other; one that was refused left no mark. A line that is
written in pieces is taken exactly if there is room for the whole of it,
whatever the pieces are; if there is none, what was in the buffer is still
there.
-/
namespace ProcessStart.Trace.Buffer

def size (text : List Char) : Nat := (Text.utf8Encode text).length

/-- Of texts that come one after the other, those that fit into the room there is. Each of them
leaves less room for the next; one that does not fit leaves as much as there was. -/
def fitting : Nat → List (List Char) → List (List Char)
  | _, [] => []
  | room, text :: texts =>
    if size text ≤ room then text :: fitting (room - size text) texts else fitting room texts

/-- A new buffer behind these writes. -/
def written (texts : List (List Char)) : Buffer := texts.foldl push empty

@[simp] theorem fitting_nil (room : Nat) : fitting room [] = [] := rfl

theorem fitting_cons_of_le {room : Nat} {text : List Char} (h : size text ≤ room)
    (texts : List (List Char)) :
    fitting room (text :: texts) = text :: fitting (room - size text) texts := if_pos h

theorem fitting_cons_of_lt {room : Nat} {text : List Char} (h : room < size text)
    (texts : List (List Char)) : fitting room (text :: texts) = fitting room texts :=
  if_neg (Nat.not_le.mpr h)

theorem written_concat (texts : List (List Char)) (text : List Char) :
    written (texts ++ [text]) = (written texts).push text := by
  rw [written, List.foldl_append]
  rfl

theorem length_content_append (b : Buffer) (text : List Char) :
    (b.content ++ Text.utf8Encode text).length = b.length + size text := List.length_append

section

variable {b : Buffer} {text : List Char}

/-- A text is taken exactly if there is room for it. -/
theorem isSome_push? :
    (b.push? (Text.utf8Encode text)).isSome ↔ b.length + size text ≤ capacity := by
  rw [← length_content_append]
  by_cases h : (b.content ++ Text.utf8Encode text).length ≤ capacity
  · rw [push?_of_le h]
    exact iff_of_true rfl h
  · rw [push?_of_lt (Nat.not_le.mp h)]
    exact iff_of_false Bool.false_ne_true h

/-- A text that fits stands behind what was there. -/
theorem content_push_of_le (h : b.length + size text ≤ capacity) :
    (b.push text).content = b.content ++ Text.utf8Encode text := by
  rw [← length_content_append] at h
  rw [push, push?_of_le h, Option.getD_some]

theorem length_push_of_le (h : b.length + size text ≤ capacity) :
    (b.push text).length = b.length + size text := by
  rw [length, content_push_of_le h, length_content_append]

/-- A text that does not fit changes nothing. -/
theorem push_of_lt (h : capacity < b.length + size text) : b.push text = b := by
  rw [← length_content_append] at h
  rw [push, push?_of_lt h, Option.getD_none]

end

/-- Of texts written one after the other, those that fit are kept. -/
theorem content_foldl_push (texts : List (List Char)) (b : Buffer) :
    (texts.foldl push b).content =
      b.content ++ Text.utf8Encode (fitting (capacity - b.length) texts).flatten := by
  -- The room is what the buffer has left, before and after each text, taken or not.
  induction texts generalizing b with
  | nil => simp
  | cons text texts ih =>
    have hroom : b.length ≤ capacity := b.length_le
    rw [List.foldl_cons, ih]
    by_cases h : b.length + size text ≤ capacity
    · have hrest : capacity - (b.length + size text) = capacity - b.length - size text := by omega
      rw [content_push_of_le h, length_push_of_le h, fitting_cons_of_le (by omega),
        List.flatten_cons, Text.utf8Encode_append, List.append_assoc, hrest]
    · rw [push_of_lt (by omega), fitting_cons_of_lt (by omega)]

theorem content_written (texts : List (List Char)) :
    (written texts).content = Text.utf8Encode (fitting capacity texts).flatten :=
  content_foldl_push texts empty

section

variable {b : Buffer} {pieces : List (List Char)}

/-- Pieces that fit together are all taken. -/
theorem pushPieces_of_le (h : (b.content ++ Text.utf8Encode pieces.flatten).length ≤ capacity) :
    ∃ full, b.pushPieces pieces = .ok full ∧
      full.content = b.content ++ Text.utf8Encode pieces.flatten := by
  induction pieces generalizing b with
  | nil => exact ⟨b, rfl, by simp⟩
  | cons piece pieces ih =>
    rw [List.flatten_cons, Text.utf8Encode_append, ← List.append_assoc] at h ⊢
    have hpiece : (b.content ++ Text.utf8Encode piece).length ≤ capacity := by
      rw [List.length_append] at h
      omega
    rw [pushPieces, push?_of_le hpiece]
    exact ih h

/-- Of pieces that do not fit together some are taken, from the first on, but not all. -/
theorem pushPieces_of_lt (h : capacity < (b.content ++ Text.utf8Encode pieces.flatten).length) :
    ∃ part, b.pushPieces pieces = .error part ∧ b.content <+: part.content ∧
      part.content <+: b.content ++ Text.utf8Encode pieces.flatten := by
  induction pieces generalizing b with
  | nil =>
    rw [List.flatten_nil, Text.utf8Encode_nil, List.append_nil] at h
    exact absurd b.length_le (Nat.not_le.mpr h)
  | cons piece pieces ih =>
    rw [List.flatten_cons, Text.utf8Encode_append, ← List.append_assoc] at h ⊢
    by_cases hpiece : (b.content ++ Text.utf8Encode piece).length ≤ capacity
    · rw [pushPieces, push?_of_le hpiece]
      obtain ⟨part, hpart, hold, hnew⟩ := ih (b := ⟨_, hpiece⟩) h
      exact ⟨part, hpart, (List.prefix_append _ _).trans hold, hnew⟩
    · rw [pushPieces, push?_of_lt (Nat.not_le.mp hpiece)]
      refine ⟨b, rfl, List.prefix_rfl, ?_⟩
      rw [List.append_assoc]
      exact List.prefix_append _ _

end

/-- Pieces that fit together are all taken. -/
theorem pushPieces_empty {pieces : List (List Char)}
    (h : (Text.utf8Encode pieces.flatten).length ≤ capacity) :
    ∃ full, empty.pushPieces pieces = .ok full ∧
      full.content = Text.utf8Encode pieces.flatten := pushPieces_of_le h

/-- A new buffer that texts are offered to, as many as there may be, holds those that fit into what
the ones before left of it, and no others: a text is taken exactly if there is room for the whole of
it, stands then behind what was there, and changes nothing otherwise. Of any buffer, whatever has
been written to it, the line of a record is taken, in whatever pieces it comes, exactly if there is
room for all of it; it stands then behind what was there, and what was there stays if it is
refused. -/
theorem written_by_room :
    (∀ texts : List (List Char),
      (written texts).content = Text.utf8Encode (fitting 512 texts).flatten ∧
      (written texts).length ≤ 512 ∧
      ∀ text : List Char,
        (((written texts).push? (Text.utf8Encode text)).isSome ↔
          (written texts).length + size text ≤ 512) ∧
        ((written texts).length + size text ≤ 512 →
          (written (texts ++ [text])).content =
            (written texts).content ++ Text.utf8Encode text) ∧
        (512 < (written texts).length + size text → written (texts ++ [text]) = written texts)) ∧
    ∀ (b : Buffer) (r : Record) (pieces : List (List Char)), pieces.flatten = r.line →
      ((∃ full, b.pushPieces pieces = .ok full) ↔ b.length + size r.line ≤ 512) ∧
      (∀ full, b.pushPieces pieces = .ok full →
        full.content = b.content ++ Text.utf8Encode r.line) ∧
      ∀ part, b.pushPieces pieces = .error part →
        b.content <+: part.content ∧ part.content <+: b.content ++ Text.utf8Encode r.line := by
  constructor
  · intro texts
    refine ⟨content_written texts, (written texts).length_le, ?_⟩
    intro text
    rw [written_concat]
    exact ⟨isSome_push?, content_push_of_le, push_of_lt⟩
  · intro b r pieces hpieces
    rw [← hpieces, ← length_content_append]
    by_cases h : (b.content ++ Text.utf8Encode pieces.flatten).length ≤ 512
    · obtain ⟨full, hfull, hcontent⟩ := pushPieces_of_le h
      rw [hfull]
      refine ⟨iff_of_true ⟨full, rfl⟩ h, ?_, nofun⟩
      intro other hother
      cases hother
      exact hcontent
    · obtain ⟨part, hpart, hprefixes⟩ := pushPieces_of_lt (Nat.not_le.mp h)
      rw [hpart]
      refine ⟨iff_of_false nofun h, nofun, ?_⟩
      intro other hother
      cases hother
      exact hprefixes

theorem size_replicate (n : Nat) : size (List.replicate n 'x') = n := by
  have hascii : Text.IsAscii (List.replicate n 'x') := by simp [Text.IsAscii, Text.isAsciiChar]
  rw [size, Text.utf8Encode_ascii hascii, List.length_map, List.length_replicate]

/-- Every record is longer than its first piece. -/
theorem le_size_line (r : Record) : 14 ≤ size r.line := by
  have hfirst : (Text.utf8Encode "\x7b\"timestamp\":\"".toList).length = 14 := rfl
  rw [size, Record.line, Record.pieces, List.flatten_cons, Text.utf8Encode_append,
    List.length_append, hfirst]
  exact Nat.le_add_right 14 _

/-- One byte short of full, a buffer refuses two bytes, and any record; but it takes one byte. -/
theorem written_by_room_brim :
    (written [List.replicate 511 'x', ['y', 'y'], ['y']]).content =
      Text.utf8Encode (List.replicate 511 'x' ++ ['y']) ∧
    ∀ r : Record, r.pieces.flatten = r.line ∧
      ∃ part, (written [List.replicate 511 'x', ['y', 'y']]).pushPieces r.pieces = .error part ∧
        (written [List.replicate 511 'x', ['y', 'y']]).content <+: part.content := by
  have hfirst : size (List.replicate 511 'x') ≤ 512 := by rw [size_replicate]; decide
  have hleft : 512 - size (List.replicate 511 'x') = 1 := by rw [size_replicate]
  constructor
  · have hfitting : fitting 512 [List.replicate 511 'x', ['y', 'y'], ['y']] =
        [List.replicate 511 'x', ['y']] := by
      rw [fitting_cons_of_le hfirst, hleft, fitting_cons_of_lt (by decide),
        fitting_cons_of_le (by decide), fitting_nil]
    rw [(written_by_room.1 _).1, hfitting]
    rfl
  · have hfitting : fitting 512 [List.replicate 511 'x', ['y', 'y']] =
        [List.replicate 511 'x'] := by
      rw [fitting_cons_of_le hfirst, hleft, fitting_cons_of_lt (by decide), fitting_nil]
    have hlength : (written [List.replicate 511 'x', ['y', 'y']]).length = 511 := by
      rw [length, (written_by_room.1 _).1, hfitting, List.flatten_singleton]
      exact size_replicate 511
    intro r
    obtain ⟨htaken, -, hkept⟩ :=
      written_by_room.2 (written [List.replicate 511 'x', ['y', 'y']]) r r.pieces rfl
    have hlong := le_size_line r
    refine ⟨rfl, ?_⟩
    cases hpushed : (written [List.replicate 511 'x', ['y', 'y']]).pushPieces r.pieces with
    | ok full =>
      have hfits := htaken.mp ⟨full, hpushed⟩
      omega
    | error part => exact ⟨part, rfl, (hkept part hpushed).1⟩

end ProcessStart.Trace.Buffer
