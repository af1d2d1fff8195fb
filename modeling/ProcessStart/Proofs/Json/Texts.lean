import ProcessStart.Json.Scan
import ProcessStart.Json.Writer
import ProcessStart.Proofs.Text.Ascii

/-!
Texts read back as they were written, for every character: the quote, the
backslash and the control characters are escaped one by one, and every escape
is read as the character it stands for. What is written of a text has no line
break in it.
-/
namespace ProcessStart.Json

/-- Text without control characters, so without line breaks. -/
def Unbroken (s : List Char) : Prop := ∀ c ∈ s, ¬ c < ' '

theorem unbroken_nil : Unbroken [] := by simp [Unbroken]

theorem unbroken_cons {c : Char} {s : List Char} : Unbroken (c :: s) ↔ ¬ c < ' ' ∧ Unbroken s := by
  simp [Unbroken]

theorem unbroken_append {s t : List Char} : Unbroken (s ++ t) ↔ Unbroken s ∧ Unbroken t := by
  simp [Unbroken, or_imp, forall_and]

theorem Unbroken.no_line_feed {s : List Char} (h : Unbroken s) : '\n' ∉ s := by
  intro hc
  exact h '\n' hc (by decide)

theorem Unbroken.no_return {s : List Char} (h : Unbroken s) : '\r' ∉ s := by
  intro hc
  exact h '\r' hc (by decide)

theorem unbroken_toDigits {base : Nat} (hb : 1 < base) (hb' : base ≤ 16) (n : Nat) :
    Unbroken (Nat.toDigits base n) := Text.forall_toDigits hb hb' (by decide)

theorem toNat_lt_of_lt_blank {c : Char} (h : c < ' ') : c.toNat < 32 := h

/-- The four digits of a control character are its number. -/
theorem fourDigits_control {n : Nat} (h : n < 32) (t : List Char) :
    fourDigits ('0' :: '0' :: Nat.digitChar (n / 16) :: Nat.digitChar (n % 16) :: t) =
      .ok (n, t) := by
  have hzero : Text.digit? 16 '0' = some 0 := by decide
  have hhigh := Text.digit?_digitChar (Nat.le_refl 16) (show n / 16 < 16 by omega)
  have hlow := Text.digit?_digitChar (Nat.le_refl 16) (show n % 16 < 16 by omega)
  have hsum : 16 * (n / 16) + n % 16 = n := by omega
  simp [fourDigits, Text.positional?, hzero, hhigh, hlow, hsum]

/-- The escape of a control character is read as that character. -/
theorem escapedChar_control {c : Char} (h : c < ' ') (t : List Char) :
    escapedChar ((controlEscape c).tail ++ t) = .ok (c, t) := by
  have hn := toNat_lt_of_lt_blank h
  have htrailing : isTrailing c.toNat = false := by simp [isTrailing]; omega
  have hleading : isLeading c.toNat = false := by simp [isLeading]; omega
  have hdigits := fourDigits_control hn t
  simp only [controlEscape, List.tail_cons, List.cons_append, List.nil_append]
  simp [escapedChar, numberedChar, hdigits, htrailing, hleading, bind, Except.bind]

/-- The escape of a control character holds none itself. -/
theorem unbroken_control {c : Char} (h : c < ' ') : Unbroken (controlEscape c).tail := by
  have hdigit : ∀ e : Fin 16, ¬ Nat.digitChar e < ' ' := by decide
  have hn := toNat_lt_of_lt_blank h
  have hhigh := hdigit ⟨c.toNat / 16, by omega⟩
  have hlow := hdigit ⟨c.toNat % 16, by omega⟩
  simp [controlEscape, unbroken_cons, unbroken_nil, hhigh, hlow]

/-- A character is written as an escape that is read as this character, or as it is. -/
theorem writeChar_cases (c : Char) :
    (∃ t, writeChar c = '\\' :: t ∧ Unbroken t ∧
      ∀ rest, escapedChar (t ++ rest) = .ok (c, rest)) ∨
    (writeChar c = [c] ∧ c ≠ '"' ∧ c ≠ '\\' ∧ ¬ c < ' ') := by
  unfold writeChar
  split
  · rename_i h
    cases h with
    | inl h => subst h; exact .inl ⟨_, rfl, by simp [Unbroken], fun _ => rfl⟩
    | inr h => subst h; exact .inl ⟨_, rfl, by simp [Unbroken], fun _ => rfl⟩
  split
  · rename_i h; subst h; exact .inl ⟨_, rfl, by simp [Unbroken], fun _ => rfl⟩
  split
  · rename_i h; subst h; exact .inl ⟨_, rfl, by simp [Unbroken], fun _ => rfl⟩
  split
  · rename_i h; subst h; exact .inl ⟨_, rfl, by simp [Unbroken], fun _ => rfl⟩
  split
  · rename_i h; subst h; exact .inl ⟨_, rfl, by simp [Unbroken], fun _ => rfl⟩
  split
  · rename_i h; subst h; exact .inl ⟨_, rfl, by simp [Unbroken], fun _ => rfl⟩
  split
  · rename_i h
    exact .inl ⟨_, rfl, unbroken_control h, escapedChar_control h⟩
  · rename_i hplain _ _ _ _ _ hcontrol
    exact .inr ⟨rfl, fun h => hplain (.inl h), fun h => hplain (.inr h), hcontrol⟩

/-- One character more. -/
theorem textFrom_writeChar (fuel : Nat) (c : Char) (t : List Char) :
    textFrom (fuel + 1) (writeChar c ++ t) =
      (textFrom fuel t).bind fun r => .ok (c :: r.1, r.2) := by
  obtain ⟨u, hu, -, hescape⟩ | ⟨hc, hquote, hslash, hcontrol⟩ := writeChar_cases c
  · rw [hu, List.cons_append]
    simp [textFrom, hescape t, bind, Except.bind]
  · rw [hc]
    simp [textFrom, hquote, hslash, hcontrol, bind]

/-- What is written for a character is no control character. -/
theorem unbroken_writeChar (c : Char) : Unbroken (writeChar c) := by
  obtain ⟨t, ht, hunbroken, -⟩ | ⟨hc, -, -, hcontrol⟩ := writeChar_cases c
  · rw [ht, unbroken_cons]
    exact ⟨by decide, hunbroken⟩
  · rw [hc, unbroken_cons]
    exact ⟨hcontrol, unbroken_nil⟩

/-- A text is read back from its escapes, whatever it holds. -/
theorem textFrom_write (s : List Char) (rest : List Char) {fuel : Nat} (hf : s.length < fuel) :
    textFrom fuel (s.flatMap writeChar ++ '"' :: rest) = .ok (s, rest) := by
  induction s generalizing fuel with
  | nil =>
    cases fuel with
    | zero => exact absurd hf (Nat.not_lt_zero _)
    | succ fuel => rfl
  | cons c s ih =>
    cases fuel with
    | zero => exact absurd hf (Nat.not_lt_zero _)
    | succ fuel =>
      have hlt : s.length < fuel := by simpa using hf
      rw [List.flatMap_cons, List.append_assoc, textFrom_writeChar, ih hlt]
      rfl

theorem length_le_written (s : List Char) : s.length ≤ (s.flatMap writeChar).length := by
  have hpos : ∀ c, 1 ≤ (writeChar c).length := by
    intro c
    obtain ⟨t, ht, -⟩ | ⟨hc, -⟩ := writeChar_cases c
    · simp [ht]
    · simp [hc]
  induction s with
  | nil => exact Nat.zero_le _
  | cons c s ih =>
    have hc := hpos c
    simp only [List.length_cons, List.flatMap_cons, List.length_append]
    omega

/-- A written text is read behind its opening quote, up to its closing quote. -/
theorem scanText_write (s rest : List Char) :
    scanText (s.flatMap writeChar ++ '"' :: rest) = .ok (String.ofList s, rest) := by
  have hlen := length_le_written s
  have hf : s.length < (s.flatMap writeChar ++ '"' :: rest).length := by
    rw [List.length_append, List.length_cons]
    omega
  simp only [scanText, textFrom_write s rest hf]
  rfl

/-- A text is written without a line break, whatever it holds. -/
theorem unbroken_writeText (s : List Char) : Unbroken (writeText s) := by
  have hbody : Unbroken (s.flatMap writeChar) := by
    intro c hc
    obtain ⟨d, _, hd⟩ := List.mem_flatMap.mp hc
    exact unbroken_writeChar d c hd
  simp [writeText, unbroken_cons, unbroken_append, hbody, unbroken_nil]

/-- Plain text stands between quotes as it is. -/
theorem writeText_plain {s : List Char} (h : Text.IsPlain s) :
    writeText s = '"' :: s ++ ['"'] := by
  have hbody : s.flatMap writeChar = s := by
    induction s with
    | nil => rfl
    | cons c s ih =>
      obtain ⟨hblank, -, hquote, hslash⟩ := h.of_mem (List.mem_cons_self (a := c))
      have hcontrol : ¬ c < ' ' := Char.not_lt.mpr hblank
      have hfeed : ∀ d, d < ' ' → c ≠ d := by
        rintro d hd rfl
        exact hcontrol hd
      have hchar : writeChar c = [c] := by
        simp [writeChar, hquote, hslash, hcontrol, hfeed '\n' (by decide),
          hfeed '\r' (by decide), hfeed '\t' (by decide), hfeed '\x08' (by decide),
          hfeed '\x0c' (by decide)]
      rw [List.flatMap_cons, hchar, ih (Text.isPlain_cons.mp h).2]
      rfl
  rw [writeText, hbody]

end ProcessStart.Json
