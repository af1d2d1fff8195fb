import ProcessStart.Text.Utf8

/-!
Text as bytes and back. Every character, of one byte to four, is read as it was
written, whatever follows; so a text is read as it was written, also behind
another one. The bytes of a character that is not ASCII are not those of any
that is, so a line feed is one byte and stands for nothing else.
-/
namespace ProcessStart.Text

theorem isContinuation_iff {b : UInt8} :
    isContinuation b = true ↔ 128 ≤ b.toNat ∧ b.toNat ≤ 191 := by
  rw [isContinuation, Bool.and_eq_true, decide_eq_true_iff, decide_eq_true_iff,
    UInt8.le_iff_toNat_le, UInt8.le_iff_toNat_le]
  rfl

theorem startsTwo_iff {a b : UInt8} : startsTwo a b = true ↔
    (194 ≤ a.toNat ∧ a.toNat ≤ 223) ∧ 128 ≤ b.toNat ∧ b.toNat ≤ 191 := by
  rw [startsTwo, Bool.and_eq_true, isContinuation_iff, Bool.and_eq_true, decide_eq_true_iff,
    decide_eq_true_iff, UInt8.le_iff_toNat_le, UInt8.le_iff_toNat_le]
  rfl

theorem startsThree_iff {a b : UInt8} : startsThree a b = true ↔
    (128 ≤ b.toNat ∧ b.toNat ≤ 191) ∧ (a.toNat = 224 ∧ 160 ≤ b.toNat ∨
      225 ≤ a.toNat ∧ a.toNat ≤ 236 ∨ a.toNat = 237 ∧ b.toNat ≤ 159 ∨ a.toNat = 238 ∨
      a.toNat = 239) := by
  simp only [startsThree, Bool.and_eq_true, Bool.or_eq_true, isContinuation_iff,
    decide_eq_true_eq, beq_iff_eq, UInt8.le_iff_toNat_le, ← UInt8.toNat_inj, UInt8.reduceToNat,
    or_assoc]

theorem startsFour_iff {a b : UInt8} : startsFour a b = true ↔
    (128 ≤ b.toNat ∧ b.toNat ≤ 191) ∧ (a.toNat = 240 ∧ 144 ≤ b.toNat ∨
      241 ≤ a.toNat ∧ a.toNat ≤ 243 ∨ a.toNat = 244 ∧ b.toNat ≤ 143) := by
  simp only [startsFour, Bool.and_eq_true, Bool.or_eq_true, isContinuation_iff,
    decide_eq_true_eq, beq_iff_eq, UInt8.le_iff_toNat_le, ← UInt8.toNat_inj, UInt8.reduceToNat,
    or_assoc]

section

variable {a b c d : UInt8} (rest : List UInt8)

theorem not_lt_of_le_toNat {a : UInt8} (h : 128 ≤ a.toNat) : ¬ a < 0x80 := by
  rw [UInt8.lt_iff_toNat_lt]
  exact Nat.not_lt.mpr h

theorem utf8Pieces_one (h : a.toNat < 128) :
    utf8Pieces (a :: rest) = .char (Char.ofNat a.toNat) :: utf8Pieces rest := by
  have ha : a < 0x80 := UInt8.lt_iff_toNat_lt.mpr h
  rw [utf8Pieces.eq_def]
  simp only [ha, if_true]

theorem utf8Pieces_two (h : startsTwo a b = true) : utf8Pieces (a :: b :: rest) =
    .char (Char.ofNat (a.toNat % 32 * 64 + payload b)) :: utf8Pieces rest := by
  have ha := not_lt_of_le_toNat (a := a) (by rw [startsTwo_iff] at h; omega)
  rw [utf8Pieces.eq_def]
  simp only [ha, if_false, h, if_true]

theorem utf8Pieces_three (h : startsThree a b = true) (hc : isContinuation c = true) :
    utf8Pieces (a :: b :: c :: rest) =
      .char (Char.ofNat ((a.toNat % 16 * 64 + payload b) * 64 + payload c)) ::
        utf8Pieces rest := by
  have hlead := startsThree_iff.mp h
  have ha := not_lt_of_le_toNat (a := a) (by omega)
  have htwo : ¬ startsTwo a b = true := by
    rw [startsTwo_iff]
    omega
  rw [utf8Pieces.eq_def]
  simp only [ha, htwo, Bool.false_eq_true, if_false, h, hc, if_true]

theorem utf8Pieces_four (h : startsFour a b = true) (hc : isContinuation c = true)
    (hd : isContinuation d = true) : utf8Pieces (a :: b :: c :: d :: rest) =
      .char (Char.ofNat
        (((a.toNat % 8 * 64 + payload b) * 64 + payload c) * 64 + payload d)) ::
        utf8Pieces rest := by
  have hlead := startsFour_iff.mp h
  have ha := not_lt_of_le_toNat (a := a) (by omega)
  have htwo : ¬ startsTwo a b = true := by
    rw [startsTwo_iff]
    omega
  have hthree : ¬ startsThree a b = true := by
    rw [startsThree_iff]
    omega
  rw [utf8Pieces.eq_def]
  simp only [ha, htwo, hthree, Bool.false_eq_true, if_false, h, hc, hd, if_true]

/-- A character is read as it was written. -/
theorem utf8Pieces_encodeChar (x : Char) :
    utf8Pieces (String.utf8EncodeChar x ++ rest) = .char x :: utf8Pieces rest := by
  have hvalid : x.val.toNat < 0xd800 ∨ 0xdfff < x.val.toNat ∧ x.val.toNat < 0x110000 := x.valid
  have hchar : ∀ n, n = x.val.toNat → Char.ofNat n = x := by
    rintro n rfl
    exact x.ofNat_toNat
  have hbyte : ∀ n : Nat, n < 256 → (UInt8.ofNat n).toNat = n :=
    fun n hn => UInt8.toNat_ofNat_of_lt' hn
  unfold String.utf8EncodeChar
  dsimp only
  split
  · rw [List.singleton_append, utf8Pieces_one rest (by rw [hbyte _ (by omega)]; omega), hchar]
    rw [hbyte _ (by omega)]
  split
  · simp only [List.cons_append, List.nil_append]
    rw [utf8Pieces_two rest, hchar]
    · rw [payload, hbyte _ (by omega), hbyte _ (by omega)]
      omega
    · rw [startsTwo_iff, hbyte _ (by omega), hbyte _ (by omega)]
      omega
  split
  · simp only [List.cons_append, List.nil_append]
    rw [utf8Pieces_three rest, hchar]
    · rw [payload, payload, hbyte _ (by omega), hbyte _ (by omega), hbyte _ (by omega)]
      omega
    · rw [startsThree_iff, hbyte _ (by omega), hbyte _ (by omega)]
      omega
    · rw [isContinuation_iff, hbyte _ (by omega)]
      omega
  · simp only [List.cons_append, List.nil_append]
    rw [utf8Pieces_four rest, hchar]
    · rw [payload, payload, payload, hbyte _ (by omega), hbyte _ (by omega), hbyte _ (by omega),
        hbyte _ (by omega)]
      omega
    · rw [startsFour_iff, hbyte _ (by omega), hbyte _ (by omega)]
      omega
    · rw [isContinuation_iff, hbyte _ (by omega)]
      omega
    · rw [isContinuation_iff, hbyte _ (by omega)]
      omega

end

/-- What was encoded is decoded again, whatever bytes follow. -/
theorem utf8Pieces_encode_append (s : List Char) (rest : List UInt8) :
    utf8Pieces (utf8Encode s ++ rest) = s.map .char ++ utf8Pieces rest := by
  induction s with
  | nil => rfl
  | cons c s ih =>
    rw [utf8Encode, List.flatMap_cons, List.append_assoc, utf8Pieces_encodeChar, ← utf8Encode, ih]
    rfl

theorem utf8Pieces_encode (s : List Char) : utf8Pieces (utf8Encode s) = s.map .char := by
  have h := utf8Pieces_encode_append s []
  rwa [List.append_nil, utf8Pieces_nil, List.append_nil] at h

/-- A text is read as it was written. -/
theorem utf8Decode?_utf8Encode (s : List Char) : utf8Decode? (utf8Encode s) = some s := by
  have hchars : ∀ t : List Char, (t.map .char).mapM Utf8Piece.char? = some t := by
    intro t
    induction t with
    | nil => rfl
    | cons c t ih => rw [List.map_cons, List.mapM_cons, ih]; rfl
  rw [utf8Decode?, utf8Pieces_encode, hchars]

/-- A text is shown as it was written. -/
theorem utf8Shown_utf8Encode (s : List Char) : utf8Shown (utf8Encode s) = s := by
  rw [utf8Shown, utf8Pieces_encode, List.map_map]
  exact List.map_id s

/-- The bytes of a character that is not ASCII are those of no ASCII character. -/
theorem le_of_mem_utf8EncodeChar {c : Char} (hc : 128 ≤ c.val.toNat) {b : UInt8}
    (h : b ∈ String.utf8EncodeChar c) : 128 ≤ b.toNat := by
  have hbyte : ∀ n : Nat, 128 ≤ n → n < 256 → 128 ≤ (UInt8.ofNat n).toNat := by
    intro n hn hlt
    rw [UInt8.toNat_ofNat_of_lt' hlt]
    exact hn
  unfold String.utf8EncodeChar at h
  dsimp only at h
  split at h
  · omega
  split at h
  · simp only [List.mem_cons, List.not_mem_nil, or_false] at h
    obtain rfl | rfl := h
    all_goals exact hbyte _ (by omega) (by omega)
  split at h
  all_goals
    simp only [List.mem_cons, List.not_mem_nil, or_false] at h
  · obtain rfl | rfl | rfl := h
    all_goals exact hbyte _ (by omega) (by omega)
  · obtain rfl | rfl | rfl | rfl := h
    all_goals exact hbyte _ (by omega) (by omega)

/-- An ASCII character that a text does not hold is no byte of it either. -/
theorem not_mem_utf8Encode {x : Char} (hx : x.toNat < 128) {s : List Char} (h : x ∉ s) :
    x.toNat.toUInt8 ∉ utf8Encode s := by
  intro hm
  obtain ⟨c, hc, hb⟩ := List.mem_flatMap.mp hm
  have hbyte : ∀ n : Nat, n < 256 → (UInt8.ofNat n).toNat = n :=
    fun n hn => UInt8.toNat_ofNat_of_lt' hn
  by_cases hlow : c.val.toNat ≤ 127
  · rw [String.utf8EncodeChar, if_pos hlow, List.mem_singleton] at hb
    have hsame := congrArg UInt8.toNat hb
    rw [hbyte _ (by omega), hbyte _ (by omega)] at hsame
    rw [Char.toNat_inj.mp hsame] at h
    exact h hc
  · have hhigh := le_of_mem_utf8EncodeChar (by omega) hb
    rw [hbyte _ (by omega)] at hhigh
    omega

end ProcessStart.Text
