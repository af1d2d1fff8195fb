import ProcessStart.Proofs.Text.Ascii
import ProcessStart.Proofs.Text.Numerals

/-!
The order of texts, in which the first difference decides. Parts of the same
length are compared one after the other; numerals of the same length compare as
what they stand for, so numbers in columns compare as the numbers do; and ASCII
compares by its bytes as it does by its characters.
-/
namespace ProcessStart.Text

/-- First parts of the same length decide, unless they are the same. -/
theorem lex_append_iff {α : Type} {r : α → α → Prop} (hr : ∀ a, ¬ r a a) {s t : List α}
    (h : s.length = t.length) (u v : List α) :
    List.Lex r (s ++ u) (t ++ v) ↔ List.Lex r s t ∨ s = t ∧ List.Lex r u v := by
  induction s generalizing t with
  | nil =>
    have ht : t = [] := List.eq_nil_of_length_eq_zero h.symm
    rw [ht, List.nil_append, List.nil_append, eq_self, true_and,
      or_iff_right (List.lex_irrefl hr [])]
  | cons a s ih =>
    cases t with
    | nil => cases h
    | cons b t =>
      rw [List.cons_append, List.cons_append, List.cons_lex_cons_iff, List.cons_lex_cons_iff,
        ih (Nat.succ.inj h), List.cons.injEq, and_or_left, or_assoc, and_assoc]

theorem digit?_lt {base d : Nat} {c : Char} (h : digit? base c = some d) : d < base := by
  have hvalue : ∀ value : Nat, (if value < base then some value else none) = some d → d < base := by
    intro value h
    split at h
    case isTrue hlt =>
      cases h
      exact hlt
    case isFalse => cases h
  exact hvalue _ h

/-- A decimal digit is placed by its value. -/
theorem toNat_of_digit?_ten {d : Nat} {c : Char} (h : digit? 10 c = some d) :
    c.toNat = 48 + d := by
  rw [digit?_ten] at h
  split at h
  case isTrue hc =>
    have hlow : 48 ≤ c.toNat := (Char.isDigit_iff_toNat.mp hc).1
    have hzero : '0'.toNat = 48 := rfl
    cases h
    omega
  case isFalse => cases h

/-- With as many digits to come, the greater number stays the greater. -/
theorem lt_of_positional? {base k l m n : Nat} {s t : List Char} (hlength : s.length = t.length)
    (hlt : k < l) (hm : positional? base k s = some m) (hn : positional? base l t = some n) :
    m < n := by
  induction s generalizing k l t with
  | nil =>
    have ht : t = [] := List.eq_nil_of_length_eq_zero hlength.symm
    rw [ht] at hn
    cases hm
    cases hn
    exact hlt
  | cons c s ih =>
    cases t with
    | nil => cases hlength
    | cons d t =>
      obtain ⟨a, ha, hm⟩ := Option.bind_eq_some_iff.mp hm
      obtain ⟨b, hb, hn⟩ := Option.bind_eq_some_iff.mp hn
      have hdigit := digit?_lt ha
      have hnext : base * (k + 1) ≤ base * l := Nat.mul_le_mul_left base hlt
      rw [Nat.mul_succ] at hnext
      exact ih (Nat.succ.inj hlength) (by omega) hm hn

/-- Decimal digits compare as what they stand for, if there are as many. -/
theorem lex_iff_of_positional? {k m n : Nat} {s t : List Char} (hlength : s.length = t.length)
    (hm : positional? 10 k s = some m) (hn : positional? 10 k t = some n) :
    List.Lex (· < ·) s t ↔ m < n := by
  induction s generalizing k t with
  | nil =>
    have ht : t = [] := List.eq_nil_of_length_eq_zero hlength.symm
    rw [ht] at hn ⊢
    cases hm
    cases hn
    exact iff_of_false List.not_lex_nil (Nat.lt_irrefl _)
  | cons c s ih =>
    cases t with
    | nil => cases hlength
    | cons d t =>
      obtain ⟨a, ha, hm⟩ := Option.bind_eq_some_iff.mp hm
      obtain ⟨b, hb, hn⟩ := Option.bind_eq_some_iff.mp hn
      have hrest : s.length = t.length := Nat.succ.inj hlength
      have hc := toNat_of_digit?_ten ha
      have hd := toNat_of_digit?_ten hb
      have hbefore : c < d ↔ c.toNat < d.toNat := Iff.rfl
      have hsame : c = d ↔ c.toNat = d.toNat := Char.toNat_inj.symm
      rw [List.cons_lex_cons_iff, hbefore, hsame]
      obtain hlt | rfl | hgt := Nat.lt_trichotomy a b
      · exact iff_of_true (.inl (by omega)) (lt_of_positional? hrest (by omega) hm hn)
      · rw [ih hrest hm hn]
        omega
      · have hafter := lt_of_positional? hrest.symm (show 10 * k + b < 10 * k + a by omega) hn hm
        exact iff_of_false (by omega) (by omega)

/-- Numbers, each padded to a width and with a mark behind it. -/
def columns : List (Nat × Char) → List Nat → List Char
  | (width, mark) :: layout, n :: ns => padded width n ++ mark :: columns layout ns
  | _, _ => []

/-- There is a column for each number, and none is too narrow. -/
def Fits : List (Nat × Char) → List Nat → Prop
  | [], [] => True
  | (width, _) :: layout, n :: ns => (decimal n).length ≤ width ∧ Fits layout ns
  | _, _ => False

/-- Numbers in columns compare as the numbers do, one after the other. -/
theorem lex_columns {layout : List (Nat × Char)} {ms ns : List Nat} (hm : Fits layout ms)
    (hn : Fits layout ns) :
    List.Lex (· < ·) (columns layout ms) (columns layout ns) ↔ List.Lex (· < ·) ms ns := by
  induction layout generalizing ms ns with
  | nil =>
    cases ms with
    | cons => exact hm.elim
    | nil =>
      cases ns with
      | cons => exact hn.elim
      | nil => exact iff_of_false List.not_lex_nil List.not_lex_nil
  | cons column layout ih =>
    obtain ⟨width, mark⟩ := column
    cases ms with
    | nil => exact hm.elim
    | cons m ms =>
      cases ns with
      | nil => exact hn.elim
      | cons n ns =>
        obtain ⟨hm, hms⟩ := hm
        obtain ⟨hn, hns⟩ := hn
        have hlength : (padded width m).length = (padded width n).length :=
          (length_padded hm).trans (length_padded hn).symm
        have hnumbers := lex_iff_of_positional? hlength (positional?_padded width m)
          (positional?_padded width n)
        have hsame : padded width m = padded width n ↔ m = n :=
          ⟨padded_injective, fun h => by rw [h]⟩
        rw [columns, columns, lex_append_iff Char.lt_irrefl hlength, hnumbers, hsame,
          List.cons_lex_cons_iff, List.cons_lex_cons_iff, or_iff_right (Char.lt_irrefl mark),
          eq_self, true_and, ih hms hns]

/-- The length of a row, its marks counted. -/
def breadth : List (Nat × Char) → Nat
  | [] => 0
  | (width, _) :: layout => width + 1 + breadth layout

/-- Columns that are wide enough are exactly as wide as the layout says. -/
theorem length_columns {layout : List (Nat × Char)} {ns : List Nat} (h : Fits layout ns) :
    (columns layout ns).length = breadth layout := by
  induction layout generalizing ns with
  | nil =>
    cases ns with
    | nil => rfl
    | cons => exact h.elim
  | cons column layout ih =>
    obtain ⟨width, mark⟩ := column
    cases ns with
    | nil => exact h.elim
    | cons n ns =>
      rw [columns, List.length_append, List.length_cons, length_padded h.1, ih h.2, breadth]
      omega

theorem byte_lt_iff {c d : Char} (hc : c.toNat < 0x80) (hd : d.toNat < 0x80) :
    c.toNat.toUInt8 < d.toNat.toUInt8 ↔ c < d := by
  rw [UInt8.lt_iff_toNat_lt, toNat_byte hc, toNat_byte hd]
  rfl

/-- ASCII compares by bytes as by characters. -/
theorem lex_utf8Encode {s t : List Char} (hs : IsAscii s) (ht : IsAscii t) :
    List.Lex (· < ·) (utf8Encode s) (utf8Encode t) ↔ List.Lex (· < ·) s t := by
  rw [utf8Encode_ascii hs, utf8Encode_ascii ht]
  induction s generalizing t with
  | nil =>
    cases t with
    | nil => exact iff_of_false List.not_lex_nil List.not_lex_nil
    | cons d t => exact iff_of_true .nil .nil
  | cons c s ih =>
    cases t with
    | nil => exact iff_of_false List.not_lex_nil List.not_lex_nil
    | cons d t =>
      have hc := hs.toNat_lt List.mem_cons_self
      have hd := ht.toNat_lt List.mem_cons_self
      have hsame : c.toNat.toUInt8 = d.toNat.toUInt8 ↔ c = d := by
        rw [← UInt8.toNat_inj, toNat_byte hc, toNat_byte hd, Char.toNat_inj]
      rw [List.map_cons, List.map_cons, List.cons_lex_cons_iff, List.cons_lex_cons_iff,
        byte_lt_iff hc hd, hsame, ih (isAscii_append (s := [c]).mp hs).2
          (isAscii_append (s := [d]).mp ht).2]

end ProcessStart.Text
