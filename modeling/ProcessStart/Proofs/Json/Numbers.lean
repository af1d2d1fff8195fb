import Mathlib.Data.List.TakeDrop
import ProcessStart.Json.Scan
import ProcessStart.Json.Writer
import ProcessStart.Proofs.Text.Digits

/-!
Integers of 64 bits read back as they were written, whatever follows that does
not go on with the number.
-/
namespace ProcessStart.Json

/-- What stands behind a number without being taken for a part of it. -/
def EndsNumber (s : List Char) : Prop :=
  ∀ c ∈ s.head?, isDigit c = false ∧ c ≠ '.' ∧ isExponentMark c = false

theorem endsNumber_nil : EndsNumber [] := by simp [EndsNumber]

theorem endsNumber_cons {c : Char} {s : List Char} :
    EndsNumber (c :: s) ↔ isDigit c = false ∧ c ≠ '.' ∧ isExponentMark c = false := by
  simp [EndsNumber]

theorem isDigit_digitChar {d : Nat} (hd : d < 10) : isDigit (Nat.digitChar d) = true := by
  have h : ∀ e : Fin 10, isDigit (Nat.digitChar e) = true := by decide
  exact h ⟨d, hd⟩

theorem digitValue_digitChar {d : Nat} (hd : d < 10) : digitValue (Nat.digitChar d) = d :=
  Nat.toNat_digitChar_sub_48_of_lt_ten hd

theorem isDigit_of_mem_decimal {n : Nat} {c : Char} (h : c ∈ Text.decimal n) :
    isDigit c = true := by
  obtain ⟨d, hd, rfl⟩ := Text.mem_toDigits (by decide) h
  exact isDigit_digitChar hd

/-- The digits of a number end where it ends. -/
theorem scanDigits_append {ds rest : List Char} (hd : ∀ c ∈ ds, isDigit c = true)
    (hr : EndsNumber rest) : scanDigits (ds ++ rest) = (ds, rest) := by
  rw [scanDigits, List.span_eq_takeWhile_dropWhile, List.takeWhile_append_of_pos hd,
    List.dropWhile_append_of_pos hd]
  cases rest with
  | nil => simp
  | cons c s =>
    have hc := (endsNumber_cons.mp hr).1
    simp [hc]

/-- Digits may be absorbed in two parts as long as none is left over. -/
theorem absorb_append {m : Nat} {ds es : List Char} (h : (absorb m ds).2 = 0) :
    absorb m (ds ++ es) = absorb (absorb m ds).1 es := by
  induction ds generalizing m with
  | nil => rfl
  | cons d ds ih =>
    simp only [List.cons_append, absorb] at h ⊢
    split
    · rename_i hlt
      rw [if_pos hlt] at h
      exact ih h
    · rename_i hlt
      rw [if_neg hlt] at h
      exact absurd h (Nat.succ_ne_zero _)

/-- No digit of a number that fits 64 bits is left out. -/
theorem absorb_decimal {n : Nat} (hn : n < 0x10000000000000000) :
    absorb 0 (Text.decimal n) = (n, 0) := by
  induction n using Nat.strongRecOn with
  | ind n ih =>
    by_cases hlt : n < 10
    · rw [Text.decimal, Nat.toDigits_of_lt_base hlt]
      have hstep : 10 * 0 + n < 0x10000000000000000 := by omega
      simp only [absorb, digitValue_digitChar hlt, if_pos hstep]
      simp
    · have hd : n % 10 < 10 := Nat.mod_lt n (by decide)
      have hrest := ih (n / 10) (by omega) (by omega)
      have hsum : 10 * (n / 10) + n % 10 = n := by omega
      rw [Text.decimal] at hrest ⊢
      rw [Nat.toDigits_of_base_le (by decide) (by omega), absorb_append (by rw [hrest]), hrest]
      simp only [absorb, digitValue_digitChar hd, hsum, if_pos hn]

/-- Behind the digits of the whole part, a number ends with what cannot go on with it. -/
theorem behindWhole_of_ends (negative : Bool) (n : Nat) {rest : List Char} (h : EndsNumber rest) :
    behindWhole negative n 0 rest = .ok (wholeNumber negative n, rest) := by
  cases rest with
  | nil => rfl
  | cons c s =>
    obtain ⟨_, hp, he⟩ := endsNumber_cons.mp h
    simp [behindWhole, hp, he]

/-- A whole number of 64 bits is read back from its digits. -/
theorem scanNumber_decimal (negative : Bool) {n : Nat} {rest : List Char}
    (hn : n < 0x10000000000000000) (hr : EndsNumber rest) :
    scanNumber negative (Text.decimal n ++ rest) = .ok (wholeNumber negative n, rest) := by
  by_cases hz : n = 0
  · subst hz
    cases rest with
    | nil => rfl
    | cons c s =>
      have hc := (endsNumber_cons.mp hr).1
      have hstep := behindWhole_of_ends negative 0 hr
      simp [Text.decimal, scanNumber, hc, hstep, show isDigit '0' = true by decide]
  · have hhead := Text.head?_toDigits_ne_zero (show 1 < 10 by decide) hz
    have hall : ∀ c ∈ Text.decimal n, isDigit c = true := fun c hc => isDigit_of_mem_decimal hc
    have hscan := scanDigits_append hall hr
    have habsorb := absorb_decimal hn
    cases hs : Text.decimal n with
    | nil => exact absurd hs Nat.toDigits_ne_nil
    | cons c s =>
      have hc : isDigit c = true := hall c (by simp [hs])
      have hne : c ≠ '0' := by
        rw [Text.decimal] at hs
        simpa [hs] using hhead
      rw [hs] at hscan habsorb
      rw [List.cons_append] at hscan ⊢
      simp [scanNumber, hc, hne, hscan, habsorb, behindWhole_of_ends negative n hr]

/-- A written integer of 64 bits is read behind its sign. -/
theorem scanNumber_negative {n : Nat} {rest : List Char} (hn : n + 1 ≤ 0x8000000000000000)
    (hr : EndsNumber rest) :
    scanNumber true (Text.decimal (n + 1) ++ rest) = .ok (.integer (.negSucc n), rest) := by
  rw [scanNumber_decimal true (by omega) hr]
  simp only [wholeNumber, Bool.not_true, Bool.false_eq_true, if_false]
  rw [if_pos (by omega), Int.negSucc_eq]
  rfl

end ProcessStart.Json
