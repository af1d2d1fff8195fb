import ProcessStart.Text.Numeral

/-!
Digits in front of each other. The digits of a number in a base are digits of
that base, begin with a zero only for zero, and have the number as their
positional value, which zeros in front do not change.
-/
namespace ProcessStart.Text

/-- What is written is digits of the base. -/
theorem mem_toDigits {base n : Nat} (hb : 1 < base) {c : Char} (h : c ∈ Nat.toDigits base n) :
    ∃ d, d < base ∧ c = Nat.digitChar d := by
  induction n using Nat.strongRecOn with
  | ind n ih =>
    by_cases hn : n < base
    · rw [Nat.toDigits_of_lt_base hn, List.mem_singleton] at h
      exact ⟨n, hn, h⟩
    · rw [Nat.toDigits_of_base_le hb (by omega), List.mem_append, List.mem_singleton] at h
      cases h with
      | inl h => exact ih (n / base) (Nat.div_lt_self (by omega) hb) h
      | inr h => exact ⟨n % base, Nat.mod_lt n (by omega), h⟩

/-- What holds of all sixteen digits holds of the digits of a number. -/
theorem forall_toDigits {base n : Nat} (hb : 1 < base) (hb' : base ≤ 16) {p : Char → Prop}
    (h : ∀ d : Fin 16, p (Nat.digitChar d)) : ∀ c ∈ Nat.toDigits base n, p c := by
  intro c hc
  obtain ⟨d, hd, rfl⟩ := mem_toDigits hb hc
  exact h ⟨d, by omega⟩

/-- A number other than zero does not begin with a zero. -/
theorem head?_toDigits_ne_zero {base n : Nat} (hb : 1 < base) (hn : n ≠ 0) :
    (Nat.toDigits base n).head? ≠ some '0' := by
  induction n using Nat.strongRecOn with
  | ind n ih =>
    by_cases hlt : n < base
    · simpa [Nat.toDigits_of_lt_base hlt] using hn
    · have hpos : n / base ≠ 0 := Nat.ne_of_gt (Nat.div_pos (by omega) (by omega))
      have hrest := ih (n / base) (Nat.div_lt_self (by omega) hb) hpos
      rw [Nat.toDigits_of_base_le hb (by omega), List.head?_append, Option.or_of_isSome
        (List.isSome_head?.mpr Nat.toDigits_ne_nil)]
      exact hrest

/-- No number of 64 bits has more than twenty digits. -/
theorem length_decimal_le (n : UInt64) : (decimal n.toNat).length ≤ 20 := by
  have hn := n.toNat_lt
  exact (Nat.length_toDigits_le_iff (by decide) (by decide)).mpr (by omega)

theorem length_decimal_le_ten (n : UInt32) : (decimal n.toNat).length ≤ 10 := by
  have hn := n.toNat_lt
  exact (Nat.length_toDigits_le_iff (by decide) (by decide)).mpr (by omega)

theorem length_hexadecimal_le (n : UInt64) : (hexadecimal n.toNat).length ≤ 16 := by
  have hn := n.toNat_lt
  exact (Nat.length_toDigits_le_iff (by decide) (by decide)).mpr (by omega)

/-- Padding does not make a number longer than the digits there is room for. -/
theorem length_padded_le {width n k : Nat} (hw : width ≤ k) (h : (decimal n).length ≤ k) :
    (padded width n).length ≤ k := by
  rw [padded, List.length_append, List.length_replicate]
  omega

theorem digit?_digitChar {base d : Nat} (hb : base ≤ 16) (hd : d < base) :
    digit? base (Nat.digitChar d) = some d := by
  have hvalue : ∀ e : Fin 16, (if '0' ≤ Nat.digitChar e ∧ Nat.digitChar e ≤ '9' then
      (Nat.digitChar e).toNat - 48
    else if 'a' ≤ Nat.digitChar e ∧ Nat.digitChar e ≤ 'f' then (Nat.digitChar e).toNat - 87
    else if 'A' ≤ Nat.digitChar e ∧ Nat.digitChar e ≤ 'F' then (Nat.digitChar e).toNat - 55
    else 16) = e.val := by decide
  have h := hvalue ⟨d, by omega⟩
  simp only [digit?, h, if_pos hd]

theorem positional?_append (base n : Nat) (s t : List Char) :
    positional? base n (s ++ t) = (positional? base n s).bind fun m => positional? base m t := by
  induction s generalizing n with
  | nil => rfl
  | cons c s ih =>
    simp only [List.cons_append, positional?]
    cases digit? base c with
    | none => rfl
    | some d => exact ih (base * n + d)

/-- Digits that were written have the number as their value. -/
theorem positional?_toDigits {base : Nat} (hb : 1 < base) (hb' : base ≤ 16) (n : Nat) :
    positional? base 0 (Nat.toDigits base n) = some n := by
  induction n using Nat.strongRecOn with
  | ind n ih =>
    by_cases hn : n < base
    · rw [Nat.toDigits_of_lt_base hn]
      simp [positional?, digit?_digitChar hb' hn]
    · have hd : n % base < base := Nat.mod_lt n (by omega)
      rw [Nat.toDigits_of_base_le hb (by omega), positional?_append,
        ih (n / base) (Nat.div_lt_self (by omega) hb)]
      simp only [Option.bind_some, positional?, digit?_digitChar hb' hd]
      exact congrArg some (Nat.div_add_mod n base)

theorem positional?_zeros {base : Nat} (hb : 0 < base) (hb' : base ≤ 16) (k : Nat) :
    positional? base 0 (List.replicate k '0') = some 0 := by
  induction k with
  | zero => rfl
  | succ k ih =>
    have hzero : digit? base '0' = some 0 := digit?_digitChar hb' hb
    rw [List.replicate_succ, positional?, hzero]
    exact ih

/-- Zeros in front do not change the value. -/
theorem positional?_padded (width n : Nat) : positional? 10 0 (padded width n) = some n := by
  rw [padded, positional?_append, positional?_zeros (by decide) (by decide), Option.bind_some]
  exact positional?_toDigits (by decide) (by decide) n

/-- Zeros in front do not make different numbers alike. -/
theorem padded_injective {width m n : Nat} (h : padded width m = padded width n) : m = n := by
  have hvalue := congrArg (positional? 10 0) h
  rw [positional?_padded, positional?_padded] at hvalue
  exact Option.some.inj hvalue

theorem le_length_padded (width n : Nat) : width ≤ (padded width n).length := by
  rw [padded, List.length_append, List.length_replicate]
  omega

theorem length_padded {width n : Nat} (h : (decimal n).length ≤ width) :
    (padded width n).length = width :=
  Nat.le_antisymm (length_padded_le (Nat.le_refl width) h) (le_length_padded width n)

end ProcessStart.Text
