import ProcessStart.Proofs.Text.Digits

/-!
Which texts are numerals. A decimal one is digits with at most one plus sign in
front, and its value is that of the digits. In a higher base the letters may be
of either case. Zeros in front count for nothing, however many there are. What
was written as a numeral reads back.
-/
namespace ProcessStart.Text

theorem numeral?_eq_some {base limit n : Nat} {s : List Char} : numeral? base limit s = some n ↔
    unsigned s ≠ [] ∧ positional? base 0 (unsigned s) = some n ∧ n ≤ limit := by
  rw [numeral?]
  split
  · rename_i hnil
    simp [hnil]
  · rename_i hnot
    have hne : unsigned s ≠ [] := hnot
    simp [hne]

theorem unsigned_cases (s : List Char) :
    (∃ digits, s = '+' :: digits ∧ unsigned s = digits) ∨
      s.head? ≠ some '+' ∧ unsigned s = s := by
  cases s with
  | nil => exact .inr ⟨nofun, rfl⟩
  | cons c s =>
    by_cases hc : c = '+'
    · rw [hc]
      exact .inl ⟨s, rfl, rfl⟩
    · refine .inr ⟨by simpa using hc, ?_⟩
      simp [unsigned, hc]

/-- At most one plus sign, then decimal digits, at least one. -/
def IsNumeral (s : List Char) (n : Nat) : Prop :=
  ∃ digits, (s = digits ∨ s = '+' :: digits) ∧ digits ≠ [] ∧ (∀ c ∈ digits, c.isDigit = true) ∧
    Nat.ofDigitChars 10 digits 0 = n

theorem digit?_ten (c : Char) :
    digit? 10 c = if c.isDigit then some (c.toNat - '0'.toNat) else none := by
  have hdigit : c.isDigit = true ↔ '0' ≤ c ∧ c ≤ '9' := by
    rw [Char.isDigit, Bool.and_eq_true, decide_eq_true_iff, decide_eq_true_iff]
    rfl
  by_cases h : '0' ≤ c ∧ c ≤ '9'
  · have hlt : c.toNat - 48 < 10 := by
      have hle : c.toNat ≤ 57 := h.2
      omega
    simp [digit?, h, hdigit.mpr h, hlt]
  · rw [if_neg fun hc => h (hdigit.mp hc)]
    simp only [digit?, if_neg h]
    apply if_neg
    split
    · rename_i hlower
      have hle : 97 ≤ c.toNat := hlower.1
      omega
    · split
      · rename_i hupper
        have hle : 65 ≤ c.toNat := hupper.1
        omega
      · omega

/-- Base ten is the library's reading of decimal digits. -/
theorem positional?_ten {s : List Char} {n m : Nat} : positional? 10 n s = some m ↔
    (∀ c ∈ s, c.isDigit = true) ∧ Nat.ofDigitChars 10 s n = m := by
  induction s generalizing n with
  | nil => simp [positional?]
  | cons c s ih =>
    rw [positional?, digit?_ten, List.forall_mem_cons, Nat.ofDigitChars_cons]
    cases hc : c.isDigit with
    | true => simpa using ih
    | false => simp

/-- What is read in base ten is the decimal numerals up to the limit. -/
theorem numeral?_ten {limit n : Nat} {s : List Char} :
    numeral? 10 limit s = some n ↔ IsNumeral s n ∧ n ≤ limit := by
  rw [numeral?_eq_some, positional?_ten, ← and_assoc]
  apply and_congr_left
  intro _
  constructor
  · rintro ⟨hne, hdigits, hvalue⟩
    refine ⟨unsigned s, ?_, hne, hdigits, hvalue⟩
    obtain ⟨digits, hs, hu⟩ | ⟨-, hu⟩ := unsigned_cases s
    · rw [hu]
      exact .inr hs
    · exact .inl hu.symm
  · rintro ⟨digits, hs, hne, hdigits, hvalue⟩
    have hu : unsigned s = digits := by
      obtain rfl | rfl := hs
      · obtain ⟨rest, rfl, -⟩ | ⟨-, hu⟩ := unsigned_cases s
        · exact absurd (hdigits '+' List.mem_cons_self) (by decide)
        · exact hu
      · rfl
    rw [hu]
    exact ⟨hne, hdigits, hvalue⟩

/-- A number in a base, letters of either case, with any zeros in front. -/
def Spells (base : Nat) (s : List Char) (n : Nat) : Prop :=
  ∃ zeros, s.map Char.toLower = List.replicate zeros '0' ++ Nat.toDigits base n

/-- What is written is a spelling: it has no zeros in front and no letters of upper case. -/
theorem spells_toDigits {base : Nat} (hb : 1 < base) (hb' : base ≤ 16) (n : Nat) :
    Spells base (Nat.toDigits base n) n := by
  have hlower : ∀ c ∈ Nat.toDigits base n, c.toLower = c :=
    forall_toDigits hb hb' (by decide)
  exact ⟨0, (List.map_congr_left hlower).trans (List.map_id _)⟩

theorem spells_hexadecimal (n : Nat) : Spells 16 (hexadecimal n) n :=
  spells_toDigits (by decide) (by decide) n

theorem toNat_toLower (c : Char) : c.toLower.toNat =
    if 65 ≤ c.toNat ∧ c.toNat ≤ 90 then c.toNat + 32 else c.toNat := by
  by_cases h : 65 ≤ c.toNat ∧ c.toNat ≤ 90
  · have hupper : c.val ≥ 'A'.val ∧ c.val ≤ 'Z'.val := h
    have hlower : c.toLower.val = c.val + 32 := congrArg Char.val (dif_pos hupper)
    have hsum : c.toNat + 32 < UInt32.size := by
      change c.toNat + 32 < 4294967296
      omega
    rw [if_pos h]
    calc
      c.toLower.toNat = (c.val + 32).toNat := congrArg UInt32.toNat hlower
      _ = (c.toNat + 32) % UInt32.size := UInt32.toNat_add _ _
      _ = c.toNat + 32 := Nat.mod_eq_of_lt hsum
  · have hupper : ¬ (c.val ≥ 'A'.val ∧ c.val ≤ 'Z'.val) := h
    have hlower : c.toLower = c := dif_neg hupper
    rw [if_neg h, hlower]

/-- The value of a digit by the number of its character. -/
theorem digit?_eq (base : Nat) (c : Char) : digit? base c =
    let value :=
      if 48 ≤ c.toNat ∧ c.toNat ≤ 57 then c.toNat - 48
      else if 97 ≤ c.toNat ∧ c.toNat ≤ 102 then c.toNat - 87
      else if 65 ≤ c.toNat ∧ c.toNat ≤ 70 then c.toNat - 55
      else 16
    if value < base then some value else none := rfl

/-- A digit has its value in either case. -/
theorem digit?_toLower (base : Nat) (c : Char) : digit? base c.toLower = digit? base c := by
  have hvalue : ∀ m n : Nat, m = n →
      (if m < base then some m else none) = if n < base then some n else none := by
    rintro m n rfl
    rfl
  rw [digit?_eq, digit?_eq, toNat_toLower]
  apply hvalue
  split
  · grind
  · rfl

theorem positional?_toLower (base n : Nat) (s : List Char) :
    positional? base n (s.map Char.toLower) = positional? base n s := by
  induction s generalizing n with
  | nil => rfl
  | cons c s ih => simp only [List.map_cons, positional?, digit?_toLower, ih]

/-- What holds of all sixteen digits holds of a spelling, in lower case. -/
theorem Spells.forall_mem {base n : Nat} {s : List Char} (h : Spells base s n) (hb : 1 < base)
    (hb' : base ≤ 16) {p : Char → Prop} (hp : ∀ d : Fin 16, p (Nat.digitChar d)) :
    ∀ c ∈ s, p c.toLower := by
  obtain ⟨zeros, hs⟩ := h
  intro c hc
  have hlower : c.toLower ∈ List.replicate zeros '0' ++ Nat.toDigits base n :=
    hs ▸ List.mem_map_of_mem hc
  rw [List.mem_append, List.mem_replicate] at hlower
  cases hlower with
  | inl hzero =>
    rw [hzero.2]
    exact hp 0
  | inr hdigit => exact forall_toDigits hb hb' hp c.toLower hdigit

/-- A character that is no digit does not stand in a spelling. -/
theorem Spells.not_mem {base n : Nat} {s : List Char} (h : Spells base s n) (hb : 1 < base)
    (hb' : base ≤ 16) {c : Char} (hc : ∀ d : Fin 16, Nat.digitChar d ≠ c.toLower) : c ∉ s :=
  fun hmem => h.forall_mem hb hb' (p := (· ≠ c.toLower)) hc c hmem rfl

/-- A spelling has the value that it spells. -/
theorem Spells.positional? {base n : Nat} {s : List Char} (h : Spells base s n) (hb : 1 < base)
    (hb' : base ≤ 16) : positional? base 0 s = some n := by
  obtain ⟨zeros, hs⟩ := h
  have hpos : 0 < base := Nat.zero_lt_of_lt hb
  rw [← positional?_toLower, hs, positional?_append, positional?_zeros hpos hb', Option.bind_some,
    positional?_toDigits hb hb']

/-- However it is spelled, a number is read, as far as the limit goes. -/
theorem Spells.numeral? {base limit n : Nat} {s : List Char} (h : Spells base s n) (hb : 1 < base)
    (hb' : base ≤ 16) (hn : n ≤ limit) : numeral? base limit s = some n := by
  have hplain : unsigned s = s := by
    obtain ⟨digits, rfl, -⟩ | ⟨-, hs⟩ := unsigned_cases s
    · exact absurd List.mem_cons_self (h.not_mem hb hb' (by decide))
    · exact hs
  refine numeral?_eq_some.mpr ⟨?_, ?_, hn⟩
  · rw [hplain]
    rintro rfl
    obtain ⟨zeros, hs⟩ := h
    exact Nat.toDigits_ne_nil (List.append_eq_nil_iff.mp hs.symm).2
  · rw [hplain]
    exact h.positional? hb hb'

/-- A numeral that was written is read, as far as the limit goes. -/
theorem numeral?_toDigits {base limit n : Nat} (hb : 1 < base) (hb' : base ≤ 16) (hn : n ≤ limit) :
    numeral? base limit (Nat.toDigits base n) = some n :=
  (spells_toDigits hb hb' n).numeral? hb hb' hn

/-- An address reads back in full. -/
theorem numeral?_hexadecimal (n : UInt64) :
    numeral? 16 0xffffffffffffffff (hexadecimal n.toNat) = some n.toNat := by
  have hlt := n.toNat_lt
  exact numeral?_toDigits (by decide) (by decide) (by omega)

end ProcessStart.Text
