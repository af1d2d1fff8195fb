import ProcessStart.Proofs.Text.Digits
import ProcessStart.Text.Utf8

/-!
ASCII text as bytes, one for each character, and its characters that stand for
themselves in a quoted text.
-/
namespace ProcessStart.Text

def isAsciiChar (c : Char) : Bool := c.toNat < 0x80

def IsAscii (s : List Char) : Prop := s.all isAsciiChar = true

instance (s : List Char) : Decidable (IsAscii s) :=
  inferInstanceAs (Decidable (s.all isAsciiChar = true))

theorem isAscii_append {s t : List Char} : IsAscii (s ++ t) ↔ IsAscii s ∧ IsAscii t := by
  rw [IsAscii, List.all_append, Bool.and_eq_true]
  rfl

theorem IsAscii.toNat_lt {s : List Char} (h : IsAscii s) {c : Char} (hc : c ∈ s) :
    c.toNat < 0x80 := of_decide_eq_true (List.all_eq_true.mp h c hc)

theorem utf8EncodeChar_ascii {c : Char} (h : c.toNat < 0x80) :
    String.utf8EncodeChar c = [c.toNat.toUInt8] := by
  have hsize : c.utf8Size = 1 := Char.utf8Size_eq_one_iff.mpr (by
    have hle : c.toNat ≤ 127 := by omega
    exact hle)
  rw [String.utf8EncodeChar_eq_singleton hsize]
  rfl

/-- ASCII takes one byte a character. -/
theorem utf8Encode_ascii {s : List Char} (h : IsAscii s) :
    utf8Encode s = s.map fun c => c.toNat.toUInt8 := by
  induction s with
  | nil => rfl
  | cons c s ih =>
    have hc := h.toNat_lt (List.mem_cons_self (a := c))
    have hs := ih (isAscii_append (s := [c]).mp h).2
    rw [utf8Encode, List.flatMap_cons, utf8EncodeChar_ascii hc]
    rw [utf8Encode] at hs
    rw [hs]
    rfl

theorem toNat_byte {c : Char} (h : c.toNat < 0x80) : c.toNat.toUInt8.toNat = c.toNat := by
  simp
  omega

theorem byte_lt {c : Char} (h : c.toNat < 0x80) : c.toNat.toUInt8 < 0x80 := by
  rw [UInt8.lt_iff_toNat_lt, toNat_byte h]
  exact h

/-- ASCII is read as it was written. -/
theorem utf8Decode?_encode {s : List Char} (h : IsAscii s) :
    utf8Decode? (utf8Encode s) = some s := by
  rw [utf8Encode_ascii h]
  induction s with
  | nil => rfl
  | cons c s ih =>
    have hc := h.toNat_lt (List.mem_cons_self (a := c))
    have hs := ih (isAscii_append (s := [c]).mp h).2
    rw [utf8Decode?] at hs
    have hpiece : ∀ bytes, utf8Pieces (c.toNat.toUInt8 :: bytes) = .char c :: utf8Pieces bytes := by
      intro bytes
      rw [utf8Pieces.eq_def]
      simp only [byte_lt hc, if_true, toNat_byte hc, Char.ofNat_toNat]
    rw [List.map_cons, utf8Decode?, hpiece, List.mapM_cons, hs]
    rfl

/-- A line feed is the same as a character and as a byte. -/
theorem mem_utf8Encode {s : List Char} (h : IsAscii s) : 10 ∈ utf8Encode s ↔ '\n' ∈ s := by
  rw [utf8Encode_ascii h, List.mem_map]
  constructor
  · rintro ⟨c, hc, he⟩
    have hbyte := congrArg UInt8.toNat he
    rw [toNat_byte (h.toNat_lt hc)] at hbyte
    have hfeed : c = '\n' := Char.toNat_inj.mp hbyte
    rwa [hfeed] at hc
  · intro hc
    exact ⟨'\n', hc, rfl⟩

/-- ASCII that is written without an escape. -/
def isPlainChar (c : Char) : Bool := ' ' ≤ c && c.toNat < 0x80 && c != '"' && c != '\\'

def IsPlain (s : List Char) : Prop := s.all isPlainChar = true

instance (s : List Char) : Decidable (IsPlain s) :=
  inferInstanceAs (Decidable (s.all isPlainChar = true))

theorem isPlain_append {s t : List Char} : IsPlain (s ++ t) ↔ IsPlain s ∧ IsPlain t := by
  rw [IsPlain, List.all_append, Bool.and_eq_true]
  rfl

theorem isPlain_cons {c : Char} {s : List Char} : IsPlain (c :: s) ↔ IsPlain [c] ∧ IsPlain s :=
  isPlain_append (s := [c])

theorem IsPlain.of_mem {s : List Char} (h : IsPlain s) {c : Char} (hc : c ∈ s) :
    ' ' ≤ c ∧ c.toNat < 0x80 ∧ c ≠ '"' ∧ c ≠ '\\' := by
  have hchar := List.all_eq_true.mp h c hc
  simpa [isPlainChar, and_assoc] using hchar

theorem IsPlain.isAscii {s : List Char} (h : IsPlain s) : IsAscii s :=
  List.all_eq_true.mpr fun _ hc => decide_eq_true (h.of_mem hc).2.1

theorem isPlain_toDigits {base : Nat} (hb : 1 < base) (hb' : base ≤ 16) (n : Nat) :
    IsPlain (Nat.toDigits base n) := by
  refine List.all_eq_true.mpr ?_
  exact forall_toDigits hb hb' (by decide)

theorem isPlain_decimal (n : Nat) : IsPlain (decimal n) :=
  isPlain_toDigits (by decide) (by decide) n

theorem isPlain_padded (width n : Nat) : IsPlain (padded width n) := by
  refine isPlain_append.mpr ⟨List.all_eq_true.mpr ?_, isPlain_decimal n⟩
  intro c hc
  rw [(List.mem_replicate.mp hc).2]
  decide

theorem isPlain_address (n : Nat) : IsPlain (address n) := by
  rw [address, isPlain_cons, isPlain_cons (c := 'x')]
  exact ⟨by decide, by decide, isPlain_toDigits (by decide) (by decide) n⟩

end ProcessStart.Text
