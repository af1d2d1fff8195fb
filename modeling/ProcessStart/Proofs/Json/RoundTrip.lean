import ProcessStart.Proofs.Json.Loops
import ProcessStart.Proofs.Json.Ordered
import ProcessStart.Proofs.Json.Texts

/-!
Reading undoes writing. Of an exact value the reader makes the value with its
members in order, as long as brackets and braces nest no deeper than it goes;
what is written stands on one line.
-/
namespace ProcessStart.Json

def scanMember (depth : Nat) (ms : List (String × Json)) (key : String) (s : List Char) :
    Except Fault (Scanned (List (String × Json))) := do
  let (v, s) ← scanValue depth (← scanColon s)
  .ok (put key v ms, s)

theorem scanValue_array (depth : Nat) (s : List Char) :
    scanValue (depth + 1) ('[' :: s) =
      (scanItems (scanValue depth) true (s.length + 1) s).bind fun r => .ok (.array r.1, r.2) := by
  rw [scanValue, skipBlank_cons rfl]
  rfl

theorem scanValue_object (depth : Nat) (s : List Char) :
    scanValue (depth + 1) ('{' :: s) =
      (scanMembers (scanMember depth) true (s.length + 1) [] s).bind fun r =>
        .ok (.object r.1, r.2) := by
  rw [scanValue, skipBlank_cons rfl]
  rfl

theorem writeItems_eq_map (items : List Json) : writeItems items = items.map write := by
  induction items with
  | nil => rfl
  | cons v vs ih => rw [writeItems, ih, List.map_cons]

def writeMember (m : String × Json) : List Char := writeText m.1.toList ++ ':' :: write m.2

theorem writeMembers_eq_map (ms : List (String × Json)) : writeMembers ms = ms.map writeMember := by
  induction ms with
  | nil => rfl
  | cons m ms ih => rw [writeMembers, ih, List.map_cons, writeMember]

theorem decimal_cons (n : Nat) : ∃ c s, Text.decimal n = c :: s ∧ isDigit c = true := by
  cases h : Text.decimal n with
  | nil => exact absurd h Nat.toDigits_ne_nil
  | cons c s => exact ⟨c, s, rfl, isDigit_of_mem_decimal (n := n) (by simp [h])⟩

theorem ne_of_isDigit {c d : Char} (hc : isDigit c = true) (hd : isDigit d = false) : c ≠ d := by
  rintro rfl
  rw [hc] at hd
  contradiction

theorem not_blank_of_isDigit {c : Char} (h : isDigit c = true) : isJsonBlank c = false := by
  simp [isJsonBlank, ne_of_isDigit h (d := ' ') rfl, ne_of_isDigit h (d := '\n') rfl,
    ne_of_isDigit h (d := '\t') rfl, ne_of_isDigit h (d := '\r') rfl]

theorem scanValue_digit {c : Char} (hc : isDigit c = true) (depth : Nat) (s : List Char) :
    scanValue depth (c :: s) =
      (scanNumber false (c :: s)).bind fun r => .ok (.number r.1, r.2) := by
  rw [scanValue.eq_def, skipBlank_cons (not_blank_of_isDigit hc)]
  simp [ne_of_isDigit hc (d := 'n') rfl, ne_of_isDigit hc (d := 't') rfl,
    ne_of_isDigit hc (d := 'f') rfl, ne_of_isDigit hc (d := '"') rfl,
    ne_of_isDigit hc (d := '-') rfl, ne_of_isDigit hc (d := '[') rfl,
    ne_of_isDigit hc (d := '{') rfl, hc]
  rfl

theorem scanValue_negative (depth : Nat) (s : List Char) :
    scanValue depth ('-' :: s) =
      (scanNumber true s).bind fun r => .ok (.number r.1, r.2) := by
  rw [scanValue.eq_def, skipBlank_cons rfl]
  rfl

theorem scanValue_text (depth : Nat) (s : List Char) :
    scanValue depth ('"' :: s) = (scanText s).bind fun r => .ok (.text r.1, r.2) := by
  rw [scanValue.eq_def, skipBlank_cons rfl]
  rfl

/-- A written number is read again. -/
theorem scanValue_number {n : Number} (h : n.InRange) (depth : Nat) {rest : List Char}
    (hr : EndsNumber rest) :
    scanValue depth (writeNumber n ++ rest) = .ok (.number n, rest) := by
  cases n with
  | float x => exact absurd h (by simp [Number.InRange])
  | integer n =>
    cases n with
    | ofNat n =>
      have hn : n < 0x10000000000000000 := by
        have hlt : (n : Int) < 0x10000000000000000 := h.2
        omega
      obtain ⟨c, s, hs, hc⟩ := decimal_cons n
      have hscan := scanNumber_decimal false hn hr
      simp only [writeNumber, Text.signedDecimal]
      rw [hs, List.cons_append] at hscan ⊢
      rw [scanValue_digit hc, hscan]
      rfl
    | negSucc n =>
      have hn : n + 1 ≤ 0x8000000000000000 := by
        have hle : -0x8000000000000000 ≤ Int.negSucc n := h.1
        omega
      simp only [writeNumber, Text.signedDecimal, List.cons_append]
      rw [scanValue_negative, scanNumber_negative hn hr]
      rfl

/-- A written value begins with neither a blank nor a closing bracket. -/
theorem write_cons {v : Json} (h : v.Exact) :
    ∃ c s, v.write = c :: s ∧ isJsonBlank c = false ∧ c ≠ ']' := by
  cases v with
  | null => exact ⟨'n', _, rfl, rfl, by decide⟩
  | bool b => cases b with
    | true => exact ⟨'t', _, rfl, rfl, by decide⟩
    | false => exact ⟨'f', _, rfl, rfl, by decide⟩
  | number n =>
    cases n with
    | float x => exact absurd h (by simp [Exact, Number.InRange])
    | integer n =>
      cases n with
      | ofNat n =>
        obtain ⟨c, s, hs, hc⟩ := decimal_cons n
        exact ⟨c, s, hs, not_blank_of_isDigit hc, ne_of_isDigit hc rfl⟩
      | negSucc n => exact ⟨'-', _, rfl, rfl, by decide⟩
  | text s => exact ⟨'"', _, rfl, rfl, by decide⟩
  | array items => exact ⟨'[', _, rfl, rfl, by decide⟩
  | object ms => exact ⟨'{', _, rfl, rfl, by decide⟩

/-- A value that is read back on its own is read back as an item. -/
theorem readsItem_of_scan {v : Json} (h : v.Exact) {depth : Nat}
    (hscan : ∀ rest, EndsNumber rest →
      scanValue depth (v.write ++ rest) = .ok (v.ordered, rest)) :
    ReadsItem (scanValue depth) v.write v.ordered := by
  intro rest hr
  have hread := hscan rest hr
  obtain ⟨c, s, hs, hblank, hc⟩ := write_cons h
  rw [hs, List.cons_append] at hread ⊢
  exact ⟨c, s ++ rest, skipBlank_cons hblank _, hc, hread⟩

/-- A value that is read back on its own is put under its key as a member. -/
theorem stepsMember_of_scan {m : String × Json} {depth : Nat}
    (hscan : ∀ rest, EndsNumber rest →
      scanValue depth (m.2.write ++ rest) = .ok (m.2.ordered, rest))
    (ms : List (String × Json)) :
    StepsMember (scanMember depth) (writeMember m) ms (put m.1 m.2.ordered ms) := by
  intro rest hr
  refine ⟨m.1, _, ':' :: (m.2.write ++ rest), skipBlank_cons rfl _, ?_, ?_⟩
  · have htext := scanText_write m.1.toList (':' :: (m.2.write ++ rest))
    rw [String.ofList_toList] at htext
    simpa using htext
  · have hcolon : scanColon (':' :: (m.2.write ++ rest)) = .ok (m.2.write ++ rest) := rfl
    simp only [scanMember, hcolon, bind, Except.bind, hscan rest hr]

/-- A written value is read again, its members put in order. -/
theorem scanValue_write {v : Json} (hv : v.Exact) {depth : Nat} (hd : v.depth ≤ depth)
    {rest : List Char} (hr : EndsNumber rest) :
    scanValue depth (v.write ++ rest) = .ok (v.ordered, rest) := by
  induction v generalizing depth rest with
  | null => rw [scanValue.eq_def]; rfl
  | bool b => cases b with
    | true => rw [scanValue.eq_def]; rfl
    | false => rw [scanValue.eq_def]; rfl
  | number n => exact scanValue_number hv depth hr
  | text s =>
    have htext := scanText_write s.toList rest
    rw [String.ofList_toList] at htext
    simp only [write, writeText, List.cons_append, List.append_assoc, List.nil_append]
    rw [scanValue_text, htext]
    rfl
  | array items ih =>
    cases depth with
    | zero => simp [Json.depth] at hd
    | succ d =>
      have hitems : ∀ v ∈ items, ReadsItem (scanValue d) v.write v.ordered := by
        intro v hm
        have hexact := (exact_array items).mp hv v hm
        exact readsItem_of_scan hexact fun rest hr =>
          ih v hm hexact (depth_array_le.mp hd v hm) hr
      have hlen := length_le_commaSeparated (items.map write)
      simp only [write, writeItems_eq_map, List.cons_append, List.append_assoc, List.nil_append]
      rw [scanValue_array, scanItems_written hitems (skipBlank_cons rfl rest)
        (endsNumber_cons.mpr ⟨rfl, by decide, rfl⟩) (by simp at hlen ⊢; omega)]
      simp [Except.bind, ordered, orderedItems_eq_map]
  | object ms ih =>
    cases depth with
    | zero => simp [Json.depth] at hd
    | succ d =>
      have hms : StepsMembers (scanMember d) writeMember
          (fun done => gathered (orderedMembers done)) ms := by
        intro done m left hm
        have hmem : m ∈ ms := by simp [hm]
        have hstep := stepsMember_of_scan (fun rest hr =>
          ih m hmem ((exact_object ms).mp hv m hmem) (depth_object_le.mp hd m hmem) hr)
          (gathered (orderedMembers done))
        simpa [gathered, orderedMembers_eq_map, List.foldl_append] using hstep
      have hlen := length_le_commaSeparated (ms.map writeMember)
      have hfuel : ms.length < (commaSeparated (ms.map writeMember) ++ '}' :: rest).length + 1 := by
        simp at hlen ⊢
        omega
      have hread := scanMembers_written hms (skipBlank_cons rfl rest)
        (endsNumber_cons.mpr ⟨rfl, by decide, rfl⟩) hfuel
      simp only [write, writeMembers_eq_map, List.cons_append, List.append_assoc, List.nil_append]
      rw [scanValue_object]
      exact congrArg (Except.bind · _) hread

/-- Reading a line that a value was written on. -/
theorem readChars_write {v : Json} (hv : v.Exact) (hd : v.depth ≤ nestingLimit) :
    readChars v.write = .ok v.ordered := by
  have hscan := scanValue_write hv hd endsNumber_nil
  rw [List.append_nil] at hscan
  simp only [readChars, hscan, bind, Except.bind]
  rfl

theorem unbroken_commaSeparated {ts : List (List Char)} (h : ∀ t ∈ ts, Unbroken t) :
    Unbroken (commaSeparated ts) := by
  cases ts with
  | nil => exact unbroken_nil
  | cons t ts =>
    rw [commaSeparated_cons, unbroken_append]
    refine ⟨h t (by simp), ?_⟩
    intro c hc
    obtain ⟨u, hu, hc⟩ := List.mem_flatMap.mp hc
    cases hc with
    | head => decide
    | tail _ hc => exact h u (by simp [hu]) c hc

theorem unbroken_decimal (n : Nat) : Unbroken (Text.decimal n) :=
  unbroken_toDigits (by decide) (by decide) n

theorem unbroken_zeros (n : Nat) : Unbroken (List.replicate n '0') := by
  intro c hc
  rw [(List.mem_replicate.mp hc).2]
  decide

theorem unbroken_pointed {digits : List Char} (h : Unbroken digits) (whole : Nat) :
    Unbroken (Magnitude.pointed digits whole) := by
  have hfilled := unbroken_append.mpr ⟨h, unbroken_zeros (whole - digits.length)⟩
  rw [Magnitude.pointed, unbroken_append, unbroken_cons]
  refine ⟨fun c hc => hfilled c (List.mem_of_mem_take hc), by decide, ?_⟩
  split
  · exact unbroken_zeros 1
  · exact fun c hc => hfilled c (List.mem_of_mem_drop hc)

theorem unbroken_exponentText (e : Int) : Unbroken (Magnitude.exponentText e) := by
  rw [Magnitude.exponentText, unbroken_cons, unbroken_cons]
  refine ⟨by decide, ?_, unbroken_decimal e.natAbs⟩
  split <;> decide

theorem unbroken_decimalText (x : Magnitude.Decimal) : Unbroken (Magnitude.decimalText x) := by
  have hdigits := unbroken_decimal x.digits
  rw [Magnitude.decimalText]
  split
  · split
    · exact unbroken_pointed hdigits _
    · rw [unbroken_append, unbroken_cons, unbroken_cons]
      exact ⟨⟨by decide, by decide, unbroken_zeros _⟩, hdigits⟩
  · have hexponent := unbroken_exponentText (x.exponent + (Text.decimal x.digits).length - 1)
    cases hd : Text.decimal x.digits with
    | nil => exact unbroken_nil
    | cons d ds =>
      rw [hd] at hdigits hexponent
      obtain ⟨hfirst, hrest⟩ := unbroken_cons.mp hdigits
      cases ds with
      | nil => exact unbroken_cons.mpr ⟨hfirst, hexponent⟩
      | cons d' ds =>
        refine unbroken_cons.mpr ⟨hfirst, unbroken_cons.mpr ⟨by decide, ?_⟩⟩
        exact unbroken_append.mpr ⟨hrest, hexponent⟩

/-- No number breaks a line, not even a fraction. -/
theorem unbroken_writeNumber (n : Number) : Unbroken (writeNumber n) := by
  cases n with
  | integer n =>
    cases n with
    | ofNat n => exact unbroken_decimal n
    | negSucc n => exact unbroken_cons.mpr ⟨by decide, unbroken_decimal (n + 1)⟩
  | float x =>
    have hmagnitude : Unbroken x.magnitude.text := by
      rw [Magnitude.text]
      split
      · simp [Unbroken]
      · exact unbroken_decimalText _
    rw [writeNumber, Binary64.text]
    split
    · exact unbroken_cons.mpr ⟨by decide, hmagnitude⟩
    · exact hmagnitude

/-- A value is written on one line. -/
theorem unbroken_write (v : Json) : Unbroken v.write := by
  induction v with
  | null => simp [write, Unbroken]
  | bool b => cases b <;> simp [write, Unbroken]
  | number n => exact unbroken_writeNumber n
  | text s => exact unbroken_writeText s.toList
  | array items ih =>
    have hitems : Unbroken (commaSeparated (items.map write)) := by
      apply unbroken_commaSeparated
      intro t ht
      obtain ⟨v, hm, rfl⟩ := List.mem_map.mp ht
      exact ih v hm
    simp [write, writeItems_eq_map, unbroken_cons, unbroken_append, hitems, unbroken_nil]
  | object ms ih =>
    have hms : Unbroken (commaSeparated (ms.map writeMember)) := by
      apply unbroken_commaSeparated
      intro t ht
      obtain ⟨m, hm, rfl⟩ := List.mem_map.mp ht
      have hvalue := ih m hm
      simp [writeMember, unbroken_append, unbroken_cons, unbroken_writeText, hvalue]
    simp [write, writeMembers_eq_map, unbroken_cons, unbroken_append, hms, unbroken_nil]

end ProcessStart.Json
