import ProcessStart.Json.Skip
import ProcessStart.Proofs.Json.Layout

/-!
Passing over what was written. A written value is passed over to what stands
behind it, in either layout and however deep it nests, with no more steps than
it has characters; so the length of a text is always fuel enough.
-/
namespace ProcessStart.Json

/-- One character more. -/
theorem skipTextFrom_writeChar (fuel : Nat) (c : Char) (t : List Char) :
    skipTextFrom (fuel + 1) (writeChar c ++ t) = skipTextFrom fuel t := by
  have hescape : ∀ e s, skipEscape (e :: s) = .ok t →
      skipTextFrom (fuel + 1) ('\\' :: e :: s) = skipTextFrom fuel t := by
    intro e s h
    simp [skipTextFrom, h, bind, Except.bind]
  unfold writeChar
  split
  · rename_i h
    exact hescape c t (by obtain rfl | rfl := h <;> rfl)
  split
  · exact hescape 'n' t rfl
  split
  · exact hescape 'r' t rfl
  split
  · exact hescape 't' t rfl
  split
  · exact hescape 'b' t rfl
  split
  · exact hescape 'f' t rfl
  split
  · rename_i h
    refine hescape 'u' _ ?_
    have hdigits := fourDigits_control (toNat_lt_of_lt_blank h) t
    simp [skipEscape, hdigits, bind, Except.bind]
  · rename_i hplain _ _ _ _ _ hcontrol
    have hquote : c ≠ '"' := fun h => hplain (.inl h)
    have hslash : c ≠ '\\' := fun h => hplain (.inr h)
    simp [skipTextFrom, hquote, hslash, hcontrol]

/-- A text is passed over up to its closing quote, whatever it holds. -/
theorem skipTextFrom_write (s rest : List Char) {fuel : Nat} (hf : s.length < fuel) :
    skipTextFrom fuel (s.flatMap writeChar ++ '"' :: rest) = .ok rest := by
  induction s generalizing fuel with
  | nil =>
    cases fuel with
    | zero => exact absurd hf (Nat.not_lt_zero _)
    | succ fuel => rfl
  | cons c s ih =>
    cases fuel with
    | zero => exact absurd hf (Nat.not_lt_zero _)
    | succ fuel =>
      have hlt : s.length < fuel := by simpa using hf
      rw [List.flatMap_cons, List.append_assoc, skipTextFrom_writeChar, ih hlt]

/-- A written text is passed over from behind its opening quote. -/
theorem skipText_write (s rest : List Char) :
    skipText (s.flatMap writeChar ++ '"' :: rest) = .ok rest := by
  have hlen := length_le_written s
  apply skipTextFrom_write
  rw [List.length_append, List.length_cons]
  omega

/-- Nothing of a number stands where it ends. -/
theorem skipFraction_of_ends {rest : List Char} (h : EndsNumber rest) :
    skipFraction rest = .ok rest := by
  cases rest with
  | nil => rfl
  | cons c s =>
    obtain ⟨-, hpoint, hmark⟩ := endsNumber_cons.mp h
    simp [skipFraction, skipExponentIfAny, hpoint, hmark]

theorem skipNumber_decimal (n : Nat) {rest : List Char} (h : EndsNumber rest) :
    skipNumber (Text.decimal n ++ rest) = .ok rest := by
  by_cases hz : n = 0
  · subst hz
    cases rest with
    | nil => rfl
    | cons c s =>
      have hc := (endsNumber_cons.mp h).1
      have hend := skipFraction_of_ends h
      simp [Text.decimal, skipNumber, hc, hend]
  · obtain ⟨c, s, hs, hc⟩ := decimal_cons n
    have hne : c ≠ '0' := by
      have hhead := Text.head?_toDigits_ne_zero (show 1 < 10 by decide) hz
      rw [Text.decimal] at hs
      simpa [hs] using hhead
    have hdigits : ∀ d ∈ s, isDigit d = true := fun d hd =>
      isDigit_of_mem_decimal (n := n) (by simp [hs, hd])
    have hdrop : (s ++ rest).dropWhile isDigit = rest := by
      rw [List.dropWhile_append_of_pos hdigits]
      cases rest with
      | nil => rfl
      | cons d t => simp [(endsNumber_cons.mp h).1]
    rw [hs, List.cons_append, skipNumber.eq_def]
    simp [hne, skipDigits, hc, hdrop, skipFraction_of_ends h, bind, Except.bind]

def resume (fuel : Nat) : Due → Except Fault (List Char)
  | .done s => .ok s
  | .value frames s => skipFrom fuel frames s

theorem skipFrom_array {s t : List Char} (h : skipBlank s = '[' :: t) (fuel : Nat)
    (frames : List Frame) : skipFrom (fuel + 1) frames s =
      behindOpening .array frames t >>= resume fuel := by
  rw [skipFrom, h]
  rfl

theorem skipFrom_object {s t : List Char} (h : skipBlank s = '{' :: t) (fuel : Nat)
    (frames : List Frame) : skipFrom (fuel + 1) frames s =
      behindOpening .object frames t >>= resume fuel := by
  rw [skipFrom, h]
  rfl

theorem skipFrom_scalar {s t rest : List Char} {c : Char} (h : skipBlank s = c :: t)
    (hc : c ≠ '[' ∧ c ≠ '{') (hscalar : skipScalar (c :: t) = .ok rest) (fuel : Nat)
    (frames : List Frame) : skipFrom (fuel + 1) frames s =
      behindValue frames rest >>= resume fuel := by
  rw [skipFrom, h]
  split
  · rename_i hopen
    exact absurd (List.cons.inj hopen).1 hc.1
  · rename_i hopen
    exact absurd (List.cons.inj hopen).1 hc.2
  · rw [hscalar]
    rfl

/-- From where this text is due as a value to behind it, inside any open brackets, in so many
steps. -/
def SkipsIn (steps : Nat) (text : List Char) : Prop :=
  ∀ fuel frames s rest, EndsNumber rest → skipBlank s = text ++ rest →
    skipFrom (fuel + steps) frames s = behindValue frames rest >>= resume fuel

/-- This text is passed over as a value, in no more steps than it has characters. -/
def Skips (text : List Char) : Prop := ∃ steps ≤ text.length, SkipsIn steps text

/-- This text is passed over as an item or a member, in no more steps than it has characters. -/
def SkipsEntry (frame : Frame) (text : List Char) : Prop :=
  ∃ steps ≤ text.length, ∀ s rest, EndsNumber rest → skipBlank s = skipBlank (text ++ rest) →
    (∃ c t, skipBlank s = c :: t ∧ c ≠ frame.closing) ∧
    ∃ t, frame.skipKey s = .ok t ∧ ∀ fuel frames,
      skipFrom (fuel + steps) frames t = behindValue frames rest >>= resume fuel

theorem Skips.skipValue {text s rest : List Char} (h : Skips text) (hend : EndsNumber rest)
    (hs : skipBlank s = text ++ rest) : skipValue s = .ok rest := by
  obtain ⟨steps, hle, hskips⟩ := h
  have hlen := length_skipBlank_le s
  rw [hs, List.length_append] at hlen
  have hfuel : s.length + 1 = (s.length + 1 - steps) + steps := by omega
  rw [Json.skipValue, hfuel, hskips _ [] s rest hend hs]
  rfl

theorem behindValue_closing {frame : Frame} {frames : List Frame} {s rest : List Char}
    (h : skipBlank s = frame.closing :: rest) :
    behindValue (frame :: frames) s = behindValue frames rest := by
  have hne : frame.closing ≠ ',' := by cases frame <;> decide
  simp [behindValue, h, hne]

theorem behindValue_comma {frame : Frame} {frames : List Frame} {s t : List Char}
    (h : frame.skipKey s = .ok t) :
    behindValue (frame :: frames) (',' :: s) = .ok (.value (frame :: frames) t) := by
  simp [behindValue, skipBlank_cons (c := ',') rfl, h, bind, Except.bind]

theorem behindOpening_closing {frame : Frame} {frames : List Frame} {s rest : List Char}
    (h : skipBlank s = frame.closing :: rest) :
    behindOpening frame frames s = behindValue frames rest := by
  simp [behindOpening, h]

theorem behindOpening_entry {frame : Frame} {frames : List Frame} {c : Char} {s t u : List Char}
    (h : skipBlank s = c :: u) (hc : c ≠ frame.closing) (ht : frame.skipKey (c :: u) = .ok t) :
    behindOpening frame frames s = .ok (.value (frame :: frames) t) := by
  simp [behindOpening, h, hc, ht, bind, Except.bind]

/-- The closing bracket behind blanks, and what follows it. -/
structure Closes (frame : Frame) (close rest : List Char) : Prop where
  closing : skipBlank close = frame.closing :: rest
  ends : EndsNumber close

theorem closes_append (frame : Frame) {gap : List Char} (h : Blanks gap) (rest : List Char) :
    Closes frame (gap ++ frame.closing :: rest) rest := by
  refine ⟨?_, .blanks_append h ?_⟩
  · rw [skipBlank_append h]
    exact skipBlank_cons (by cases frame <;> rfl) rest
  · cases frame <;> exact endsNumber_cons.mpr (by decide)

/-- The entries behind the first are passed over, each after its comma. -/
theorem skipEntries_tail {frame : Frame} {entries : List (List Char)}
    (hentries : ∀ e ∈ entries, SkipsEntry frame e) :
    ∃ steps ≤ (entries.flatMap (',' :: ·)).length, ∀ close rest, Closes frame close rest →
      ∀ fuel frames, behindValue (frame :: frames) (entries.flatMap (',' :: ·) ++ close) >>=
        resume (fuel + steps) = behindValue frames rest >>= resume fuel := by
  induction entries with
  | nil =>
    refine ⟨0, Nat.le_refl 0, fun close rest hclose fuel frames => ?_⟩
    rw [← behindValue_closing hclose.closing]
    rfl
  | cons e es ih =>
    obtain ⟨n, hn, htail⟩ := ih fun f hf => hentries f (by simp [hf])
    obtain ⟨m, hm, hentry⟩ := hentries e (by simp)
    refine ⟨n + m, ?_, ?_⟩
    · simp only [List.flatMap_cons, List.length_append, List.length_cons]
      omega
    · intro close rest hclose fuel frames
      obtain ⟨-, t, hkey, hskip⟩ := hentry _ _ (endsNumber_tail es hclose.ends) rfl
      rw [List.flatMap_cons, List.cons_append, List.cons_append, List.append_assoc,
        behindValue_comma hkey, ← htail close rest hclose, ← hskip, Nat.add_assoc]
      rfl

/-- What stands between brackets is passed over, and the closing bracket. -/
theorem skipEntries {frame : Frame} {entries : List (List Char)}
    (hentries : ∀ e ∈ entries, SkipsEntry frame e) :
    ∃ steps ≤ (commaSeparated entries).length, ∀ close rest, Closes frame close rest →
      ∀ fuel frames, behindOpening frame frames (commaSeparated entries ++ close) >>=
        resume (fuel + steps) = behindValue frames rest >>= resume fuel := by
  cases entries with
  | nil =>
    refine ⟨0, Nat.le_refl 0, fun close rest hclose fuel frames => ?_⟩
    rw [← behindOpening_closing hclose.closing]
    rfl
  | cons e es =>
    have hes : ∀ f ∈ es, SkipsEntry frame f := fun f hf => hentries f (by simp [hf])
    obtain ⟨n, hn, htail⟩ := skipEntries_tail hes
    obtain ⟨m, hm, hentry⟩ := hentries e (by simp)
    refine ⟨n + m, ?_, ?_⟩
    · rw [commaSeparated_cons, List.length_append]
      omega
    · intro close rest hclose fuel frames
      have hends := endsNumber_tail es hclose.ends
      obtain ⟨⟨c, u, hu, hc⟩, -⟩ := hentry _ _ hends rfl
      obtain ⟨-, t, hkey, hskip⟩ := hentry (c :: u) _ hends (by rw [← hu, skipBlank_skipBlank])
      rw [commaSeparated_cons, List.append_assoc, behindOpening_entry hu hc hkey,
        ← htail close rest hclose, ← hskip, Nat.add_assoc]
      rfl

theorem skipsEntry_item {gap text : List Char} (hgap : Blanks gap) (hbegins : Begins text)
    (h : Skips text) : SkipsEntry .array (gap ++ text) := by
  obtain ⟨n, hn, hskips⟩ := h
  refine ⟨n, by rw [List.length_append]; omega, ?_⟩
  intro s rest hend hs
  rw [List.append_assoc, skipBlank_append hgap, hbegins.skipBlank_append] at hs
  refine ⟨?_, s, rfl, fun fuel frames => hskips fuel frames s rest hend hs⟩
  obtain ⟨c, t, rfl, -, hc⟩ := hbegins
  exact ⟨c, _, hs, hc⟩

theorem skipsEntry_member {gap space text : List Char} (key : String) (hgap : Blanks gap)
    (hspace : Blanks space) (hbegins : Begins text) (h : Skips text) :
    SkipsEntry .object (gap ++ (writeText key.toList ++ ':' :: (space ++ text))) := by
  obtain ⟨n, hn, hskips⟩ := h
  refine ⟨n, by simp only [List.length_append, List.length_cons]; omega, ?_⟩
  intro s rest hend hs
  have hquoted : skipBlank s =
      '"' :: (key.toList.flatMap writeChar ++ '"' :: ':' :: (space ++ (text ++ rest))) := by
    rw [hs, List.append_assoc, skipBlank_append hgap]
    simp [writeText, skipBlank_cons (c := '"') rfl]
  have hvalue : skipBlank (space ++ (text ++ rest)) = text ++ rest := by
    rw [skipBlank_append hspace, hbegins.skipBlank_append]
  refine ⟨⟨_, _, hquoted, by decide⟩, space ++ (text ++ rest), ?_, ?_⟩
  · rw [Frame.skipKey, hquoted]
    simp only [skipText_write, bind, Except.bind]
    rfl
  · exact fun fuel frames => hskips fuel frames _ rest hend hvalue

theorem skips_scalar {c : Char} {s : List Char} (hc : c ≠ '[' ∧ c ≠ '{')
    (h : ∀ rest, EndsNumber rest → skipScalar (c :: (s ++ rest)) = .ok rest) :
    Skips (c :: s) :=
  ⟨1, Nat.le_add_left 1 _, fun fuel frames _ rest hend hs =>
    skipFrom_scalar hs hc (h rest hend) fuel frames⟩

theorem skips_number {n : Number} (h : n.InRange) : Skips (writeNumber n) := by
  cases n with
  | float x => exact absurd h (by simp [Number.InRange])
  | integer n =>
    cases n with
    | ofNat n =>
      obtain ⟨c, s, hs, hc⟩ := decimal_cons n
      rw [writeNumber, Text.signedDecimal, hs]
      refine skips_scalar ⟨ne_of_isDigit hc rfl, ne_of_isDigit hc rfl⟩ fun rest hend => ?_
      have hskip := skipNumber_decimal n hend
      rw [hs, List.cons_append] at hskip
      rw [skipScalar.eq_def]
      simp [ne_of_isDigit hc (d := 'n') rfl, ne_of_isDigit hc (d := 't') rfl,
        ne_of_isDigit hc (d := 'f') rfl, ne_of_isDigit hc (d := '"') rfl,
        ne_of_isDigit hc (d := '-') rfl, hc, hskip]
    | negSucc n => exact skips_scalar (by decide) fun rest => skipNumber_decimal (n + 1)

/-- A pair of brackets is passed over with the entries between them. -/
theorem skips_bracketed (frame : Frame) {opening : Char} {gap : List Char}
    {entries : List (List Char)}
    (hopening : ∀ {s t}, skipBlank s = opening :: t → ∀ fuel frames,
      skipFrom (fuel + 1) frames s = behindOpening frame frames t >>= resume fuel)
    (hgap : Blanks gap) (hentries : ∀ e ∈ entries, SkipsEntry frame e) :
    Skips (opening :: (commaSeparated entries ++ (gap ++ [frame.closing]))) := by
  obtain ⟨n, hn, hskip⟩ := skipEntries hentries
  refine ⟨n + 1, by simp only [List.length_cons, List.length_append]; omega, ?_⟩
  intro fuel frames s rest _ hs
  rw [← hskip _ rest (closes_append frame hgap rest), ← Nat.add_assoc]
  exact hopening (by simpa using hs) (fuel + n) frames

/-- A written value is passed over. -/
theorem skips_write (l : Layout) {v : Json} (h : v.Exact) : Skips (l.write v) := by
  induction v generalizing l with
  | null => rw [l.write_null]; exact skips_scalar (by decide) fun _ _ => rfl
  | bool b =>
    cases b with
    | true => rw [l.write_true]; exact skips_scalar (by decide) fun _ _ => rfl
    | false => rw [l.write_false]; exact skips_scalar (by decide) fun _ _ => rfl
  | number n => rw [l.write_number]; exact skips_number h
  | text s =>
    rw [l.write_text]
    refine skips_scalar (by decide) fun rest _ => ?_
    simpa [skipScalar] using skipText_write s.toList rest
  | array items ih =>
    have hexact := (exact_array items).mp h
    rw [l.write_array]
    refine skips_bracketed .array (fun h => skipFrom_array h) (l.blanks_closing items) ?_
    intro e he
    obtain ⟨v, hv, rfl⟩ := List.mem_map.mp he
    exact skipsEntry_item l.inner.blanks_gap (l.inner.begins_write (hexact v hv))
      (ih v hv l.inner (hexact v hv))
  | object ms ih =>
    have hexact := (exact_object ms).mp h
    rw [l.write_object]
    refine skips_bracketed .object (fun h => skipFrom_object h) (l.blanks_closing ms) ?_
    intro e he
    obtain ⟨m, hm, rfl⟩ := List.mem_map.mp he
    exact skipsEntry_member m.1 l.inner.blanks_gap l.inner.blanks_space
      (l.inner.begins_write (hexact m hm)) (ih m hm l.inner (hexact m hm))

end ProcessStart.Json
