import ProcessStart.Text.Split

/-!
Blanks at the two ends of a text: however many there are, what is left without
them is the same, and nothing is left of a text of blanks alone. What is left is the one
part of the text that has blanks alone on both sides and none at its own ends.
-/
namespace ProcessStart.Text

/-- Nothing but blank characters. -/
def IsBlank (s : List Char) : Prop := ∀ c ∈ s, isBlank c = true

theorem isBlank_nil : IsBlank [] := nofun

theorem isBlank_cons {c : Char} {s : List Char} :
    IsBlank (c :: s) ↔ isBlank c = true ∧ IsBlank s := List.forall_mem_cons

theorem isBlank_append {s t : List Char} : IsBlank (s ++ t) ↔ IsBlank s ∧ IsBlank t :=
  List.forall_mem_append

theorem IsBlank.reverse {s : List Char} (h : IsBlank s) : IsBlank s.reverse :=
  fun c hc => h c (List.mem_reverse.mp hc)

theorem trimStart_eq_nil {s : List Char} : trimStart s = [] ↔ IsBlank s := by
  induction s with
  | nil => exact iff_of_true rfl isBlank_nil
  | cons c s ih =>
    cases hc : isBlank c with
    | true => rw [trimStart_cons_blank hc, ih, isBlank_cons, hc, eq_self, true_and]
    | false => simp [trimStart_cons_other hc, isBlank_cons, hc]

theorem trimEnd_eq_nil {s : List Char} : trimEnd s = [] ↔ IsBlank s := by
  rw [trimEnd, List.reverse_eq_nil_iff]
  exact trimStart_eq_nil.trans ⟨fun h => s.reverse_reverse ▸ h.reverse, IsBlank.reverse⟩

theorem trimEnd_append_blank (s : List Char) {w : List Char} (h : IsBlank w) :
    trimEnd (s ++ w) = trimEnd s := by
  rw [trimEnd, List.reverse_append, List.dropWhile_append_of_pos h.reverse]
  rfl

theorem trim_append_blank (s : List Char) {w : List Char} (h : IsBlank w) :
    trim (s ++ w) = trim s := by
  induction s with
  | nil =>
    rw [List.nil_append, trim, trimStart_eq_nil.mpr h]
    rfl
  | cons c s ih =>
    rw [List.cons_append, trim, trim]
    cases hc : isBlank c with
    | true =>
      rw [trimStart_cons_blank hc, trimStart_cons_blank hc]
      exact ih
    | false =>
      rw [trimStart_cons_other hc, trimStart_cons_other hc, ← List.cons_append]
      exact trimEnd_append_blank (c :: s) h

theorem trim_blank_append {w : List Char} (h : IsBlank w) (s : List Char) :
    trim (w ++ s) = trim s := by
  rw [trim, trimStart, List.dropWhile_append_of_pos h]
  rfl

theorem trimStart_of_first {s : List Char} (h : ∀ c, s.head? = some c → isBlank c = false) :
    trimStart s = s := by
  cases s with
  | nil => rfl
  | cons c s => exact trimStart_cons_other (h c rfl) s

/-- A text that neither begins nor ends with a blank is left as it is. -/
theorem trim_of_ends {s : List Char} (hfirst : ∀ c, s.head? = some c → isBlank c = false)
    (hlast : ∀ c, s.getLast? = some c → isBlank c = false) : trim s = s := by
  rw [trim, trimStart_of_first hfirst, trimEnd]
  have hreverse : trimStart s.reverse = s.reverse :=
    trimStart_of_first fun c hc => hlast c (List.head?_reverse ▸ hc)
  rw [trimStart] at hreverse
  rw [hreverse, List.reverse_reverse]

/-- Nothing is left of a text exactly if it is blank. -/
theorem trim_eq_nil {s : List Char} : trim s = [] ↔ IsBlank s := by
  induction s with
  | nil => exact iff_of_true rfl isBlank_nil
  | cons c s ih =>
    rw [trim]
    cases hc : isBlank c with
    | true =>
      rw [trimStart_cons_blank hc, isBlank_cons, hc, eq_self, true_and]
      exact ih
    | false =>
      rw [trimStart_cons_other hc]
      exact trimEnd_eq_nil

/-- What stands between the blanks at the two ends of a text. -/
structure IsTrimmed (s core : List Char) : Prop where
  between : ∃ before behind, IsBlank before ∧ IsBlank behind ∧ s = before ++ core ++ behind
  first : ∀ c, core.head? = some c → isBlank c = false
  last : ∀ c, core.getLast? = some c → isBlank c = false

theorem head?_trimStart {s : List Char} {c : Char} (h : (trimStart s).head? = some c) :
    isBlank c = false := by
  have hnot := List.head?_dropWhile_not isBlank s
  rw [trimStart] at h
  rw [h] at hnot
  exact hnot

theorem exists_append_trimStart (s : List Char) : ∃ w, IsBlank w ∧ s = w ++ trimStart s :=
  ⟨s.takeWhile isBlank, fun _ hc => List.all_eq_true.mp List.all_takeWhile _ hc,
    List.takeWhile_append_dropWhile.symm⟩

theorem isTrimmed_trim (s : List Char) : IsTrimmed s (trim s) := by
  obtain ⟨before, hbefore, hs⟩ := exists_append_trimStart s
  obtain ⟨behind, hbehind, hreverse⟩ := exists_append_trimStart (trimStart s).reverse
  have hrest : trimStart s = trim s ++ behind.reverse := by
    rw [← List.reverse_inj, hreverse, List.reverse_append, List.reverse_reverse, trim, trimEnd,
      List.reverse_reverse, trimStart]
  refine ⟨⟨before, behind.reverse, hbefore, hbehind.reverse, ?_⟩, ?_, ?_⟩
  · rw [List.append_assoc, ← hrest]
    exact hs
  · intro c hc
    have hfirst : (trimStart s).head? = some c := by
      rw [hrest, List.head?_append, hc, Option.some_or]
    exact head?_trimStart hfirst
  · intro c hc
    rw [trim, trimEnd, List.getLast?_reverse] at hc
    exact head?_trimStart hc

/-- The blanks at the ends can be taken off in one way only. -/
theorem isTrimmed_iff {s core : List Char} : IsTrimmed s core ↔ core = trim s := by
  constructor
  · rintro ⟨⟨before, behind, hbefore, hbehind, rfl⟩, hfirst, hlast⟩
    rw [trim_append_blank _ hbehind, trim_blank_append hbefore, trim_of_ends hfirst hlast]
  · rintro rfl
    exact isTrimmed_trim s

end ProcessStart.Text
