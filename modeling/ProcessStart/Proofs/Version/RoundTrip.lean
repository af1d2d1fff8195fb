import ProcessStart.Proofs.Version.Grammar

/-!
Versions that were written read back. A version has two renderings, one with
the tag mark and one without. Neither blanks around a rendering nor snapshot
components behind it change what it reads as; so a version that was read can
be written in place of the text it was read from, and no text renders two
versions.
-/
namespace ProcessStart.Version

/-- The two ways to write a version. -/
inductive IsRendering (v : Version) : List Char → Prop where
  | text : IsRendering v v.text
  | tag : IsRendering v v.tag

/-- Components behind a version, each after a dot. -/
def appended (snapshot : List (List Char)) : List Char := snapshot.flatMap ('.' :: ·)

@[simp] theorem appended_nil : appended [] = [] := rfl

@[simp] theorem appended_cons (c : List Char) (snapshot : List (List Char)) :
    appended (c :: snapshot) = '.' :: c ++ appended snapshot := rfl

/-- A digit is not trimmed, begins no tag mark and cuts nothing. -/
theorem free_of_isDigit {c : Char} (h : c.isDigit = true) :
    Text.isBlank c = false ∧ c ≠ 'G' ∧ c ≠ '.' := by
  have hrange : 48 ≤ c.toNat ∧ c.toNat ≤ 57 := Char.isDigit_iff_toNat.mp h
  refine ⟨?_, ?_, ?_⟩
  · simp [Text.isBlank]
    omega
  · rintro rfl
    exact absurd h (by decide)
  · rintro rfl
    exact absurd h (by decide)

theorem IsValid.free_of_mem {s : List Char} (h : IsValid s) {c : Char} (hc : c ∈ s) :
    Text.isBlank c = false ∧ c ≠ 'G' ∧ c ≠ '.' := by
  obtain ⟨n, ⟨digits, hs, -, hdigits, -⟩, -⟩ := h
  rcases hs with rfl | rfl
  · exact free_of_isDigit (hdigits c hc)
  · cases List.mem_cons.mp hc with
    | inl hplus =>
      rw [hplus]
      decide
    | inr hrest => exact free_of_isDigit (hdigits c hrest)

theorem intercalate_eq_appended (c : List Char) (cs : List (List Char)) :
    ['.'].intercalate (c :: cs) = c ++ appended cs := by
  induction cs generalizing c with
  | nil => simp
  | cons d cs ih =>
    rw [List.intercalate_cons_cons, ih, appended_cons]
    simp

theorem free_of_mem_intercalate {cs : List (List Char)} (h : ∀ c ∈ cs, IsValid c) {x : Char}
    (hx : x ∈ ['.'].intercalate cs) : Text.isBlank x = false ∧ x ≠ 'G' := by
  cases cs with
  | nil => exact absurd hx List.not_mem_nil
  | cons c cs =>
    rw [intercalate_eq_appended, List.mem_append, appended, List.mem_flatMap] at hx
    rcases hx with hfirst | ⟨d, hd, hrest⟩
    · obtain ⟨hblank, hmark, -⟩ := (h c List.mem_cons_self).free_of_mem hfirst
      exact ⟨hblank, hmark⟩
    · cases List.mem_cons.mp hrest with
      | inl hdot =>
        rw [hdot]
        decide
      | inr hmem =>
        obtain ⟨hblank, hmark, -⟩ := (h d (List.mem_cons_of_mem c hd)).free_of_mem hmem
        exact ⟨hblank, hmark⟩

section

variable {cs : List (List Char)} {v : Version} (h : IsSpelling cs v)

include h

theorem IsSpelling.pieces_eq : Text.pieces '.' (['.'].intercalate cs) = cs := by
  have hfree : ∀ c ∈ cs, '.' ∉ c := fun c hc hdot => ((h.valid c hc).free_of_mem hdot).2.2 rfl
  obtain ⟨major, minor, snapshot, rfl, -⟩ := h
  exact Text.pieces_intercalate (List.cons_ne_nil major _) hfree

/-- The tag mark is taken off once, if it is there, and nothing else is mistaken for it. -/
theorem IsSpelling.spelling_eq {mark : List Char} (hmark : mark = [] ∨ mark = tagMark)
    {before behind : List Char} (hbefore : Text.IsBlank before) (hbehind : Text.IsBlank behind) :
    spelling (before ++ (mark ++ ['.'].intercalate cs) ++ behind) = ['.'].intercalate cs := by
  have hfree : ∀ x ∈ mark ++ ['.'].intercalate cs, Text.isBlank x = false := by
    intro x hx
    cases List.mem_append.mp hx with
    | inl hx =>
      rcases hmark with rfl | rfl
      · exact absurd hx List.not_mem_nil
      · have hall : tagMark.all (fun c => !Text.isBlank c) = true := rfl
        simpa using List.all_eq_true.mp hall x hx
    | inr hx => exact (free_of_mem_intercalate h.valid hx).1
  have hcore : Text.IsTrimmed (before ++ (mark ++ ['.'].intercalate cs) ++ behind)
      (mark ++ ['.'].intercalate cs) :=
    ⟨⟨before, behind, hbefore, hbehind, rfl⟩, fun c hc => hfree c (List.mem_of_mem_head? hc),
      fun c hc => hfree c (List.mem_of_getLast? hc)⟩
  symm
  rw [← isBare_iff]
  refine ⟨_, hcore, ?_⟩
  rcases hmark with rfl | rfl
  · refine .inr ⟨?_, rfl⟩
    intro hfront
    have hmem : 'G' ∈ ['.'].intercalate cs := hfront.subset (by decide : 'G' ∈ tagMark)
    exact (free_of_mem_intercalate h.valid hmem).2 rfl
  · exact .inl rfl

/-- A spelling may stand between blanks, with or without the tag mark. -/
theorem IsSpelling.parse_eq {mark : List Char} (hmark : mark = [] ∨ mark = tagMark)
    {before behind : List Char} (hbefore : Text.IsBlank before) (hbehind : Text.IsBlank behind) :
    parse (String.ofList (before ++ (mark ++ ['.'].intercalate cs) ++ behind)) = .ok v := by
  have hspelling := h.spelling_eq hmark hbefore hbehind
  have hne : ['.'].intercalate cs ≠ [] := by
    intro hnil
    have hpieces := h.pieces_eq
    obtain ⟨major, minor, snapshot, rfl, -⟩ := h
    rw [hnil] at hpieces
    cases hpieces
  rw [parse_of_bare (by rwa [String.toList_ofList, hspelling]), String.toList_ofList, hspelling,
    h.pieces_eq, fromPieces_eq (by rw [← h.pieces_eq]; exact Text.pieces_ne_nil _ _),
    Fate.version_iff]
  exact h

end

/-- A version and what is appended to it are components. -/
theorem isSpelling_appended (v : Version) {snapshot : List (List Char)}
    (h : ∀ c ∈ snapshot, IsValid c) :
    IsSpelling (Text.decimal v.major.toNat :: Text.decimal v.minor.toNat :: snapshot) v :=
  ⟨_, _, snapshot, rfl, component?_eq_some.mp (component?_decimal v.major),
    component?_eq_some.mp (component?_decimal v.minor), h⟩

theorem text_appended (v : Version) (snapshot : List (List Char)) :
    v.text ++ appended snapshot =
      ['.'].intercalate (Text.decimal v.major.toNat :: Text.decimal v.minor.toNat :: snapshot) := by
  rw [intercalate_eq_appended, appended_cons, text]
  simp

theorem IsRendering.eq_marked {v : Version} {s : List Char} (h : v.IsRendering s) :
    ∃ mark, (mark = [] ∨ mark = tagMark) ∧ s = mark ++ v.text := by
  cases h with
  | text => exact ⟨[], .inl rfl, rfl⟩
  | tag => exact ⟨tagMark, .inr rfl, rfl⟩

/-- A rendering reads back, whatever is around it. -/
theorem IsRendering.parse_decorated {v : Version} {s : List Char} (h : v.IsRendering s)
    {snapshot : List (List Char)} (hsnapshot : ∀ c ∈ snapshot, IsValid c)
    {before behind : List Char} (hbefore : Text.IsBlank before) (hbehind : Text.IsBlank behind) :
    parse (String.ofList (before ++ (s ++ appended snapshot) ++ behind)) = .ok v := by
  obtain ⟨mark, hmark, rfl⟩ := h.eq_marked
  rw [List.append_assoc mark, text_appended]
  exact (isSpelling_appended v hsnapshot).parse_eq hmark hbefore hbehind

/-- Either way to write a version is read back. -/
theorem IsRendering.parse_eq {v : Version} {s : List Char} (h : v.IsRendering s) :
    parse (String.ofList s) = .ok v := by
  have hplain := h.parse_decorated (List.forall_mem_nil IsValid) Text.isBlank_nil Text.isBlank_nil
  rwa [appended_nil, List.append_nil, List.append_nil, List.nil_append] at hplain

/-- The text of a version reads back. -/
theorem parseChars_text (v : Version) : parseChars v.text = .ok v := by
  rw [← parse_ofList]
  exact IsRendering.text.parse_eq

/-- No text is a way to write two versions. -/
theorem IsRendering.unique {v w : Version} {s : List Char} (hv : v.IsRendering s)
    (hw : w.IsRendering s) : v = w :=
  Except.ok.inj (hv.parse_eq.symm.trans hw.parse_eq)

/-- Each rendering of a version reads back, with any blanks around it and any snapshot components
behind it. Of a version that was read, each rendering reads as the text it was read from did; two
texts that are accepted read alike exactly if their versions are written alike; and no text is a
rendering of two versions. -/
theorem parse_renderings :
    (∀ (v : Version) (s : List Char), v.IsRendering s →
      ∀ (snapshot : List (List Char)) (before behind : List Char), (∀ c ∈ snapshot, IsValid c) →
        Text.IsBlank before → Text.IsBlank behind →
        parse (String.ofList (before ++ (s ++ appended snapshot) ++ behind)) = .ok v) ∧
    (∀ (s : String) (v : Version), parse s = .ok v →
      ∀ t, v.IsRendering t → parse (String.ofList t) = .ok v) ∧
    (∀ (s t : String) (v w : Version), parse s = .ok v → parse t = .ok w →
      (parse s = parse t ↔ v.text = w.text) ∧ (parse s = parse t ↔ v.tag = w.tag)) ∧
    ∀ (v w : Version) (s : List Char), v.IsRendering s → w.IsRendering s → v = w := by
  refine ⟨?_, ?_, ?_, ?_⟩
  · intro v s hs snapshot before behind hsnapshot hbefore hbehind
    exact hs.parse_decorated hsnapshot hbefore hbehind
  · intro s v _ t ht
    exact ht.parse_eq
  · intro s t v w hv hw
    rw [hv, hw, Except.ok.injEq]
    constructor
    · constructor
      · exact congrArg text
      · intro h
        exact IsRendering.text.unique (h ▸ IsRendering.text)
    · constructor
      · exact congrArg tag
      · intro h
        exact IsRendering.tag.unique (h ▸ IsRendering.tag)
  · intro v w s hv hw
    exact hv.unique hw

/-- Blanks of several kinds, and a sign and zeros in the snapshot. -/
theorem parse_renderings_snapshot :
    (∀ c ∈ ["9000".toList, "+007".toList], IsValid c) ∧ Text.IsBlank "\t\u3000".toList ∧
    Text.IsBlank "\u2029\n".toList ∧
    parse (String.ofList ("\t\u3000".toList ++
      (tag ⟨2, 37⟩ ++ appended ["9000".toList, "+007".toList]) ++ "\u2029\n".toList)) =
        .ok ⟨2, 37⟩ ∧
    parse " GLIBC_+002.034.9000\n" = .ok ⟨2, 34⟩ ∧ parse "2.34" = .ok ⟨2, 34⟩ := by
  have hsnapshot : ∀ c ∈ ["9000".toList, "+007".toList], IsValid c := by
    simp only [List.forall_mem_cons, isValid_iff]
    exact ⟨⟨9000, rfl⟩, ⟨7, rfl⟩, nofun⟩
  have hbefore : Text.IsBlank "\t\u3000".toList := by simp [Text.IsBlank, Text.isBlank]
  have hbehind : Text.IsBlank "\u2029\n".toList := by simp [Text.IsBlank, Text.isBlank]
  have hread : parse " GLIBC_+002.034.9000\n" = .ok ⟨2, 34⟩ := rfl
  refine ⟨hsnapshot, hbefore, hbehind, ?_, hread, ?_⟩
  · exact parse_renderings.1 _ _ .tag _ _ _ hsnapshot hbefore hbehind
  · exact parse_renderings.2.1 _ _ hread _ .text

end ProcessStart.Version
