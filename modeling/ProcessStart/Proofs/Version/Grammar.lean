import ProcessStart.Proofs.Text.Blank
import ProcessStart.Proofs.Text.Lines
import ProcessStart.Proofs.Text.Numerals
import ProcessStart.Version

/-!
The grammar of versions. What is left of a spelling without blanks at its ends
and without one tag mark is cut at the dots; each piece must be a component,
and there must be two of them at least. The first piece that is no component
is the fault, wherever it stands; a missing minor component is one only where
all pieces are components.
-/
namespace ProcessStart.Version

theorem component?_decimal (n : UInt16) : component? (Text.decimal n.toNat) = some n := by
  have hn := n.toNat_lt
  have hread : Text.numeral? 10 65535 (Text.decimal n.toNat) = some n.toNat :=
    Text.numeral?_toDigits (by decide) (by decide) (by omega)
  rw [component?, hread, Option.map_some, UInt16.ofNat_toNat]

/-- Walking the init array by itself is a matter of the number. -/
theorem walksInitArray_iff {v : Version} : v.walksInitArray = true ↔
    2 < v.major.toNat ∨ v.major.toNat = 2 ∧ 34 ≤ v.minor.toNat := by
  have hle : v.walksInitArray = true ↔ 2 < v.major ∨ 2 = v.major ∧ 34 ≤ v.minor :=
    decide_eq_true_iff
  rw [hle, UInt16.lt_iff_toNat_lt, UInt16.le_iff_toNat_le, ← UInt16.toNat_inj, eq_comm]
  rfl

/-- A decimal numeral that fits sixteen bits. -/
def IsComponent (s : List Char) (n : Nat) : Prop := Text.IsNumeral s n ∧ n ≤ 65535

def IsValid (s : List Char) : Prop := ∃ n, IsComponent s n

/-- The first of the pieces that is no component. -/
structure IsFirstFault (cs : List (List Char)) (i : Nat) : Prop where
  fault : ∃ c, cs[i]? = some c ∧ ¬ IsValid c
  before : ∀ j c, j < i → cs[j]? = some c → IsValid c

/-- A text without the blanks at its ends, and then without one tag mark in front. -/
def IsBare (s bare : List Char) : Prop :=
  ∃ core, Text.IsTrimmed s core ∧
    (core = "GLIBC_".toList ++ bare ∨ ¬ "GLIBC_".toList <+: core ∧ core = bare)

theorem isBare_iff {s bare : List Char} : IsBare s bare ↔ bare = spelling s := by
  simp only [IsBare, Text.isTrimmed_iff, exists_eq_left]
  rw [spelling, withoutTag]
  split
  · rename_i hmark
    obtain ⟨rest, hrest⟩ := List.isPrefixOf_iff_prefix.mp hmark
    rw [← hrest, List.drop_left]
    constructor
    · rintro (h | ⟨hn, -⟩)
      · exact (List.append_cancel_left h).symm
      · exact absurd (List.prefix_append _ _) hn
    · rintro rfl
      exact .inl rfl
  · rename_i hmark
    rw [List.isPrefixOf_iff_prefix] at hmark
    constructor
    · rintro (h | ⟨-, h⟩)
      · exact absurd ⟨bare, h.symm⟩ hmark
      · exact h.symm
    · rintro rfl
      exact .inr ⟨hmark, rfl⟩

theorem component?_eq_some {s : List Char} {v : UInt16} :
    component? s = some v ↔ IsComponent s v.toNat := by
  have hv := v.toNat_lt
  rw [component?, Option.map_eq_some_iff, IsComponent]
  constructor
  · rintro ⟨n, hn, rfl⟩
    have hle := (Text.numeral?_ten.mp hn).2
    rw [UInt16.toNat_ofNat_of_lt' (Nat.lt_succ_of_le hle)]
    exact Text.numeral?_ten.mp hn
  · intro h
    exact ⟨v.toNat, Text.numeral?_ten.mpr h, UInt16.ofNat_toNat⟩

theorem isValid_iff {s : List Char} : IsValid s ↔ ∃ v, component? s = some v := by
  constructor
  · rintro ⟨n, hn⟩
    refine ⟨UInt16.ofNat n, component?_eq_some.mpr ?_⟩
    rw [UInt16.toNat_ofNat_of_lt' (Nat.lt_succ_of_le hn.2)]
    exact hn
  · rintro ⟨v, hv⟩
    exact ⟨v.toNat, component?_eq_some.mp hv⟩

theorem IsFirstFault.unique {cs : List (List Char)} {i j : Nat} (hi : IsFirstFault cs i)
    (hj : IsFirstFault cs j) : i = j := by
  obtain ⟨c, hc, hbad⟩ := hi.fault
  obtain ⟨d, hd, hbad'⟩ := hj.fault
  rcases Nat.lt_trichotomy i j with hlt | heq | hgt
  · exact absurd (hj.before i c hlt hc) hbad
  · exact heq
  · exact absurd (hi.before j d hgt hd) hbad'

theorem IsFirstFault.not_valid {cs : List (List Char)} {i : Nat} (h : IsFirstFault cs i) :
    ¬ ∀ c ∈ cs, IsValid c := by
  intro hall
  obtain ⟨c, hc, hbad⟩ := h.fault
  exact hbad (hall c (List.mem_of_getElem? hc))

/-- The components are read from the left, up to the first piece that is none. -/
theorem readComponents_cases (index : Nat) (cs : List (List Char)) :
    (∃ ns, readComponents index cs = .ok ns ∧ cs.map component? = ns.map some) ∨
      ∃ i, readComponents index cs = .error (.notNumeric (index + i)) ∧ IsFirstFault cs i := by
  induction cs generalizing index with
  | nil => exact .inl ⟨[], rfl, rfl⟩
  | cons c cs ih =>
    cases hc : component? c with
    | none =>
      have hbad : ¬ IsValid c := by
        intro hvalid
        obtain ⟨v, hv⟩ := isValid_iff.mp hvalid
        rw [hc] at hv
        contradiction
      refine .inr ⟨0, ?_, ⟨c, rfl, hbad⟩, fun _ _ hj => absurd hj (Nat.not_lt_zero _)⟩
      simp only [readComponents, hc, Nat.add_zero]
    | some n =>
      obtain ⟨ns, hread, hall⟩ | ⟨i, hread, hfirst⟩ := ih (index + 1)
      · refine .inl ⟨n :: ns, ?_, ?_⟩
        · simp only [readComponents, hc, hread]
          rfl
        · rw [List.map_cons, hc, hall, List.map_cons]
      · refine .inr ⟨i + 1, ?_, hfirst.fault, ?_⟩
        · simp only [readComponents, hc, hread, Nat.add_assoc, Nat.add_comm 1]
          rfl
        · intro j d hj hd
          cases j with
          | zero =>
            cases hd
            exact isValid_iff.mpr ⟨n, hc⟩
          | succ j => exact hfirst.before j d (Nat.lt_of_succ_lt_succ hj) hd

/-- Pieces that spell a version, and the version they spell. What follows the minor component must
be components too, but takes no part in it. -/
def IsSpelling (cs : List (List Char)) (v : Version) : Prop :=
  ∃ major minor snapshot, cs = major :: minor :: snapshot ∧ IsComponent major v.major.toNat ∧
    IsComponent minor v.minor.toNat ∧ ∀ c ∈ snapshot, IsValid c

theorem IsSpelling.valid {cs : List (List Char)} {v : Version} (h : IsSpelling cs v) :
    ∀ c ∈ cs, IsValid c := by
  obtain ⟨major, minor, snapshot, rfl, hmajor, hminor, hrest⟩ := h
  exact List.forall_mem_cons.mpr ⟨⟨_, hmajor⟩, List.forall_mem_cons.mpr ⟨⟨_, hminor⟩, hrest⟩⟩

/-- Pieces spell one version at most. -/
theorem IsSpelling.unique {cs : List (List Char)} {v w : Version} (hv : IsSpelling cs v)
    (hw : IsSpelling cs w) : v = w := by
  obtain ⟨major, minor, snapshot, rfl, hmajor, hminor, -⟩ := hv
  obtain ⟨major', minor', snapshot', hcs, hmajor', hminor', -⟩ := hw
  cases hcs
  have hmajors := (component?_eq_some.mpr hmajor).symm.trans (component?_eq_some.mpr hmajor')
  have hminors := (component?_eq_some.mpr hminor).symm.trans (component?_eq_some.mpr hminor')
  cases v
  cases w
  cases hmajors
  cases hminors
  rfl

/-- What becomes of pieces: the first of them that is no component is the fault, or there is one
component alone, or they spell a version. -/
inductive Fate (cs : List (List Char)) : Except ParseError Version → Prop
  | fault {i : Nat} (h : IsFirstFault cs i) : Fate cs (.error (.notNumeric i))
  | lone {c : List Char} (hcs : cs = [c]) (h : IsValid c) : Fate cs (.error .missingMinor)
  | version {v : Version} (h : IsSpelling cs v) : Fate cs (.ok v)

section

variable {cs : List (List Char)}

theorem Fate.fault_iff {i : Nat} : Fate cs (.error (.notNumeric i)) ↔ IsFirstFault cs i := by
  constructor
  · intro h
    cases h with
    | fault h => exact h
  · exact .fault

theorem Fate.lone_iff : Fate cs (.error .missingMinor) ↔ ∃ c, cs = [c] ∧ IsValid c := by
  constructor
  · intro h
    cases h with
    | lone hcs h => exact ⟨_, hcs, h⟩
  · rintro ⟨c, hcs, h⟩
    exact .lone hcs h

theorem Fate.version_iff {v : Version} : Fate cs (.ok v) ↔ IsSpelling cs v := by
  constructor
  · intro h
    cases h with
    | version h => exact h
  · exact .version

end

/-- No pieces have two fates. -/
theorem Fate.unique {cs : List (List Char)} {r r' : Except ParseError Version} (h : Fate cs r)
    (h' : Fate cs r') : r = r' := by
  have hlone : ∀ {c : List Char}, cs = [c] → IsValid c → ∀ d ∈ cs, IsValid d := by
    rintro c rfl hc
    exact List.forall_mem_singleton.mpr hc
  have hapart : ∀ {c : List Char} {v : Version}, cs = [c] → ¬ IsSpelling cs v := by
    rintro c v rfl ⟨major, minor, snapshot, hcs, -⟩
    cases hcs
  cases h with
  | fault hi =>
    cases h' with
    | fault hj => rw [hi.unique hj]
    | lone hcs hc => exact absurd (hlone hcs hc) hi.not_valid
    | version hv => exact absurd hv.valid hi.not_valid
  | lone hcs hc =>
    cases h' with
    | fault hj => exact absurd (hlone hcs hc) hj.not_valid
    | lone _ _ => rfl
    | version hv => exact absurd hv (hapart hcs)
  | version hv =>
    cases h' with
    | fault hj => exact absurd hv.valid hj.not_valid
    | lone hcs _ => exact absurd hv (hapart hcs)
    | version hw => rw [hv.unique hw]

/-- The version that pieces spell, or what keeps them from spelling one. -/
def fromPieces (cs : List (List Char)) : Except ParseError Version :=
  (readComponents 0 cs).bind fun
    | major :: minor :: _ => .ok ⟨major, minor⟩
    | _ => .error .missingMinor

theorem valid_of_map {cs : List (List Char)} {ns : List UInt16}
    (h : cs.map component? = ns.map some) : ∀ c ∈ cs, IsValid c := by
  intro c hc
  have hmem : component? c ∈ ns.map some := h ▸ List.mem_map_of_mem hc
  obtain ⟨n, -, hn⟩ := List.mem_map.mp hmem
  exact isValid_iff.mpr ⟨n, hn.symm⟩

/-- Reading pieces gives what becomes of them. -/
theorem fate_fromPieces {cs : List (List Char)} (hne : cs ≠ []) : Fate cs (fromPieces cs) := by
  obtain ⟨ns, hread, hall⟩ | ⟨i, hread, hfirst⟩ := readComponents_cases 0 cs
  · have hvalid := valid_of_map hall
    have hlength : cs.length = ns.length := by
      rw [← List.length_map component?, hall, List.length_map]
    rw [fromPieces, hread]
    match cs, ns, hlength with
    | [], [], _ => exact absurd rfl hne
    | [c], [n], _ => exact .lone rfl (hvalid c List.mem_cons_self)
    | c :: d :: cs, n :: m :: ns, _ =>
      obtain ⟨hc, htail⟩ := List.cons.inj hall
      obtain ⟨hd, -⟩ := List.cons.inj htail
      refine .version ⟨c, d, cs, rfl, component?_eq_some.mp hc, component?_eq_some.mp hd, ?_⟩
      intro e he
      exact hvalid e (List.mem_cons_of_mem c (List.mem_cons_of_mem d he))
  · rw [fromPieces, hread, Nat.zero_add]
    exact .fault hfirst

/-- Nothing else becomes of pieces than what reading them gives. -/
theorem fromPieces_eq {cs : List (List Char)} (hne : cs ≠ []) {r : Except ParseError Version} :
    fromPieces cs = r ↔ Fate cs r :=
  ⟨fun h => h ▸ fate_fromPieces hne, (fate_fromPieces hne).unique⟩

theorem parse_of_bare {s : String} (h : spelling s.toList ≠ []) :
    parse s = fromPieces (Text.pieces '.' (spelling s.toList)) := by
  rw [parse, parseChars]
  split
  · contradiction
  · rfl

/-- A spelling is read by the grammar, or refused for its first fault. What is left of it without
blanks and tag mark is one text, cut at the dots in one way. It is refused as empty if nothing is
left; else for the first piece that is no component; else for a missing minor component, if there
is one piece alone; else it is the version that the first two pieces spell. -/
theorem parse_by_grammar (s : String) : ∃ bare cs,
    (∀ b, IsBare s.toList b ↔ b = bare) ∧ (∀ ps, Text.ArePieces '.' bare ps ↔ ps = cs) ∧
    (parse s = .error .empty ↔ bare = []) ∧
    (bare ≠ [] →
      (∀ i, parse s = .error (.notNumeric i) ↔ IsFirstFault cs i) ∧
      (parse s = .error .missingMinor ↔ ∃ c, cs = [c] ∧ IsValid c) ∧
      ∀ v, parse s = .ok v ↔ IsSpelling cs v) := by
  have hfate : spelling s.toList ≠ [] → ∀ r,
      parse s = r ↔ Fate (Text.pieces '.' (spelling s.toList)) r := by
    intro hbare r
    rw [parse_of_bare hbare]
    exact fromPieces_eq (Text.pieces_ne_nil '.' _)
  refine ⟨spelling s.toList, Text.pieces '.' (spelling s.toList), fun _ => isBare_iff,
    fun _ => Text.arePieces_iff, ⟨?_, ?_⟩, ?_⟩
  · intro h
    refine Decidable.byContradiction fun hbare => ?_
    cases (hfate hbare _).mp h
  · intro hbare
    rw [parse, parseChars, hbare]
  · intro hbare
    refine ⟨?_, ?_, ?_⟩
    · intro i
      rw [hfate hbare, Fate.fault_iff]
    · rw [hfate hbare, Fate.lone_iff]
    · intro v
      rw [hfate hbare, Fate.version_iff]

-- A sign and zeros in front belong to a component; the second snapshot component is the fault.
example : parse " GLIBC_+002.034.9000\n" = .ok ⟨2, 34⟩ ∧
    parse "2.34.1.rc1." = .error (.notNumeric 3) := ⟨rfl, rfl⟩

end ProcessStart.Version
