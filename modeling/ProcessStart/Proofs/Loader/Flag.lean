import Mathlib.Data.List.Forall2
import ProcessStart.Loader.TraceFlag
import ProcessStart.Proofs.Loader.Entries

/-!
The flag by complete texts. The cursor cuts every entry, but no spelling of
"on" is as long as what a cut leaves of a value, so a cut value is on exactly
if the complete one is; and whether an entry is one of the variable shows in
front of the cut.
-/
namespace ProcessStart.Loader

theorem behind?_eq_some {first s rest : List UInt8} :
    behind? first s = some rest ↔ s = first ++ rest := by
  induction first generalizing s with
  | nil => simp [behind?, eq_comm]
  | cons b first ih =>
    cases s with
    | nil => simp [behind?]
    | cons c s =>
      by_cases h : b = c
      · subst h
        simp [behind?, ih]
      · simp [behind?, h, Ne.symm h]

theorem entryValue?_eq_some {name entry value : List UInt8} :
    entryValue? name entry = some value ↔ entry = name ++ [0x3d] ++ value := by
  simp [entryValue?, Option.bind_eq_some_iff, behind?_eq_some]

/-- Two bytes that are the same letter, or the same byte. -/
def SameLetter (b c : UInt8) : Prop :=
  b = c ∨ 0x41 ≤ b ∧ b ≤ 0x5a ∧ c = b + 0x20 ∨ 0x41 ≤ c ∧ c ≤ 0x5a ∧ b = c + 0x20

namespace TraceFlag

theorem toNat_lowerCase (b : UInt8) : (lowerCase b).toNat =
    if 0x41 ≤ b.toNat ∧ b.toNat ≤ 0x5a then b.toNat + 0x20 else b.toNat := by
  have hupper : (0x41 ≤ b && b ≤ 0x5a) = true ↔ 0x41 ≤ b.toNat ∧ b.toNat ≤ 0x5a := by
    simp [UInt8.le_iff_toNat_le]
  by_cases h : 0x41 ≤ b.toNat ∧ b.toNat ≤ 0x5a
  · rw [lowerCase, if_pos (hupper.mpr h), if_pos h, UInt8.toNat_add]
    exact Nat.mod_eq_of_lt (Nat.lt_of_le_of_lt (Nat.add_le_add_right h.2 _) (by decide))
  · rw [lowerCase, if_neg (mt hupper.mp h), if_neg h]

theorem sameLetter_iff {b c : UInt8} : SameLetter b c ↔ lowerCase b = lowerCase c := by
  have hshift : ∀ {x y : UInt8}, x ≤ 0x5a → (y = x + 0x20 ↔ y.toNat = x.toNat + 0x20) := by
    intro x y hx
    have hle : x.toNat ≤ 0x5a := UInt8.le_iff_toNat_le.mp hx
    rw [← UInt8.toNat_inj, UInt8.toNat_add]
    exact Eq.congr_right (Nat.mod_eq_of_lt (Nat.lt_of_le_of_lt (Nat.add_le_add_right hle _)
      (by decide)))
  rw [SameLetter, and_congr_right fun hb => and_congr_right fun hb' => hshift hb',
    and_congr_right fun hc => and_congr_right fun hc' => hshift hc', ← UInt8.toNat_inj,
    ← UInt8.toNat_inj, toNat_lowerCase, toNat_lowerCase]
  simp only [UInt8.le_iff_toNat_le, UInt8.reduceToNat]
  split <;> split <;> omega

/-- A value is one of the spellings of "on", whatever the case of its letters. -/
def SpellsOn (value : List UInt8) : Prop :=
  ∃ word ∈ ["1", "true", "on", "yes"], List.Forall₂ SameLetter value (Text.utf8Encode word.toList)

/-- The check of a value accepts the spellings of "on" and nothing else. -/
theorem isOn_iff {value : List UInt8} : isOn value = true ↔ SpellsOn value := by
  have hlower : ∀ word ∈ ["1", "true", "on", "yes"],
      (Text.utf8Encode word.toList).map lowerCase = Text.utf8Encode word.toList := by decide
  have hsame : ∀ word : List UInt8,
      List.Forall₂ SameLetter value word ↔ value.map lowerCase = word.map lowerCase := by
    intro word
    rw [← List.forall₂_eq_eq_eq, List.forall₂_map_left_iff, List.forall₂_map_right_iff]
    exact ⟨.imp fun _ _ => sameLetter_iff.mp, .imp fun _ _ => sameLetter_iff.mpr⟩
  rw [isOn, onSpellings, List.contains_iff_mem, List.mem_map]
  constructor
  · rintro ⟨word, hword, hvalue⟩
    exact ⟨word, hword, (hsame _).mpr (hvalue.symm.trans (hlower word hword).symm)⟩
  · rintro ⟨word, hword, hvalue⟩
    exact ⟨word, hword, ((hsame _).mp hvalue |>.trans (hlower word hword)).symm⟩

/-- A value that spells "on" has at most four bytes. -/
theorem length_le_of_isOn {value : List UInt8} (h : isOn value = true) : value.length ≤ 4 := by
  have hwords : ∀ word ∈ onSpellings, word.length ≤ 4 := by decide
  have hlength := hwords _ (List.contains_iff_mem.mp h)
  rwa [List.length_map] at hlength

/-- No spelling reaches a cut behind it. -/
theorem isOn_take {n : Nat} (hn : 4 < n) (value : List UInt8) :
    isOn (value.take n) = isOn value := by
  by_cases hlong : value.length ≤ n
  · rw [List.take_of_length_le hlong]
  · have hoff : ∀ v : List UInt8, n ≤ v.length → isOn v = false := by
      intro v hv
      cases hon : isOn v with
      | false => rfl
      | true =>
        have hshort := length_le_of_isOn hon
        omega
    rw [hoff value (by omega), hoff _ (by rw [List.length_take]; omega)]

def marker : List UInt8 := Text.utf8Encode "LIBCSHIM_STARTUP_TRACE=".toList

theorem marker_eq : key ++ [0x3d] = marker := by decide

theorem ofEntry?_eq_some {entry : List UInt8} {on : Bool} :
    ofEntry? entry = some on ↔ ∃ value, entry = marker ++ value ∧ isOn value = on := by
  simp only [ ofEntry?, Option.map_eq_some_iff, entryValue?_eq_some, marker_eq]

theorem ofEntry?_eq_none {entry : List UInt8} :
    ofEntry? entry = none ↔ ¬ marker <+: entry := by
  rw [Option.eq_none_iff_forall_ne_some]
  constructor
  · rintro h ⟨value, rfl⟩
    exact h (isOn value) (ofEntry?_eq_some.mpr ⟨value, rfl, rfl⟩)
  · rintro h on hon
    obtain ⟨value, rfl, -⟩ := ofEntry?_eq_some.mp hon
    exact h (List.prefix_append _ _)

/-- A cut entry says what the complete one says. -/
theorem ofEntry?_take (entry : List UInt8) : ofEntry? (entry.take byteLimit) = ofEntry? entry := by
  have hlength : marker.length = 23 := by decide
  cases h : ofEntry? entry with
  | none =>
    rw [ofEntry?_eq_none] at h ⊢
    exact fun hcut => h (hcut.trans (List.take_prefix _ _))
  | some on =>
    obtain ⟨value, rfl, hon⟩ := ofEntry?_eq_some.mp h
    rw [ofEntry?_eq_some, List.take_append, List.take_of_length_le (by rw [hlength]; decide)]
    exact ⟨_, rfl, (isOn_take (by rw [hlength]; decide) value).trans hon⟩

/-- Entries that are cut decide as they would whole. -/
theorem ofEntries_map_take (entries : List (List UInt8)) :
    ofEntries (entries.map (List.take byteLimit)) = ofEntries entries := by
  rw [ofEntries, ofEntries, List.findSome?_map]
  congr 2
  funext entry
  exact ofEntry?_take entry

/-- The first entry of the variable decides. -/
theorem ofEntries_eq_true {entries : List (List UInt8)} : ofEntries entries = true ↔
    ∃ before value after, entries = before ++ (marker ++ value) :: after ∧
      (∀ text ∈ before, ¬ marker <+: text) ∧ isOn value = true := by
  have hsome : ofEntries entries = true ↔ entries.findSome? ofEntry? = some true := by
    rw [ofEntries]
    cases entries.findSome? ofEntry? <;> simp
  rw [hsome, List.findSome?_eq_some_iff]
  simp only [ofEntry?_eq_none, ofEntry?_eq_some]
  constructor
  · rintro ⟨before, _, after, rfl, ⟨value, rfl, hon⟩, hbefore⟩
    exact ⟨before, value, after, rfl, hbefore, hon⟩
  · rintro ⟨before, value, after, rfl, hbefore, hon⟩
    exact ⟨before, _, after, rfl, ⟨value, rfl, hon⟩, hbefore⟩

/-- Entries behind the first of the variable do not matter. -/
theorem ofEntries_append {before : List (List UInt8)} {value : List UInt8}
    (h : ∀ text ∈ before, ¬ marker <+: text) (after : List (List UInt8)) :
    ofEntries (before ++ (marker ++ value) :: after) = isOn value := by
  induction before with
  | nil => exact ofEntries_cons_some (ofEntry?_eq_some.mpr ⟨value, rfl, rfl⟩) after
  | cons text before ih =>
    rw [List.cons_append, ofEntries_cons_none (ofEntry?_eq_none.mpr (h text (by simp)))]
    exact ih fun text ht => h text (by simp [ht])

end TraceFlag

/-- A text in memory, with its zero. -/
structure Holds (m : Memory) (text : List UInt8) : Prop where
  no_zero : 0 ∉ text
  held : ∀ i (h : i < text.length), text[i] = m i
  ended : m text.length = 0

/-- Of a text in memory, a first part is read. -/
theorem Holds.isCut {m : Memory} {text : List UInt8} (h : Holds m text) (bound : Nat) :
    IsCut m bound (text.take bound) := by
  refine ⟨List.length_take_le bound text, ?_, fun hmem => h.no_zero (List.mem_of_mem_take hmem), ?_⟩
  · intro i hi
    rw [List.getElem_take]
    exact h.held i _
  · intro hlt
    rw [List.length_take] at hlt ⊢
    rw [Nat.min_eq_right (by omega)]
    exact h.ended

theorem holds_ofBytes {text : List UInt8} (h : 0 ∉ text) : Holds (Memory.ofBytes text) text := by
  refine ⟨h, ?_, ?_⟩
  · intro i hi
    simp [Memory.ofBytes, hi]
  · simp [Memory.ofBytes]

/-- A vector of texts, with a null slot behind them. -/
structure IsVector (slots : Slots) (place : Nat) (texts : List (List UInt8)) : Prop where
  held : ∀ i (h : i < texts.length), ∃ m, slots (place + i) = some m ∧ Holds m texts[i]
  ended : slots (place + texts.length) = none

/-- The entries of a vector are its first texts, each cut. -/
theorem IsVector.entries {slots : Slots} {place : Nat} {texts : List (List UInt8)}
    (h : IsVector slots place texts) (limit : Nat) :
    Entries slots place limit ((texts.take limit).map (List.take byteLimit)) := by
  refine ⟨?_, ?_, ?_⟩
  · rw [List.length_map]
    exact List.length_take_le limit texts
  · intro i hi
    rw [List.length_map, List.length_take, Nat.lt_min] at hi
    obtain ⟨m, hm, hheld⟩ := h.held i hi.2
    refine ⟨m, hm, ?_⟩
    rw [List.getElem_map, List.getElem_take]
    exact hheld.isCut byteLimit
  · intro hlt
    rw [List.length_map, List.length_take] at hlt ⊢
    rw [Nat.min_eq_right (by omega)]
    exact h.ended

def Slots.ofTexts (texts : List (List UInt8)) : Slots := fun i => texts[i]?.map Memory.ofBytes

theorem isVector_ofTexts {texts : List (List UInt8)} (h : ∀ text ∈ texts, 0 ∉ text) :
    IsVector (Slots.ofTexts texts) 0 texts := by
  refine ⟨?_, ?_⟩
  · intro i hi
    refine ⟨.ofBytes texts[i], ?_, holds_ofBytes (h _ (List.getElem_mem hi))⟩
    simp [Slots.ofTexts, hi]
  · simp [Slots.ofTexts]

namespace TraceFlag

/-- Looking for the flag is collecting the entries and looking through them. -/
theorem value_within {slots : Slots} {place limit : Nat} {texts : List (List UInt8)}
    (h : Entries slots place limit texts) :
    (within slots limit ⟨place, limit⟩).value = ofEntries texts := by
  induction limit generalizing place texts with
  | zero =>
    have hnil : texts = [] := List.eq_nil_of_length_eq_zero (Nat.le_zero.mp h.within)
    subst hnil
    rfl
  | succ limit ih =>
    cases texts with
    | nil =>
      have hnull : slots place = none := h.ended (Nat.succ_pos limit)
      simp only [within, Cursor.next_of_none hnull, bind]
      rfl
    | cons text texts =>
      obtain ⟨⟨m, hm, ht⟩, hrest⟩ := h.of_cons
      simp only [within, Cursor.next_of_some hm ht, bind]
      cases hentry : ofEntry? text with
      | none => rw [ofEntries_cons_none hentry]; exact ih hrest
      | some on => rw [ofEntries_cons_some hentry]; rfl

/-- The flag of a vector, by its complete texts. -/
theorem value_ofEnvironment {slots : Slots} {place : Nat} {texts : List (List UInt8)}
    (h : IsVector slots place texts) :
    (ofEnvironment slots (some place)).value = ofEntries (texts.take entryLimit) :=
  (value_within (h.entries entryLimit)).trans (ofEntries_map_take _)

/-- The flag is on exactly if, of the first 4096 entries, the first that begins with the name and an
equals sign has one of the four spellings as its complete value. What is behind that entry does not
matter, whatever it says, nor does the length of any entry; and without an environment the flag is
off. -/
theorem ofEnvironment_decides {slots : Slots} {place : Nat} {texts : List (List UInt8)}
    (h : IsVector slots place texts) :
    ((ofEnvironment slots (some place)).value = true ↔ ∃ before value after,
      texts.take 4096 = before ++ (marker ++ value) :: after ∧
      (∀ text ∈ before, ¬ marker <+: text) ∧ SpellsOn value) ∧
    (∀ before value after after' slots' place' texts',
      texts.take 4096 = before ++ (marker ++ value) :: after →
      (∀ text ∈ before, ¬ marker <+: text) → IsVector slots' place' texts' →
      texts'.take 4096 = before ++ (marker ++ value) :: after' →
      (ofEnvironment slots' (some place')).value = (ofEnvironment slots (some place)).value) ∧
    (ofEnvironment slots (some place)).value = ofEntries (texts.take 4096) ∧
    (ofEnvironment slots none).value = false := by
  have hvalue := value_ofEnvironment h
  refine ⟨?_, ?_, hvalue, rfl⟩
  · rw [hvalue, ofEntries_eq_true]
    simp only [isOn_iff]
    exact Iff.rfl
  · intro before value after after' slots' place' texts' htexts hbefore h' htexts'
    have htexts : texts.take entryLimit = _ := htexts
    have htexts' : texts'.take entryLimit = _ := htexts'
    rw [hvalue, value_ofEnvironment h', htexts, htexts', ofEntries_append hbefore,
      ofEntries_append hbefore]

/-- Entries that are none of the variable, among them one longer than a cut, in front of two that
are. -/
def contested : List (List UInt8) :=
  [marker.dropLast, Text.utf8Encode "LIBCSHIM_STARTUP_TRACEX=1".toList,
    (0x41 : UInt8) :: marker ++ List.replicate 300 0x31, marker ++ Text.utf8Encode ['y', 'E', 'S'],
    marker ++ Text.utf8Encode ['0']]

theorem ofEnvironment_contested : IsVector (Slots.ofTexts contested) 0 contested ∧
    (ofEnvironment (Slots.ofTexts contested) (some 0)).value = true := by
  have h : IsVector (Slots.ofTexts contested) 0 contested := isVector_ofTexts (by decide)
  exact ⟨h, (ofEnvironment_decides h).1.mpr ⟨contested.take 3, Text.utf8Encode ['y', 'E', 'S'],
    contested.drop 4, rfl, by decide, isOn_iff.mp (by decide)⟩⟩

end TraceFlag
end ProcessStart.Loader
