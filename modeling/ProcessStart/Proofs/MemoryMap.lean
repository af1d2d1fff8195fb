import ProcessStart.MemoryMap
import ProcessStart.Proofs.Text.Blank
import ProcessStart.Proofs.Text.Lines
import ProcessStart.Proofs.Text.Numerals

/-!
What a listing says of an address. Its rows are written with any number of
zeros and spaces; the first five fields hold no space, the name may. A row
answers for the addresses it holds, with its name if that is the name of a
file. In a listing no two rows of which hold a common address, the row that
holds one is found wherever it stands, and no other answers in its place.
-/
namespace ProcessStart.MemoryMap

/-- A row of a listing, as it is spelled. -/
structure Row where
  low : UInt64
  high : UInt64
  lowDigits : List Char
  highDigits : List Char
  permissions : List Char
  offset : List Char
  device : List Char
  inode : List Char
  /-- Spaces in front of the name. -/
  gap : Nat
  /-- Empty if what is mapped has no name. -/
  name : List Char
  spells_low : Text.Spells 16 lowDigits low.toNat
  spells_high : Text.Spells 16 highDigits high.toNat
  permissions_free : ' ' ∉ permissions
  offset_free : ' ' ∉ offset
  device_free : ' ' ∉ device
  inode_free : ' ' ∉ inode
  gap_pos : name ≠ [] → 0 < gap
  name_first : ∀ c, name.head? = some c → Text.isBlank c = false

namespace Row

def range (row : Row) : List Char := row.lowDigits ++ '-' :: row.highDigits

def line (row : Row) : List Char :=
  row.range ++ ' ' :: (row.permissions ++ ' ' :: (row.offset ++ ' ' :: (row.device ++ ' ' ::
    (row.inode ++ (List.replicate row.gap ' ' ++ row.name)))))

/-- An address of the mapping; the upper end is the first one behind it. -/
def Holds (row : Row) (address : Nat) : Prop :=
  row.low.toNat ≤ address ∧ address < row.high.toNat

/-- A file is mapped, not memory without a name or something with a name of another kind. -/
def OfFile (row : Row) : Prop := row.name.head? = some '/'

def Apart (row other : Row) : Prop := ∀ address, row.Holds address → ¬ other.Holds address

instance (row : Row) (address : Nat) : Decidable (row.Holds address) :=
  inferInstanceAs (Decidable (_ ∧ _))

instance (row : Row) : Decidable row.OfFile := inferInstanceAs (Decidable (_ = _))

theorem address?_of_spells {digits : List Char} {n : UInt64}
    (h : Text.Spells 16 digits n.toNat) : address? digits = some n.toNat := by
  have hlt := n.toNat_lt
  exact h.numeral? (by decide) (by decide) (by omega)

theorem range?_range (row : Row) : range? row.range = some (row.low.toNat, row.high.toNat) := by
  have hfree : '-' ∉ row.lowDigits := row.spells_low.not_mem (by decide) (by decide) (by decide)
  rw [range?, range, Text.cut?_append hfree, Option.bind_some, address?_of_spells row.spells_low,
    Option.bind_some, address?_of_spells row.spells_high]
  rfl

theorem range_free (row : Row) : ' ' ∉ row.range := by
  have hlow : ' ' ∉ row.lowDigits := row.spells_low.not_mem (by decide) (by decide) (by decide)
  have hhigh : ' ' ∉ row.highDigits := row.spells_high.not_mem (by decide) (by decide) (by decide)
  simp [range, hlow, hhigh]

theorem fileName?_spaces (row : Row) (k : Nat) :
    fileName? (List.replicate k ' ' ++ row.name) = if row.OfFile then some row.name else none := by
  have hspaces : ∀ c ∈ List.replicate k ' ', Text.isBlank c = true := by
    intro c hc
    rw [(List.mem_replicate.mp hc).2]
    rfl
  have hname : Text.trimStart (List.replicate k ' ' ++ row.name) = row.name := by
    rw [Text.trimStart, List.dropWhile_append_of_pos hspaces]
    exact Text.trimStart_of_first row.name_first
  rw [fileName?, hname]
  by_cases hfile : row.OfFile
  · obtain ⟨path, hpath⟩ := List.head?_eq_some_iff.mp hfile
    rw [if_pos hfile, hpath]
    rfl
  · rw [if_neg hfile]
    split
    · rename_i path hpath
      exact absurd (List.head?_eq_some_iff.mpr ⟨path, hpath⟩) hfile
    · rfl

/-- The first five fields of a row are cut off one by one. -/
theorem pieces_line (row : Row) : Text.piecesUpTo ' ' 5 row.line =
    row.range :: row.permissions :: row.offset :: row.device ::
      Text.piecesUpTo ' ' 1 (row.inode ++ (List.replicate row.gap ' ' ++ row.name)) := by
  rw [line, Text.piecesUpTo_append row.range_free, Text.piecesUpTo_append row.permissions_free,
    Text.piecesUpTo_append row.offset_free, Text.piecesUpTo_append row.device_free]

/-- A row answers for the addresses it holds, with its file if it has one. -/
theorem fileAt?_line (row : Row) (address : Nat) : fileAt? address row.line =
    if row.Holds address ∧ row.OfFile then some row.name else none := by
  rw [fileAt?, pieces_line]
  cases hgap : row.gap with
  | zero =>
    have hname : row.name = [] := by
      by_cases h : row.name = []
      · exact h
      · exact absurd (row.gap_pos h) (by omega)
    have hnot : ¬ row.OfFile := by simp [OfFile, hname]
    rw [hname, List.append_nil, List.replicate_zero, List.append_nil,
      Text.piecesUpTo_of_not_mem row.inode_free, if_neg fun h => hnot h.2]
  | succ k =>
    rw [List.replicate_succ, List.cons_append, Text.piecesUpTo_append row.inode_free,
      Text.piecesUpTo]
    simp only [range?_range, Option.bind_some, fileName?_spaces]
    change (if row.Holds address then if row.OfFile then some row.name else none else none) = _
    by_cases hholds : row.Holds address
    · simp only [hholds, if_true, true_and]
    · simp only [hholds, if_false, false_and]

end Row

theorem findSome?_of_none {rows : List Row} {address : Nat}
    (h : ∀ row ∈ rows, ¬ row.Holds address) :
    (rows.map Row.line).findSome? (fileAt? address) = none := by
  rw [List.findSome?_eq_none_iff, List.forall_mem_map]
  intro row hrow
  rw [Row.fileAt?_line, if_neg fun hfile => h row hrow hfile.1]

/-- The row that holds an address decides, wherever it stands in the listing. -/
theorem findSome?_of_holds {rows : List Row} (hapart : rows.Pairwise Row.Apart) {row : Row}
    {address : Nat} (hrow : row ∈ rows) (hholds : row.Holds address) :
    (rows.map Row.line).findSome? (fileAt? address) =
      if row.OfFile then some row.name else none := by
  induction rows with
  | nil => exact absurd hrow List.not_mem_nil
  | cons first rest ih =>
    obtain ⟨hfirst, hrest⟩ := List.pairwise_cons.mp hapart
    rw [List.map_cons, List.findSome?_cons, Row.fileAt?_line]
    cases List.mem_cons.mp hrow with
    | inl heq =>
      rw [← heq] at hfirst ⊢
      have hnone := findSome?_of_none fun other hother => hfirst other hother address hholds
      rw [hnone]
      by_cases hfile : row.OfFile
      · simp only [hholds, hfile, and_self, if_true]
      · simp only [hfile, and_false, if_false]
    | inr hmem =>
      have hnot : ¬ first.Holds address := fun h => hfirst row hmem address h hholds
      rw [if_neg fun h => hnot h.1]
      exact ih hrest hmem

/-- A row answers for exactly the addresses it holds, with the whole of its name if that is the
name of a file. A listing of rows that are apart answers for an address as the row that holds it
does, and for an address that none holds not at all. -/
theorem search_by_rows :
    (∀ (row : Row) (address : Nat),
      (row.OfFile → (fileAt? address row.line = some row.name ↔ row.Holds address) ∧
        (¬ row.Holds address → fileAt? address row.line = none)) ∧
      (¬ row.OfFile → fileAt? address row.line = none)) ∧
    ∀ (rows : List Row) (listing : List Char), Text.AreLines listing (rows.map Row.line) →
      rows.Pairwise Row.Apart → ∀ address : Nat,
        (∀ row ∈ rows, row.Holds address →
          (row.OfFile → search address listing = some row.name) ∧
          (¬ row.OfFile → search address listing = none)) ∧
        ((∀ row ∈ rows, ¬ row.Holds address) → search address listing = none) := by
  constructor
  · intro row address
    rw [Row.fileAt?_line]
    refine ⟨fun hfile => ⟨?_, ?_⟩, ?_⟩
    · simp [hfile]
    · intro hnot
      exact if_neg fun h => hnot h.1
    · intro hnot
      exact if_neg fun h => hnot h.2
  · intro rows listing hlines hapart address
    rw [search, ← Text.areLines_iff.mp hlines]
    refine ⟨fun row hrow hholds => ?_, findSome?_of_none⟩
    rw [findSome?_of_holds hapart hrow hholds]
    exact ⟨fun hfile => if_pos hfile, fun hnot => if_neg hnot⟩

/-- A file that is no longer there, mapped above what follows it in the listing. -/
def deletedRow : Row where
  low := 0x7ffe
  high := 0x8000
  lowDigits := "7FFe".toList
  highDigits := "0008000".toList
  permissions := "r--p".toList
  offset := "0".toList
  device := "8:1".toList
  inode := "7".toList
  gap := 2
  name := "/a  b (deleted)".toList
  spells_low := ⟨0, by decide⟩
  spells_high := ⟨3, by decide⟩
  permissions_free := by decide
  offset_free := by decide
  device_free := by decide
  inode_free := by decide
  gap_pos _ := by decide
  name_first c hc := by
    cases hc
    rfl

def heapRow : Row where
  low := 0x100
  high := 0x200
  lowDigits := "100".toList
  highDigits := "200".toList
  permissions := "rw-p".toList
  offset := "0".toList
  device := "0:0".toList
  inode := "0".toList
  gap := 1
  name := "[heap]".toList
  spells_low := ⟨0, by decide⟩
  spells_high := ⟨0, by decide⟩
  permissions_free := by decide
  offset_free := by decide
  device_free := by decide
  inode_free := by decide
  gap_pos _ := by decide
  name_first c hc := by
    cases hc
    rfl

theorem deletedRow_apart_heapRow : deletedRow.Apart heapRow := by
  intro address hdeleted hheap
  have hlow : 0x7ffe ≤ address := hdeleted.1
  have hhigh : address < 0x200 := hheap.2
  omega

theorem search_by_rows_deleted :
    deletedRow.line = "7FFe-0008000 r--p 0 8:1 7  /a  b (deleted)".toList ∧
    search 0x7fff (deletedRow.line ++ '\n' :: heapRow.line) = some "/a  b (deleted)".toList ∧
    search 0x100 (deletedRow.line ++ '\n' :: heapRow.line) = none ∧
    search 0x8000 (deletedRow.line ++ '\n' :: heapRow.line) = none := by
  have hlines : Text.AreLines (deletedRow.line ++ '\n' :: heapRow.line)
      ([deletedRow, heapRow].map Row.line) :=
    .feed (by decide) (by decide) (.last (by decide) (by decide))
  have hapart : [deletedRow, heapRow].Pairwise Row.Apart := by
    simp [deletedRow_apart_heapRow]
  have hfound := search_by_rows.2 [deletedRow, heapRow] _ hlines hapart
  refine ⟨by decide, ?_, ?_, ?_⟩
  · exact ((hfound 0x7fff).1 deletedRow (by simp) (by decide)).1 (by decide)
  · exact ((hfound 0x100).1 heapRow (by simp) (by decide)).2 (by decide)
  · exact (hfound 0x8000).2 (by simp; decide)

end ProcessStart.MemoryMap
