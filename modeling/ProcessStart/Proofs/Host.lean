import ProcessStart.Host
import ProcessStart.Proofs.MemoryMap
import ProcessStart.Proofs.Prediction
import ProcessStart.Proofs.Text.Utf8

/-!
The file that a report names. It is the one that is mapped where the lookup
without version is answered, and the digest is that of its content; the address
that the report shows is where the routine was found, by whichever lookup. The
two belong together only as far as both addresses lie in one file.
-/
namespace ProcessStart

namespace MemoryMap

variable {rows : List Row} {listing : List Char} {address : Nat} {path : List Char}

/-- A file is mapped at an address. -/
def MapsFile (rows : List Row) (address : Nat) (path : List Char) : Prop :=
  ∃ row ∈ rows, row.Holds address ∧ row.OfFile ∧ row.name = path

/-- One file is mapped at both addresses. -/
def InOneFile (rows : List Row) (address other : Nat) : Prop :=
  ∃ path, MapsFile rows address path ∧ MapsFile rows other path

/-- Where no address is in two rows, the search finds the one file at an address. -/
theorem search_eq_some (hlines : Text.AreLines listing (rows.map Row.line))
    (hapart : rows.Pairwise Row.Apart) :
    search address listing = some path ↔ MapsFile rows address path := by
  rw [search, ← Text.areLines_iff.mp hlines]
  constructor
  · intro hfound
    by_cases hheld : ∃ row ∈ rows, row.Holds address
    · obtain ⟨row, hrow, hholds⟩ := hheld
      rw [findSome?_of_holds hapart hrow hholds] at hfound
      by_cases hfile : row.OfFile
      · rw [if_pos hfile] at hfound
        exact ⟨row, hrow, hholds, hfile, Option.some.inj hfound⟩
      · rw [if_neg hfile] at hfound
        cases hfound
    · rw [findSome?_of_none fun row hrow hholds => hheld ⟨row, hrow, hholds⟩] at hfound
      cases hfound
  · rintro ⟨row, hrow, hholds, hfile, rfl⟩
    rw [findSome?_of_holds hapart hrow hholds, if_pos hfile]

end MemoryMap

namespace Host

open MemoryMap

variable {h : Host} {files : Files} {report : Report} {rows : List Row}

/-- The memory is listed in these rows, and no two of them hold a common address. -/
def Lists (h : Host) (rows : List Row) : Prop :=
  ∃ bytes listing, h.memory = some bytes ∧ Text.utf8Decode? bytes = some listing ∧
    Text.AreLines listing (rows.map Row.line) ∧ rows.Pairwise Row.Apart

/-- The object at an address is the file listed there. -/
theorem objectAt?_eq_some (hrows : h.Lists rows) {address : UInt64} {path : List Char} :
    h.objectAt? address = some path ↔ MapsFile rows address.toNat path := by
  obtain ⟨bytes, listing, hmemory, hdecode, hlines, hapart⟩ := hrows
  rw [objectAt?, hmemory, Option.bind_some, fileOf?, hdecode, Option.bind_some,
    search_eq_some hlines hapart]

/-- At most one file is mapped at an address. -/
theorem Lists.unique (hrows : h.Lists rows) {address : UInt64} {path other : List Char}
    (hpath : MapsFile rows address.toNat path) (hother : MapsFile rows address.toNat other) :
    path = other := by
  rw [← objectAt?_eq_some hrows] at hpath hother
  exact Option.some.inj (hpath.symm.trans hother)

/-- The file at one address is that at another exactly if a single file holds both. -/
theorem Lists.mapsFile_iff (hrows : h.Lists rows) {address : UInt64} {place : Nat}
    {path : List Char} (hmapped : MapsFile rows address.toNat path) :
    MapsFile rows place path ↔ InOneFile rows address.toNat place := by
  constructor
  · exact fun hplace => ⟨path, hmapped, hplace⟩
  · rintro ⟨other, hother, hplace⟩
    rw [hrows.unique hmapped hother]
    exact hplace

/-- The file that is mapped where the lookup without version is answered. -/
def defaultFile? (h : Host) : Option (List Char) :=
  (h.resolver .default).bind fun a => h.objectAt? a.val

/-- The file named by a probe is where the lookup without version leads. -/
theorem defaultFile?_eq_some (hrows : h.Lists rows) {path : List Char} :
    h.defaultFile? = some path ↔
      ∃ a, h.resolver .default = some a ∧ MapsFile rows a.val.toNat path := by
  simp only [defaultFile?, Option.bind_eq_some_iff, objectAt?_eq_some hrows]

/-- What a report shows of the plan, and what it adds. -/
theorem probe_eq_ok (hok : h.probe files = .ok report) :
    ∃ p, (plan h.resolver h.self).value = .ok p ∧
      report.resolved = String.ofList p.routine.text ∧
      report.object = h.defaultFile?.map String.ofList ∧
      report.digest = h.defaultFile?.bind fun path =>
        (files.read (Text.utf8Encode path)).toOption.map digestText := by
  obtain ⟨plain, hplain, hreport⟩ := map_eq_ok.mp hok
  rw [Report.value_probe] at hplain
  obtain ⟨p, hp, rfl⟩ := map_eq_ok.mp hplain
  refine ⟨p, hp, ?_⟩
  rw [defaultFile?]
  cases hfile : (h.resolver .default).bind fun a => h.objectAt? a.val with
  | none =>
    simp only [hfile] at hreport
    cases hreport
    exact ⟨rfl, rfl, rfl⟩
  | some path =>
    simp only [hfile] at hreport
    cases hreport
    exact ⟨rfl, rfl, rfl⟩

theorem map_ofList_eq_some {x : Option (List Char)} {path : String} :
    x.map String.ofList = some path ↔ x = some path.toList := by
  rw [Option.map_eq_some_iff]
  constructor
  · rintro ⟨s, rfl, rfl⟩
    rw [String.toList_ofList]
  · rintro rfl
    exact ⟨_, rfl, String.ofList_toList⟩

/-- A digest is given exactly if the named file can be read, and it is that of the content. -/
theorem digest_eq_some {file : Option (List Char)} {digest : String} :
    (file.bind fun path => (files.read (Text.utf8Encode path)).toOption.map digestText) =
        some digest ↔
      ∃ path content, file.map String.ofList = some path ∧
        files.read (Text.utf8Encode path.toList) = .ok content ∧ digest = digestText content := by
  rw [Option.bind_eq_some_iff]
  constructor
  · rintro ⟨path, hpath, hread⟩
    obtain ⟨content, hcontent, rfl⟩ := Option.map_eq_some_iff.mp hread
    refine ⟨String.ofList path, content, by rw [hpath, Option.map_some], ?_, rfl⟩
    rw [String.toList_ofList]
    exact toOption_eq_some.mp hcontent
  · rintro ⟨path, content, hpath, hread, rfl⟩
    refine ⟨path.toList, map_ofList_eq_some.mp hpath, ?_⟩
    rw [toOption_eq_some.mpr hread, Option.map_some]

/-- The report shows where the routine was found, but names the file that is mapped where the
lookup without version is answered, and digests that one. It is the file mapped at the address shown
exactly if every answer of that lookup lies in one file with the routine; so it is if there was no
other lookup to find the routine by. -/
theorem probe_names_default (hok : h.probe files = .ok report) (hrows : h.Lists rows) :
    ∃ routine digits, h.resolver.found? = some routine ∧
      report.resolved = String.ofList ('0' :: 'x' :: digits) ∧
      Text.numeral? 16 0xffffffffffffffff digits = some routine.val.toNat ∧
      (∀ path, report.object = some path ↔
        ∃ a, h.resolver .default = some a ∧ MapsFile rows a.val.toNat path.toList) ∧
      (∀ digest, report.digest = some digest ↔ ∃ path content, report.object = some path ∧
        files.read (Text.utf8Encode path.toList) = .ok content ∧ digest = digestText content) ∧
      (∀ path, report.object = some path →
        (MapsFile rows routine.val.toNat path.toList ↔ ∀ a, h.resolver .default = some a →
          InOneFile rows a.val.toNat routine.val.toNat)) ∧
      (h.resolver .cutover = none → h.resolver .baseline = none →
        ∀ path, report.object = some path → MapsFile rows routine.val.toNat path.toList) := by
  obtain ⟨p, hp, hresolved, hobject, hdigest⟩ := probe_eq_ok hok
  obtain ⟨hfound, -⟩ := plan_eq_ok.mp hp
  have hnamed : ∀ path, report.object = some path ↔
      ∃ a, h.resolver .default = some a ∧ MapsFile rows a.val.toNat path.toList := by
    intro path
    rw [hobject, map_ofList_eq_some, defaultFile?_eq_some hrows]
  refine ⟨p.routine, _, hfound, hresolved, Text.numeral?_hexadecimal p.routine.val, hnamed, ?_, ?_,
    ?_⟩
  · intro digest
    rw [hdigest, digest_eq_some, hobject]
  · intro path hpath
    obtain ⟨a, ha, hmapped⟩ := (hnamed path).mp hpath
    rw [hrows.mapsFile_iff hmapped]
    constructor
    · intro hone b hb
      cases ha.symm.trans hb
      exact hone
    · exact fun hall => hall a ha
  · intro hcutover hbaseline path hpath
    obtain ⟨a, ha, hmapped⟩ := (hnamed path).mp hpath
    rw [Resolver.found?, hcutover, hbaseline, ha] at hfound
    cases hfound
    exact hmapped

def runRow (low high : UInt64) (path : List Char) : Row where
  low := low
  high := high
  lowDigits := Text.hexadecimal low.toNat
  highDigits := Text.hexadecimal high.toNat
  permissions := "r-xp".toList
  offset := "1000".toList
  device := "8:2".toList
  inode := "12".toList
  gap := 1
  name := '/' :: path
  spells_low := Text.spells_hexadecimal _
  spells_high := Text.spells_hexadecimal _
  permissions_free := by decide
  offset_free := by decide
  device_free := by decide
  inode_free := by decide
  gap_pos _ := by decide
  name_first c hc := by
    cases hc
    rfl

def launcherRow : Row := runRow 0x1000 0x2000 "launcher".toList

def libraryRow : Row := runRow 0x7000 0x8000 "libc.so.6".toList

/-- The routine is in the library, at the cut-over version; without version the lookup finds an
alias of the substitute, in the program itself. -/
def aliased : Host where
  resolver q :=
    if q = .cutover then some ⟨0x7100, by decide⟩
    else if q = .default then some ⟨0x1100, by decide⟩
    else none
  self := ⟨0x1100, by decide⟩
  versionText := none
  memory := some (Text.utf8Encode (launcherRow.line ++ '\n' :: libraryRow.line))

def aliasedFiles : Files := ⟨[([Text.utf8Encode "launcher".toList], .file [0x7f])], []⟩

theorem aliased_lists : aliased.Lists [launcherRow, libraryRow] := by
  refine ⟨_, _, rfl, Text.utf8Decode?_utf8Encode _, ?_, ?_⟩
  · exact .feed (by decide) (by decide) (.last (by decide) (by decide))
  · rw [List.pairwise_pair]
    intro address hlauncher hlibrary
    have hhigh : address < 0x2000 := hlauncher.2
    have hlow : 0x7000 ≤ address := hlibrary.1
    omega

/-- The report of this host names the program, in which the routine that it shows is not. -/
theorem probe_names_default_aliased : ∃ report routine,
    aliased.probe aliasedFiles = .ok report ∧ aliased.resolver.found? = some routine ∧
    MapsFile [launcherRow, libraryRow] routine.val.toNat "/libc.so.6".toList ∧
    ¬ MapsFile [launcherRow, libraryRow] routine.val.toNat "/launcher".toList ∧
    report.object = some "/launcher" ∧ report.digest = some (digestText [0x7f]) := by
  have hprobe : ∃ report, aliased.probe aliasedFiles = .ok report := ⟨_, rfl⟩
  obtain ⟨report, hok⟩ := hprobe
  obtain ⟨routine, digits, hfound, -, -, hnamed, hdigest, -⟩ :=
    probe_names_default hok aliased_lists
  have hroutine : routine.val.toNat = 0x7100 := by
    cases hfound
    rfl
  have hobject : report.object = some "/launcher" := (hnamed _).mpr
    ⟨⟨0x1100, by decide⟩, rfl, launcherRow, List.mem_cons_self, by decide, by decide, rfl⟩
  have hlibrary : MapsFile [launcherRow, libraryRow] 0x7100 "/libc.so.6".toList :=
    ⟨libraryRow, List.mem_cons_of_mem _ List.mem_cons_self, by decide, by decide, rfl⟩
  have hlauncher : ¬ MapsFile [launcherRow, libraryRow] 0x7100 "/launcher".toList := by
    rintro ⟨row, hrow, hholds, -, hname⟩
    rw [List.mem_cons, List.mem_singleton] at hrow
    obtain rfl | rfl := hrow
    · exact absurd hholds (by decide)
    · exact absurd hname (by decide)
  rw [← hroutine] at hlibrary hlauncher
  exact ⟨report, routine, hok, hfound, hlibrary, hlauncher, hobject,
    (hdigest _).mpr ⟨"/launcher", [0x7f], hobject, rfl, rfl⟩⟩

end Host
end ProcessStart
