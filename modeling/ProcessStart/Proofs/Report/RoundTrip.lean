import ProcessStart.Proofs.Json.Records
import ProcessStart.Report.Reader

/-!
Reading a report undoes writing it. What the reader knows behind any of the
members is the fields named so far; so it does not matter in which order they
stand, what stands between them, and how all of it is laid out.
-/
namespace ProcessStart

open Json (Field Gives InOrder Keeps Layout Reads Spells known known_append_other)

namespace CutoverFinding

def fields (f : CutoverFinding) : List Field :=
  [.required "version" (.text f.version), .required "found" (.bool f.found)]

/-- The draft when members of these names were read. -/
def Draft.seen (f : CutoverFinding) (names : List String) : Draft where
  version := known names "version" f.version
  found := known names "found" f.found

theorem Draft.keeps (f : CutoverFinding) : Keeps f.fields Draft.member (Draft.seen f) := by
  constructor
  · simp only [fields, List.forall_mem_cons]
    refine ⟨?_, ?_, fun _ h => nomatch h⟩
    · rintro l v - rfl names hname
      have hread := (Json.reads_fieldOnce (Json.reads_text l f.version) hname f.version).map
        fun v => { Draft.seen f names with version := some v }
      simpa [Draft.member, Draft.seen, Field.required, known_append_other] using hread
    · rintro l v - rfl names hname
      have hread := (Json.reads_fieldOnce (Json.reads_bool l f.found) hname f.found).map
        fun v => { Draft.seen f names with found := some v }
      simpa [Draft.member, Draft.seen, Field.required, known_append_other] using hread
  · intro key hkey names s rest hskip
    have hcolon : Json.scanColon (':' :: s) = .ok s := rfl
    simp [fields, Field.required] at hkey
    simp [Draft.member, hkey, hcolon, hskip, Draft.seen, bind, Except.bind, known_append_other]

theorem Draft.finish_seen {f : CutoverFinding} {ms : List (String × Json)}
    (h : Gives f.fields ms) : (Draft.seen f (ms.map Prod.fst)).finish = .ok f := by
  have hpresent : "version" ∈ ms.map Prod.fst ∧ "found" ∈ ms.map Prod.fst := by
    simpa [fields, Field.required] using h.present
  simp only [finish, seen, Json.require_known hpresent.1, Json.require_known hpresent.2]
  rfl

/-- A finding is read from any of its spellings. -/
theorem reads_spelled {f : CutoverFinding} {v : Json} (h : Spells f.fields v) (hv : v.Exact)
    (l : Layout) : Reads scan (l.write v) f := by
  intro s rest hend hs
  cases h with
  | object h =>
    obtain ⟨t, hbrace, hmembers⟩ := (Draft.keeps f).scanMembers h hv l hs
    have hstart : ({} : Draft) = Draft.seen f [] := rfl
    rw [scan, Json.scanRecord_object hbrace, scanObject, hstart, hmembers]
    simp only [bind, Except.bind, Draft.finish_seen h]
  | array h =>
    obtain _ | ⟨rfl, _ | ⟨rfl, _ | _⟩⟩ := h
    rw [l.write_array_cons] at hs
    simp only [List.flatMap_cons, List.flatMap_nil, List.append_assoc, List.cons_append,
      List.nil_append] at hs
    have hexact := (Json.exact_array _).mp hv
    simp only [List.forall_mem_cons] at hexact
    obtain ⟨hv₁, hv₂, -⟩ := hexact
    have hversion := Json.scanFieldAt_first hv₁ (Json.reads_text l.inner f.version)
    have hfound := Json.scanFieldAt_next hv₂ (Json.reads_bool l.inner f.found)
    have hlast := Json.endsNumber_closing l rest
    rw [scan, Json.scanRecord_array hs, scanArray]
    simp only [hversion _ (Json.endsNumber_comma _), hfound _ _ hlast, bind, Except.bind,
      Json.scanArrayEnd_closing l.blanks_gap]

end CutoverFinding

namespace Report

/-- The finding may itself be spelled in several ways. -/
def fields (r : Report) : List Field :=
  [.required "symbol" (.text r.symbol), .required "start_main_resolved" (.text r.resolved),
    ⟨"versioned_probe", Spells r.cutover.fields, False⟩,
    .required "generation" (.text r.generation), .required "strategy" (.text r.strategy),
    .optional "runtime_version" (r.runtimeVersion.map .text),
    .optional "consistent" (r.consistent.map .bool), .optional "libc_object" (r.object.map .text),
    .optional "libc_sha256" (r.digest.map .text)]

/-- The draft when members of these names were read. -/
def Draft.seen (r : Report) (names : List String) : Draft where
  symbol := known names "symbol" r.symbol
  resolved := known names "start_main_resolved" r.resolved
  cutover := known names "versioned_probe" r.cutover
  generation := known names "generation" r.generation
  strategy := known names "strategy" r.strategy
  runtimeVersion := known names "runtime_version" r.runtimeVersion
  consistent := known names "consistent" r.consistent
  object := known names "libc_object" r.object
  digest := known names "libc_sha256" r.digest

theorem Draft.keeps (r : Report) : Keeps r.fields Draft.member (Draft.seen r) := by
  constructor
  · simp only [fields, List.forall_mem_cons]
    refine ⟨?_, ?_, ?_, ?_, ?_, ?_, ?_, ?_, ?_, fun _ h => nomatch h⟩
    · rintro l v - rfl names hname
      have hread := (Json.reads_fieldOnce (Json.reads_text l r.symbol) hname r.symbol).map
        fun v => { Draft.seen r names with symbol := some v }
      simpa [Draft.member, Draft.seen, Field.required, known_append_other] using hread
    · rintro l v - rfl names hname
      have hread := (Json.reads_fieldOnce (Json.reads_text l r.resolved) hname r.resolved).map
        fun v => { Draft.seen r names with resolved := some v }
      simpa [Draft.member, Draft.seen, Field.required, known_append_other] using hread
    · rintro l v hv hspells names hname
      have hread := (Json.reads_fieldOnce (CutoverFinding.reads_spelled hspells hv l) hname
        r.cutover).map fun v => { Draft.seen r names with cutover := some v }
      simpa [Draft.member, Draft.seen, known_append_other] using hread
    · rintro l v - rfl names hname
      have hread := (Json.reads_fieldOnce (Json.reads_text l r.generation) hname r.generation).map
        fun v => { Draft.seen r names with generation := some v }
      simpa [Draft.member, Draft.seen, Field.required, known_append_other] using hread
    · rintro l v - rfl names hname
      have hread := (Json.reads_fieldOnce (Json.reads_text l r.strategy) hname r.strategy).map
        fun v => { Draft.seen r names with strategy := some v }
      simpa [Draft.member, Draft.seen, Field.required, known_append_other] using hread
    · rintro l v - rfl names hname
      have hread := (Json.reads_fieldOnce (Json.reads_optionalText l r.runtimeVersion) hname
        r.runtimeVersion).map fun v => { Draft.seen r names with runtimeVersion := some v }
      simpa [Draft.member, Draft.seen, Field.optional, known_append_other] using hread
    · rintro l v - rfl names hname
      have hread := (Json.reads_fieldOnce (Json.reads_optionalBool l r.consistent) hname
        r.consistent).map fun v => { Draft.seen r names with consistent := some v }
      simpa [Draft.member, Draft.seen, Field.optional, known_append_other] using hread
    · rintro l v - rfl names hname
      have hread := (Json.reads_fieldOnce (Json.reads_optionalText l r.object) hname
        r.object).map fun v => { Draft.seen r names with object := some v }
      simpa [Draft.member, Draft.seen, Field.optional, known_append_other] using hread
    · rintro l v - rfl names hname
      have hread := (Json.reads_fieldOnce (Json.reads_optionalText l r.digest) hname
        r.digest).map fun v => { Draft.seen r names with digest := some v }
      simpa [Draft.member, Draft.seen, Field.optional, known_append_other] using hread
  · intro key hkey names s rest hskip
    have hcolon : Json.scanColon (':' :: s) = .ok s := rfl
    simp [fields, Field.required, Field.optional] at hkey
    simp [Draft.member, hkey, hcolon, hskip, Draft.seen, bind, Except.bind, known_append_other]

theorem Draft.finish_seen {r : Report} {ms : List (String × Json)} (h : Gives r.fields ms) :
    (Draft.seen r (ms.map Prod.fst)).finish = .ok r := by
  have hpresent := h.present
  simp only [fields, Field.required, Field.optional, List.forall_mem_cons, or_false,
    Option.map_eq_none_iff] at hpresent
  obtain ⟨h₁, h₂, h₃, h₄, h₅, h₆, h₇, h₈, h₉, -⟩ := hpresent
  simp only [finish, seen, Json.require_known h₁, Json.require_known h₂, Json.require_known h₃,
    Json.require_known h₄, Json.require_known h₅, Json.join_known h₆, Json.join_known h₇,
    Json.join_known h₈, Json.join_known h₉]
  rfl

/-- A report is read from any of its spellings. -/
theorem reads_spelled {r : Report} {v : Json} (h : Spells r.fields v) (hv : v.Exact)
    (l : Layout) : Reads scan (l.write v) r := by
  intro s rest hend hs
  cases h with
  | object h =>
    obtain ⟨t, hbrace, hmembers⟩ := (Draft.keeps r).scanMembers h hv l hs
    have hstart : ({} : Draft) = Draft.seen r [] := rfl
    rw [scan, Json.scanRecord_object hbrace, scanObject, hstart, hmembers]
    simp only [bind, Except.bind, Draft.finish_seen h]
  | array h =>
    obtain _ | ⟨rfl, _ | ⟨rfl, _ | ⟨hcutover, _ | ⟨rfl, _ | ⟨rfl, _ | ⟨rfl, _ | ⟨rfl, _ | ⟨rfl,
      _ | ⟨rfl, _ | _⟩⟩⟩⟩⟩⟩⟩⟩⟩ := h
    rw [l.write_array_cons] at hs
    simp only [List.flatMap_cons, List.flatMap_nil, List.append_assoc, List.cons_append,
      List.nil_append] at hs
    have hexact := (Json.exact_array _).mp hv
    simp only [List.forall_mem_cons] at hexact
    obtain ⟨hv₁, hv₂, hv₃, hv₄, hv₅, hv₆, hv₇, hv₈, hv₉, -⟩ := hexact
    have hcomma := Json.endsNumber_comma
    have h₁ := Json.scanFieldAt_first hv₁ (Json.reads_text l.inner r.symbol)
    have h₂ := Json.scanFieldAt_next hv₂ (Json.reads_text l.inner r.resolved)
    have h₃ := Json.scanFieldAt_next hv₃ (CutoverFinding.reads_spelled hcutover hv₃ l.inner)
    have h₄ := Json.scanFieldAt_next hv₄ (Json.reads_text l.inner r.generation)
    have h₅ := Json.scanFieldAt_next hv₅ (Json.reads_text l.inner r.strategy)
    have h₆ := Json.scanFieldAt_next hv₆ (Json.reads_optionalText l.inner r.runtimeVersion)
    have h₇ := Json.scanFieldAt_next hv₇ (Json.reads_optionalBool l.inner r.consistent)
    have h₈ := Json.scanFieldAt_next hv₈ (Json.reads_optionalText l.inner r.object)
    have h₉ := Json.scanFieldAt_next hv₉ (Json.reads_optionalText l.inner r.digest)
    have hlast := Json.endsNumber_closing l rest
    rw [scan, Json.scanRecord_array hs, scanArray]
    simp only [h₁ _ (hcomma _), h₂ _ _ (hcomma _), h₃ _ _ (hcomma _), h₄ _ _ (hcomma _),
      h₅ _ _ (hcomma _), h₆ _ _ (hcomma _), h₇ _ _ (hcomma _), h₈ _ _ (hcomma _), h₉ _ _ hlast,
      bind, Except.bind, Json.scanArrayEnd_closing l.blanks_gap]

/-- A spelled report stands alone on a text, and is read from it. -/
theorem readChars_spelled {r : Report} {v : Json} (h : Spells r.fields v) (hv : v.Exact)
    (l : Layout) : readChars (l.write v) = .ok r := by
  have hbegins := (l.begins_write hv).skipBlank_append []
  have hscan := reads_spelled h hv l (l.write v ++ []) [] Json.endsNumber_nil hbegins
  rw [List.append_nil] at hscan
  simp only [readChars, hscan, bind, Except.bind]
  rfl

/-- What is written of a report is one of its spellings. -/
theorem spells_json (r : Report) : Spells r.fields r.json := by
  have hfinding : (r.cutover.fields.map Field.name).Nodup := by
    have hnames : ["version", "found"].Nodup := by decide
    exact hnames
  have hreport : (r.fields.map Field.name).Nodup := by
    have hnames : ["symbol", "start_main_resolved", "versioned_probe", "generation", "strategy",
      "runtime_version", "consistent", "libc_object", "libc_sha256"].Nodup := by decide
    exact hnames
  have hcutover : Spells r.cutover.fields (.object [("version", .text r.cutover.version),
      ("found", .bool r.cutover.found)]) :=
    .object (InOrder.nil.required.required.gives hfinding)
  rw [json, jsonBy, ← List.append_nil (Json.optionalMember "libc_sha256" _)]
  simp only [List.append_assoc]
  refine .object (InOrder.gives ?_ hreport)
  exact .required (.required (.given hcutover (.required (.required
    InOrder.nil.optional.optional.optional.optional))))

/-- A report holds no numbers but integers of 64 bits. -/
theorem exact_json (r : Report) : r.json.Exact := by
  have hoptional : ∀ {α : Type} (name : String) (value : α → Json) (o : Option α),
      (∀ a, (value a).Exact) → ∀ m ∈ Json.optionalMember name (o.map value), m.2.Exact := by
    intro α name value o hvalue m hm
    cases o with
    | none => cases hm
    | some a =>
      rw [List.mem_singleton.mp hm]
      exact hvalue a
  have htext := fun name o => hoptional name .text o fun _ => trivial
  have hbool := fun name o => hoptional name .bool o fun _ => trivial
  rw [json, jsonBy, Json.exact_object]
  simp only [List.forall_mem_cons, List.forall_mem_append]
  exact ⟨trivial, trivial, ⟨trivial, trivial, trivial⟩, trivial, trivial,
    ⟨⟨htext _ _, hbool _ _⟩, htext _ _⟩, htext _ _⟩

/-- A report is read from what was written of it, on one line or indented; so it is if it was read
from any other text. Its fields may also stand in another order, with others among them and null
for what is absent, or as an array; the same holds of the finding in it. -/
theorem read_written :
    (∀ r : Report, read r.json.compact = .ok r ∧ read r.json.pretty = .ok r) ∧
    (∀ text r, read text = .ok r → read r.json.compact = .ok r ∧ read r.json.pretty = .ok r) ∧
    (∀ (r : Report) (v : Json), Spells r.fields v → v.Exact →
      read v.compact = .ok r ∧ read v.pretty = .ok r) := by
  have hspelled : ∀ (r : Report) (v : Json), Spells r.fields v → v.Exact →
      read v.compact = .ok r ∧ read v.pretty = .ok r := by
    intro r v h hv
    have hcompact := readChars_spelled h hv .compact
    have hpretty := readChars_spelled h hv (.indented 0)
    constructor
    · rw [read, Json.compact, String.toList_ofList]
      exact hcompact
    · rw [read, Json.pretty, String.toList_ofList]
      exact hpretty
  have hwritten : ∀ r : Report, read r.json.compact = .ok r ∧ read r.json.pretty = .ok r :=
    fun r => hspelled r r.json r.spells_json r.exact_json
  exact ⟨hwritten, fun _ r _ => hwritten r, hspelled⟩

def sample : Report :=
  ⟨"start", "0x10", ⟨"tag", true⟩, "modern", "pass_through", none, some false, none, none⟩

/-- The same report with its fields in another order and a finding without names; of the absent
fields one is null, and one member is none of the report. -/
def rearranged : List (String × Json) :=
  [("consistent", .bool false), ("strategy", .text "pass_through"), ("libc_object", .null),
    ("versioned_probe", .array [.text "tag", .bool true]),
    ("note", .array [.object [("symbol", .number (.integer (-1)))]]),
    ("generation", .text "modern"), ("symbol", .text "start"),
    ("start_main_resolved", .text "0x10")]

theorem read_rearranged : Spells sample.fields (.object rearranged) ∧
    read (Json.object rearranged).pretty = .ok sample := by
  have hcutover : Spells (CutoverFinding.fields ⟨"tag", true⟩) (.array [.text "tag", .bool true]) :=
    .array (.cons rfl (.cons rfl .nil))
  have hgives : Gives sample.fields rearranged := by
    refine ⟨by decide, ?_, ?_⟩
    · simp [fields, sample, rearranged, Field.required, Field.optional, hcutover]
    · simp [fields, sample, rearranged, Field.required, Field.optional]
  have hexact : (Json.object rearranged).Exact := by
    simp [rearranged, Json.Exact, Json.ExactItems, Json.ExactMembers, Json.Number.InRange]
  exact ⟨.object hgives, (read_written.2.2 sample _ (.object hgives) hexact).2⟩

end Report

end ProcessStart
