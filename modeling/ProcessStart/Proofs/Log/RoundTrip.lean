import ProcessStart.Proofs.Log.Validation

/-!
Entries that were written and are read again. The line of an entry is an object
with the fields of the entry, each once, so that only two rules are left to
complain of it; if none of them does, the entry comes back. Details that are
null come back as no details.
-/
namespace ProcessStart

namespace Json

def present? : Json → Option Json
  | .null => none
  | v => some v

theorem mem_optionalMember {name : String} {found : Option Json} {m : String × Json} :
    m ∈ optionalMember name found ↔ ∃ v, found = some v ∧ m = (name, v) := by
  cases found <;> simp

theorem lookup_optionalMember (key name : String) (found : Option Json) :
    (optionalMember name found).lookup key = if key = name then found else none := by
  cases found with
  | none => simp
  | some v =>
    by_cases h : key = name
    · simp [h]
    · have hne : (key == name) = false := by simpa using h
      simp [List.lookup_cons, hne, h]

theorem map_optionalMember (f : Json → Json) (name : String) (found : Option Json) :
    (optionalMember name found).map (fun m => (m.1, f m.2)) =
      optionalMember name (found.map f) := by
  cases found <;> rfl

theorem keys_optionalMember (name : String) (found : Option Json) :
    ((optionalMember name found).map Prod.fst).Sublist [name] := by
  cases found <;> simp

/-- Where each key stands once, it does not matter from which end it is looked for. -/
theorem lookup_reverse {ms : List (String × Json)} (h : (ms.map Prod.fst).Nodup) (key : String) :
    ms.reverse.lookup key = ms.lookup key := by
  induction ms with
  | nil => rfl
  | cons m ms ih =>
    obtain ⟨k, v⟩ := m
    rw [List.map_cons, List.nodup_cons] at h
    rw [List.reverse_cons, List.lookup_append, ih h.2]
    by_cases hk : key = k
    · subst hk
      have hnone : ms.lookup key = none := by
        rw [List.lookup_eq_none_iff]
        intro m hm
        rw [bne_iff_ne]
        intro he
        exact h.1 (List.mem_map.mpr ⟨m, hm, he.symm⟩)
      simp [hnone]
    · have hne : (key == k) = false := by simpa using hk
      simp [List.lookup_cons, hne]

end Json

namespace Log.Entry

/-- The entry with its details in order. -/
def settled (e : Entry) : Entry := { e with details := e.details.map Json.ordered }

/-- The entry without details that are null. -/
def readBack (e : Entry) : Entry := { e with details := e.details.bind Json.present? }

/-- Text, numbers and lists of texts, beside the details. -/
theorem mem_members {e : Entry} {m : String × Json} (h : m ∈ e.members) :
    (∃ s, m.2 = .text s) ∨ (∃ n : Int32, m.2 = .number (.integer n.toInt)) ∨
      (∃ refs : List String, m.2 = .array (refs.map .text)) ∨ e.details = some m.2 := by
  simp only [members, List.mem_cons, List.mem_append, Json.mem_optionalMember,
    Option.map_eq_some_iff] at h
  obtain rfl | rfl | rfl | rfl | ((((h | h) | h) | h) | h) | h := h
  · exact .inl ⟨_, rfl⟩
  · exact .inl ⟨_, rfl⟩
  · exact .inl ⟨_, rfl⟩
  · exact .inl ⟨_, rfl⟩
  · obtain ⟨_, ⟨s, -, rfl⟩, rfl⟩ := h
    exact .inl ⟨s, rfl⟩
  · obtain ⟨_, ⟨s, -, rfl⟩, rfl⟩ := h
    exact .inl ⟨s, rfl⟩
  · obtain ⟨_, ⟨o, -, rfl⟩, rfl⟩ := h
    exact .inl ⟨o.label, rfl⟩
  · obtain ⟨_, ⟨n, -, rfl⟩, rfl⟩ := h
    exact .inr (.inl ⟨n, rfl⟩)
  · obtain ⟨_, ⟨refs, -, rfl⟩, rfl⟩ := h
    exact .inr (.inr (.inl ⟨refs, rfl⟩))
  · obtain ⟨v, hv, rfl⟩ := h
    exact .inr (.inr (.inr hv))

theorem exact_members {e : Entry} (h : ∀ v, e.details = some v → v.Exact) :
    (Json.object e.members).Exact := by
  rw [Json.exact_object]
  intro m hm
  obtain ⟨s, hv⟩ | ⟨n, hv⟩ | ⟨refs, hv⟩ | hv := mem_members hm
  · rw [hv]
    exact Json.exact_text s
  · have hlow := n.le_toInt
    have hhigh := n.toInt_lt
    rw [hv]
    refine ⟨?_, ?_⟩
    · omega
    · omega
  · rw [hv, Json.exact_array]
    intro v hv
    obtain ⟨s, -, rfl⟩ := List.mem_map.mp hv
    exact Json.exact_text s
  · exact h m.2 hv

/-- The line is one level deeper than the details. -/
theorem depth_members {e : Entry} (h : ∀ v, e.details = some v → v.depth ≤ 126) :
    (Json.object e.members).depth ≤ Json.nestingLimit := by
  refine Json.depth_object_le.mpr ?_
  intro m hm
  obtain ⟨s, hv⟩ | ⟨n, hv⟩ | ⟨refs, hv⟩ | hv := mem_members hm
  · simp [hv, Json.depth]
  · simp [hv, Json.depth]
  · rw [hv]
    refine Json.depth_array_le.mpr ?_
    intro v hv
    obtain ⟨s, -, rfl⟩ := List.mem_map.mp hv
    exact Nat.zero_le _
  · exact h m.2 hv

/-- Putting the members of an entry in order touches the details alone. -/
theorem orderedMembers_members (e : Entry) :
    Json.orderedMembers e.members = e.settled.members := by
  have htexts : ∀ refs : List String, Json.orderedItems (refs.map .text) = refs.map .text := by
    intro refs
    simp [Json.orderedItems_eq_map, Json.ordered]
  simp only [members, settled, Json.orderedMembers_eq_map, List.map_cons, List.map_append,
    Json.map_optionalMember, Option.map_map, Function.comp_def, Json.ordered, htexts]

/-- No two members of an entry have the same key. -/
theorem nodup_keys (e : Entry) : (e.members.map Prod.fst).Nodup := by
  have hsub : (e.members.map Prod.fst).Sublist
      ["timestamp", "trace_id", "level", "event", "api_family", "symbol", "outcome", "exit_code",
        "artifact_refs", "details"] := by
    simp only [members, List.map_cons, List.map_append]
    refine .cons_cons _ (.cons_cons _ (.cons_cons _ (.cons_cons _ ?_)))
    exact (((((Json.keys_optionalMember _ _).append (Json.keys_optionalMember _ _)).append
      (Json.keys_optionalMember _ _)).append (Json.keys_optionalMember _ _)).append
      (Json.keys_optionalMember _ _)).append (Json.keys_optionalMember _ _)
  exact hsub.nodup (by decide)

/-- The line of an entry holds its members, the details in order, and nothing else. -/
theorem readChars_line {e : Entry} (h : ∀ v, e.details = some v → v.Exact ∧ v.depth ≤ 126) :
    ∃ ms, Json.readChars e.line = .ok (.object ms) ∧
      ∀ key, ms.lookup key = e.settled.members.lookup key := by
  have hread := Json.readChars_write (exact_members fun v hv => (h v hv).1)
    (depth_members fun v hv => (h v hv).2)
  rw [Json.ordered, orderedMembers_members, Json.ofMembers_eq_gathered] at hread
  refine ⟨_, hread, ?_⟩
  intro key
  rw [Json.lookup_gathered, Json.lookup_reverse (nodup_keys _)]

/-- What stands under the names of the ten fields. -/
structure WrittenIn (ms : List (String × Json)) (e : Entry) : Prop where
  timestamp : ms.lookup "timestamp" = some (.text e.timestamp)
  traceId : ms.lookup "trace_id" = some (.text e.traceId)
  level : ms.lookup "level" = some (.text e.level.label)
  event : ms.lookup "event" = some (.text e.event)
  apiFamily : ms.lookup "api_family" = e.apiFamily.map .text
  symbol : ms.lookup "symbol" = e.symbol.map .text
  outcome : ms.lookup "outcome" = e.outcome.map fun o => .text o.label
  exitCode : ms.lookup "exit_code" = e.exitCode.map fun n => .number (.integer n.toInt)
  artifactRefs : ms.lookup "artifact_refs" = e.artifactRefs.map fun refs => .array (refs.map .text)
  details : ms.lookup "details" = e.details

theorem writtenIn_of_lookup {ms : List (String × Json)} {e : Entry}
    (h : ∀ key, ms.lookup key = e.members.lookup key) : e.WrittenIn ms := by
  constructor
  all_goals simp [h, members, List.lookup_cons, List.lookup_append, Json.lookup_optionalMember]

/-- What an entry is written as stands for the entry read back. -/
theorem standsIn_of_writtenIn {ms : List (String × Json)} {e : Entry} (h : e.WrittenIn ms) :
    e.readBack.StandsIn ms := by
  have hoptional : ∀ {α : Type} {is : Json → α → Prop} {write : α → Json} {found : Option α},
      (∀ a, write a ≠ .null ∧ is (write a) a) → Json.IsOptional is (found.map write) found := by
    intro α is write found hw
    cases found with
    | none => exact .inl rfl
    | some a => exact ⟨write a, rfl, hw a⟩
  refine ⟨h.timestamp, h.traceId, ⟨_, h.level, .inl rfl⟩, h.event, ?_, ?_, ?_, ?_, ?_, ?_⟩
  · rw [h.apiFamily]
    exact hoptional fun _ => ⟨nofun, rfl⟩
  · rw [h.symbol]
    exact hoptional fun _ => ⟨nofun, rfl⟩
  · rw [h.outcome]
    exact hoptional fun _ => ⟨nofun, .inl rfl⟩
  · rw [h.exitCode]
    exact hoptional fun _ => ⟨nofun, rfl⟩
  · rw [h.artifactRefs]
    exact hoptional fun _ => ⟨nofun, rfl⟩
  · rw [h.details]
    cases hd : e.details with
    | none => simp [readBack, hd, Json.IsOptional]
    | some v => cases v <;> simp [readBack, hd, Json.IsOptional, Json.present?]

/-- The details are an object with this text under this name. -/
def HasDetail (e : Entry) (name text : String) : Prop :=
  ∃ ds, e.details = some (.object ds) ∧ ds.lookup name = some (.text text)

/-- What breaks a rule, of all that can be complained of about an entry. -/
def Breaks (e : Entry) : Complaint → Prop
  | .unscopedTraceId id => e.traceId = id ∧ ¬ [':', ':'] <:+: id.toList
  | .unknownGeneration found =>
    e.event = "startup_decision" ∧ (∀ text, found = some text ↔ e.HasDetail "generation" text) ∧
      ¬ e.HasDetail "generation" "legacy" ∧ ¬ e.HasDetail "generation" "modern"
  | .wrongStrategy generation found =>
    e.event = "startup_decision" ∧ (∀ text, found = some text ↔ e.HasDetail "strategy" text) ∧
      e.HasDetail "generation" generation.label ∧
      ¬ e.HasDetail "strategy" generation.strategy.label
  | _ => False

/-- The two rules that are left for an entry. -/
structure Sound (e : Entry) : Prop where
  inScope : [':', ':'] <:+: e.traceId.toList
  decided : e.event = "startup_decision" →
    e.HasDetail "generation" "legacy" ∧ e.HasDetail "strategy" "fallback" ∨
      e.HasDetail "generation" "modern" ∧ e.HasDetail "strategy" "pass_through"

/-- A complaint about a written entry is justified exactly if the entry breaks the rule. -/
theorem justified_of_writtenIn {ms : List (String × Json)} {e : Entry} (h : e.WrittenIn ms)
    (c : Complaint) : Schema.Justified ms c ↔ e.Breaks c := by
  have hdetail : ∀ name text, Schema.IsDetail ms name text ↔ e.HasDetail name text := by
    intro name text
    rw [Schema.IsDetail, h.details, HasDetail]
  have hdecision : Schema.IsDecision ms ↔ e.event = "startup_decision" := by
    rw [Schema.IsDecision, h.event]
    simp
  have hpresent : ∀ name ∈ ["timestamp", "trace_id", "level", "event"],
      (ms.lookup name).isSome = true := by
    simp only [List.forall_mem_cons, h.timestamp, h.traceId, h.level, h.event]
    simp
  cases c with
  | notJson cause position => exact Iff.rfl
  | notObject => exact Iff.rfl
  | undecodable mismatch => exact Iff.rfl
  | missing name =>
    refine ⟨?_, False.elim⟩
    rintro ⟨hname, hnone⟩
    have hsome := hpresent name hname
    rw [hnone] at hsome
    contradiction
  | unknownLevel label =>
    refine ⟨?_, False.elim⟩
    rintro ⟨hl, hunknown⟩
    rw [h.level] at hl
    cases hl
    exact hunknown (by cases e.level <;> decide)
  | unknownOutcome label =>
    refine ⟨?_, False.elim⟩
    rintro ⟨hl, hunknown⟩
    rw [h.outcome] at hl
    obtain ⟨o, -, ho⟩ := Option.map_eq_some_iff.mp hl
    cases ho
    exact hunknown (by cases o <;> decide)
  | unscopedTraceId id => simp [Schema.Justified, Breaks, h.traceId]
  | unknownGeneration found =>
    simp only [Schema.Justified, Schema.FoundDetail, Breaks, hdetail, hdecision]
  | wrongStrategy g found =>
    simp only [Schema.Justified, Schema.FoundDetail, Breaks, hdetail, hdecision]

theorem HasDetail.unique {e : Entry} {name s t : String} (hs : e.HasDetail name s)
    (ht : e.HasDetail name t) : s = t := by
  obtain ⟨ds, hds, hs⟩ := hs
  obtain ⟨ds', hds', ht⟩ := ht
  rw [hds] at hds'
  cases hds'
  rw [hs] at ht
  cases ht
  rfl

/-- There is a text to complain of, or there is none. -/
theorem exists_found (e : Entry) (name : String) :
    ∃ found : Option String, ∀ text, found = some text ↔ e.HasDetail name text := by
  by_cases h : ∃ text, e.HasDetail name text
  · obtain ⟨found, hfound⟩ := h
    refine ⟨some found, ?_⟩
    intro text
    constructor
    · intro he
      cases he
      exact hfound
    · intro htext
      rw [hfound.unique htext]
  · refine ⟨none, ?_⟩
    intro text
    simp only [reduceCtorEq, false_iff]
    exact fun htext => h ⟨text, htext⟩

/-- Of a sound entry there is nothing to complain, and of no other. -/
theorem sound_iff {e : Entry} : e.Sound ↔ ∀ c, ¬ e.Breaks c := by
  constructor
  · intro h c hc
    cases c with
    | unscopedTraceId id =>
      obtain ⟨rfl, hid⟩ := hc
      exact hid h.inScope
    | unknownGeneration found =>
      obtain ⟨hevent, -, hlegacy, hmodern⟩ := hc
      obtain ⟨hg, -⟩ | ⟨hg, -⟩ := h.decided hevent
      · exact hlegacy hg
      · exact hmodern hg
    | wrongStrategy g found =>
      obtain ⟨hevent, -, hg, hs⟩ := hc
      obtain ⟨hg', hs'⟩ | ⟨hg', hs'⟩ := h.decided hevent
      · cases g with
        | legacy => exact hs hs'
        | modern => exact absurd (hg.unique hg') (by decide)
      · cases g with
        | legacy => exact absurd (hg.unique hg') (by decide)
        | modern => exact hs hs'
    | _ => exact hc
  · intro h
    refine ⟨?_, ?_⟩
    · exact Classical.byContradiction fun hid => h (.unscopedTraceId e.traceId) ⟨rfl, hid⟩
    · intro hevent
      have hstrategy : ∀ g : Generation, e.HasDetail "generation" g.label →
          e.HasDetail "strategy" g.strategy.label := by
        intro g hg
        obtain ⟨found, hfound⟩ := e.exists_found "strategy"
        exact Classical.byContradiction fun hs => h (.wrongStrategy g found) ⟨hevent, hfound, hg, hs⟩
      by_cases hlegacy : e.HasDetail "generation" "legacy"
      · exact .inl ⟨hlegacy, hstrategy .legacy hlegacy⟩
      · by_cases hmodern : e.HasDetail "generation" "modern"
        · exact .inr ⟨hmodern, hstrategy .modern hmodern⟩
        · obtain ⟨found, hfound⟩ := e.exists_found "generation"
          exact absurd ⟨hevent, hfound, hlegacy, hmodern⟩ (h (.unknownGeneration found))

/-- The fields that an entry can be refused for, in their order. -/
def refusals : List (List String) :=
  [["trace_id"], ["details.generation"], ["details.strategy"], ["trace_id", "details.generation"],
    ["trace_id", "details.strategy"]]

/-- An entry has all its fields and known labels, so only the last two rules can be broken. -/
theorem place_of_breaks {e : Entry} {c : Complaint} (h : e.Breaks c) :
    Schema.place c = 6 ∧ c.field = "trace_id" ∨
      Schema.place c = 7 ∧ c.field ∈ ["details.generation", "details.strategy"] := by
  cases c with
  | unscopedTraceId id => simp [Schema.place, Complaint.field]
  | unknownGeneration found => simp [Schema.place, Complaint.field]
  | wrongStrategy g found => simp [Schema.place, Complaint.field]
  | _ => exact absurd h id

/-- Complaints in order are about one of the possible lists of fields. -/
theorem fields_mem_refusals {e : Entry} {found : List Complaint} (hne : found ≠ [])
    (h : ∀ c ∈ found, e.Breaks c)
    (hp : found.Pairwise fun a b => Schema.place a < Schema.place b) :
    found.map Complaint.field ∈ refusals := by
  cases found with
  | nil => contradiction
  | cons a rest =>
    have ha := place_of_breaks (h a (by simp))
    have hrest := List.pairwise_cons.mp hp
    cases rest with
    | nil =>
      simp only [List.mem_cons, List.not_mem_nil, or_false] at ha
      obtain ⟨-, ha⟩ | ⟨-, ha | ha⟩ := ha
      all_goals simp [ha, refusals]
    | cons b rest =>
      have hb := place_of_breaks (h b (by simp))
      have hlt := hrest.1 b (by simp)
      have hlast : rest = [] := by
        cases rest with
        | nil => rfl
        | cons c rest =>
          have hc := place_of_breaks (h c (by simp))
          have hlt' := (List.pairwise_cons.mp hrest.2).1 c (by simp)
          omega
      subst hlast
      obtain ⟨hplace, ha⟩ | ⟨hplace, -⟩ := ha
      · obtain ⟨hsame, -⟩ | ⟨-, hb⟩ := hb
        · omega
        · simp only [List.mem_cons, List.not_mem_nil, or_false] at hb
          obtain hb | hb := hb
          all_goals simp [ha, hb, refusals]
      · omega

/-- The fate of the line of any entry. -/
theorem check_settled {e : Entry} (h : ∀ v, e.details = some v → v.Exact ∧ v.depth ≤ 126)
    (number : Nat) :
    (∀ e', Schema.check e.line number = .ok e' ↔ e.settled.Sound ∧ e' = e.settled.readBack) ∧
    (¬ e.settled.Sound → ∃ found : List Complaint, (∀ c, c ∈ found ↔ e.settled.Breaks c) ∧
      found.map Complaint.field ∈ refusals ∧
      Schema.check e.line number = .error (found.map (⟨number, ·⟩))) := by
  obtain ⟨ms, hread, hlookup⟩ := readChars_line h
  have hwritten := writtenIn_of_lookup hlookup
  have hbreaks : ∀ c, c ∈ Schema.complaints ms ↔ e.settled.Breaks c :=
    fun c => Schema.mem_complaints.trans (justified_of_writtenIn hwritten c)
  have hsound : e.settled.Sound ↔ Schema.complaints ms = [] := by
    rw [sound_iff, List.eq_nil_iff_forall_not_mem]
    exact forall_congr' fun c => not_congr (hbreaks c).symm
  have hline := Schema.checkLine_of_object hread
  refine ⟨?_, ?_⟩
  · intro e'
    rw [Schema.check_eq_ok, hline, Schema.checkMembers_eq_ok, hsound]
    apply and_congr_right
    intro _
    have hstands := ofMembers_eq_ok.mpr (standsIn_of_writtenIn hwritten)
    rw [← ofMembers_eq_ok, hstands]
    simp [eq_comm]
  · intro hn
    rw [hsound] at hn
    rw [Schema.checkMembers_of_complaints hn] at hline
    exact ⟨_, hbreaks, fields_mem_refusals hn (fun c hc => (hbreaks c).mp hc)
      (Schema.complaints_pairwise ms), Schema.check_of_error hline number⟩

theorem settled_of_canonical {e : Entry} (h : ∀ v, e.details = some v → v.Canonical) :
    e.settled = e := by
  cases hd : e.details with
  | none =>
    rw [settled, hd, Option.map_none, ← hd]
  | some v =>
    rw [settled, hd, Option.map_some, (h v hd).ordered_eq, ← hd]

/-- Whatever its texts are, the line of an entry is one line. -/
theorem unbroken (e : Entry) : Json.Unbroken e.line := Json.unbroken_write (.object e.members)

/-- An entry that was written on a line and is read again, for every entry there is: the line is one
line; it is accepted exactly if the entry keeps the two rules, and then as the entry itself, but for
details that are null; and otherwise it is refused for the rules that the entry breaks, and for
nothing else. -/
theorem check_line (e : Entry) (number : Nat)
    (h : ∀ v, e.details = some v → v.Canonical ∧ v.depth ≤ 126) :
    '\n' ∉ e.line ∧ '\r' ∉ e.line ∧
    (∀ e', Schema.check e.line number = .ok e' ↔ e.Sound ∧ e' = e.readBack) ∧
    (¬ e.Sound → ∃ found : List Complaint, (∀ c, c ∈ found ↔ e.Breaks c) ∧
      found.map Complaint.field ∈
        [["trace_id"], ["details.generation"], ["details.strategy"],
          ["trace_id", "details.generation"], ["trace_id", "details.strategy"]] ∧
      Schema.check e.line number = .error (found.map (⟨number, ·⟩))) := by
  have hcheck := check_settled (fun v hv => ⟨(h v hv).1.exact, (h v hv).2⟩) number
  rw [settled_of_canonical fun v hv => (h v hv).1] at hcheck
  exact ⟨e.unbroken.no_line_feed, e.unbroken.no_return, hcheck⟩

/-- A decision whose texts break lines, beside a list and a null that are its own. -/
def brokenTexts : Entry where
  timestamp := "2026-01-01\r\nT00:00:00"
  traceId := "\"é\"::\u0000::\\"
  level := .fatal
  event := "startup_decision"
  exitCode := some (-7)
  artifactRefs := some ["", "a\tb"]
  details := some (.object [("generation", .text "modern"), ("more", .array [.null,
    .number (.integer (-9223372036854775808)), .object [("\n", .number (.integer 0))]]),
    ("strategy", .text "pass_through")])

theorem check_line_brokenTexts :
    (∀ v, brokenTexts.details = some v → v.Canonical ∧ v.depth ≤ 126) ∧
      '\n' ∉ brokenTexts.line ∧ '\r' ∉ brokenTexts.line ∧
      Schema.check brokenTexts.line 3 = .ok brokenTexts := by
  have h : ∀ v, brokenTexts.details = some v → v.Canonical ∧ v.depth ≤ 126 := by
    intro v hv
    cases hv
    refine ⟨?_, ?_⟩
    · have hkeys : ["generation", "more", "strategy"].Pairwise (· < ·) := by decide
      refine ⟨hkeys, ?_⟩
      simp [Json.Canonical, Json.CanonicalItems, Json.CanonicalMembers, Json.Number.InRange]
    · simp [Json.depth, Json.depthItems, Json.depthMembers]
  have hgeneration : brokenTexts.HasDetail "generation" "modern" := by
    simp [HasDetail, brokenTexts]
  have hstrategy : brokenTexts.HasDetail "strategy" "pass_through" := by
    simp [HasDetail, brokenTexts, List.lookup_cons]
  have hsound : brokenTexts.Sound := by
    refine ⟨⟨['"', 'é', '"'], ['\x00', ':', ':', '\\'], ?_⟩, fun _ => .inr ⟨hgeneration, hstrategy⟩⟩
    simp [brokenTexts]
  obtain ⟨hfeed, hreturn, haccept, -⟩ := check_line brokenTexts 3 h
  exact ⟨h, hfeed, hreturn, (haccept brokenTexts).mpr ⟨hsound, rfl⟩⟩

end Log.Entry
end ProcessStart
