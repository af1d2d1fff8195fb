import ProcessStart.Proofs.Log.Fields

/-!
The labels of an accepted line. The rules look only at labels that are texts,
and the decoder takes one more shape, an object with the label as its only key
and null under it. So the labels of an accepted line are labels of the log, and
those of its entry, but a line may give them in either shape; which of the two
it is makes no difference to its fate.
-/
namespace ProcessStart.Log.Schema

/-- Repeated keys included, an object is accepted for the last value of each. -/
theorem check_eq_ok_of_occurrences {line : List Char} {all : List (String × Json)}
    (h : Json.occurrences line = .ok all) {number : Nat} {e : Entry} :
    check line number = .ok e ↔ complaints all.reverse = [] ∧ e.StandsIn all.reverse := by
  rw [check_eq_ok, checkLine_of_occurrences h, checkMembers_eq_ok]

/-- Only an object is accepted. -/
theorem exists_occurrences_of_check {line : List Char} {number : Nat} {e : Entry}
    (h : check line number = .ok e) : ∃ all, Json.occurrences line = .ok all := by
  rw [check_eq_ok] at h
  unfold checkLine at h
  split at h
  · cases h
  · rename_i ms hms
    obtain ⟨all, hall, -⟩ := Json.lookup_of_readChars hms
    exact ⟨all, hall⟩
  · cases h

/-- There is no complaint exactly if none is justified. -/
theorem complaints_eq_nil {ms : List (String × Json)} :
    complaints ms = [] ↔ ∀ c, ¬ Justified ms c := by
  rw [List.eq_nil_iff_forall_not_mem]
  exact forall_congr' fun c => not_congr mem_complaints

def IsText (v : Json) (label : String) : Prop := v = .text label

/-- The labels are those of the entry, each in a shape told by `is`; there may be no outcome, or a
null for it. -/
structure LabelledBy (is : Json → String → Prop) (ms : List (String × Json)) (e : Entry) :
    Prop where
  level : ∃ v, ms.lookup "level" = some v ∧ is v e.level.label
  outcome : Json.IsOptional (fun v o => is v o.label) (ms.lookup "outcome") e.outcome

theorem label_mem (l : Level) :
    l.label ∈ ["trace", "debug", "info", "warn", "error", "fatal"] := by
  cases l <;> decide

theorem outcome_mem (o : Outcome) : o.label ∈ ["pass", "fail", "skip", "error"] := by
  cases o <;> decide

/-- Labels of either shape are texts unless one of them is an object. -/
theorem labelledBy_text_iff {ms : List (String × Json)} {e : Entry}
    (h : LabelledBy Json.IsVariant ms e) : LabelledBy IsText ms e ↔
      (∀ ds, ms.lookup "level" ≠ some (.object ds)) ∧
        ∀ ds, ms.lookup "outcome" ≠ some (.object ds) := by
  constructor
  · intro htext
    constructor
    · rintro ds hds
      obtain ⟨v, hv, hlabel⟩ := htext.level
      cases hds.symm.trans hv
      cases hlabel
    · rintro ds hds
      have houtcome := htext.outcome
      rw [hds] at houtcome
      cases he : e.outcome with
      | none =>
        rw [he] at houtcome
        obtain hnone | hnull := houtcome
        · cases hnone
        · cases hnull
      | some o =>
        rw [he] at houtcome
        obtain ⟨v, hv, -, hlabel⟩ := houtcome
        cases hv
        cases hlabel
  · rintro ⟨hlevel, houtcome⟩
    constructor
    · obtain ⟨v, hv, rfl | rfl⟩ := h.level
      · exact ⟨_, hv, rfl⟩
      · exact absurd hv (hlevel _)
    · have hfound := h.outcome
      cases he : e.outcome with
      | none =>
        rw [he] at hfound
        exact hfound
      | some o =>
        rw [he] at hfound
        obtain ⟨v, hv, hnull, rfl | rfl⟩ := hfound
        · exact ⟨_, hv, hnull, rfl⟩
        · exact absurd hv (houtcome _)

/-- What is complained of labels of either shape is complained of other fields as well. -/
theorem Justified.of_labelled {ms ns : List (String × Json)} {e : Entry}
    (h : LabelledBy Json.IsVariant ns e)
    (hsame : ∀ name ∈ Entry.fields, name ∉ ["level", "outcome"] → ms.lookup name = ns.lookup name)
    {c : Complaint} (hc : Justified ns c) : Justified ms c := by
  have hevent := hsame "event" (by decide) (by decide)
  have hdetails := hsame "details" (by decide) (by decide)
  obtain ⟨v, hv, hshape⟩ := h.level
  cases c with
  | notJson cause position => exact hc
  | notObject => exact hc
  | undecodable mismatch => exact hc
  | missing name =>
    obtain ⟨hname, hnone⟩ := hc
    have hlevel : name ≠ "level" := by
      rintro rfl
      rw [hv] at hnone
      cases hnone
    have hfields : ∀ name ∈ ["timestamp", "trace_id", "level", "event"], name ≠ "level" →
        name ∈ Entry.fields ∧ name ∉ ["level", "outcome"] := by decide
    obtain ⟨hfield, hother⟩ := hfields name hname hlevel
    exact ⟨hname, (hsame name hfield hother).trans hnone⟩
  | unknownLevel label =>
    obtain ⟨hl, hnot⟩ := hc
    cases hv.symm.trans hl
    exact absurd (hshape.eq_of_text ▸ label_mem e.level) hnot
  | unknownOutcome label =>
    obtain ⟨hl, hnot⟩ := hc
    have houtcome := h.outcome
    rw [hl] at houtcome
    cases he : e.outcome with
    | none =>
      rw [he] at houtcome
      obtain hnone | hnull := houtcome
      · cases hnone
      · cases hnull
    | some o =>
      rw [he] at houtcome
      obtain ⟨w, hw, -, hshape⟩ := houtcome
      cases hw
      exact absurd (hshape.eq_of_text ▸ outcome_mem o) hnot
  | unscopedTraceId id =>
    obtain ⟨hid, hnot⟩ := hc
    exact ⟨(hsame "trace_id" (by decide) (by decide)).trans hid, hnot⟩
  | unknownGeneration found =>
    simp only [Justified, IsDecision, FoundDetail, IsDetail, hevent, hdetails]
    exact hc
  | wrongStrategy g found =>
    simp only [Justified, IsDecision, FoundDetail, IsDetail, hevent, hdetails]
    exact hc

/-- Nothing is complained of, and the same entry stands in it, if labels of either shape are put in
place of the labels. -/
theorem accepted_of_labelled {ms ns : List (String × Json)} {e : Entry}
    (h : complaints ms = [] ∧ e.StandsIn ms) (hlabels : LabelledBy Json.IsVariant ns e)
    (hsame : ∀ name ∈ Entry.fields, name ∉ ["level", "outcome"] →
      ms.lookup name = ns.lookup name) : complaints ns = [] ∧ e.StandsIn ns := by
  obtain ⟨hclean, hstands⟩ := h
  constructor
  · rw [complaints_eq_nil] at hclean ⊢
    intro c hc
    exact hclean c (hc.of_labelled hlabels hsame)
  · constructor
    · rw [← hsame "timestamp" (by decide) (by decide)]
      exact hstands.timestamp
    · rw [← hsame "trace_id" (by decide) (by decide)]
      exact hstands.traceId
    · exact hlabels.level
    · rw [← hsame "event" (by decide) (by decide)]
      exact hstands.event
    · rw [← hsame "api_family" (by decide) (by decide)]
      exact hstands.apiFamily
    · rw [← hsame "symbol" (by decide) (by decide)]
      exact hstands.symbol
    · exact hlabels.outcome
    · rw [← hsame "exit_code" (by decide) (by decide)]
      exact hstands.exitCode
    · rw [← hsame "artifact_refs" (by decide) (by decide)]
      exact hstands.artifactRefs
    · rw [← hsame "details" (by decide) (by decide)]
      exact hstands.details

/-- The labels of an accepted line, the last of each counting, are labels of the log and those of
the entry, each as a text or as an object with the label as its only key and null under it. They
are texts exactly if neither is an object; and the line is accepted all the same, as the same entry,
with either shape in place of the other. -/
theorem check_labels {line : List Char} {number : Nat} {e : Entry}
    (h : check line number = .ok e) : ∃ all, Json.occurrences line = .ok all ∧
      e.level.label ∈ ["trace", "debug", "info", "warn", "error", "fatal"] ∧
      (∀ o, e.outcome = some o → o.label ∈ ["pass", "fail", "skip", "error"]) ∧
      LabelledBy Json.IsVariant all.reverse e ∧
      (LabelledBy IsText all.reverse e ↔
        (∀ ds, all.reverse.lookup "level" ≠ some (.object ds)) ∧
          ∀ ds, all.reverse.lookup "outcome" ≠ some (.object ds)) ∧
      ∀ other given, Json.occurrences other = .ok given →
        LabelledBy Json.IsVariant given.reverse e →
        (∀ name ∈ Entry.fields, name ∉ ["level", "outcome"] →
          all.reverse.lookup name = given.reverse.lookup name) →
        check other number = .ok e := by
  obtain ⟨all, hall⟩ := exists_occurrences_of_check h
  have haccepted := (check_eq_ok_of_occurrences hall).mp h
  have hlabels : LabelledBy Json.IsVariant all.reverse e :=
    ⟨haccepted.2.level, haccepted.2.outcome⟩
  refine ⟨all, hall, label_mem e.level, fun o _ => outcome_mem o, hlabels,
    labelledBy_text_iff hlabels, ?_⟩
  intro other given hgiven hlabelled hsame
  exact (check_eq_ok_of_occurrences hgiven).mpr (accepted_of_labelled haccepted hlabelled hsame)

/-- A line with both labels as keys, behind another level that does not count. -/
def keyed : List Char :=
  "\x7b\"level\":\"fatal\",".toList ++ "\"timestamp\":\"t\",".toList ++
    "\"trace_id\":\"::\",".toList ++ "\"event\":\"e\",".toList ++
    "\"outcome\":\x7b\"pass\":null\x7d,".toList ++ "\"level\":\x7b\"info\":null\x7d\x7d".toList

def keyedMembers : List (String × Json) :=
  [("level", .text "fatal"), ("timestamp", .text "t"), ("trace_id", .text "::"),
    ("event", .text "e"), ("outcome", .object [("pass", .null)]),
    ("level", .object [("info", .null)])]

def keyedEntry : Entry :=
  { timestamp := "t", traceId := "::", level := .info, event := "e", outcome := some .pass }

theorem check_labels_keyed : check keyed 1 = .ok keyedEntry ∧
    ∃ all, Json.occurrences keyed = .ok all ∧
      all.reverse.lookup "level" = some (.object [("info", .null)]) ∧
      all.reverse.lookup "outcome" = some (.object [("pass", .null)]) ∧
      ¬ LabelledBy IsText all.reverse keyedEntry := by
  have hkeyed : Json.occurrences keyed = .ok keyedMembers := rfl
  have hstands : keyedEntry.StandsIn keyedMembers.reverse :=
    ⟨rfl, rfl, ⟨_, rfl, .inr rfl⟩, rfl, .inl rfl, .inl rfl, ⟨_, rfl, nofun, .inr rfl⟩, .inl rfl,
      .inl rfl, .inl rfl⟩
  have h : check keyed 1 = .ok keyedEntry :=
    (check_eq_ok_of_occurrences hkeyed).mpr ⟨rfl, hstands⟩
  obtain ⟨all, hall, -, -, -, htext, -⟩ := check_labels h
  cases hall.symm.trans hkeyed
  exact ⟨h, _, hall, rfl, rfl, fun hplain => (htext.mp hplain).1 _ rfl⟩

end ProcessStart.Log.Schema
