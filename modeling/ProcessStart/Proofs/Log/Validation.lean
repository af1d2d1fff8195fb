import ProcessStart.Proofs.Json.Occurrences
import ProcessStart.Proofs.Log.Decoding
import ProcessStart.Proofs.Log.Rules

/-!
What becomes of a line, for every line there is. It is not JSON, or no object,
or the rules complain of it, or it stands for no entry, or it is the entry it
stands for; nothing else happens, and no line is refused without a complaint.
-/
namespace ProcessStart.Log.Schema

theorem check_eq_ok {line : List Char} {number : Nat} {e : Entry} :
    check line number = .ok e ↔ checkLine line = .ok e := by
  exact mapError_eq_ok

theorem check_of_error {line : List Char} {found : List Complaint}
    (h : checkLine line = .error found) (number : Nat) :
    check line number = .error (found.map (⟨number, ·⟩)) := by
  rw [check, h, mapError_error]

theorem checkLine_of_object {line : List Char} {ms : List (String × Json)}
    (h : Json.readChars line = .ok (.object ms)) : checkLine line = checkMembers ms := by
  simp only [checkLine, h]

theorem checkMembers_of_complaints {ms : List (String × Json)} (h : complaints ms ≠ []) :
    checkMembers ms = .error (complaints ms) := by
  unfold checkMembers
  split
  · contradiction
  · rfl

/-- Without a complaint, decoding decides. -/
theorem checkMembers_eq_ok {ms : List (String × Json)} {e : Entry} :
    checkMembers ms = .ok e ↔ complaints ms = [] ∧ e.StandsIn ms := by
  unfold checkMembers
  split
  · rename_i h
    rw [mapError_eq_ok, ofMembers_eq_ok]
    simp [h]
  · rename_i h
    simp only [reduceCtorEq, false_iff]
    exact fun hc => h hc.1

/-- An object that breaks no rule and stands for no entry is called undecodable. -/
theorem checkMembers_of_none {ms : List (String × Json)} (hc : complaints ms = [])
    (h : ∀ e : Entry, ¬ e.StandsIn ms) : ∃ m, checkMembers ms = .error [.undecodable m] := by
  cases hd : Entry.ofMembers ms with
  | error m =>
    refine ⟨m, ?_⟩
    simp only [checkMembers, hc, hd, mapError_error]
  | ok e => exact absurd (ofMembers_eq_ok.mp hd) (h e)

/-- A refusal says why. -/
theorem checkLine_ne_nil {line : List Char} {found : List Complaint}
    (h : checkLine line = .error found) : found ≠ [] := by
  unfold checkLine at h
  split at h
  · cases h
    exact List.cons_ne_nil _ _
  · rename_i ms _
    by_cases hc : complaints ms = []
    · cases hd : Entry.ofMembers ms with
      | error m =>
        simp only [checkMembers, hc, hd, mapError_error] at h
        cases h
        exact List.cons_ne_nil _ _
      | ok e =>
        have hok := checkMembers_eq_ok.mpr ⟨hc, ofMembers_eq_ok.mp hd⟩
        rw [hok] at h
        contradiction
    · rw [checkMembers_of_complaints hc] at h
      cases h
      exact hc
  · cases h
    exact List.cons_ne_nil _ _

/-- The fields that the rules complain of, and the place of each complaint. -/
def fieldPlaces : List (String × Nat) :=
  [("timestamp", 0), ("trace_id", 1), ("level", 2), ("event", 3), ("level", 4), ("outcome", 5),
    ("trace_id", 6), ("details.generation", 7), ("details.strategy", 7)]

/-- A justified complaint has its field and its place in the table. -/
theorem mem_fieldPlaces {ms : List (String × Json)} {c : Complaint} (h : Justified ms c) :
    (c.field, place c) ∈ fieldPlaces := by
  cases c with
  | notJson cause position => exact absurd h id
  | notObject => exact absurd h id
  | undecodable mismatch => exact absurd h id
  | missing name =>
    have hplaces : ∀ name ∈ ["timestamp", "trace_id", "level", "event"],
        ((Complaint.missing name).field, place (.missing name)) ∈ fieldPlaces := by decide
    exact hplaces name h.1
  | unknownLevel label => simp [Complaint.field, place, fieldPlaces]
  | unknownOutcome label => simp [Complaint.field, place, fieldPlaces]
  | unscopedTraceId id => simp [Complaint.field, place, fieldPlaces]
  | unknownGeneration found => simp [Complaint.field, place, fieldPlaces]
  | wrongStrategy g found => simp [Complaint.field, place, fieldPlaces]

/-- The fate of a line by the schema. Every refusal has a complaint, and all of them carry the
number of the line. A text that is not JSON, and a value that is no object, are complained of
once. Of an object the last member of a key counts; the complaints about it are exactly the
justified ones, in the order of their places, and only one without any is decoded: as the entry it
stands for, or else with one complaint that it stands for none. -/
theorem check_by_schema (line : List Char) (number : Nat) :
    (∀ vs, check line number = .error vs → vs ≠ [] ∧ ∀ v ∈ vs, v.line = number) ∧
    (∀ fault, Json.readChars line = .error fault →
      ∃ c : Complaint, c = .notJson fault.cause (fault.position line) ∧ c.field = "<json>" ∧
        check line number = .error [⟨number, c⟩]) ∧
    (∀ v, Json.readChars line = .ok v → (∀ ms, v ≠ .object ms) →
      ∃ c : Complaint, c = .notObject ∧ c.field = "<root>" ∧
        check line number = .error [⟨number, c⟩]) ∧
    ∀ ms, Json.readChars line = .ok (.object ms) →
      (∃ all, Json.occurrences line = .ok all ∧ ∀ key, ms.lookup key = all.reverse.lookup key) ∧
      ∃ found : List Complaint,
        (∀ c, c ∈ found ↔ Justified ms c) ∧
        (∀ c ∈ found, (c.field, place c) ∈ fieldPlaces) ∧
        (found.Pairwise fun a b => place a < place b) ∧
        (found ≠ [] → check line number = .error (found.map (⟨number, ·⟩))) ∧
        (found = [] → (∀ e, check line number = .ok e ↔ e.StandsIn ms) ∧
          ((∀ e : Entry, ¬ e.StandsIn ms) → ∃ (c : Complaint) (m : Json.Mismatch),
            c = .undecodable m ∧ c.field = "<deserialization>" ∧
              check line number = .error [⟨number, c⟩])) := by
  refine ⟨?_, ?_, ?_, ?_⟩
  · intro vs h
    cases hl : checkLine line with
    | ok e =>
      rw [check_eq_ok.mpr hl] at h
      contradiction
    | error found =>
      rw [check_of_error hl number] at h
      cases h
      refine ⟨fun he => checkLine_ne_nil hl (List.map_eq_nil_iff.mp he), ?_⟩
      intro v hv
      obtain ⟨c, -, rfl⟩ := List.mem_map.mp hv
      rfl
  · intro fault h
    have hl : checkLine line = .error [.notJson fault.cause (fault.position line)] := by
      simp only [checkLine, h]
    exact ⟨_, rfl, rfl, check_of_error hl number⟩
  · intro v h hv
    have hl : checkLine line = .error [.notObject] := by
      cases v with
      | object ms => exact absurd rfl (hv ms)
      | _ => simp only [checkLine, h]
    exact ⟨_, rfl, rfl, check_of_error hl number⟩
  · intro ms h
    have hl := checkLine_of_object h
    refine ⟨Json.lookup_of_readChars h, complaints ms, fun c => mem_complaints,
      fun c hc => mem_fieldPlaces (mem_complaints.mp hc), complaints_pairwise ms, ?_, ?_⟩
    · intro hc
      rw [checkMembers_of_complaints hc] at hl
      exact check_of_error hl number
    · intro hc
      refine ⟨?_, ?_⟩
      · intro e
        rw [check_eq_ok, hl, checkMembers_eq_ok]
        simp [hc]
      · intro hnone
        obtain ⟨m, hm⟩ := checkMembers_of_none hc hnone
        rw [hm] at hl
        exact ⟨_, m, rfl, rfl, check_of_error hl number⟩

/-- The four fields that an entry must have, the last of them given twice. -/
def faultless : List Char :=
  "\x7b\"timestamp\":\"t\",".toList ++ "\"trace_id\":\"::\",".toList ++
    "\"level\":\"warn\",".toList ++ "\"event\":4,".toList ++ "\"event\":\"e\"\x7d".toList

def faultlessEntry : Entry := { timestamp := "t", traceId := "::", level := .warn, event := "e" }

/-- A level that is none, and no other field. -/
def loud : List Char := "\x7b\"level\":\"loud\"\x7d".toList

/-- One line that is accepted, and one that is refused for all that is wrong with it. -/
theorem check_by_schema_faultless_loud :
    check faultless 1 = .ok faultlessEntry ∧
    ∃ found : List Complaint, check loud 7 = .error (found.map (⟨7, ·⟩)) ∧
      .missing "timestamp" ∈ found ∧ .missing "level" ∉ found ∧ .unknownLevel "loud" ∈ found ∧
      found.Pairwise fun a b => place a < place b := by
  have hfaultless : Json.readChars faultless = .ok (.object [("event", .text "e"),
      ("level", .text "warn"), ("timestamp", .text "t"), ("trace_id", .text "::")]) := rfl
  have hloud : Json.readChars loud = .ok (.object [("level", .text "loud")]) := rfl
  obtain ⟨-, -, -, haccept⟩ := check_by_schema faultless 1
  obtain ⟨-, -, -, hrefuse⟩ := check_by_schema loud 7
  obtain ⟨-, found, hfound, -, -, -, hnone⟩ := haccept _ hfaultless
  obtain ⟨-, wrong, hwrong, -, horder, hsome, -⟩ := hrefuse _ hloud
  constructor
  · have hempty : found = [] := by
      rw [List.eq_nil_iff_forall_not_mem]
      intro c hc
      have hcomplaint := mem_complaints.mpr ((hfound c).mp hc)
      exact absurd hcomplaint List.not_mem_nil
    rw [(hnone hempty).1]
    exact ⟨rfl, rfl, ⟨_, rfl, .inl rfl⟩, rfl, .inl rfl, .inl rfl, .inl rfl, .inl rfl, .inl rfl,
      .inl rfl⟩
  · have hlevel : .unknownLevel "loud" ∈ wrong :=
      (hwrong _).mpr ⟨rfl, by decide⟩
    refine ⟨wrong, hsome (List.ne_nil_of_mem hlevel), (hwrong _).mpr ⟨by decide, rfl⟩, ?_, hlevel,
      horder⟩
    intro hmissing
    cases ((hwrong _).mp hmissing).2

end ProcessStart.Log.Schema
