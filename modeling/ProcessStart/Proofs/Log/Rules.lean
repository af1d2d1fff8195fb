import ProcessStart.Log.Schema
import ProcessStart.Proofs.Decision

/-!
The rules of the schema, said without the order in which they are tried. A
complaint is justified by what stands in the object; the complaints found are
the justified ones, each once, in the order of the rules.
-/
namespace ProcessStart.Log.Schema

/-- The details are an object with this text under this name. -/
def IsDetail (ms : List (String × Json)) (name text : String) : Prop :=
  ∃ ds, ms.lookup "details" = some (.object ds) ∧ ds.lookup name = some (.text text)

/-- The text among the details, if there is one, and no other. -/
def FoundDetail (ms : List (String × Json)) (name : String) (found : Option String) : Prop :=
  ∀ text, found = some text ↔ IsDetail ms name text

def IsDecision (ms : List (String × Json)) : Prop :=
  ms.lookup "event" = some (.text "startup_decision")

/-- What justifies a complaint about an object. The last three are no matter of the rules. -/
def Justified (ms : List (String × Json)) : Complaint → Prop
  | .missing name => name ∈ ["timestamp", "trace_id", "level", "event"] ∧ ms.lookup name = none
  | .unknownLevel label =>
    ms.lookup "level" = some (.text label) ∧
      label ∉ ["trace", "debug", "info", "warn", "error", "fatal"]
  | .unknownOutcome label =>
    ms.lookup "outcome" = some (.text label) ∧ label ∉ ["pass", "fail", "skip", "error"]
  | .unscopedTraceId id => ms.lookup "trace_id" = some (.text id) ∧ ¬ [':', ':'] <:+: id.toList
  | .unknownGeneration found =>
    IsDecision ms ∧ FoundDetail ms "generation" found ∧
      ¬ IsDetail ms "generation" "legacy" ∧ ¬ IsDetail ms "generation" "modern"
  | .wrongStrategy generation found =>
    IsDecision ms ∧ FoundDetail ms "strategy" found ∧
      IsDetail ms "generation" generation.label ∧
      ¬ IsDetail ms "strategy" generation.strategy.label
  | .notJson _ _ => False
  | .notObject => False
  | .undecodable _ => False

/-- The place of a complaint: the required fields in their order, then one place for each rule. -/
def place : Complaint → Nat
  | .missing name => ["timestamp", "trace_id", "level", "event"].idxOf name
  | .unknownLevel _ => 4
  | .unknownOutcome _ => 5
  | .unscopedTraceId _ => 6
  | .unknownGeneration _ => 7
  | .wrongStrategy _ _ => 7
  | _ => 8

theorem textAt_eq_some {ms : List (String × Json)} {name text : String} :
    textAt ms name = some text ↔ ms.lookup name = some (.text text) := by
  cases h : ms.lookup name with
  | none => simp [textAt, h]
  | some v => cases v <;> simp [textAt, h, Json.text?]

/-- Details that are no object have nothing in them. -/
theorem textAt_details {ms : List (String × Json)} {name text : String} :
    textAt (details ms) name = some text ↔ IsDetail ms name text := by
  rw [textAt_eq_some]
  cases h : ms.lookup "details" with
  | none => simp [details, IsDetail, h]
  | some v => cases v <;> simp [details, IsDetail, h, Json.members?]

theorem foundDetail_iff {ms : List (String × Json)} {name : String} {found : Option String} :
    FoundDetail ms name found ↔ found = textAt (details ms) name := by
  constructor
  · intro h
    apply Option.ext
    intro text
    rw [h text, textAt_details]
  · rintro rfl text
    exact textAt_details

theorem occurs_iff (part s : List Char) : Text.occurs part s = true ↔ part <:+: s := by
  induction s with
  | nil => simp [Text.occurs]
  | cons c s ih => simp [Text.occurs, ih, List.infix_cons_iff]

theorem isScoped_iff (id : String) : isScoped id = true ↔ [':', ':'] <:+: id.toList :=
  occurs_iff _ _

theorem isSome_lookup {α : Type} (choice : List (String × α)) (name : String) :
    (choice.lookup name).isSome = true ↔ name ∈ choice.map Prod.fst := by
  rw [List.lookup_isSome_iff, List.mem_map]
  constructor
  · rintro ⟨p, hp, he⟩
    exact ⟨p, hp, (beq_iff_eq.mp he).symm⟩
  · rintro ⟨p, hp, he⟩
    exact ⟨p, hp, beq_iff_eq.mpr he.symm⟩

section

variable {ms : List (String × Json)} {c : Complaint}

theorem mem_missing : c ∈ missing ms ↔ ∃ name, c = .missing name ∧ Justified ms c := by
  simp only [missing, List.mem_map, List.mem_filter, Option.isNone_iff_eq_none]
  constructor
  · rintro ⟨name, h, rfl⟩
    exact ⟨name, rfl, h⟩
  · rintro ⟨name, rfl, h⟩
    exact ⟨name, h, rfl⟩

/-- The rules for a single text: the text under a name is asked for something. -/
def textRule (ms : List (String × Json)) (name : String) (good : String → Bool)
    (complaint : String → Complaint) : List Complaint :=
  match textAt ms name with
  | none => []
  | some text => if good text then [] else [complaint text]

theorem mem_textRule {name : String} {good : String → Bool} {complaint : String → Complaint} :
    c ∈ textRule ms name good complaint ↔
      ∃ text, c = complaint text ∧ ms.lookup name = some (.text text) ∧ good text = false := by
  cases h : textAt ms name with
  | none =>
    simp only [textRule, h, List.not_mem_nil, false_iff]
    rintro ⟨text, -, hl, -⟩
    rw [textAt_eq_some.mpr hl] at h
    contradiction
  | some found =>
    have hl := textAt_eq_some.mp h
    cases hg : good found with
    | true =>
      simp only [textRule, h, hg, if_true, List.not_mem_nil, false_iff]
      rintro ⟨text, -, ht, hb⟩
      rw [hl] at ht
      cases ht
      rw [hg] at hb
      contradiction
    | false =>
      simp only [textRule, h, hg, Bool.false_eq_true, if_false, List.mem_singleton]
      constructor
      · intro he
        exact ⟨found, he, hl, hg⟩
      · rintro ⟨text, rfl, ht, -⟩
        rw [hl] at ht
        cases ht
        rfl

theorem mem_levelRule : c ∈ levelRule ms ↔ ∃ label, c = .unknownLevel label ∧ Justified ms c := by
  have hrule : levelRule ms =
      textRule ms "level" (fun label => (Level.labels.lookup label).isSome) .unknownLevel := rfl
  have hlabels : Level.labels.map Prod.fst =
      ["trace", "debug", "info", "warn", "error", "fatal"] := rfl
  rw [hrule, mem_textRule]
  apply exists_congr
  intro label
  apply and_congr_right
  rintro rfl
  rw [Justified, ← hlabels, ← isSome_lookup, Bool.not_eq_true]

theorem mem_outcomeRule :
    c ∈ outcomeRule ms ↔ ∃ label, c = .unknownOutcome label ∧ Justified ms c := by
  have hrule : outcomeRule ms =
      textRule ms "outcome" (fun label => (Outcome.labels.lookup label).isSome) .unknownOutcome :=
    rfl
  have hlabels : Outcome.labels.map Prod.fst = ["pass", "fail", "skip", "error"] := rfl
  rw [hrule, mem_textRule]
  apply exists_congr
  intro label
  apply and_congr_right
  rintro rfl
  rw [Justified, ← hlabels, ← isSome_lookup, Bool.not_eq_true]

theorem mem_traceIdRule :
    c ∈ traceIdRule ms ↔ ∃ id, c = .unscopedTraceId id ∧ Justified ms c := by
  have hrule : traceIdRule ms = textRule ms "trace_id" isScoped .unscopedTraceId := rfl
  rw [hrule, mem_textRule]
  apply exists_congr
  intro id
  apply and_congr_right
  rintro rfl
  rw [Justified, ← isScoped_iff, Bool.not_eq_true]

/-- A generation has one label. -/
theorem ofLabel?_eq_some {label : String} {g : Generation} :
    Generation.ofLabel? label = some g ↔ label = g.label := by
  constructor
  · intro h
    unfold Generation.ofLabel? at h
    split at h
    · cases h; rfl
    · cases h; rfl
    · contradiction
  · rintro rfl
    exact Generation.ofLabel?_label g

/-- The generation among the details, or that there is none the rules know. -/
theorem generation_cases (ms : List (String × Json)) :
    ((textAt (details ms) "generation").bind Generation.ofLabel? = none ∧
      ¬ IsDetail ms "generation" "legacy" ∧ ¬ IsDetail ms "generation" "modern") ∨
    ∃ g : Generation, (textAt (details ms) "generation").bind Generation.ofLabel? = some g ∧
      IsDetail ms "generation" g.label := by
  cases h : (textAt (details ms) "generation").bind Generation.ofLabel? with
  | none =>
    refine .inl ⟨rfl, ?_, ?_⟩
    · intro hl
      rw [textAt_details.mpr hl] at h
      contradiction
    · intro hm
      rw [textAt_details.mpr hm] at h
      contradiction
  | some g =>
    obtain ⟨label, hl, hg⟩ := Option.bind_eq_some_iff.mp h
    rw [ofLabel?_eq_some.mp hg] at hl
    exact .inr ⟨g, rfl, textAt_details.mp hl⟩

/-- Details have one generation at most. -/
theorem generation_unique {g g' : Generation} (h : IsDetail ms "generation" g.label)
    (h' : IsDetail ms "generation" g'.label) : g = g' := by
  have hl := textAt_details.mpr h
  rw [textAt_details.mpr h'] at hl
  exact Generation.eq_of_label (Option.some.inj hl).symm

/-- The decision rule complains of a generation or a strategy, each where this is justified. -/
theorem mem_decisionRule : c ∈ decisionRule ms ↔
    ((∃ found, c = .unknownGeneration found) ∨ ∃ g found, c = .wrongStrategy g found) ∧
      Justified ms c := by
  by_cases he : textAt ms "event" = some startDecision
  · have hdecision : IsDecision ms := textAt_eq_some.mp he
    obtain ⟨hg, hlegacy, hmodern⟩ | ⟨g, hg, hdetail⟩ := generation_cases ms
    · simp only [decisionRule, he, if_true, hg, List.mem_singleton]
      constructor
      · rintro rfl
        exact ⟨.inl ⟨_, rfl⟩, hdecision, foundDetail_iff.mpr rfl, hlegacy, hmodern⟩
      · rintro ⟨⟨found, rfl⟩ | ⟨g, found, rfl⟩, h⟩
        · rw [foundDetail_iff.mp h.2.1]
        · obtain ⟨-, -, hd, -⟩ := h
          cases g with
          | legacy => exact absurd hd hlegacy
          | modern => exact absurd hd hmodern
    · simp only [decisionRule, he, if_true, hg]
      split
      · rename_i hs
        have hstrategy := textAt_details.mp hs
        simp only [List.not_mem_nil, false_iff]
        rintro ⟨⟨found, rfl⟩ | ⟨g', found, rfl⟩, h⟩
        · cases g with
          | legacy => exact h.2.2.1 hdetail
          | modern => exact h.2.2.2 hdetail
        · obtain ⟨-, -, hd, hn⟩ := h
          rw [generation_unique hd hdetail] at hn
          exact hn hstrategy
      · rename_i hs
        rw [List.mem_singleton]
        constructor
        · rintro rfl
          exact ⟨.inr ⟨_, _, rfl⟩, hdecision, foundDetail_iff.mpr rfl, hdetail,
            fun h => hs (textAt_details.mpr h)⟩
        · rintro ⟨⟨found, rfl⟩ | ⟨g', found, rfl⟩, h⟩
          · cases g with
            | legacy => exact absurd hdetail h.2.2.1
            | modern => exact absurd hdetail h.2.2.2
          · obtain ⟨-, hf, hd, -⟩ := h
            rw [generation_unique hd hdetail, foundDetail_iff.mp hf]
  · have hdecision : ¬ IsDecision ms := fun h => he (textAt_eq_some.mpr h)
    simp only [decisionRule, he, if_false, List.not_mem_nil, false_iff]
    rintro ⟨⟨found, rfl⟩ | ⟨g, found, rfl⟩, h⟩
    · exact hdecision h.1
    · exact hdecision h.1

/-- The complaints about an object are the justified ones. -/
theorem mem_complaints : c ∈ complaints ms ↔ Justified ms c := by
  simp only [complaints, List.mem_append, mem_missing, mem_levelRule, mem_outcomeRule,
    mem_traceIdRule, mem_decisionRule]
  constructor
  · rintro ((((⟨_, -, h⟩ | ⟨_, -, h⟩) | ⟨_, -, h⟩) | ⟨_, -, h⟩) | ⟨-, h⟩) <;> exact h
  · intro h
    cases c with
    | notJson cause position => exact absurd h id
    | notObject => exact absurd h id
    | undecodable mismatch => exact absurd h id
    | missing name => exact .inl (.inl (.inl (.inl ⟨name, rfl, h⟩)))
    | unknownLevel label => exact .inl (.inl (.inl (.inr ⟨label, rfl, h⟩)))
    | unknownOutcome label => exact .inl (.inl (.inr ⟨label, rfl, h⟩))
    | unscopedTraceId id => exact .inl (.inr ⟨id, rfl, h⟩)
    | unknownGeneration found => exact .inr ⟨.inl ⟨found, rfl⟩, h⟩
    | wrongStrategy g found => exact .inr ⟨.inr ⟨g, found, rfl⟩, h⟩

end

/-- Missing fields are complained of in the order in which they are required. -/
theorem missing_pairwise (ms : List (String × Json)) :
    (missing ms).Pairwise fun a b => place a < place b := by
  have hall : (requiredFields.map Complaint.missing).Pairwise fun a b => place a < place b := by
    decide
  exact hall.sublist (List.filter_sublist.map _)

theorem place_of_mem_missing {ms : List (String × Json)} {c : Complaint} (h : c ∈ missing ms) :
    place c < 4 := by
  obtain ⟨name, rfl, hname, -⟩ := mem_missing.mp h
  exact List.idxOf_lt_length_iff.mpr hname

theorem textRule_pairwise (ms : List (String × Json)) (name : String) (good : String → Bool)
    (complaint : String → Complaint) :
    (textRule ms name good complaint).Pairwise fun a b => place a < place b := by
  unfold textRule
  split
  · exact .nil
  · split
    · exact .nil
    · exact List.pairwise_singleton _ _

theorem decisionRule_pairwise (ms : List (String × Json)) :
    (decisionRule ms).Pairwise fun a b => place a < place b := by
  unfold decisionRule
  split
  · dsimp only
    split
    · exact List.pairwise_singleton _ _
    · split
      · exact .nil
      · exact List.pairwise_singleton _ _
  · exact .nil

/-- Complaints of one place behind complaints of lower places. -/
theorem pairwise_append {as bs : List Complaint} {k : Nat}
    (ha : as.Pairwise fun a b => place a < place b) (hak : ∀ a ∈ as, place a < k)
    (hb : bs.Pairwise fun a b => place a < place b) (hbk : ∀ b ∈ bs, place b = k) :
    ((as ++ bs).Pairwise fun a b => place a < place b) ∧ ∀ c ∈ as ++ bs, place c < k + 1 := by
  refine ⟨List.pairwise_append.mpr ⟨ha, hb, ?_⟩, ?_⟩
  · intro a hma b hmb
    rw [hbk b hmb]
    exact hak a hma
  · intro c hc
    cases List.mem_append.mp hc with
    | inl hc => exact Nat.lt_succ_of_lt (hak c hc)
    | inr hc => exact Nat.lt_succ_of_le (Nat.le_of_eq (hbk c hc))

/-- Complaints come in the order of the rules, at most one for each. -/
theorem complaints_pairwise (ms : List (String × Json)) :
    (complaints ms).Pairwise fun a b => place a < place b := by
  have hlevel : ∀ c ∈ levelRule ms, place c = 4 := by
    intro c hc
    obtain ⟨label, rfl, -⟩ := mem_levelRule.mp hc
    rfl
  have houtcome : ∀ c ∈ outcomeRule ms, place c = 5 := by
    intro c hc
    obtain ⟨label, rfl, -⟩ := mem_outcomeRule.mp hc
    rfl
  have htrace : ∀ c ∈ traceIdRule ms, place c = 6 := by
    intro c hc
    obtain ⟨id, rfl, -⟩ := mem_traceIdRule.mp hc
    rfl
  have hdecision : ∀ c ∈ decisionRule ms, place c = 7 := by
    intro c hc
    obtain ⟨⟨found, rfl⟩ | ⟨g, found, rfl⟩, -⟩ := mem_decisionRule.mp hc
    · rfl
    · rfl
  obtain ⟨h, hlt⟩ := pairwise_append (missing_pairwise ms) (fun _ => place_of_mem_missing)
    (textRule_pairwise ms _ _ _) hlevel
  obtain ⟨h, hlt⟩ := pairwise_append h hlt (textRule_pairwise ms _ _ _) houtcome
  obtain ⟨h, hlt⟩ := pairwise_append h hlt (textRule_pairwise ms _ _ _) htrace
  exact (pairwise_append h hlt (decisionRule_pairwise ms) hdecision).1

end ProcessStart.Log.Schema
