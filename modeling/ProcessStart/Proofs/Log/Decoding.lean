import ProcessStart.Log.Entry
import ProcessStart.Proofs.Json.Decoding

/-!
What an object has to hold to be decoded as an entry, field by field, and that
nothing else is asked.
-/
namespace ProcessStart.Log

/-- In a choice made of the labels of its values, a label leads to its own value. -/
theorem label_of_lookup {α : Type} {label : α → String} {choice : List α} {name : String} {a : α}
    (h : (choice.map fun a => (label a, a)).lookup name = some a) : name = label a := by
  obtain ⟨before, behind, he, -⟩ := List.lookup_eq_some_iff.mp h
  have hmem : (name, a) ∈ choice.map fun a => (label a, a) := by simp [he]
  obtain ⟨b, -, hb⟩ := List.mem_map.mp hmem
  cases hb
  rfl

theorem decodeLabel_eq_ok {α : Type} {label : α → String} {choice : List α}
    (h : ∀ a, (choice.map fun a => (label a, a)).lookup (label a) = some a) (v : Json) (a : α) :
    Json.decodeVariant (choice.map fun a => (label a, a)) v = .ok a ↔ v.IsVariant (label a) := by
  rw [Json.decodeVariant_eq_ok]
  constructor
  · rintro ⟨name, hl, hv⟩
    rwa [label_of_lookup hl] at hv
  · intro hv
    exact ⟨label a, h a, hv⟩

theorem decodeLevel_eq_ok (v : Json) (l : Level) :
    Json.decodeVariant Level.labels v = .ok l ↔ v.IsVariant l.label :=
  decodeLabel_eq_ok Level.lookup_label v l

theorem decodeOutcome_eq_ok (v : Json) (o : Outcome) :
    Json.decodeVariant Outcome.labels v = .ok o ↔ v.IsVariant o.label :=
  decodeLabel_eq_ok Outcome.lookup_label v o

/-- The entry that an object stands for. Members of other names do not matter. -/
structure Entry.StandsIn (ms : List (String × Json)) (e : Entry) : Prop where
  timestamp : ms.lookup "timestamp" = some (.text e.timestamp)
  traceId : ms.lookup "trace_id" = some (.text e.traceId)
  level : ∃ v, ms.lookup "level" = some v ∧ v.IsVariant e.level.label
  event : ms.lookup "event" = some (.text e.event)
  apiFamily : Json.IsOptional (fun v s => v = .text s) (ms.lookup "api_family") e.apiFamily
  symbol : Json.IsOptional (fun v s => v = .text s) (ms.lookup "symbol") e.symbol
  outcome : Json.IsOptional (fun v o => v.IsVariant o.label) (ms.lookup "outcome") e.outcome
  exitCode : Json.IsOptional (fun v n => v = .number (.integer n.toInt)) (ms.lookup "exit_code")
    e.exitCode
  artifactRefs : Json.IsOptional (fun v refs => v = .array (refs.map .text))
    (ms.lookup "artifact_refs") e.artifactRefs
  details : Json.IsOptional (fun v w => v = w) (ms.lookup "details") e.details

/-- An object is decoded as the entry it stands for, and as nothing if it stands for none. -/
theorem ofMembers_eq_ok {ms : List (String × Json)} {e : Entry} :
    Entry.ofMembers ms = .ok e ↔ e.StandsIn ms := by
  have htext : ∀ v s, Json.decodeText v = .ok s ↔ v = .text s := fun _ _ => Json.decodeText_eq_ok
  have htexts : ∀ v ss, Json.decodeArray Json.decodeText v = .ok ss ↔ v = .array (ss.map .text) :=
    fun _ _ => Json.decodeArray_eq_ok htext
  have hint : ∀ v n, Json.decodeInt32 v = .ok n ↔ v = .number (.integer n.toInt) :=
    fun _ _ => Json.decodeInt32_eq_ok
  have hany : ∀ v w : Json, (Except.ok v : Except Json.Mismatch Json) = .ok w ↔ v = w := by simp
  constructor
  · intro h
    simp only [Entry.ofMembers, bind_eq_ok] at h
    obtain ⟨apiFamily, hapi, artifactRefs, hrefs, details, hdetails, event, hevent, exitCode, hcode,
      level, hlevel, outcome, houtcome, symbol, hsymbol, timestamp, htimestamp, traceId, htrace,
      t, ht, i, hi, l, hl, v, hv, he⟩ := h
    cases he
    refine ⟨?_, ?_, ?_, ?_, ?_, ?_, ?_, ?_, ?_, ?_⟩
    · obtain ⟨w, hw, rfl⟩ := (Json.decodeField_required htext).mp ⟨_, htimestamp, ht⟩
      exact hw
    · obtain ⟨w, hw, rfl⟩ := (Json.decodeField_required htext).mp ⟨_, htrace, hi⟩
      exact hw
    · exact (Json.decodeField_required decodeLevel_eq_ok).mp ⟨_, hlevel, hl⟩
    · obtain ⟨w, hw, rfl⟩ := (Json.decodeField_required htext).mp ⟨_, hevent, hv⟩
      exact hw
    · exact (Json.decodeField_optional htext).mp ⟨_, hapi, rfl⟩
    · exact (Json.decodeField_optional htext).mp ⟨_, hsymbol, rfl⟩
    · exact (Json.decodeField_optional decodeOutcome_eq_ok).mp ⟨_, houtcome, rfl⟩
    · exact (Json.decodeField_optional hint).mp ⟨_, hcode, rfl⟩
    · exact (Json.decodeField_optional htexts).mp ⟨_, hrefs, rfl⟩
    · exact (Json.decodeField_optional hany).mp ⟨_, hdetails, rfl⟩
  · intro h
    obtain ⟨timestamp, htimestamp, ht⟩ :=
      (Json.decodeField_required htext).mpr ⟨_, h.timestamp, rfl⟩
    obtain ⟨traceId, htrace, hi⟩ := (Json.decodeField_required htext).mpr ⟨_, h.traceId, rfl⟩
    obtain ⟨level, hlevel, hl⟩ := (Json.decodeField_required decodeLevel_eq_ok).mpr h.level
    obtain ⟨event, hevent, hv⟩ := (Json.decodeField_required htext).mpr ⟨_, h.event, rfl⟩
    obtain ⟨apiFamily, hapi, ha⟩ := (Json.decodeField_optional htext).mpr h.apiFamily
    obtain ⟨symbol, hsymbol, hs⟩ := (Json.decodeField_optional htext).mpr h.symbol
    obtain ⟨outcome, houtcome, ho⟩ := (Json.decodeField_optional decodeOutcome_eq_ok).mpr h.outcome
    obtain ⟨exitCode, hcode, hc⟩ := (Json.decodeField_optional hint).mpr h.exitCode
    obtain ⟨artifactRefs, hrefs, hr⟩ := (Json.decodeField_optional htexts).mpr h.artifactRefs
    obtain ⟨details, hdetails, hd⟩ := (Json.decodeField_optional hany).mpr h.details
    simp only [Entry.ofMembers, bind_eq_ok]
    refine ⟨_, hapi, _, hrefs, _, hdetails, _, hevent, _, hcode, _, hlevel, _, houtcome, _, hsymbol,
      _, htimestamp, _, htrace, _, ht, _, hi, _, hl, _, hv, ?_⟩
    rw [ha, hs, ho, hc, hr, hd]
    rfl

end ProcessStart.Log
