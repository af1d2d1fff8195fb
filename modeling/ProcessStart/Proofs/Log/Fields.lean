import ProcessStart.Proofs.Log.Validation

/-!
Only the fields matter. The rules and the decoder look members up by the names
of the ten fields of an entry and see nothing else of an object, so two lines
that agree in them share their fate to the letter: in what order the members
stand, what other members there are, which earlier ones were overwritten, and
how the text is spelled cannot be told from the outcome.
-/
namespace ProcessStart.Log

def Entry.fields : List String :=
  ["timestamp", "trace_id", "level", "event", "api_family", "symbol", "outcome", "exit_code",
    "artifact_refs", "details"]

/-- The same value, or none, under the name of every field. -/
def Agree (ms ns : List (String × Json)) : Prop :=
  ∀ name ∈ Entry.fields, ms.lookup name = ns.lookup name

namespace Agree

variable {ms ns : List (String × Json)} (h : Agree ms ns)

include h

/-- Objects that agree are decoded alike, with the same message if they cannot be. -/
theorem ofMembers : Entry.ofMembers ms = Entry.ofMembers ns := by
  simp only [Entry.ofMembers, Json.decodeField, h "api_family" (by decide),
    h "artifact_refs" (by decide), h "details" (by decide), h "event" (by decide),
    h "exit_code" (by decide), h "level" (by decide), h "outcome" (by decide),
    h "symbol" (by decide), h "timestamp" (by decide), h "trace_id" (by decide)]

theorem missing : Schema.missing ms = Schema.missing ns := by
  have hrequired : ∀ name ∈ Schema.requiredFields, name ∈ Entry.fields := by decide
  rw [Schema.missing, Schema.missing]
  congr 1
  apply List.filter_congr
  intro name hname
  rw [h name (hrequired name hname)]

theorem textAt (name : String) (hname : name ∈ Entry.fields) :
    Schema.textAt ms name = Schema.textAt ns name := by
  rw [Schema.textAt, h name hname, Schema.textAt]

/-- Objects that agree break the same rules, in the same order. -/
theorem complaints : Schema.complaints ms = Schema.complaints ns := by
  have hdetails : Schema.details ms = Schema.details ns := by
    rw [Schema.details, h "details" (by decide), Schema.details]
  rw [Schema.complaints, Schema.complaints, h.missing]
  simp only [Schema.levelRule, Schema.outcomeRule, Schema.traceIdRule, Schema.decisionRule,
    h.textAt "level" (by decide), h.textAt "outcome" (by decide),
    h.textAt "trace_id" (by decide), h.textAt "event" (by decide), hdetails]

theorem checkMembers : Schema.checkMembers ms = Schema.checkMembers ns := by
  rw [Schema.checkMembers, Schema.checkMembers, h.complaints, h.ofMembers]

end Agree

namespace Schema

/-- A line is judged by the members that its text has, the last of each key counting. -/
theorem checkLine_of_occurrences {line : List Char} {all : List (String × Json)}
    (h : Json.occurrences line = .ok all) : checkLine line = checkMembers all.reverse := by
  obtain ⟨ms, hms, hlast⟩ := Json.readChars_of_occurrences h
  have hagree : Agree ms all.reverse := fun name _ => hlast name
  rw [checkLine_of_object hms, hagree.checkMembers]

/-- Two lines that are objects and agree in every field, the last member of a key counting, have
the same outcome: the same entry, or the same complaints. -/
theorem check_of_agree {a b : List Char} {as bs : List (String × Json)}
    (ha : Json.occurrences a = .ok as) (hb : Json.occurrences b = .ok bs)
    (h : ∀ name ∈ Entry.fields, as.reverse.lookup name = bs.reverse.lookup name) (number : Nat) :
    check a number = check b number := by
  have hagree : Agree as.reverse bs.reverse := h
  rw [check, check, checkLine_of_occurrences ha, checkLine_of_occurrences hb, hagree.checkMembers]

/-- A line with two fields that cannot be decoded. -/
def undecodable : List Char :=
  "\x7b\"timestamp\":\"t\",".toList ++ "\"trace_id\":\"::\",".toList ++
    "\"level\":\"info\",".toList ++ "\"event\":\"e\",".toList ++ "\"symbol\":5,".toList ++
    "\"exit_code\":[]\x7d".toList

def undecodableMembers : List (String × Json) :=
  [("timestamp", .text "t"), ("trace_id", .text "::"), ("level", .text "info"),
    ("event", .text "e"), ("symbol", .number (.integer 5)), ("exit_code", .array [])]

/-- The same fields in another order, with blanks and an escape, behind a member that is no field;
the level is given twice, the first time as another one. -/
def respelled : List Char :=
  " \x7b\"note\":\x7b\x7d,".toList ++ "\"symbol\" : 5,".toList ++ "\"level\":\"fatal\",".toList ++
    "\"exit_code\":[],".toList ++ "\"event\":\"e\",".toList ++ "\"\\u006cevel\":\"info\",".toList ++
    "\"trace_id\":\"::\",".toList ++ "\"timestamp\":\"t\"\x7d".toList

def respelledMembers : List (String × Json) :=
  [("note", .object []), ("symbol", .number (.integer 5)), ("level", .text "fatal"),
    ("exit_code", .array []), ("event", .text "e"), ("level", .text "info"),
    ("trace_id", .text "::"), ("timestamp", .text "t")]

set_option maxRecDepth 1000 in
theorem check_of_agree_respelled :
    Json.occurrences undecodable = .ok undecodableMembers ∧
      Json.occurrences respelled = .ok respelledMembers ∧
      (∀ name ∈ Entry.fields,
        undecodableMembers.reverse.lookup name = respelledMembers.reverse.lookup name) ∧
      check undecodable 7 = check respelled 7 := by
  have hundecodable : Json.occurrences undecodable = .ok undecodableMembers := rfl
  have hrespelled : Json.occurrences respelled = .ok respelledMembers := rfl
  have hagree : ∀ name ∈ Entry.fields,
      undecodableMembers.reverse.lookup name = respelledMembers.reverse.lookup name := by
    simp only [Entry.fields, List.forall_mem_cons]
    exact ⟨rfl, rfl, rfl, rfl, rfl, rfl, rfl, rfl, rfl, rfl, nofun⟩
  exact ⟨hundecodable, hrespelled, hagree, check_of_agree hundecodable hrespelled hagree 7⟩

end Schema
end ProcessStart.Log
