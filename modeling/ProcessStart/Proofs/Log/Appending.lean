import ProcessStart.Proofs.Log.Emitting
import ProcessStart.Proofs.Log.Findings

/-!
What is found in a log after it was written on. A record is found of it what is
found of its entry alone, and the log it is written behind keeps its findings,
as long as a new line begins where the first record is put. It does not if the
log ends in the middle of a line that is not blank: nothing ends that line
before the record, so the two become one line.
-/
namespace ProcessStart.Log

/-- The lines of entries, each with its line feed. -/
def Entry.lines (entries : List Entry) : List Char := entries.flatMap fun e => e.line ++ ['\n']

/-- A line begins and ends with a brace, so trimming takes nothing off. -/
theorem Entry.trim_line (e : Entry) : Text.trim e.line = e.line := by
  have hwrite : e.line = '{' :: Json.commaSeparated (Json.writeMembers e.members) ++ ['}'] := by
    rw [Entry.line, Json.write]
  rw [hwrite]
  apply Text.trim_of_ends
  · intro c hc
    cases hc
    decide
  · intro c hc
    rw [List.getLast?_concat] at hc
    cases hc
    decide

theorem Entry.line_ne_nil (e : Entry) : e.line ≠ [] := by
  rw [Entry.line, Json.write]
  exact List.cons_ne_nil _ _

namespace Findings

theorem ofLine_line (number : Nat) (e : Entry) :
    ofLine number e.line = ⟨1, Schema.violations e.line number⟩ := by
  have hne : Text.trim e.line ≠ [] := by
    rw [e.trim_line]
    exact e.line_ne_nil
  rw [ofLine_of_ne_nil hne, e.trim_line]

/-- An empty last line holds nothing. -/
theorem ofLines_concat_nil (number : Nat) (ls : List (List Char)) :
    ofLines number (ls ++ [[]]) = ofLines number ls :=
  (ofLines_append number ls [[]]).trans (append_empty _)

/-- Entries on lines of their own. -/
theorem ofLines_lines (number : Nat) (entries : List Entry) :
    ofLines number (entries.map Entry.line) = ⟨entries.length,
      (entries.zipIdx number).flatMap fun e => Schema.violations e.1.line e.2⟩ := by
  induction entries generalizing number with
  | nil => rfl
  | cons e entries ih =>
    rw [List.map_cons, ofLines_cons, ofLine_line, ih, List.length_cons, List.zipIdx_cons,
      List.flatMap_cons, Nat.add_comm entries.length]
    rfl

/-- A text behind a line that is not finished. -/
theorem ofText_unfinished (old t : List Char) :
    ofText (old ++ t) = ofText (Text.finished old) ++
      ofLines (old.count '\n' + 1) (Text.pieces '\n' (Text.unfinished old ++ t)) := by
  have hcount : (Text.finished old).count '\n' = old.count '\n' := by
    conv_rhs => rw [← Text.finished_append_unfinished old, List.count_append,
      List.count_eq_zero.mpr (Text.not_mem_unfinished old), Nat.add_zero]
  conv_lhs => rw [← Text.finished_append_unfinished old]
  rw [List.append_assoc, ofText_append (Text.endsLine_finished old), hcount,
    ofText_eq (_ ++ t), ← ofLines_add, Nat.add_comm 1]

theorem pieces_lines (entries : List Entry) :
    Text.pieces '\n' (Entry.lines entries) = entries.map Entry.line ++ [[]] := by
  induction entries with
  | nil => rfl
  | cons e entries ih =>
    rw [Entry.lines, List.flatMap_cons, List.append_assoc, List.singleton_append,
      Text.pieces_append, ← Entry.lines, ih, Text.pieces_of_not_mem e.unbroken.no_line_feed]
    rfl

/-- The first entry goes on with the line that is not finished; the others have their own. -/
theorem ofText_lines (old : List Char) (e : Entry) (rest : List Entry) :
    ofText (old ++ Entry.lines (e :: rest)) = ofText (Text.finished old) ++
      (ofLine (old.count '\n' + 1) (Text.unfinished old ++ e.line) ++
        ofLines (old.count '\n' + 1 + 1) (rest.map Entry.line)) := by
  have hline : '\n' ∉ Text.unfinished old ++ e.line := by
    rw [List.mem_append, not_or]
    exact ⟨Text.not_mem_unfinished old, e.unbroken.no_line_feed⟩
  have hpieces : Text.pieces '\n' (Text.unfinished old ++ Entry.lines (e :: rest)) =
      (Text.unfinished old ++ e.line) :: (rest.map Entry.line ++ [[]]) := by
    rw [Entry.lines, List.flatMap_cons, List.append_assoc, List.singleton_append,
      ← List.append_assoc, Text.pieces_append, ← Entry.lines, pieces_lines,
      Text.pieces_of_not_mem hline]
    rfl
  rw [ofText_unfinished, hpieces, ofLines_cons, ofLines_concat_nil]

/-- Behind a last line that is blank, or finished, entries are found what they are found alone. -/
theorem ofText_lines_of_blank {old : List Char} (h : Text.trim (Text.unfinished old) = [])
    (entries : List Entry) :
    ofText (old ++ Entry.lines entries) =
      ofText old ++ ofLines (old.count '\n' + 1) (entries.map Entry.line) := by
  have hblank := Text.trim_eq_nil.mp h
  have hold : ofText old = ofText (Text.finished old) := by
    conv_lhs => rw [← Text.finished_append_unfinished old]
    exact ofText_append_blank _ hblank
  cases entries with
  | nil => exact (congrArg ofText (List.append_nil old)).trans (append_empty _).symm
  | cons e rest =>
    rw [ofText_lines, ofLine_congr (Text.trim_blank_append hblank e.line), hold]
    rfl

/-- Behind a last line that is neither, the first entry has no line of its own. -/
theorem ofText_lines_of_unfinished {old : List Char} (h : Text.trim (Text.unfinished old) ≠ [])
    (e : Entry) (rest : List Entry) :
    ofText (old ++ Entry.lines (e :: rest)) = ofText (Text.finished old) ++
      (⟨1, Schema.violations (Text.trim (Text.unfinished old ++ e.line)) (old.count '\n' + 1)⟩ ++
        ofLines (old.count '\n' + 1 + 1) (rest.map Entry.line)) ∧
    (ofText old).lines = (ofText (Text.finished old)).lines + 1 := by
  have hjoined : Text.trim (Text.unfinished old ++ e.line) ≠ [] := by
    intro he
    have hblank := Text.isBlank_append.mp (Text.trim_eq_nil.mp he)
    exact h (Text.trim_eq_nil.mpr hblank.1)
  have hold := ofText_unfinished old []
  rw [List.append_nil, List.append_nil, Text.pieces_of_not_mem (Text.not_mem_unfinished old),
    ofLines_cons, ofLine_of_ne_nil h] at hold
  rw [ofText_lines, ofLine_of_ne_nil hjoined, hold]
  exact ⟨rfl, rfl⟩

/-- The file of an emitter reads as the old text with the lines of its entries behind it. -/
theorem decode_run (scope runId : String) (old : List Char) (ops : List Emitter.Operation) :
    Text.utf8Decode?
        ((Emitter.opened scope runId (Text.utf8Encode old)).run ops).flush.target.held =
      some (old ++ Entry.lines ((Emitter.opened scope runId (Text.utf8Encode old)).entries ops)) := by
  have hrecords : ∀ entries : List Entry,
      entries.flatMap Entry.record = Text.utf8Encode (Entry.lines entries) := by
    intro entries
    induction entries with
    | nil => rfl
    | cons e entries ih =>
      rw [List.flatMap_cons, Entry.lines, List.flatMap_cons, Text.utf8Encode_append, ih,
        Entry.record, Text.utf8Encode_append]
      rfl
  have hheld := Emitter.content_run (Emitter.opened scope runId (Text.utf8Encode old)) ops
  rw [hrecords] at hheld
  rw [← Text.utf8Decode?_utf8Encode, Text.utf8Encode_append]
  exact congrArg Text.utf8Decode? (hheld.trans (congrArg (· ++ _) (Target.content_opened _)))

/-- A log that was written on has one line more for each entry, the old findings and behind them
those of each entry alone, exactly if its old last line is blank or finished, or nothing was
written. Otherwise it has one line less than that: the old last line and the first entry are held
against the schema as one. -/
theorem ofText_appended (scope runId : String) (old : List Char) (ops : List Emitter.Operation) :
    let emitter := Emitter.opened scope runId (Text.utf8Encode old)
    let records := emitter.entries ops
    ∃ text, Text.utf8Decode? (emitter.run ops).flush.target.held = some text ∧
      text = old ++ records.flatMap (fun e => e.line ++ ['\n']) ∧
      records.length = ops.countP Emitter.Operation.writes ∧
      ((ofText text).lines = (ofText old).lines + records.length ∧
          (ofText text).violations = (ofText old).violations ++
            (records.zipIdx (old.count '\n' + 1)).flatMap
              (fun e => Schema.violations e.1.line e.2) ↔
        Text.trim (Text.unfinished old) = [] ∨ records = []) ∧
      ∀ e rest, records = e :: rest → Text.trim (Text.unfinished old) ≠ [] →
        (ofText text).lines + 1 = (ofText old).lines + records.length ∧
        (ofText text).violations = (ofText (Text.finished old)).violations ++
          (Schema.violations (Text.trim (Text.unfinished old ++ e.line)) (old.count '\n' + 1) ++
            (rest.zipIdx (old.count '\n' + 2)).flatMap
              fun e => Schema.violations e.1.line e.2) := by
  intro emitter records
  have hjoined : ∀ e rest, records = e :: rest → Text.trim (Text.unfinished old) ≠ [] →
      (ofText (old ++ Entry.lines records)).lines + 1 = (ofText old).lines + records.length ∧
      (ofText (old ++ Entry.lines records)).violations =
        (ofText (Text.finished old)).violations ++
          (Schema.violations (Text.trim (Text.unfinished old ++ e.line)) (old.count '\n' + 1) ++
            (rest.zipIdx (old.count '\n' + 2)).flatMap
              fun e => Schema.violations e.1.line e.2) := by
    intro e rest hrecords hend
    obtain ⟨htext, hold⟩ := ofText_lines_of_unfinished hend e rest
    rw [hrecords, htext, hold, ofLines_lines]
    refine ⟨?_, rfl⟩
    change (ofText (Text.finished old)).lines + (1 + rest.length) + 1 =
      (ofText (Text.finished old)).lines + 1 + (rest.length + 1)
    omega
  refine ⟨old ++ Entry.lines records, decode_run scope runId old ops, rfl,
    Emitter.length_entries emitter ops, ⟨?_, ?_⟩, hjoined⟩
  · -- The count alone gives it away: two records on one line are one line less.
    rintro ⟨hlines, -⟩
    by_contra hnot
    obtain ⟨hend, hne⟩ := not_or.mp hnot
    obtain ⟨e, rest, hrecords⟩ := List.exists_cons_of_ne_nil hne
    have hless := (hjoined e rest hrecords hend).1
    omega
  · rintro (hend | hnone)
    · rw [ofText_lines_of_blank hend, ofLines_lines]
      exact ⟨rfl, rfl⟩
    · have hsame : old ++ Entry.lines [] = old := List.append_nil old
      rw [hnone, hsame]
      exact ⟨rfl, (List.append_nil _).symm⟩

-- A faultless entry behind a faultless one whose line feed is missing: one line, with a fault.
example :
    let e : Entry := { timestamp := "t", traceId := "a::b", level := .info, event := "e" }
    ofText e.line = ⟨1, []⟩ ∧ ofText (Entry.lines [e, e]) = ⟨2, []⟩ ∧
      (ofText (e.line ++ Entry.lines [e])).lines = 1 ∧
      (ofText (e.line ++ Entry.lines [e])).violations.length = 1 := by decide +kernel

end Findings
end ProcessStart.Log
