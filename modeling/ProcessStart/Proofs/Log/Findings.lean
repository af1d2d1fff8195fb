import ProcessStart.CommandLine.Run
import ProcessStart.Proofs.Log.Validation
import ProcessStart.Proofs.Text.Blank
import ProcessStart.Proofs.Text.Lines

/-!
What is found in a log, put together from what is found in its lines. A line
is found the same things of wherever it stands, but for its number; so two
parts of a log that meet at the end of a line can be checked one by one, and
lines that are blank do nothing but move the numbers on.
-/
namespace ProcessStart
namespace Log

/-- What is wrong with a line, if anything is. -/
def Schema.violations (line : List Char) (number : Nat) : List Violation :=
  match check line number with
  | .ok _ => []
  | .error found => found

/-- The same complaint about a line so many lines further down. -/
def Violation.shift (k : Nat) (v : Violation) : Violation := { v with line := v.line + k }

/-- A line further down has the same complaints under another number. -/
theorem Schema.violations_add (line : List Char) (number k : Nat) :
    violations line (number + k) = (violations line number).map (Violation.shift k) := by
  cases h : checkLine line with
  | ok e => simp only [violations, check_eq_ok.mpr h, List.map_nil]
  | error found =>
    simp only [violations, check_of_error h, List.map_map]
    rfl

theorem Schema.mem_violations {line : List Char} {number : Nat} {v : Violation} :
    v ∈ violations line number ↔ ∃ found, check line number = .error found ∧ v ∈ found := by
  rw [violations]
  cases check line number with
  | ok e => simp
  | error found => simp

theorem Schema.line_of_mem_violations {line : List Char} {number : Nat} {v : Violation}
    (h : v ∈ violations line number) : v.line = number := by
  obtain ⟨vs, hvs, hv⟩ := mem_violations.mp h
  cases hl : checkLine line with
  | ok e =>
    rw [check_eq_ok.mpr hl] at hvs
    exact nomatch hvs
  | error found =>
    rw [check_of_error hl] at hvs
    cases hvs
    obtain ⟨c, -, rfl⟩ := List.mem_map.mp hv
    rfl

namespace Findings

open Text (IsBlank EndsLine trim)

def shift (k : Nat) (f : Findings) : Findings := ⟨f.lines, f.violations.map (Violation.shift k)⟩

@[simp] theorem shift_empty (k : Nat) : empty.shift k = empty := rfl

theorem shift_zero (f : Findings) : f.shift 0 = f := by
  have h : Violation.shift 0 = id := rfl
  rw [shift, h, List.map_id]

theorem shift_shift (f : Findings) (j k : Nat) : (f.shift j).shift k = f.shift (k + j) := by
  have h : Violation.shift k ∘ Violation.shift j = Violation.shift (k + j) := by
    funext v
    rw [Function.comp_apply, Violation.shift, Violation.shift, Violation.shift, Nat.add_assoc,
      Nat.add_comm j]
  rw [shift, shift, shift, List.map_map, h]

theorem shift_append (k : Nat) (f g : Findings) : (f ++ g).shift k = f.shift k ++ g.shift k := by
  change Findings.mk _ _ = Findings.mk _ _
  rw [violations_append, List.map_append]
  rfl

theorem empty_append (f : Findings) : empty ++ f = f := by
  change Findings.mk (0 + f.lines) ([] ++ f.violations) = f
  rw [Nat.zero_add, List.nil_append]

theorem append_empty (f : Findings) : f ++ empty = f := by
  change Findings.mk (f.lines + 0) (f.violations ++ []) = f
  rw [Nat.add_zero, List.append_nil]

theorem append_assoc (f g h : Findings) : f ++ g ++ h = f ++ (g ++ h) := by
  change Findings.mk _ _ = Findings.mk _ _
  rw [lines_append, lines_append, violations_append, violations_append, Nat.add_assoc,
    List.append_assoc]

theorem ofLine_of_blank {line : List Char} (h : IsBlank line) (number : Nat) :
    ofLine number line = empty := by
  rw [ofLine, Text.trim_eq_nil.mpr h]

theorem ofLine_of_ne_nil {line : List Char} (h : trim line ≠ []) (number : Nat) :
    ofLine number line = ⟨1, Schema.violations (trim line) number⟩ := by
  cases ht : trim line with
  | nil => exact absurd ht h
  | cons c t =>
    simp only [ofLine, ht, Schema.violations]
    cases Schema.check (c :: t) number <;> rfl

/-- Blanks at the two ends of a line do not matter. -/
theorem ofLine_congr {line line' : List Char} (h : trim line = trim line') (number : Nat) :
    ofLine number line = ofLine number line' := by
  rw [ofLine, ofLine, h]

theorem ofLine_add (number k : Nat) (line : List Char) :
    ofLine (number + k) line = (ofLine number line).shift k := by
  by_cases h : trim line = []
  · have hblank := Text.trim_eq_nil.mp h
    rw [ofLine_of_blank hblank, ofLine_of_blank hblank, shift_empty]
  · rw [ofLine_of_ne_nil h, ofLine_of_ne_nil h, Schema.violations_add, shift]

/-- The second part of a log is checked with its lines counted on from the first. -/
theorem ofLines_append (number : Nat) (ls ms : List (List Char)) :
    ofLines number (ls ++ ms) = ofLines number ls ++ ofLines (number + ls.length) ms := by
  induction ls generalizing number with
  | nil => exact (empty_append _).symm
  | cons l ls ih =>
    rw [List.cons_append, ofLines_cons, ofLines_cons, ih, append_assoc, List.length_cons,
      Nat.add_assoc, Nat.add_comm 1]

theorem ofLines_add (number k : Nat) (ls : List (List Char)) :
    ofLines (number + k) ls = (ofLines number ls).shift k := by
  induction ls generalizing number with
  | nil => rfl
  | cons l ls ih =>
    rw [ofLines_cons, ofLines_cons, ofLine_add, Nat.add_right_comm, ih, shift_append]

/-- A carriage return at the end of a line makes no difference. -/
theorem ofLines_withoutReturn (number : Nat) (ls : List (List Char)) :
    ofLines number (ls.map Text.withoutReturn) = ofLines number ls := by
  have htrim : ∀ l, trim (Text.withoutReturn l) = trim l := by
    intro l
    rw [Text.withoutReturn]
    split
    · rename_i h
      obtain ⟨t, rfl⟩ := List.getLast?_eq_some_iff.mp h
      rw [List.dropLast_concat]
      exact (Text.trim_append_blank t (by simp [IsBlank, Text.isBlank])).symm
    · rfl
  induction ls generalizing number with
  | nil => rfl
  | cons l ls ih => rw [List.map_cons, ofLines_cons, ofLines_cons, ih, ofLine_congr (htrim l)]

/-- The lines counted are those that are not blank. -/
theorem lines_ofLines (number : Nat) (ls : List (List Char)) :
    (ofLines number ls).lines = ls.countP fun line => !(trim line).isEmpty := by
  induction ls generalizing number with
  | nil => rfl
  | cons l ls ih =>
    rw [ofLines_cons, lines_append, ih, List.countP_cons, Nat.add_comm]
    congr 1
    by_cases h : trim l = []
    · rw [ofLine_of_blank (Text.trim_eq_nil.mp h), h]
      rfl
    · rw [ofLine_of_ne_nil h, if_pos (by simpa using h)]

theorem violations_ofLines (number : Nat) (ls : List (List Char)) :
    (ofLines number ls).violations = (ls.zipIdx number).flatMap fun line =>
      if (trim line.1).isEmpty then [] else Schema.violations (trim line.1) line.2 := by
  induction ls generalizing number with
  | nil => rfl
  | cons l ls ih =>
    rw [ofLines_cons, violations_append, ih, List.zipIdx_cons, List.flatMap_cons]
    congr 1
    by_cases h : trim l = []
    · rw [ofLine_of_blank (Text.trim_eq_nil.mp h), h]
      rfl
    · rw [ofLine_of_ne_nil h, if_neg (by simpa using h)]

/-- Neither the end of a line nor an empty last line makes a difference. -/
theorem ofText_eq (s : List Char) : ofText s = ofLines 1 (Text.pieces '\n' s) := by
  obtain ⟨ls, last, hpieces⟩ : ∃ ls last, Text.pieces '\n' s = ls ++ [last] :=
    ⟨_, _, (List.dropLast_concat_getLast (Text.pieces_ne_nil '\n' s)).symm⟩
  -- The pieces but for the last are lines with their line feeds; the last is one if it is not empty.
  rw [ofText, Text.lines, hpieces, List.dropLast_concat, List.getLast?_concat, ofLines_append,
    ofLines_append, ofLines_withoutReturn, List.length_map]
  cases last with
  | nil => rfl
  | cons c last => rfl

/-- What stands in front of a line feed, and what stands behind it. -/
theorem ofText_append_cons (a b : List Char) :
    ofText (a ++ '\n' :: b) = ofText a ++ (ofText b).shift (a.count '\n' + 1) := by
  rw [ofText_eq, ofText_eq, ofText_eq, Text.pieces_append, ofLines_append, ← ofLines_add,
    Text.length_pieces]

/-- A line feed at the end begins no line of its own. -/
theorem ofText_append_feed (s : List Char) : ofText (s ++ ['\n']) = ofText s :=
  (ofText_append_cons s []).trans (append_empty (ofText s))

/-- Two parts that meet at the end of a line. -/
theorem ofText_append {a : List Char} (ha : EndsLine a) (b : List Char) :
    ofText (a ++ b) = ofText a ++ (ofText b).shift (a.count '\n') := by
  obtain rfl | ⟨t, rfl⟩ := ha.cases
  · rw [List.count_nil, shift_zero]
    exact (empty_append _).symm
  · rw [List.append_assoc, List.singleton_append, ofText_append_cons, ofText_append_feed,
      List.count_append, List.count_singleton_self]

/-- A blank that goes on with the last line. -/
theorem ofText_append_blank_char (s : List Char) {c : Char} (hc : Text.isBlank c = true)
    (hfeed : c ≠ '\n') : ofText (s ++ [c]) = ofText s := by
  have hline : '\n' ∉ Text.unfinished s ++ [c] := by
    rw [List.mem_append, List.mem_singleton, not_or]
    exact ⟨Text.not_mem_unfinished s, Ne.symm hfeed⟩
  have htrim := Text.trim_append_blank (Text.unfinished s) (w := [c])
    (Text.isBlank_cons.mpr ⟨hc, Text.isBlank_nil⟩)
  have hlast : ofText (Text.unfinished s ++ [c]) = ofText (Text.unfinished s) := by
    rw [ofText_eq, ofText_eq, Text.pieces_of_not_mem hline,
      Text.pieces_of_not_mem (Text.not_mem_unfinished s), ofLines_cons, ofLines_cons,
      ofLine_congr htrim]
  have hends := Text.endsLine_finished s
  rw [← Text.finished_append_unfinished s, List.append_assoc, ofText_append hends,
    ofText_append hends, hlast]

/-- Blanks at the end, line feeds among them, add nothing. -/
theorem ofText_append_blank (s : List Char) {w : List Char} (h : IsBlank w) :
    ofText (s ++ w) = ofText s := by
  induction w generalizing s with
  | nil => rw [List.append_nil]
  | cons c w ih =>
    obtain ⟨hc, hw⟩ := Text.isBlank_cons.mp h
    have hfirst : ofText (s ++ [c]) = ofText s := by
      by_cases hfeed : c = '\n'
      · rw [hfeed, ofText_append_feed]
      · exact ofText_append_blank_char s hc hfeed
    rw [← hfirst, ← ih (s ++ [c]) hw, List.append_assoc, List.singleton_append]

theorem ofText_of_blank {w : List Char} (h : IsBlank w) : ofText w = empty :=
  ofText_append_blank [] h

/-- A return in front of a line feed makes no difference. -/
theorem ofText_return (a b : List Char) :
    ofText (a ++ '\r' :: '\n' :: b) = ofText (a ++ '\n' :: b) := by
  have hsplit : a ++ '\r' :: '\n' :: b = (a ++ ['\r']) ++ '\n' :: b := by
    rw [List.append_assoc, List.singleton_append]
  have hreturn : ofText (a ++ ['\r']) = ofText a := ofText_append_blank_char a rfl (by decide)
  rw [hsplit, ofText_append_cons, ofText_append_cons, hreturn, List.count_append,
    List.count_singleton, if_neg (by decide), Nat.add_zero]

/-- Blank lines between two parts do nothing but move the numbers of the second part on. -/
theorem ofText_between {a w : List Char} (ha : EndsLine a) (hw : EndsLine w) (hblank : IsBlank w)
    (b : List Char) :
    ofText (a ++ (w ++ b)) = ofText a ++ (ofText b).shift (a.count '\n' + w.count '\n') := by
  rw [ofText_append ha, ofText_append hw, ofText_of_blank hblank, empty_append, shift_shift]

end Findings
end Log

namespace CommandLine

theorem failure_foldl_note (vs : List Log.Violation) (e : Effect) :
    (vs.foldl (fun e v => e.note v.text.toList) e).failure = e.failure := by
  induction vs generalizing e with
  | nil => rfl
  | cons v vs ih => exact ih (e.note v.text.toList)

/-- The status is zero exactly if nothing failed. -/
theorem status_outcome (e : Effect) : e.outcome.status = 0 ↔ e.failure = none := by
  rw [Effect.outcome]
  cases e.failure with
  | none => exact iff_of_true rfl rfl
  | some f => exact iff_of_false Nat.one_ne_zero nofun

/-- A log that can be read is found faultless by a status of zero. -/
theorem status_validateLog (files : Files) (log : List UInt8) :
    (validateLog files log).outcome.status = 0 ↔
      ∃ text, files.readText log = .ok text ∧ (Log.Findings.ofText text).violations = [] := by
  rw [status_outcome, validateLog]
  cases files.readText log with
  | error e => exact iff_of_false nofun nofun
  | ok text =>
    have hnoted := failure_foldl_note (Log.Findings.ofText text).violations (Effect.start files)
    dsimp only
    split
    · rename_i hnone
      exact iff_of_true hnoted ⟨text, rfl, List.isEmpty_iff.mp hnone⟩
    · rename_i hsome
      refine iff_of_false nofun ?_
      rintro ⟨other, he, hnone⟩
      cases he
      exact hsome (List.isEmpty_iff.mpr hnone)

end CommandLine

namespace Log.Findings

open Text (IsBlank EndsLine trim)

theorem complaints_shift (k : Nat) (f : Findings) :
    (f.shift k).violations.map Violation.complaint = f.violations.map Violation.complaint := by
  rw [shift, List.map_map]
  rfl

/-- A violation is one of the line whose number it carries. -/
theorem mem_violations_ofLines {ls : List (List Char)} {v : Violation}
    (h : v ∈ (ofLines 1 ls).violations) : 1 ≤ v.line ∧ ∃ line found, ls[v.line - 1]? = some line ∧
      trim line ≠ [] ∧ Schema.check (trim line) v.line = .error found ∧ v ∈ found := by
  rw [violations_ofLines, List.mem_flatMap] at h
  obtain ⟨⟨line, number⟩, hplace, hv⟩ := h
  obtain ⟨hnumber, hline⟩ := List.mk_mem_zipIdx_iff_le_and_getElem?_sub.mp hplace
  dsimp only at hv
  split at hv
  · exact nomatch hv
  · rename_i hne
    obtain ⟨found, hcheck, hfound⟩ := Schema.mem_violations.mp hv
    rw [Schema.line_of_mem_violations hv]
    exact ⟨hnumber, line, found, hline, fun he => hne (by rw [he]; rfl), hcheck, hfound⟩

/-- Two parts of a log that meet at the end of a line are checked as if each stood alone, the second
with its numbers moved on by the lines of the first. A log is cut at its line feeds: the lines that
are not blank are counted, and each is held against the schema under its number, from one on. A
return in front of a line feed does not matter; blank lines move numbers, and do nothing else. The
command that validates a log ends with zero exactly if it could be read and nothing was found. -/
theorem ofText_composes :
    (∀ a b : List Char, (a = [] ∨ a.getLast? = some '\n') →
      (ofText (a ++ b)).lines = (ofText a).lines + (ofText b).lines ∧
      (ofText (a ++ b)).violations = (ofText a).violations ++
        (ofText b).violations.map fun v => ⟨v.line + a.count '\n', v.complaint⟩) ∧
    (∀ text : List Char, ∃ ls : List (List Char),
      text = ['\n'].intercalate ls ∧ ls ≠ [] ∧ (∀ line ∈ ls, '\n' ∉ line) ∧
      (ofText text).lines = ls.countP (fun line => !(trim line).isEmpty) ∧
      ((ofText text).violations = (ls.zipIdx 1).flatMap fun line =>
        if (trim line.1).isEmpty then [] else Schema.violations (trim line.1) line.2) ∧
      ∀ v ∈ (ofText text).violations, 1 ≤ v.line ∧ ∃ line found, ls[v.line - 1]? = some line ∧
        trim line ≠ [] ∧ Schema.check (trim line) v.line = .error found ∧ v ∈ found) ∧
    (∀ a b : List Char, ofText (a ++ '\r' :: '\n' :: b) = ofText (a ++ '\n' :: b)) ∧
    (∀ a w b : List Char, (a = [] ∨ a.getLast? = some '\n') → (w = [] ∨ w.getLast? = some '\n') →
      IsBlank w →
      (ofText (a ++ (w ++ b))).lines = (ofText (a ++ b)).lines ∧
      ((ofText (a ++ (w ++ b))).violations = (ofText a).violations ++
        (ofText b).violations.map fun v => ⟨v.line + (a.count '\n' + w.count '\n'), v.complaint⟩) ∧
      (ofText (a ++ (w ++ b))).violations.map Violation.complaint =
        (ofText (a ++ b)).violations.map Violation.complaint) ∧
    (∀ a w : List Char, IsBlank w → ofText (a ++ w) = ofText a) ∧
    ∀ (h : Host) (timestamp : String) (files : Files) (arguments : List (List UInt8))
      (log : List UInt8), CommandLine.parse arguments = some (.validateLog log) →
      ((CommandLine.run h timestamp files arguments).status = 0 ↔
        ∃ text, files.readText log = .ok text ∧ (ofText text).violations = []) := by
  refine ⟨?_, ?_, ofText_return, ?_, fun a w => ofText_append_blank a, ?_⟩
  · intro a b ha
    rw [ofText_append ha]
    exact ⟨rfl, rfl⟩
  · intro text
    refine ⟨Text.pieces '\n' text, (Text.intercalate_pieces '\n' text).symm,
      Text.pieces_ne_nil '\n' text, fun line hline => Text.not_mem_of_mem_pieces hline, ?_⟩
    rw [ofText_eq]
    exact ⟨lines_ofLines 1 _, violations_ofLines 1 _, fun v => mem_violations_ofLines⟩
  · intro a w b ha hw hblank
    rw [ofText_between ha hw hblank, ofText_append ha, lines_append, lines_append,
      violations_append, violations_append, List.map_append, List.map_append, complaints_shift,
      complaints_shift]
    exact ⟨rfl, rfl, rfl⟩
  · intro h timestamp files arguments log hrequest
    rw [CommandLine.run, hrequest]
    exact CommandLine.status_validateLog files log

end Log.Findings
end ProcessStart
