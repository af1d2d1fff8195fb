import Mathlib.Data.List.Induction
import ProcessStart.Log.Emitter
import ProcessStart.Proofs.Log.RoundTrip
import ProcessStart.Proofs.Text.Digits
import ProcessStart.Proofs.Text.Utf8

/-!
What an emitter leaves in its file. Behind what the file held stands one record
for each entry it was given, in the order of the calls, however often it was
flushed or opened again meanwhile: the buffer keeps bytes back, but what is in
the file and what is kept back only ever grow together at their end. The
numbers it gives count the entries without a trace id since it was last opened,
as far as a word of 64 bits can count them.
-/
namespace ProcessStart.Log

namespace Target

@[simp] theorem content_makeRoom (t : Target) (count : Nat) :
    (t.makeRoom count).content = t.content := by
  rw [makeRoom]
  split
  · rfl
  · exact t.content_flush

/-- Bytes that go past the buffer find nothing in it. -/
theorem pending_makeRoom (t : Target) {count : Nat} (h : capacity ≤ count) :
    (t.makeRoom count).pending = [] := by
  rw [makeRoom]
  split
  · exact List.length_eq_zero_iff.mp (by omega)
  · rfl

/-- Whatever way they take, bytes come behind all that was written before. -/
@[simp] theorem content_write (t : Target) (bytes : List UInt8) :
    (t.write bytes).content = t.content ++ bytes := by
  rw [← content_makeRoom t bytes.length, write]
  -- Into the buffer behind what is pending, or into the file when nothing is.
  split
  · exact (List.append_assoc _ _ _).symm
  · rename_i h
    rw [content, content, t.pending_makeRoom (Nat.le_of_not_lt h), List.append_nil,
      List.append_nil]

end Target

/-- The bytes that stand for an entry in a file. -/
def Entry.record (e : Entry) : List UInt8 := Text.utf8Encode e.line ++ [10]

/-- The only line break in a record is its last byte. -/
theorem Entry.no_break (e : Entry) :
    10 ∉ Text.utf8Encode e.line ∧ 13 ∉ Text.utf8Encode e.line :=
  ⟨Text.not_mem_utf8Encode (by decide) e.unbroken.no_line_feed,
    Text.not_mem_utf8Encode (by decide) e.unbroken.no_return⟩

/-- Ids of different numbers differ. -/
theorem numberedId_injective {scope runId : String} {m n : Nat}
    (h : numberedId scope runId m = numberedId scope runId n) : m = n := by
  have hdigits := congrArg String.toList h
  simp only [numberedId, String.toList_append, String.toList_ofList,
    List.append_cancel_left_eq] at hdigits
  exact Text.padded_injective hdigits

theorem colons_numberedId (scope runId : String) (number : Nat) :
    [':', ':'] <:+: (numberedId scope runId number).toList := by
  refine ⟨scope.toList ++ [':', ':'] ++ runId.toList, Text.padded 3 number, ?_⟩
  simp only [numberedId, String.toList_append, String.toList_ofList]
  rfl

namespace Emitter

namespace Operation

/-- Whether it adds a record. -/
def writes : Operation → Bool
  | .emit _ _ _ => true
  | .emitEntry _ => true
  | .flush => false
  | .reopen => false

/-- Whether it uses a number up. -/
def numbers : Operation → Bool
  | .emit _ _ _ => true
  | .emitEntry e => e.traceId == ""
  | .flush => false
  | .reopen => false

/-- Whether the numbers start again. -/
def opens : Operation → Bool
  | .emit _ _ _ => false
  | .emitEntry _ => false
  | .flush => false
  | .reopen => true

theorem opens_of_numbers {o : Operation} (h : o.numbers = true) : o.opens = false := by
  cases o with
  | reopen => exact nomatch h
  | _ => rfl

end Operation

/-- How many numbers were used up since the last opening. -/
def given (ops : List Operation) : Nat :=
  (ops.reverse.takeWhile fun o => !o.opens).countP Operation.numbers

/-- What an operation adds to the log. -/
def added (m : Emitter) : Operation → Option Entry
  | .emit timestamp level event => some (m.emit timestamp level event).1
  | .emitEntry e =>
    some (if e.traceId = "" then
      { e with traceId := numberedId m.scope m.runId (m.count + 1).toNat } else e)
  | .flush => none
  | .reopen => none

/-- What operations one after another add to the log. -/
def entries (m : Emitter) : List Operation → List Entry
  | [] => []
  | o :: os => (m.added o).toList ++ (m.step o).entries os

@[simp] theorem scope_push (m : Emitter) (e : Entry) : (m.push e).scope = m.scope := by rw [push]

@[simp] theorem runId_push (m : Emitter) (e : Entry) : (m.push e).runId = m.runId := by rw [push]

@[simp] theorem count_push (m : Emitter) (e : Entry) : (m.push e).count = m.count := by rw [push]

theorem content_push (m : Emitter) (e : Entry) :
    (m.push e).target.content = m.target.content ++ e.record := by
  rw [push, Target.content_write, Target.content_write, List.append_assoc]
  rfl

/-- An operation appends the record of the entry it adds, or nothing. -/
theorem content_step (m : Emitter) (o : Operation) :
    (m.step o).target.content = m.target.content ++ (m.added o).toList.flatMap Entry.record := by
  have hone : ∀ e : Entry, (some e).toList.flatMap Entry.record = e.record :=
    fun e => List.append_nil e.record
  cases o with
  | emit timestamp level event => exact (content_push _ _).trans (by rw [added, hone]; rfl)
  | emitEntry e =>
    rw [step, emitEntry, added, hone]
    split <;> exact content_push _ _
  | flush => exact m.target.content_flush.trans (List.append_nil _).symm
  | reopen => exact (Target.content_opened _).trans (List.append_nil _).symm

theorem names_step (m : Emitter) (o : Operation) :
    (m.step o).scope = m.scope ∧ (m.step o).runId = m.runId := by
  cases o with
  | emit timestamp level event => exact ⟨scope_push _ _, runId_push _ _⟩
  | emitEntry e =>
    rw [step, emitEntry]
    split <;> exact ⟨scope_push _ _, runId_push _ _⟩
  | flush => exact ⟨rfl, rfl⟩
  | reopen => exact ⟨rfl, rfl⟩

/-- Opening starts the count again, and each number used up adds one. -/
theorem count_step (m : Emitter) (o : Operation) :
    (m.step o).count = if o.opens then 0 else m.count + if o.numbers then 1 else 0 := by
  cases o with
  | emit timestamp level event => exact count_push _ _
  | emitEntry e =>
    rw [step, emitEntry, Operation.opens, Operation.numbers]
    by_cases h : e.traceId = ""
    · rw [if_pos h, h]
      exact count_push _ _
    · rw [if_neg h, beq_false_of_ne h]
      exact (count_push _ _).trans (UInt64.add_zero _).symm
  | flush => exact (UInt64.add_zero _).symm
  | reopen => rfl

theorem isSome_added (m : Emitter) (o : Operation) : (m.added o).isSome = o.writes := by
  cases o <;> rfl

/-- What uses a number up writes an entry that carries it. -/
theorem added_of_numbers (m : Emitter) {o : Operation} (h : o.numbers = true) :
    ∃ e, m.added o = some e ∧ e.traceId = numberedId m.scope m.runId (m.count + 1).toNat := by
  cases o with
  | emit timestamp level event => exact ⟨_, rfl, rfl⟩
  | emitEntry e => exact ⟨_, rfl, by rw [if_pos (eq_of_beq h)]⟩
  | flush => exact nomatch h
  | reopen => exact nomatch h

theorem run_append (m : Emitter) (os ps : List Operation) :
    m.run (os ++ ps) = (m.run os).run ps := by
  induction os generalizing m with
  | nil => rfl
  | cons o os ih => exact ih (m.step o)

theorem entries_append (m : Emitter) (os ps : List Operation) :
    m.entries (os ++ ps) = m.entries os ++ (m.run os).entries ps := by
  induction os generalizing m with
  | nil => rfl
  | cons o os ih =>
    rw [List.cons_append, entries, entries, run_cons, ih, List.append_assoc]

/-- A run leaves what was there and appends the records of its entries in order. -/
theorem content_run (m : Emitter) (os : List Operation) :
    (m.run os).target.content = m.target.content ++ (m.entries os).flatMap Entry.record := by
  induction os generalizing m with
  | nil => exact (List.append_nil _).symm
  | cons o os ih =>
    rw [run_cons, ih, content_step, entries, List.flatMap_append, List.append_assoc]

/-- There is one entry for each operation that writes. -/
theorem length_entries (m : Emitter) (os : List Operation) :
    (m.entries os).length = os.countP Operation.writes := by
  induction os generalizing m with
  | nil => rfl
  | cons o os ih =>
    rw [entries, List.length_append, ih, List.countP_cons, ← isSome_added m o, Nat.add_comm]
    cases m.added o <;> rfl

/-- Scope and run stay the same, across openings too. -/
theorem names_run (m : Emitter) (os : List Operation) :
    (m.run os).scope = m.scope ∧ (m.run os).runId = m.runId := by
  induction os generalizing m with
  | nil => exact ⟨rfl, rfl⟩
  | cons o os ih =>
    obtain ⟨hscope, hrunId⟩ := m.names_step o
    rw [run_cons, (ih _).1, (ih _).2, hscope, hrunId]
    exact ⟨rfl, rfl⟩

theorem given_concat (os : List Operation) (o : Operation) :
    given (os ++ [o]) = if o.opens then 0 else given os + if o.numbers then 1 else 0 := by
  rw [given, List.reverse_concat, List.takeWhile_cons]
  cases o.opens with
  | true => rfl
  | false => exact List.countP_cons

/-- The count is that of the numbers used up since the last opening, as a word. -/
theorem count_run (scope runId : String) (held : List UInt8) (os : List Operation) :
    ((opened scope runId held).run os).count = UInt64.ofNat (given os) := by
  induction os using List.reverseRecOn with
  | nil => rfl
  | append_singleton os o ih =>
    rw [run_append, run_cons, run_nil, count_step, ih, given_concat]
    cases o.opens with
    | true => rfl
    | false =>
      rw [if_neg Bool.false_ne_true, if_neg Bool.false_ne_true, UInt64.ofNat_add]
      cases o.numbers <;> rfl

/-- A number that fits the word is one more than were used up before it. -/
theorem toNat_count_succ {scope runId : String} {held : List UInt8} {os : List Operation}
    (h : given os + 1 < UInt64.size) :
    (((opened scope runId held).run os).count + 1).toNat = given os + 1 := by
  have hsucc : UInt64.ofNat (given os) + 1 = UInt64.ofNat (given os + 1) :=
    (UInt64.ofNat_add (given os) 1).symm
  rw [count_run, hsucc, UInt64.toNat_ofNat_of_lt' h]

/-- Without an opening in between, the numbers go on. -/
theorem given_lt (before : List Operation) {between : List Operation} {o : Operation}
    (ho : o.numbers = true) (hbetween : ∀ p ∈ between, p.opens = false) :
    given before < given (before ++ o :: between) := by
  induction between using List.reverseRecOn with
  | nil =>
    rw [given_concat, Operation.opens_of_numbers ho, ho]
    exact Nat.lt_succ_self _
  | append_singleton between p ih =>
    have hp := hbetween p (List.mem_append_right between List.mem_cons_self)
    have hrest := ih fun q hq => hbetween q (List.mem_append_left [p] hq)
    rw [← List.cons_append, ← List.append_assoc, given_concat, hp]
    exact Nat.lt_of_lt_of_le hrest (Nat.le_add_right _ _)

/-- An operation that writes has its entry in the place that the writing operations before it
leave to it. -/
theorem entries_place (m : Emitter) (before after : List Operation) {o : Operation} {e : Entry}
    (h : (m.run before).added o = some e) :
    (m.entries (before ++ o :: after))[before.countP Operation.writes]? = some e := by
  rw [entries_append, ← length_entries m before, List.getElem?_append_right (Nat.le_refl _),
    Nat.sub_self, entries, h]
  rfl

/-- An operation that uses a number up has an entry that carries it. -/
theorem entries_numbered (scope runId : String) (held : List UInt8)
    (before after : List Operation) {o : Operation} (h : o.numbers = true)
    (hfits : given before + 1 < UInt64.size) :
    ∃ e, ((opened scope runId held).entries (before ++ o :: after))[before.countP
        Operation.writes]? = some e ∧ e.traceId = numberedId scope runId (given before + 1) := by
  obtain ⟨e, he, hid⟩ := added_of_numbers ((opened scope runId held).run before) h
  obtain ⟨hscope, hrunId⟩ := names_run (opened scope runId held) before
  rw [hscope, hrunId, toNat_count_succ hfits] at hid
  exact ⟨e, entries_place _ before after he, hid⟩

/-- After a last flush the file holds what it held before and, behind that, one line for each entry
that was written, in the order of the calls. What `emit` gives back is what it wrote. An entry with
a trace id of its own is written as it is; the others carry the numbers from one on, in order, since
the emitter was last opened, and no two of them the same, as long as the numbers fit the word that
counts them. -/
theorem run_appends (scope runId : String) (held : List UInt8) (ops : List Operation) :
    ∃ records : List Entry,
      ((opened scope runId held).run ops).flush.target.held =
        held ++ records.flatMap (fun e => Text.utf8Encode e.line ++ [10]) ∧
      (∀ e ∈ records, 10 ∉ Text.utf8Encode e.line ∧ 13 ∉ Text.utf8Encode e.line) ∧
      records.length = ops.countP Operation.writes ∧
      (∀ before timestamp level event after,
        ops = before ++ .emit timestamp level event :: after →
        let result := ((opened scope runId held).run before).emit timestamp level event
        records[before.countP Operation.writes]? = some result.1 ∧
        ∃ traceId, result.1 = { timestamp, traceId, level, event } ∧
          (given before + 1 < UInt64.size →
            traceId = numberedId scope runId (given before + 1))) ∧
      (∀ before e after, ops = before ++ .emitEntry e :: after →
        ∃ traceId, records[before.countP Operation.writes]? = some { e with traceId } ∧
          (e.traceId ≠ "" → traceId = e.traceId) ∧
          (e.traceId = "" → given before + 1 < UInt64.size →
            traceId = numberedId scope runId (given before + 1))) ∧
      (∀ before o between o' after, ops = before ++ o :: (between ++ o' :: after) →
        o.numbers = true → o'.numbers = true → (∀ p ∈ between, p.opens = false) →
        given (before ++ o :: between) + 1 < UInt64.size →
        ∃ e e', records[before.countP Operation.writes]? = some e ∧
          records[(before ++ o :: between).countP Operation.writes]? = some e' ∧
          e.traceId ≠ e'.traceId) ∧
      ∀ number, ∃ digits,
        (numberedId scope runId number).toList =
          scope.toList ++ [':', ':'] ++ runId.toList ++ [':', ':'] ++ digits ∧
        digits = List.replicate (3 - (Nat.toDigits 10 number).length) '0' ++
          Nat.toDigits 10 number ∧
        3 ≤ digits.length ∧ [':', ':'] <:+: (numberedId scope runId number).toList := by
  refine ⟨(opened scope runId held).entries ops, ?_, fun e _ => e.no_break,
    length_entries _ ops, ?_, ?_, ?_, ?_⟩
  · exact (content_run _ ops).trans (congrArg (· ++ _) (Target.content_opened held))
  · intro before timestamp level event after hops
    obtain ⟨hscope, hrunId⟩ := names_run (opened scope runId held) before
    refine ⟨hops ▸ entries_place _ before after rfl, _, rfl, ?_⟩
    intro hfits
    rw [hscope, hrunId, toNat_count_succ hfits]
    rfl
  · intro before e after hops
    obtain ⟨hscope, hrunId⟩ := names_run (opened scope runId held) before
    rw [hops]
    by_cases hown : e.traceId = ""
    · refine ⟨_, entries_place _ before after (by rw [added, if_pos hown]), ?_, ?_⟩
      · exact fun hne => absurd hown hne
      · intro _ hfits
        rw [hscope, hrunId, toNat_count_succ hfits]
        rfl
    · refine ⟨_, entries_place _ before after (by rw [added, if_neg hown]), fun _ => rfl, ?_⟩
      exact fun hempty => absurd hempty hown
  · intro before o between o' after hops ho ho' hbetween hfits
    have hlt := given_lt before ho hbetween
    obtain ⟨e, he, hid⟩ :=
      entries_numbered scope runId held before (between ++ o' :: after) ho (by omega)
    obtain ⟨e', he', hid'⟩ :=
      entries_numbered scope runId held (before ++ o :: between) after ho' hfits
    rw [List.append_assoc, List.cons_append] at he'
    refine ⟨e, e', hops ▸ he, hops ▸ he', ?_⟩
    -- Equal ids carry equal numbers, but the second was given after the first.
    intro hsame
    have hnumber := numberedId_injective (hid.symm.trans (hsame.trans hid'))
    omega
  · intro number
    refine ⟨Text.padded 3 number, ?_, rfl, Text.le_length_padded 3 number,
      colons_numberedId scope runId number⟩
    simp only [numberedId, String.toList_append, String.toList_ofList]
    rfl

def kept (traceId : String) : Entry := { timestamp := "t", traceId, level := .warn, event := "kept" }

/-- An id of one's own between two numbers, and the first number once more behind an opening. -/
theorem run_appends_reopened :
    given [.emit "t" .info "first", .emitEntry (kept "a::b")] + 1 < UInt64.size ∧
    ∃ records : List Entry,
      ((opened "s" "r" [0x2d]).run [.emit "t" .info "first", .emitEntry (kept "a::b"),
          .emitEntry (kept ""), .reopen, .emit "t" .info "again"]).flush.target.held =
        [0x2d] ++ records.flatMap (fun e => Text.utf8Encode e.line ++ [10]) ∧
      records.length = 4 ∧
      records[0]?.map Entry.traceId = some "s::r::001" ∧
      records[1]? = some (kept "a::b") ∧
      records[2]? = some (kept "s::r::002") ∧
      records[3]?.map Entry.traceId = some "s::r::001" := by
  obtain ⟨records, hheld, -, hlength, hemit, hentry, -⟩ := run_appends "s" "r" [0x2d]
    [.emit "t" .info "first", .emitEntry (kept "a::b"), .emitEntry (kept ""), .reopen,
      .emit "t" .info "again"]
  obtain ⟨hfirst, _, hresult, hfirstId⟩ := hemit [] _ _ _ _ rfl
  obtain ⟨_, hown, hownId, -⟩ := hentry [_] _ _ rfl
  obtain ⟨_, hempty, -, hemptyId⟩ := hentry [_, _] _ _ rfl
  obtain ⟨hagain, _, hresult', hagainId⟩ := hemit [_, _, _, _] _ _ _ _ rfl
  have hfits : given [.emit "t" .info "first", .emitEntry (kept "a::b")] + 1 < UInt64.size := by
    decide
  rw [hresult, hfirstId (by decide)] at hfirst
  rw [hownId (by decide)] at hown
  rw [hemptyId rfl hfits] at hempty
  rw [hresult', hagainId (by decide)] at hagain
  have hone : numberedId "s" "r" 1 = "s::r::001" := by decide
  have htwo : numberedId "s" "r" 2 = "s::r::002" := by decide
  refine ⟨hfits, records, hheld, hlength, ?_, hown, ?_, ?_⟩
  · exact (congrArg (Option.map Entry.traceId) hfirst).trans (congrArg some hone)
  · exact hempty.trans (congrArg (fun traceId => some (kept traceId)) htwo)
  · exact (congrArg (Option.map Entry.traceId) hagain).trans (congrArg some hone)

end Emitter
end ProcessStart.Log
