import ProcessStart.Proofs.Json.Decoding
import ProcessStart.Proofs.Tracing.Truth
import ProcessStart.Proofs.Version.RoundTrip
import ProcessStart.Report

/-!
The report of a probe against the start it stands for. Both are made from one
plan, by lookups of the same resolver; what the report shows of it is what the
start does with it, and what the trace of that start says.
-/
namespace ProcessStart

variable {ι ε : Type}

namespace Trace.Record

/-- The details of a record, as the log reads them. -/
theorem details_readBack (r : Record) : r.entry.settled.readBack.details =
    some (.object [("generation", .text r.generation.label),
      ("start_main", .text (String.ofList (Text.address r.routine.toNat))),
      ("strategy", .text r.strategy.label)]) := by
  rw [Log.Entry.readBack, details_settled]
  rfl

end Trace.Record

namespace Launch

theorem lookups_map_lookup (log : List Lookup) :
    lookups (log.map .lookup : List (Deed ι ε)) = log := by
  rw [lookups, List.filterMap_map]
  exact List.filterMap_some

/-- A start makes the lookups of its plan, and no others. -/
theorem lookups_run (r : Resolver) (self : SymbolAddress) (s : Surroundings)
    (routines : SymbolAddress → StartRoutine ι ε) (a : StartArguments ι) (fallback : ι) :
    lookups (run r self s routines a fallback).log = (plan r self).log := by
  cases hp : (plan r self).value with
  | error e => rw [run_of_error s routines a fallback hp, lookups_map_lookup]
  | ok p =>
    have htracing : lookups (tracing s a p : List (Deed ι ε)) = [] :=
      List.filterMap_eq_nil_iff.mpr fun deed hdeed =>
        (Deed.unwanted_of_isTracing (isTracing_of_mem s a p deed hdeed)).1
    have hinner : lookups ((routines p.routine (handed p a fallback)).log.map
        .inner : List (Deed ι ε)) = [] := filterMap_map_eq_nil (fun _ => rfl) _
    have hcut := log_run_of_plan hp s routines a fallback
    rw [hcut, lookups, List.filterMap_append, List.filterMap_append, ← lookups, ← lookups,
      lookups_map_lookup, htracing, List.append_nil, List.filterMap_cons]
    exact (congrArg ((plan r self).log ++ ·) hinner).trans (List.append_nil _)

theorem calls_run_of_plan {r : Resolver} {self : SymbolAddress} {p : Plan}
    (h : (plan r self).value = .ok p) (s : Surroundings)
    (routines : SymbolAddress → StartRoutine ι ε) (a : StartArguments ι) (fallback : ι) :
    calls (run r self s routines a fallback).log = [(p.routine, handed p a fallback)] := by
  rw [run_of_ok s routines a fallback h, calls, List.filterMap_append,
    filterMap_map_eq_nil (fun _ => rfl), List.nil_append]
  exact calls_forward s routines a fallback p

/-- A start returns what the planned routine returns, and fails as its plan does. -/
theorem value_run (r : Resolver) (self : SymbolAddress) (s : Surroundings)
    (routines : SymbolAddress → StartRoutine ι ε) (a : StartArguments ι) (fallback : ι) :
    (run r self s routines a fallback).value =
      (plan r self).value.map fun p => (routines p.routine (handed p a fallback)).value := by
  cases hp : (plan r self).value with
  | error e =>
    rw [run_of_error s routines a fallback hp]
    rfl
  | ok p =>
    rw [run_of_plan r self routines a fallback hp s]
    rfl

/-- The line of the trace is sent as a whole. -/
theorem writes_run_of_asked {r : Resolver} {self : SymbolAddress} {p : Plan}
    (h : (plan r self).value = .ok p) (s : Surroundings)
    (routines : SymbolAddress → StartRoutine ι ε) (a : StartArguments ι) (fallback : ι)
    (hask : asksForTrace s a = true) : writes (run r self s routines a fallback).log =
      s.diagnostics.send
        (Text.utf8Encode (Trace.Record.ofPlan s.clock s.pid p).entry.line ++ [10]) := by
  obtain ⟨b, -, hsent, hcontent⟩ := traceWrites_eq s p
  rw [writes_run_of_plan h, if_pos hask, hsent, hcontent,
    (Trace.Record.ofPlan s.clock s.pid p).encode_line.1]

end Launch

namespace Report

open Launch

/-- A probe describes the plan, and fails as the plan does. -/
theorem value_probe (r : Resolver) (self : SymbolAddress) (runtime : Option Version) :
    (probe r self runtime).value = (plan r self).value.map (describe · runtime) := rfl

/-- The cut-over was found exactly if its lookup was answered. -/
theorem found_describe {r : Resolver} {self : SymbolAddress} {p : Plan}
    (h : (plan r self).value = .ok p) (runtime : Option Version) :
    (describe p runtime).cutover.found = (r .cutover).isSome := by
  obtain ⟨-, -, -, hgeneration, -⟩ := plan_eq_ok.mp h
  change (p.generation == .modern) = _
  rw [hgeneration]
  cases (r .cutover).isSome <;> rfl

/-- The entry that the trace of a plan is read as has the details of the report. -/
theorem hasDetail_describe (time : Instant) (pid : UInt32) (p : Plan) (runtime : Option Version) :
    let e := (Trace.Record.ofPlan time pid p).entry.settled.readBack
    e.HasDetail "generation" (describe p runtime).generation ∧
      e.HasDetail "strategy" (describe p runtime).strategy ∧
      e.HasDetail "start_main" (describe p runtime).resolved := by
  have hdetails := (Trace.Record.ofPlan time pid p).details_readBack
  exact ⟨⟨_, hdetails, rfl⟩, ⟨_, hdetails, rfl⟩, ⟨_, hdetails, rfl⟩⟩

/-- The report of a version is consistent if it is on the side of the cut-over that was found. -/
theorem consistent_describe (p : Plan) (v : Version) :
    (describe p (some v)).consistent = some true ↔
      ((2 < v.major.toNat ∨ v.major.toNat = 2 ∧ 34 ≤ v.minor.toNat) ↔
        (describe p (some v)).cutover.found = true) := by
  change some (v.walksInitArray == (p.generation == .modern)) = some true ↔
    (_ ↔ (p.generation == .modern) = true)
  rw [← Version.walksInitArray_iff, Option.some.injEq, beq_iff_eq, Bool.eq_iff_iff]

/-- A probe makes the lookups of a start, and fails exactly as it does. Otherwise the report shows
the routine that the start calls, and by which `init` it is called; the answer at the cut-over
version; what the line of the trace shows; and, if there is a version to compare with, its text and
whether it is on the side of the cut-over that was found. -/
theorem probe_predicts_run (r : Resolver) (self : SymbolAddress) (runtime : Option Version)
    (s : Surroundings) (routines : SymbolAddress → StartRoutine ι ε) (a : StartArguments ι)
    (fallback : ι) :
    lookups (run r self s routines a fallback).log = (probe r self runtime).log ∧
    (∀ e, (probe r self runtime).value = .error e ↔
      (run r self s routines a fallback).value = .error e) ∧
    ∀ report, (probe r self runtime).value = .ok report →
      (∃ routine given digits,
        calls (run r self s routines a fallback).log = [(routine, given)] ∧
        report.resolved = String.ofList ('0' :: 'x' :: digits) ∧
        Text.numeral? 16 0xffffffffffffffff digits = some routine.val.toNat ∧
        (report.strategy = "fallback" ∧ given.init = some fallback ∨
          report.strategy = "pass_through" ∧ given.init = a.init) ∧
        (a.init ≠ some fallback →
          (report.strategy = "fallback" ↔ given.init = some fallback))) ∧
      (report.cutover.found = true ↔ report.generation = "modern") ∧
      (report.cutover.found = true ↔ (r ⟨"__libc_start_main", some "GLIBC_2.34"⟩).isSome) ∧
      (asksForTrace s a = true → ∃ bytes line e,
        writes (run r self s routines a fallback).log = s.diagnostics.send (bytes ++ [10]) ∧
        (s.diagnostics.Reliable →
          received (run r self s routines a fallback).log = bytes ++ [10]) ∧
        10 ∉ bytes ∧ Text.utf8Decode? bytes = some line ∧
        (∀ number, Log.Schema.check line number = .ok e) ∧
        e.HasDetail "generation" report.generation ∧ e.HasDetail "strategy" report.strategy ∧
        e.HasDetail "start_main" report.resolved) ∧
      (runtime = none ↔ report.runtimeVersion = none) ∧ (runtime = none ↔ report.consistent = none) ∧
      ∀ v, runtime = some v →
        report.runtimeVersion = some (String.ofList
          (Text.decimal v.major.toNat ++ '.' :: Text.decimal v.minor.toNat)) ∧
        (∀ text, report.runtimeVersion = some text → Version.parse text = .ok v) ∧
        (report.consistent = some true ↔
          ((2 < v.major.toNat ∨ v.major.toNat = 2 ∧ 34 ≤ v.minor.toNat) ↔
            report.cutover.found = true)) := by
  refine ⟨lookups_run r self s routines a fallback, ?_, ?_⟩
  · intro e
    rw [value_probe, value_run, map_eq_error, map_eq_error]
  intro report hreport
  obtain ⟨p, hp, rfl⟩ := map_eq_ok.mp hreport
  have hinit := handed_init_of_plan hp a fallback
  refine ⟨⟨p.routine, handed p a fallback, _, calls_run_of_plan hp s routines a fallback, rfl,
    Text.numeral?_hexadecimal p.routine.val, ?_, ?_⟩, ?_, ?_, ?_, ?_, ?_, ?_⟩
  · rcases hinit with ⟨hs, -, hgiven⟩ | ⟨hs, -, hgiven⟩
    · exact .inl ⟨congrArg Strategy.label hs, hgiven⟩
    · exact .inr ⟨congrArg Strategy.label hs, hgiven⟩
  · intro hother
    change p.strategy.label = "fallback" ↔ _
    rcases hinit with ⟨hs, -, hgiven⟩ | ⟨hs, -, hgiven⟩
    · exact iff_of_true (congrArg Strategy.label hs) hgiven
    · rw [hs, hgiven]
      exact iff_of_false (by decide) hother
  · change (p.generation == .modern) = true ↔ p.generation.label = "modern"
    cases p.generation <;> decide
  · rw [found_describe hp runtime]
    exact Iff.rfl
  · -- The record is made from the plan of the report, so its details are the report's texts.
    intro hask
    obtain ⟨-, honce, hdecode⟩ := (Trace.Record.ofPlan s.clock s.pid p).encode_line
    obtain ⟨-, -, -, -, hstrategy⟩ := plan_eq_ok.mp hp
    have hwrites := writes_run_of_asked hp s routines a fallback hask
    refine ⟨_, _, _, hwrites, ?_, honce, hdecode,
      fun number => Trace.Record.check_of_sound hstrategy number,
      hasDetail_describe s.clock s.pid p runtime⟩
    intro hd
    rw [received, hwrites, Trace.Descriptor.delivered_send hd]
  · exact Option.map_eq_none_iff.symm
  · exact Option.map_eq_none_iff.symm
  · rintro v rfl
    refine ⟨rfl, ?_, consistent_describe p v⟩
    intro text htext
    cases htext
    exact (Version.parse_ofList _).trans v.parseChars_text

/-- A routine that is found at the baseline version only, beside a library of that side, with the
trace on. -/
theorem probe_predicts_run_traced :
    ∃ (report : Report) (given : StartArguments Unit) (bytes : List UInt8) (line : List Char)
        (e : Log.Entry),
      let r := Resolver.only .baseline ⟨0x1000, by decide⟩
      let start : Logged (Deed Unit Unit) (Except StartError Int32) := run r ⟨0x9000, by decide⟩
        ⟨tracedSlots, ⟨0, 0⟩, 42, piecemeal⟩ (fun _ _ => pure 0)
        ⟨none, 1, some 0, none, none, none, 0⟩ ()
      (probe r ⟨0x9000, by decide⟩ (some ⟨2, 31⟩)).value = .ok report ∧
      calls start.log = [(⟨0x1000, by decide⟩, given)] ∧
      report.strategy = "fallback" ∧ given.init = some () ∧
      received start.log = bytes ++ [10] ∧ Text.utf8Decode? bytes = some line ∧
      Log.Schema.check line 1 = .ok e ∧ e.HasDetail "start_main" report.resolved ∧
      report.runtimeVersion = some "2.31" ∧ report.consistent = some true := by
  have hplan : (plan (Resolver.only .baseline ⟨0x1000, by decide⟩) ⟨0x9000, by decide⟩).value =
      .ok ⟨⟨0x1000, by decide⟩, .legacy, .fallback⟩ := rfl
  obtain ⟨-, -, hshows⟩ := probe_predicts_run (Resolver.only .baseline ⟨0x1000, by decide⟩)
    ⟨0x9000, by decide⟩ (some ⟨2, 31⟩) ⟨tracedSlots, ⟨0, 0⟩, 42, piecemeal⟩
    (fun _ _ => pure 0 : SymbolAddress → StartRoutine Unit Unit)
    ⟨none, 1, some 0, none, none, none, 0⟩ ()
  obtain ⟨⟨routine, given, -, hcalls, -, -, hstrategy, -⟩, -, -, htrace, -, -, hversion⟩ :=
    hshows _ (congrArg (Except.map (describe · (some ⟨2, 31⟩))) hplan)
  obtain ⟨bytes, line, e, -, hreceived, -, hdecode, hcheck, -, -, hroutine⟩ :=
    htrace asksForTrace_traced
  obtain ⟨htext, -, hconsistent⟩ := hversion _ rfl
  rw [calls_run_of_plan hplan] at hcalls
  obtain ⟨rfl, hgiven⟩ := Prod.mk.inj (List.singleton_inj.mp hcalls)
  obtain ⟨hfallback, hinit⟩ | ⟨hpass, -⟩ := hstrategy
  · refine ⟨_, given, bytes, line, e, rfl, ?_, hfallback, hinit, hreceived reliable_piecemeal,
      hdecode, hcheck 1, hroutine, htext, hconsistent.mpr (by decide)⟩
    rw [calls_run_of_plan hplan, hgiven]
  · exact absurd hpass (by decide)

end Report
end ProcessStart
