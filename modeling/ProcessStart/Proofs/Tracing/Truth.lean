import ProcessStart.Proofs.Resolution
import ProcessStart.Proofs.Tracing

/-!
What the trace says of the start. The descriptor receives nothing, or one line
that the log accepts. The line is put together from the plan, and so is the
call; that the one tells the truth about the other is shown for each of its
details.
-/
namespace ProcessStart.Launch

variable {ι ε : Type}

section

variable {r : Resolver} {self : SymbolAddress} {p : Plan}

theorem calls_tracing (s : Surroundings) (a : StartArguments ι) (p : Plan) :
    calls (tracing s a p : List (Deed ι ε)) = [] :=
  List.filterMap_eq_nil_iff.mpr fun deed hdeed =>
    (Deed.unwanted_of_isTracing (isTracing_of_mem s a p deed hdeed)).2.1

/-- No routine is called before the planned one. -/
theorem calls_before_call (s : Surroundings) (a : StartArguments ι) (p : Plan) :
    calls ((plan r self).log.map .lookup ++ tracing s a p : List (Deed ι ε)) = [] := by
  rw [calls, List.filterMap_append, filterMap_map_eq_nil (fun _ => rfl), List.nil_append]
  exact calls_tracing s a p

theorem writes_before_call (s : Surroundings) (a : StartArguments ι) (p : Plan) :
    writes ((plan r self).log.map .lookup ++ tracing s a p : List (Deed ι ε)) =
      if asksForTrace s a then traceWrites s p else [] := by
  rw [writes, List.filterMap_append, filterMap_map_eq_nil (fun _ => rfl), List.nil_append]
  exact writes_tracing s a p

variable (h : (plan r self).value = .ok p) (s : Surroundings)
    (routines : SymbolAddress → StartRoutine ι ε) (a : StartArguments ι) (fallback : ι)

include h

/-- A start is lookups, then the trace, then the call and what it leads to. -/
theorem log_run_of_plan : (run r self s routines a fallback).log =
    (plan r self).log.map .lookup ++ tracing s a p ++ .call p.routine (handed p a fallback) ::
      (routines p.routine (handed p a fallback)).log.map .inner :=
  congrArg Logged.log (run_of_plan r self routines a fallback h s)

/-- All that a start writes is its trace. -/
theorem writes_run_of_plan : writes (run r self s routines a fallback).log =
    if asksForTrace s a then traceWrites s p else [] := by
  rw [log_run_of_plan h, writes, List.filterMap_append, List.filterMap_cons]
  simp only [Deed.write?]
  rw [filterMap_map_eq_nil (fun _ => rfl), List.append_nil]
  exact writes_before_call s a p

/-- The strategy of a plan, the answer behind it, and the `init` handed over go together. -/
theorem handed_init_of_plan :
    p.strategy = .fallback ∧ r .cutover = none ∧ (handed p a fallback).init = some fallback ∨
      p.strategy = .passThrough ∧ (r .cutover).isSome ∧ (handed p a fallback).init = a.init := by
  obtain ⟨-, -, -, hgeneration, hstrategy⟩ := plan_eq_ok.mp h
  rw [handed, hstrategy, hgeneration]
  cases hc : r .cutover with
  | none => exact .inl ⟨rfl, rfl, rfl⟩
  | some x => exact .inr ⟨rfl, rfl, rfl⟩

end

/-- What is written needs a plan and an environment that asks for it. -/
theorem writes_run_ne_nil {r : Resolver} {self : SymbolAddress} {s : Surroundings}
    {routines : SymbolAddress → StartRoutine ι ε} {a : StartArguments ι} {fallback : ι}
    (h : writes (run r self s routines a fallback).log ≠ []) :
    (∃ p, (plan r self).value = .ok p) ∧ asksForTrace s a = true := by
  cases hp : (plan r self).value with
  | error e =>
    rw [run_of_error s routines a fallback hp] at h
    exact absurd (filterMap_map_eq_nil (fun _ => rfl) _) h
  | ok p =>
    refine ⟨⟨p, rfl⟩, ?_⟩
    rw [writes_run_of_plan hp] at h
    exact Classical.byContradiction fun hask => h (if_neg hask)

/-- What the descriptor takes of the trace is the line of the record. -/
theorem delivered_traceWrites {s : Surroundings} (hd : s.diagnostics.Reliable) (p : Plan) :
    Trace.delivered (traceWrites s p) =
      Text.utf8Encode (Trace.Record.ofPlan s.clock s.pid p).line := by
  obtain ⟨b, -, hsent, hcontent⟩ := traceWrites_eq s p
  rw [hsent, Trace.Descriptor.delivered_send hd, hcontent]

/-- A descriptor that takes what it is offered receives nothing of a start that fails, or that no
trace is asked of. Of any other it receives one line before the call, and nothing after; the log
accepts the line, and what its entry says of the routine, of `init` and of the lookup at the
cut-over version is so. -/
theorem run_tells_truth (r : Resolver) (self : SymbolAddress) (s : Surroundings)
    (routines : SymbolAddress → StartRoutine ι ε) (a : StartArguments ι) (fallback : ι)
    (hd : s.diagnostics.Reliable) :
    (writes (run r self s routines a fallback).log ≠ [] →
      (∃ p, (plan r self).value = .ok p) ∧ asksForTrace s a = true) ∧
    ∀ p, (plan r self).value = .ok p → asksForTrace s a = true →
      ∃ (before after : List (Deed ι ε)) (given : StartArguments ι) (bytes : List UInt8)
          (line : List Char) (e : Log.Entry),
        (run r self s routines a fallback).log = before ++ .call p.routine given :: after ∧
        calls before = [] ∧ calls after = [] ∧
        received before = bytes ++ [10] ∧ 10 ∉ bytes ∧ writes after = [] ∧
        Text.utf8Decode? bytes = some line ∧
        (∀ number, Log.Schema.check line number = .ok e) ∧
        e.event = "startup_decision" ∧ e.outcome = some .pass ∧
        (∃ digits, e.HasDetail "start_main" (String.ofList ('0' :: 'x' :: digits)) ∧
          Text.numeral? 16 0xffffffffffffffff digits = some p.routine.val.toNat) ∧
        (e.HasDetail "strategy" "fallback" ∧ r .cutover = none ∧ given.init = some fallback ∨
          e.HasDetail "strategy" "pass_through" ∧ (r .cutover).isSome ∧ given.init = a.init) ∧
        (a.init ≠ some fallback →
          (e.HasDetail "strategy" "fallback" ↔ given.init = some fallback)) ∧
        (e.HasDetail "generation" "modern" ↔ (r .cutover).isSome) := by
  refine ⟨writes_run_ne_nil, ?_⟩
  intro p hp hask
  obtain ⟨-, -, -, hgeneration, hstrategy⟩ := plan_eq_ok.mp hp
  obtain ⟨hbytes, honce, hdecode⟩ := (Trace.Record.ofPlan s.clock s.pid p).encode_line
  have htells := (Trace.Record.ofPlan s.clock s.pid p).tells_readBack
  have hreceived : received ((plan r self).log.map .lookup ++ tracing s a p : List (Deed ι ε)) =
      Text.utf8Encode (Trace.Record.ofPlan s.clock s.pid p).entry.line ++ [10] := by
    rw [received, writes_before_call, if_pos hask, delivered_traceWrites hd, hbytes]
  have hlabel : ∀ label, (Trace.Record.ofPlan s.clock s.pid p).entry.settled.readBack.HasDetail
      "strategy" label ↔ p.strategy.label = label := fun label => htells.hasDetail_strategy
  have hinit := handed_init_of_plan hp a fallback
  refine ⟨(plan r self).log.map .lookup ++ tracing s a p,
    (routines p.routine (handed p a fallback)).log.map .inner, handed p a fallback, _, _, _,
    log_run_of_plan hp s routines a fallback, calls_before_call s a p,
    filterMap_map_eq_nil (fun _ => rfl) _, hreceived, honce, filterMap_map_eq_nil (fun _ => rfl) _,
    hdecode, fun number => Trace.Record.check_of_sound hstrategy number, htells.event,
    htells.outcome, htells.hasDetail_routine, ?_, ?_, ?_⟩
  · rw [hlabel, hlabel]
    rcases hinit with ⟨hs, hmiss, hgiven⟩ | ⟨hs, hhit, hgiven⟩
    · exact .inl ⟨by rw [hs]; rfl, hmiss, hgiven⟩
    · exact .inr ⟨by rw [hs]; rfl, hhit, hgiven⟩
  · intro hother
    rw [hlabel]
    rcases hinit with ⟨hs, -, hgiven⟩ | ⟨hs, -, hgiven⟩
    · exact iff_of_true (by rw [hs]; rfl) hgiven
    · rw [hs, hgiven]
      exact iff_of_false (by decide) hother
  · rw [htells.hasDetail_generation]
    change p.generation.label = "modern" ↔ _
    rw [hgeneration]
    cases (r .cutover).isSome <;> decide

/-- Takes seven bytes at a time. -/
def piecemeal : Trace.Descriptor := fun _ bytes => (min 7 bytes.length : Nat)

/-- One argument, and an environment of one entry, which asks for the trace. -/
def tracedSlots : Loader.Slots
  | 0 => some (Loader.Memory.ofBytes (Text.utf8Encode "launcher".toList))
  | 2 => some (Loader.Memory.ofBytes (Text.utf8Encode "LIBCSHIM_STARTUP_TRACE=Yes".toList))
  | _ => none

theorem reliable_piecemeal : piecemeal.Reliable := by
  intro number bytes hbytes
  have hpos := List.length_pos_iff.mpr hbytes
  rw [piecemeal]
  omega

theorem asksForTrace_traced : asksForTrace ⟨tracedSlots, ⟨0, 0⟩, 42, piecemeal⟩
    (⟨none, 1, some 0, none, none, none, 0⟩ : StartArguments Unit) = true := by
  decide +kernel

theorem run_tells_truth_piecemeal :
    piecemeal.Reliable ∧ ∃ (before after : List (Deed Unit Unit)) (given : StartArguments Unit)
        (bytes : List UInt8) (line : List Char) (e : Log.Entry),
      (run (Resolver.only .baseline ⟨0x1000, by decide⟩) ⟨0x9000, by decide⟩
          ⟨tracedSlots, ⟨0, 0⟩, 42, piecemeal⟩ (fun _ _ => pure 0)
          ⟨none, 1, some 0, none, none, none, 0⟩ ()).log =
        before ++ .call ⟨0x1000, by decide⟩ given :: after ∧
      received before = bytes ++ [10] ∧ writes after = [] ∧
      Text.utf8Decode? bytes = some line ∧ Log.Schema.check line 1 = .ok e ∧
      e.HasDetail "strategy" "fallback" ∧ given.init = some () := by
  have hplan : (plan (Resolver.only .baseline ⟨0x1000, by decide⟩) ⟨0x9000, by decide⟩).value =
      .ok ⟨⟨0x1000, by decide⟩, .legacy, .fallback⟩ := rfl
  have hmiss : Resolver.only .baseline ⟨0x1000, by decide⟩ .cutover = none := rfl
  obtain ⟨before, after, given, bytes, line, e, hlog, -, -, hreceived, -, hafter, hdecode, hcheck,
    -, -, -, hinit, -⟩ :=
    (run_tells_truth _ _ ⟨tracedSlots, ⟨0, 0⟩, 42, piecemeal⟩
      (fun _ _ => pure 0 : SymbolAddress → StartRoutine Unit Unit)
      ⟨none, 1, some 0, none, none, none, 0⟩ () reliable_piecemeal).2 _ hplan asksForTrace_traced
  refine ⟨reliable_piecemeal, before, after, given, bytes, line, e, hlog, hreceived, hafter, hdecode,
    hcheck 1, ?_⟩
  rcases hinit with ⟨hstrategy, -, hgiven⟩ | ⟨-, hhit, -⟩
  · exact ⟨hstrategy, hgiven⟩
  · rw [hmiss] at hhit
    exact nomatch hhit

end ProcessStart.Launch
