import ProcessStart.Proofs.Forwarding
import ProcessStart.Proofs.Loader.Reads
import ProcessStart.Proofs.Trace.Delivery
import ProcessStart.Proofs.Trace.Record

/-!
What a start does for its trace: it reads the environment, and writes a line if
that asks for one. All that depends on the environment, the clock and the
descriptor is done between the last lookup and the call of the start routine,
is bounded in number, and changes nothing else.
-/
namespace ProcessStart

variable {ι ε : Type}

namespace Deed

def lookup? : Deed ι ε → Option Lookup
  | .lookup query => some query
  | _ => none

def write? : Deed ι ε → Option Trace.WriteCall
  | .write written => some written
  | _ => none

/-- The environment is read, and the descriptor written, for the trace alone. -/
def isTracing : Deed ι ε → Bool
  | .read _ => true
  | .write _ => true
  | _ => false

theorem unwanted_of_isTracing {deed : Deed ι ε} (h : deed.isTracing = true) :
    deed.lookup? = none ∧ deed.call? = none ∧ deed.inner? = none := by
  cases deed with
  | read what => exact ⟨rfl, rfl, rfl⟩
  | write written => exact ⟨rfl, rfl, rfl⟩
  | _ => exact nomatch h

end Deed

namespace Launch

def lookups (log : List (Deed ι ε)) : List Lookup := log.filterMap Deed.lookup?

def writes (log : List (Deed ι ε)) : List Trace.WriteCall := log.filterMap Deed.write?

/-- The bytes that the descriptor for diagnostics takes. -/
def received (log : List (Deed ι ε)) : List UInt8 := Trace.delivered (writes log)

/-- Whether the environment asks for the trace. -/
def asksForTrace (s : Surroundings) (a : StartArguments ι) : Bool :=
  (Loader.TraceFlag.ofEnvironment s.slots a.envp).value

/-- All that is done for the trace while a plan is carried out. -/
def tracing (s : Surroundings) (a : StartArguments ι) (p : Plan) : List (Deed ι ε) :=
  (Loader.TraceFlag.ofEnvironment s.slots a.envp).log.map .read ++
    if asksForTrace s a then (traceWrites s p).map .write else []

theorem writes_map_write (written : List Trace.WriteCall) :
    (written.map .write : List (Deed ι ε)).filterMap Deed.write? = written := by
  rw [List.filterMap_map]
  exact List.filterMap_some

section

variable (s : Surroundings) (routines : SymbolAddress → StartRoutine ι ε)
    (a : StartArguments ι) (fallback : ι) (p : Plan)

/-- All of the trace is done before the call. -/
theorem log_forward_tracing : (forward s routines a fallback p).log =
    tracing s a p ++ (.call p.routine (handed p a fallback) ::
      (routines p.routine (handed p a fallback)).log.map .inner) := by
  rw [log_forward, tracing, asksForTrace, List.append_assoc]

/-- Nothing is done for the trace but reading the environment and writing. -/
theorem isTracing_of_mem : ∀ deed ∈ (tracing s a p : List (Deed ι ε)), deed.isTracing = true := by
  intro deed hdeed
  rw [tracing, List.mem_append] at hdeed
  cases hdeed with
  | inl hread =>
    obtain ⟨what, -, rfl⟩ := List.mem_map.mp hread
    rfl
  | inr hwrite =>
    split at hwrite
    · obtain ⟨call, -, rfl⟩ := List.mem_map.mp hwrite
      rfl
    · exact nomatch hwrite

/-- The trace is written exactly if it is asked for. -/
theorem writes_tracing : writes (tracing s a p : List (Deed ι ε)) =
    if asksForTrace s a then traceWrites s p else [] := by
  rw [writes, tracing, List.filterMap_append, filterMap_map_eq_nil (fun _ => rfl)]
  split
  · rw [writes_map_write, List.nil_append]
  · rfl

/-- A record always fits its buffer, so that it is sent as a whole. -/
theorem traceWrites_eq : ∃ b : Trace.Buffer,
    (Trace.Record.ofPlan s.clock s.pid p).render = .ok b ∧
    traceWrites s p = s.diagnostics.send b.content ∧
    b.content = Text.utf8Encode (Trace.Record.ofPlan s.clock s.pid p).line := by
  obtain ⟨b, hrender, hcontent⟩ := (Trace.Record.ofPlan s.clock s.pid p).render_content
  refine ⟨b, hrender, ?_, hcontent⟩
  rw [traceWrites, hrender, lineWrites_ok]

/-- There are no more writes than the buffer has bytes. -/
theorem length_traceWrites_le : (traceWrites s p).length ≤ Trace.capacity := by
  obtain ⟨b, -, hsent, -⟩ := traceWrites_eq s p
  rw [hsent]
  exact Nat.le_trans (Trace.Descriptor.length_sendFrom_le _ 0 b.content) b.length_le

/-- What is done for the trace is bounded, whatever the surroundings. -/
theorem length_tracing_le : (tracing s a p : List (Deed ι ε)).length ≤
    Loader.entryLimit * (Loader.byteLimit + 1) + Trace.capacity := by
  have hreads := Loader.TraceFlag.length_log_ofEnvironment_le s.slots a.envp
  have hwrites := length_traceWrites_le s p
  rw [tracing, List.length_append, List.length_map]
  split
  · rw [List.length_map]
    omega
  · simp only [List.length_nil]
    omega

end

section

variable (r : Resolver) (self : SymbolAddress) (routines : SymbolAddress → StartRoutine ι ε)
    (a : StartArguments ι) (fallback : ι)

/-- With a plan there are the lookups, then what is done for the trace, then the call and what is
done in it. -/
theorem run_of_plan {p : Plan} (h : (plan r self).value = .ok p) (s : Surroundings) :
    run r self s routines a fallback =
      ⟨.ok (routines p.routine (handed p a fallback)).value,
        (plan r self).log.map .lookup ++ tracing s a p ++ .call p.routine (handed p a fallback) ::
          (routines p.routine (handed p a fallback)).log.map .inner⟩ := by
  rw [run_of_ok s routines a fallback h, log_forward_tracing, List.append_assoc]
  rfl

/-- What a start does before and after its tracing is settled without the surroundings, and so is
what it returns. -/
theorem run_around_tracing : ∃ (value : Except StartError Int32) (before after : List (Deed ι ε)),
    (∀ deed ∈ before, ∃ q, deed = .lookup q) ∧
    (∀ deed ∈ after, (∃ routine given, deed = .call routine given) ∨ ∃ event, deed = .inner event) ∧
    ∀ s : Surroundings, ∃ between : List (Deed ι ε),
      run r self s routines a fallback = ⟨value, before ++ between ++ after⟩ ∧
      (∀ deed ∈ between, deed.isTracing = true) ∧
      between.length ≤ Loader.entryLimit * (Loader.byteLimit + 1) + Trace.capacity := by
  have hlookups : ∀ deed ∈ ((plan r self).log.map .lookup : List (Deed ι ε)),
      ∃ q, deed = .lookup q := by
    intro deed hdeed
    obtain ⟨q, -, rfl⟩ := List.mem_map.mp hdeed
    exact ⟨q, rfl⟩
  cases hp : (plan r self).value with
  | error e =>
    refine ⟨.error e, (plan r self).log.map .lookup, [], hlookups, nofun, ?_⟩
    intro s
    refine ⟨[], ?_, nofun, Nat.zero_le _⟩
    rw [run_of_error s routines a fallback hp, List.append_nil, List.append_nil]
  | ok p =>
    refine ⟨.ok (routines p.routine (handed p a fallback)).value, (plan r self).log.map .lookup,
      .call p.routine (handed p a fallback) ::
        (routines p.routine (handed p a fallback)).log.map .inner, hlookups, ?_, ?_⟩
    · intro deed hdeed
      cases List.mem_cons.mp hdeed with
      | inl hcall => exact .inl ⟨_, _, hcall⟩
      | inr hinner =>
        obtain ⟨event, -, rfl⟩ := List.mem_map.mp hinner
        exact .inr ⟨event, rfl⟩
    · intro s
      exact ⟨tracing s a p, run_of_plan r self routines a fallback hp s, isTracing_of_mem s a p,
        length_tracing_le s a p⟩

/-- What is not done for the trace is the same in logs that differ in tracing alone. -/
theorem filterMap_same_but_tracing {δ : Type} {wanted : Deed ι ε → Option δ}
    (hwanted : ∀ deed, deed.isTracing = true → wanted deed = none)
    {between between' : List (Deed ι ε)} (h : ∀ deed ∈ between, deed.isTracing = true)
    (h' : ∀ deed ∈ between', deed.isTracing = true) (before after : List (Deed ι ε)) :
    (before ++ between ++ after).filterMap wanted =
      (before ++ between' ++ after).filterMap wanted := by
  have hnone : between.filterMap wanted = [] :=
    List.filterMap_eq_nil_iff.mpr fun deed hdeed => hwanted deed (h deed hdeed)
  have hnone' : between'.filterMap wanted = [] :=
    List.filterMap_eq_nil_iff.mpr fun deed hdeed => hwanted deed (h' deed hdeed)
  simp only [List.filterMap_append, hnone, hnone']

/-- Whatever stands in the environment, and however the descriptor answers, the clock goes or the
process is numbered, a start makes the same lookups and the same call, has the same done by what it
calls, and returns the same. Two starts can differ only in what they read and write at one place,
between the last lookup and the call, and they get past it after a bounded number of steps. -/
theorem run_ignores_surroundings (s s' : Surroundings) :
    (run r self s routines a fallback).value = (run r self s' routines a fallback).value ∧
    lookups (run r self s routines a fallback).log =
      lookups (run r self s' routines a fallback).log ∧
    calls (run r self s routines a fallback).log = calls (run r self s' routines a fallback).log ∧
    inner (run r self s routines a fallback).log = inner (run r self s' routines a fallback).log ∧
    ∃ before between between' after : List (Deed ι ε),
      (run r self s routines a fallback).log = before ++ between ++ after ∧
      (run r self s' routines a fallback).log = before ++ between' ++ after ∧
      (∀ deed ∈ before, ∃ q, deed = .lookup q) ∧
      (∀ deed ∈ between ++ between', deed.isTracing = true) ∧
      (∀ deed ∈ after,
        (∃ routine given, deed = .call routine given) ∨ ∃ event, deed = .inner event) ∧
      between.length ≤ 4096 * 257 + 512 ∧ between'.length ≤ 4096 * 257 + 512 := by
  obtain ⟨value, before, after, hbefore, hafter, hrun⟩ :=
    run_around_tracing r self routines a fallback
  obtain ⟨between, hs, htracing, hlength⟩ := hrun s
  obtain ⟨between', hs', htracing', hlength'⟩ := hrun s'
  rw [hs, hs']
  refine ⟨rfl, ?_, ?_, ?_, before, between, between', after, rfl, rfl, hbefore, ?_, hafter,
    hlength, hlength'⟩
  · apply filterMap_same_but_tracing ?_ htracing htracing'
    exact fun deed hdeed => (Deed.unwanted_of_isTracing hdeed).1
  · apply filterMap_same_but_tracing ?_ htracing htracing'
    exact fun deed hdeed => (Deed.unwanted_of_isTracing hdeed).2.1
  · apply filterMap_same_but_tracing ?_ htracing htracing'
    exact fun deed hdeed => (Deed.unwanted_of_isTracing hdeed).2.2
  · intro deed hdeed
    rw [List.mem_append] at hdeed
    exact hdeed.elim (htracing deed) (htracing' deed)

end

end Launch
end ProcessStart
