import ProcessStart.Launch
import ProcessStart.Proofs.Decision

/-!
What a start does, read off the log of its deeds. A start that fails has made
lookups and done nothing else. A start that does not fail makes one call, with
all that the loader handed over but for `init`, and ends as that call ends.
-/
namespace ProcessStart

variable {ι ε : Type}

namespace Deed

def call? : Deed ι ε → Option (SymbolAddress × StartArguments ι)
  | .call routine arguments => some (routine, arguments)
  | _ => none

def inner? : Deed ι ε → Option ε
  | .inner event => some event
  | _ => none

end Deed

namespace Launch

/-- The start routines called, with what they were called with. -/
def calls (log : List (Deed ι ε)) : List (SymbolAddress × StartArguments ι) :=
  log.filterMap Deed.call?

/-- What the called routines did in turn. -/
def inner (log : List (Deed ι ε)) : List ε := log.filterMap Deed.inner?

/-- A kind of deed that is looked for is not found among those of another kind. -/
theorem filterMap_map_eq_nil {α δ : Type} {kind : α → Deed ι ε} {wanted : Deed ι ε → Option δ}
    (h : ∀ a, wanted (kind a) = none) (as : List α) : (as.map kind).filterMap wanted = [] := by
  rw [List.filterMap_map, List.filterMap_eq_nil_iff]
  intro a _
  exact h a

theorem inner_map_inner (events : List ε) :
    (events.map .inner : List (Deed ι ε)).filterMap Deed.inner? = events := by
  rw [List.filterMap_map]
  exact List.filterMap_some

/-- The deeds of a plan that is carried out, in order. -/
theorem log_forward (s : Surroundings) (routines : SymbolAddress → StartRoutine ι ε)
    (a : StartArguments ι) (fallback : ι) (p : Plan) :
    (forward s routines a fallback p).log =
      (Loader.TraceFlag.ofEnvironment s.slots a.envp).log.map .read ++
        ((if (Loader.TraceFlag.ofEnvironment s.slots a.envp).value then
          (traceWrites s p).map .write else []) ++
          (.call p.routine (handed p a fallback) ::
            (routines p.routine (handed p a fallback)).log.map .inner)) := rfl

/-- The planned routine is called once, with what the plan hands over. -/
theorem calls_forward (s : Surroundings) (routines : SymbolAddress → StartRoutine ι ε)
    (a : StartArguments ι) (fallback : ι) (p : Plan) :
    calls (forward s routines a fallback p).log = [(p.routine, handed p a fallback)] := by
  rw [calls, log_forward]
  simp only [List.filterMap_append, List.filterMap_cons, Deed.call?]
  rw [filterMap_map_eq_nil (fun _ => rfl), filterMap_map_eq_nil (fun _ => rfl)]
  split
  · rw [filterMap_map_eq_nil (fun _ => rfl)]
    rfl
  · rfl

/-- What is done in turn is what the called routine does. -/
theorem inner_forward (s : Surroundings) (routines : SymbolAddress → StartRoutine ι ε)
    (a : StartArguments ι) (fallback : ι) (p : Plan) :
    inner (forward s routines a fallback p).log =
      (routines p.routine (handed p a fallback)).log := by
  rw [inner, log_forward]
  simp only [List.filterMap_append, List.filterMap_cons, Deed.inner?]
  rw [filterMap_map_eq_nil (fun _ => rfl), inner_map_inner]
  split
  · rw [filterMap_map_eq_nil (fun _ => rfl)]
    rfl
  · rfl

section

variable {r : Resolver} {self : SymbolAddress} (s : Surroundings)
    (routines : SymbolAddress → StartRoutine ι ε) (a : StartArguments ι) (fallback : ι)

/-- Without a plan, the lookups are all that was done. -/
theorem run_of_error {e : StartError} (h : (plan r self).value = .error e) :
    run r self s routines a fallback = ⟨.error e, (plan r self).log.map .lookup⟩ := by
  simp only [run, bind, Logged.value_mapLog, Logged.log_mapLog, h]
  exact congrArg (Logged.mk _) (List.append_nil _)

/-- A start whose plan succeeds makes its lookups, then carries the plan out. -/
theorem run_of_ok {p : Plan} (h : (plan r self).value = .ok p) :
    run r self s routines a fallback =
      ⟨.ok (forward s routines a fallback p).value,
        (plan r self).log.map .lookup ++ (forward s routines a fallback p).log⟩ := by
  simp only [run, bind, Logged.value_mapLog, Logged.log_mapLog, h]
  rfl

/-- What is done in turn is what the planned routine does with what it is handed. -/
theorem inner_run_of_ok {p : Plan} (h : (plan r self).value = .ok p) :
    inner (run r self s routines a fallback).log =
      (routines p.routine (handed p a fallback)).log := by
  rw [run_of_ok s routines a fallback h, inner, List.filterMap_append,
    filterMap_map_eq_nil (fun _ => rfl)]
  exact inner_forward s routines a fallback p

end

/-- A start fails exactly if there is no plan, and then nothing has been done but looking up. With
a plan, its routine is called, once, with the loader's arguments, `init` replaced exactly if the
lookup at the cut-over version missed; what that call does and returns is what the start does from
there on and returns. -/
theorem run_forwards (r : Resolver) (self : SymbolAddress) (s : Surroundings)
    (routines : SymbolAddress → StartRoutine ι ε) (a : StartArguments ι) (fallback : ι) :
    (∀ e, (run r self s routines a fallback).value = .error e ↔ (plan r self).value = .error e) ∧
    (∀ e, (plan r self).value = .error e →
      ∀ deed ∈ (run r self s routines a fallback).log, ∃ q, deed = .lookup q) ∧
    ∀ p, (plan r self).value = .ok p → ∃ given : StartArguments ι,
      calls (run r self s routines a fallback).log = [(p.routine, given)] ∧
      given.main = a.main ∧ given.argc = a.argc ∧ given.argv = a.argv ∧ given.fini = a.fini ∧
      given.rtldFini = a.rtldFini ∧ given.stackEnd = a.stackEnd ∧
      given.init = (if (r .cutover).isSome then a.init else some fallback) ∧
      inner (run r self s routines a fallback).log = (routines p.routine given).log ∧
      (run r self s routines a fallback).value = .ok (routines p.routine given).value := by
  refine ⟨?_, ?_, ?_⟩
  · intro e
    cases hp : (plan r self).value with
    | error e' =>
      rw [run_of_error s routines a fallback hp]
      simp only [Except.error.injEq]
    | ok p =>
      rw [run_of_ok s routines a fallback hp]
      simp
  · intro e he deed hd
    rw [run_of_error s routines a fallback he] at hd
    obtain ⟨q, _, rfl⟩ := List.mem_map.mp hd
    exact ⟨q, rfl⟩
  · intro p hp
    have hi := Plan.pick_of_plan hp a.init (some fallback)
    rw [run_of_ok s routines a fallback hp]
    refine ⟨handed p a fallback, ?_, rfl, rfl, rfl, rfl, rfl, rfl, hi, ?_, rfl⟩
    · rw [calls, List.filterMap_append, filterMap_map_eq_nil (fun _ => rfl)]
      exact calls_forward s routines a fallback p
    · rw [inner, List.filterMap_append, filterMap_map_eq_nil (fun _ => rfl)]
      exact inner_forward s routines a fallback p

/-- Notes what it is handed as `init`, and returns the count of arguments. -/
def counting : StartRoutine Nat (Option Nat) := fun given => ⟨given.argc, [given.init]⟩

/-- A routine that is found at the baseline version only, for a caller without an `init`. -/
theorem run_forwards_baseline :
    (plan (Resolver.only .baseline ⟨0x1000, by decide⟩) ⟨0x9000, by decide⟩).value =
      .ok ⟨⟨0x1000, by decide⟩, .legacy, .fallback⟩ ∧
    ∀ s : Surroundings, ∃ given : StartArguments Nat,
      let start := run (Resolver.only .baseline ⟨0x1000, by decide⟩) ⟨0x9000, by decide⟩ s
        (fun _ => counting) ⟨none, -3, some 0, none, none, none, 0⟩ 7
      calls start.log = [(⟨0x1000, by decide⟩, given)] ∧ given.init = some 7 ∧
        inner start.log = [some 7] ∧ start.value = .ok (-3) := by
  have hplan : (plan (Resolver.only .baseline ⟨0x1000, by decide⟩) ⟨0x9000, by decide⟩).value =
      .ok ⟨⟨0x1000, by decide⟩, .legacy, .fallback⟩ := rfl
  refine ⟨hplan, ?_⟩
  intro s
  obtain ⟨-, -, hforwards⟩ := run_forwards (Resolver.only .baseline ⟨0x1000, by decide⟩)
    ⟨0x9000, by decide⟩ s (fun _ => counting) ⟨none, -3, some 0, none, none, none, 0⟩ 7
  obtain ⟨given, hcalls, -, hargc, -, -, -, -, hinit, hinner, hvalue⟩ := hforwards _ hplan
  have hfallback : given.init = some 7 := hinit
  refine ⟨given, hcalls, hfallback, ?_, ?_⟩
  · rw [hinner, counting, hfallback]
  · rw [hvalue, counting, hargc]

end Launch
end ProcessStart
