import ProcessStart.Launch.Conventional
import ProcessStart.Proofs.Forwarding
import ProcessStart.Proofs.InitArray
import ProcessStart.Proofs.Resolution

/-!
The initializers of a program that is started. Before the cut-over they run
because the fallback is handed over, after it they are left to the start
routine; either way the `init` that a start routine is handed is called once,
and nothing of the program is initialized twice or left out.
-/
namespace ProcessStart.Launch

variable {ρ : Type}

/-- Whether an event is part of a call of `init`, and not what a start routine does by itself. -/
def Event.isThroughInit : Event ρ → Bool
  | .called _ => false
  | .callerInit _ => true
  | .fallbackInit => true
  | .initializer _ => true
  | .walked _ => false

/-- What was done by calling `init`, in order. -/
def throughInit (events : List (Event ρ)) : List (Event ρ) := events.filter Event.isThroughInit

/-- A start routine that calls `init` once, if there is one, with the arguments it was called with
and the environment behind them. What it does by itself before and behind that is left open. -/
def CallsInit (routine : Runtime ρ) : Prop :=
  ∀ does given, ∃ before after : List (Event ρ),
    (routine does given).log = before ++ (callInit does given ++ after) ∧
      ∀ event ∈ before ++ after, event.isThroughInit = false

theorem throughInit_append (events others : List (Event ρ)) :
    throughInit (events ++ others) = throughInit events ++ throughInit others :=
  List.filter_append events others

/-- Nothing that a routine does by itself is done through `init`. -/
theorem throughInit_of_own {events : List (Event ρ)}
    (h : ∀ event ∈ events, event.isThroughInit = false) : throughInit events = [] :=
  List.filter_eq_nil_iff.mpr fun event hevent => by rw [h event hevent]; exact Bool.false_ne_true

/-- All that an `init` does is done by calling it. -/
theorem throughInit_events (entries : InitArray ρ) (init : Init) (arguments : InitArguments) :
    throughInit (init.events entries arguments) = init.events entries arguments := by
  apply List.filter_eq_self.mpr
  intro event hevent
  cases init with
  | caller =>
    rw [List.mem_singleton.mp hevent]
    rfl
  | fallback =>
    cases List.mem_cons.mp hevent with
    | inl h =>
      rw [h]
      rfl
    | inr h =>
      obtain ⟨call, -, rfl⟩ := List.mem_map.mp h
      rfl

/-- What is done through `init` is what the one call of it does. -/
theorem CallsInit.throughInit_log {routine : Runtime ρ} (h : CallsInit routine)
    (entries : InitArray ρ) (given : StartArguments Init) :
    throughInit (routine (Init.events entries) given).log =
      callInit (Init.events entries) given := by
  obtain ⟨before, after, hlog, hown⟩ := h (Init.events entries) given
  have hbefore := throughInit_of_own fun e he => hown e (List.mem_append_left after he)
  have hafter := throughInit_of_own fun e he => hown e (List.mem_append_right before he)
  rw [hlog, throughInit_append, throughInit_append, hbefore, hafter, List.append_nil,
    List.nil_append, callInit]
  cases given.init with
  | none => rfl
  | some init => exact throughInit_events entries init given.forInit

theorem conventional_callsInit (status : Int32) : CallsInit (conventional status : Runtime ρ) := by
  intro does given
  refine ⟨[.called given], [], by rw [List.append_nil]; rfl, ?_⟩
  intro event hevent
  rw [List.append_nil, List.mem_singleton] at hevent
  rw [hevent]
  rfl

/-- The walk of the init array is not done through `init`. -/
theorem selfWalking_callsInit (entries : InitArray ρ) (status : Int32) :
    CallsInit (selfWalking entries status) := by
  intro does given
  refine ⟨.called given :: (entries.run true given.forInit).map .walked, [],
    by rw [List.append_nil]; rfl, ?_⟩
  intro event hevent
  rw [List.append_nil, List.mem_cons] at hevent
  obtain rfl | hwalked := hevent
  · rfl
  · obtain ⟨call, -, rfl⟩ := List.mem_map.mp hwalked
    rfl

/-- The one call of `init` is one of the fallback before the cut-over, and one of the caller's own
from there on. -/
theorem callInit_handed {r : Resolver} {self : SymbolAddress} {p : Plan}
    (hplan : (plan r self).value = .ok p) (does : Init → InitArguments → List (Event ρ))
    (a : StartArguments Init) (hcaller : a.init ≠ some .fallback) :
    callInit does (handed p a .fallback) =
      if (r .cutover).isSome then if a.init.isSome then does .caller a.forInit else []
      else does .fallback a.forInit := by
  have hinit : (handed p a .fallback).init =
      if (r .cutover).isSome then a.init else some .fallback :=
    Plan.pick_of_plan hplan a.init (some .fallback)
  rw [callInit, hinit]
  cases (r .cutover).isSome with
  | false => rfl
  | true =>
    cases hi : a.init with
    | none => rfl
    | some init =>
      cases init with
      | caller => rfl
      | fallback => exact absurd hi hcaller

/-- Where the lookup at the cut-over version misses, the constructor runs once and first, and then
every entry of the array that is not null, once for each of its places and in their order; the
caller's `init` does not run. Where it is answered, the caller's `init` runs once, if there is one,
and nothing of the fallback does, whatever the start routine runs by itself. All are handed the
count of arguments as it was received, the arguments, and the environment behind them. -/
theorem run_initializes {r : Resolver} {self : SymbolAddress} {p : Plan}
    (hplan : (plan r self).value = .ok p) (entries : InitArray ρ) (s : Surroundings)
    (routines : SymbolAddress → Runtime ρ) (hroutine : CallsInit (routines p.routine))
    (a : StartArguments Init) (hcaller : a.init ≠ some .fallback) :
    let events := inner
      (run r self s (fun place => routines place (Init.events entries)) a .fallback).log
    (r .cutover = none → ∃ entryCalls : List (InitCall ρ),
      throughInit events =
        .fallbackInit :: .initializer .constructor :: entryCalls.map .initializer ∧
      entries.RunInOrder ⟨a.argc, a.argv, Loader.environment a.argc a.argv⟩ entryCalls) ∧
    ((r .cutover).isSome → throughInit events =
      if a.init.isSome then [.callerInit ⟨a.argc, a.argv, Loader.environment a.argc a.argv⟩]
      else []) := by
  intro events
  have hevents : throughInit events = callInit (Init.events entries) (handed p a .fallback) := by
    rw [← hroutine.throughInit_log]
    exact congrArg throughInit (inner_run_of_ok s _ a .fallback hplan)
  rw [callInit_handed hplan _ a hcaller] at hevents
  constructor
  · intro hmiss
    rw [hmiss] at hevents
    exact ⟨entries.calls a.forInit, hevents, InitArray.calls_runInOrder entries a.forInit⟩
  · intro hhit
    rw [if_pos hhit] at hevents
    exact hevents

/-- An array with null entries and an entry that stands in it twice. -/
def sparse : InitArray Nat := [none, some 1, none, some 2, some 1]

def negativeStart (init : Option Init) : StartArguments Init :=
  ⟨none, -3, some 0, init, none, none, 0⟩

/-- Before the cut-over, without an `init` of the caller's; and behind it, by a start routine that
walks the array itself. -/
theorem run_initializes_sparse :
    ((plan (Resolver.only .baseline ⟨0x1000, by decide⟩) ⟨0x9000, by decide⟩).value =
        .ok ⟨⟨0x1000, by decide⟩, .legacy, .fallback⟩ ∧
      CallsInit (conventional 5 : Runtime Nat) ∧
      Resolver.only .baseline ⟨0x1000, by decide⟩ .cutover = none ∧
      ∀ s : Surroundings, ∃ entryCalls : List (InitCall Nat),
        throughInit (inner (run (Resolver.only .baseline ⟨0x1000, by decide⟩)
            ⟨0x9000, by decide⟩ s (fun _ => conventional 5 (Init.events sparse))
            (negativeStart none) .fallback).log) =
          .fallbackInit :: .initializer .constructor :: entryCalls.map .initializer ∧
        sparse.RunInOrder ⟨-3, some 0, some 1⟩ entryCalls) ∧
    ((plan (Resolver.only .cutover ⟨0x1000, by decide⟩) ⟨0x9000, by decide⟩).value =
        .ok ⟨⟨0x1000, by decide⟩, .modern, .passThrough⟩ ∧
      CallsInit (selfWalking sparse 5) ∧
      (Resolver.only .cutover ⟨0x1000, by decide⟩ .cutover).isSome ∧
      ∀ s : Surroundings,
        throughInit (inner (run (Resolver.only .cutover ⟨0x1000, by decide⟩)
            ⟨0x9000, by decide⟩ s (fun _ => selfWalking sparse 5 (Init.events sparse))
            (negativeStart (some .caller)) .fallback).log) =
          [.callerInit ⟨-3, some 0, some 1⟩]) := by
  have hlegacy : (plan (Resolver.only .baseline ⟨0x1000, by decide⟩) ⟨0x9000, by decide⟩).value =
      .ok ⟨⟨0x1000, by decide⟩, .legacy, .fallback⟩ := rfl
  have hmodern : (plan (Resolver.only .cutover ⟨0x1000, by decide⟩) ⟨0x9000, by decide⟩).value =
      .ok ⟨⟨0x1000, by decide⟩, .modern, .passThrough⟩ := rfl
  have hmiss : Resolver.only .baseline ⟨0x1000, by decide⟩ .cutover = none := rfl
  have hhit : (Resolver.only .cutover ⟨0x1000, by decide⟩ .cutover).isSome := rfl
  refine ⟨⟨hlegacy, conventional_callsInit 5, hmiss, ?_⟩,
    ⟨hmodern, selfWalking_callsInit sparse 5, hhit, ?_⟩⟩
  · intro s
    exact (run_initializes hlegacy sparse s (fun _ => conventional 5) (conventional_callsInit 5)
      (negativeStart none) (by decide)).1 hmiss
  · intro s
    exact (run_initializes hmodern sparse s (fun _ => selfWalking sparse 5)
      (selfWalking_callsInit sparse 5) (negativeStart (some .caller)) (by decide)).2 hhit

/-- The initializer that an event runs, whoever runs it. -/
def Event.initCall? : Event ρ → Option (InitCall ρ)
  | .called _ => none
  | .callerInit _ => none
  | .fallbackInit => none
  | .initializer call => some call
  | .walked call => some call

theorem initCalls_map {kind : InitCall ρ → Event ρ} (h : ∀ call, (kind call).initCall? = some call)
    (calls : List (InitCall ρ)) : (calls.map kind).filterMap Event.initCall? = calls := by
  have hsome : Event.initCall? ∘ kind = some := funext h
  rw [List.filterMap_map, hsome]
  exact List.filterMap_some

/-- Whichever side of the cut-over a start is on: if the start routine walks the init array exactly
from there on, the constructor and every entry run once, in order. -/
theorem initCalls_run {r : Resolver} {self : SymbolAddress} {p : Plan}
    (hplan : (plan r self).value = .ok p) (entries : InitArray ρ) (s : Surroundings)
    (routines : SymbolAddress → Runtime ρ) (status : Int32)
    (hroutine : routines p.routine =
      if (r .cutover).isSome then selfWalking entries status else conventional status)
    (a : StartArguments Init) (hcaller : a.init ≠ some .fallback) :
    (inner (run r self s (fun place => routines place (Init.events entries)) a
      .fallback).log).filterMap Event.initCall? = entries.run true a.forInit := by
  have hcall := callInit_handed hplan (Init.events entries) a hcaller
  rw [inner_run_of_ok s _ a .fallback hplan, hroutine]
  cases hhit : (r .cutover).isSome with
  | false =>
    rw [hhit, if_neg Bool.false_ne_true] at hcall
    rw [if_neg Bool.false_ne_true, conventional, hcall]
    exact initCalls_map (fun _ => rfl) _
  | true =>
    -- The caller's `init` runs no initializer, so all that is counted is the walk.
    have hnone : (callInit (Init.events entries) (handed p a .fallback)).filterMap
        Event.initCall? = [] := by
      rw [hcall, if_pos hhit]
      cases a.init.isSome <;> rfl
    rw [if_pos rfl, selfWalking, List.filterMap_cons, List.filterMap_append, hnone,
      initCalls_map fun _ => rfl, List.append_nil]
    rfl

end ProcessStart.Launch
