import ProcessStart.Launch

/-!
Start routines that do what the C runtime does with `init`: they call it once,
if it is there, with the arguments and the environment that follows them. The
`init` handed over is the caller's, or the fallback that runs the program's
constructor and init array. What an `init` runs is told apart from what a start
routine runs by itself.
-/
namespace ProcessStart.Launch

/-- Where an `init` comes from. -/
inductive Init where
  | caller
  | fallback
  deriving DecidableEq, Repr

inductive Event (ρ : Type) where
  | called (arguments : StartArguments Init)
  | callerInit (arguments : InitArguments)
  | fallbackInit
  /-- Run by the fallback. -/
  | initializer (call : InitCall ρ)
  /-- Run by the start routine itself. -/
  | walked (call : InitCall ρ)

variable {ρ : Type}

/-- What an `init` does, the fallback with this init array. -/
def Init.events (entries : InitArray ρ) : Init → InitArguments → List (Event ρ)
  | .caller, arguments => [.callerInit arguments]
  | .fallback, arguments => .fallbackInit :: (entries.run true arguments).map .initializer

/-- A start routine, given what each `init` does. -/
abbrev Runtime (ρ : Type) := (Init → InitArguments → List (Event ρ)) → StartRoutine Init (Event ρ)

/-- One call of `init`, if there is one. -/
def callInit (does : Init → InitArguments → List (Event ρ)) (a : StartArguments Init) :
    List (Event ρ) :=
  match a.init with
  | none => []
  | some init => does init a.forInit

/-- Notes the call, runs `init`, and returns a status. -/
def conventional (status : Int32) : Runtime ρ := fun does a =>
  ⟨status, .called a :: callInit does a⟩

/-- From the cut-over on, a start routine runs the constructor and the init array by itself, before
`init`. -/
def selfWalking (entries : InitArray ρ) (status : Int32) : Runtime ρ := fun does a =>
  ⟨status, .called a :: ((entries.run true a.forInit).map .walked ++ callInit does a)⟩

end ProcessStart.Launch
