import PagePress.Options

/-!
# Compile passes

A pass names the intermediate variables of all that it compiles from one counter, so no name is
given out twice. What a failed step has taken stays taken. The random numbers that a pass uses are
drawn from a supply; when it is used up the number of the build takes their place.

## Main results

* `run_freshVariable` — a fresh variable has the counter in its name and moves the counter by one.
-/

namespace PagePress

/-- The state of one compile pass. -/
structure Context where
  /-- The number of the next variable. -/
  nextVariable : Nat
  /-- The number of the whole pass. -/
  buildId : UInt32
  /-- Data sources that are read without their name. -/
  globalSources : List String
  /-- Random numbers to be used. -/
  salts : List UInt32 := []
deriving DecidableEq, Repr

/-- The context of a pass that has not compiled anything. -/
def Context.start (options : Options) (buildId : UInt32) (salts : List UInt32) : Context :=
  ⟨0, buildId, options.globalSources, salts⟩

/-- A step of a pass, which may fail. -/
abbrev Pass (ε : Type) := ExceptT ε (StateM Context)

namespace Pass

variable {ε ε' α : Type}

/-- What a step gives in a context, and the context after it. -/
def runIn (step : Pass ε α) (context : Context) : Except ε α × Context :=
  step.run.run context

/-- The step with its error seen as another. -/
def mapError (f : ε → ε') (step : Pass ε α) : Pass ε' α :=
  ExceptT.adapt f step

/-- A result without effects. -/
def ofExcept (result : Except ε α) : Pass ε α :=
  ExceptT.mk (pure result)

end Pass

/-! ## Names and numbers -/

/-- The variable of a number for an element. -/
def variableName (elementId : String) (number : Nat) : String :=
  "var_" ++ elementId ++ "_" ++ toString number

/-- A variable that has not been used in this pass. -/
def freshVariable {ε : Type} (elementId : String) : Pass ε String := do
  let context ← get
  set { context with nextVariable := context.nextVariable + 1 }
  return variableName elementId context.nextVariable

/-- The random numbers of cache busters are below this. -/
def saltLimit : UInt32 := 1000000

/-- A random number from the supply, or the number of the build when there is none left. -/
def drawSalt {ε : Type} : Pass ε UInt32 := do
  let context ← get
  match context.salts with
  | [] => return context.buildId
  | salt :: salts =>
    set { context with salts := salts }
    return salt % saltLimit

theorem run_freshVariable {ε : Type} (elementId : String) (context : Context) :
    (freshVariable (ε := ε) elementId).runIn context =
      (.ok (variableName elementId context.nextVariable),
        { context with nextVariable := context.nextVariable + 1 }) := rfl

end PagePress
