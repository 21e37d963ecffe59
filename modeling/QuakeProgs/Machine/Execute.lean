/-
  File:      QuakeProgs/Machine/Execute.lean
  Subject:   RUNNING A FUNCTION to its end, or aborting it.

  * `Engine.loop` -- statement after statement, at most as many as the budget allows, until the call
    stack is back at the depth the run started from;
  * `Engine.execute` -- a run that failed is reported once, by the innermost execution, and leaves
    both stacks empty;
  * `Routine` -- what a builtin of the host does: actions, and executions whose outcome it sees, as many and
    in such an order as it makes of the machine in between;
  * `Dispatch.link` -- the code behind every builtin, executions nested up to a bound.
-/
import QuakeProgs.Builtin.Core
import QuakeProgs.Machine.Step

namespace QuakeProgs

namespace Engine

/-- Runs an action and hands its failure over as a value; what the action changed stays. -/
def attempt (act : Engine α) : Engine (Except Error α) := fun m =>
  match act m with
  | .ok a m' => .ok (.ok a) m'
  | .error e m' => .ok (.error e) m'

/-! ## 1. The loop. -/

/-- The statement at `pc`; behind the last one there is none. -/
def fetch (pc : Nat) : Engine Statement := do
  match (← get).program.statements[pc]? with
  | some st => return st
  | none => fail (.internal s!"statement {pc} out of range")

/-- Tells the host which statement is about to run, if it wants to know. -/
def trace (pc : Nat) : Engine Unit :=
  modify fun m => if m.tracing then m.tell (.trace (m.view.disassemble pc)) else m

/-- Fetches the statement at `pc`, counts it and runs it. -/
def cycle (dispatch : Native → Engine Unit) (pc : Nat) : Engine Flow := do
  let st ← fetch pc
  trace pc
  modify fun m => { m with profile := m.profile.statement m.current }
  step dispatch pc st

/-- Runs from `pc` on until a return brings the call stack to depth `exit`. The first number is what
    is left of the budget. -/
def loop (dispatch : Native → Engine Unit) (budget exit : Nat) : Nat → Nat → Engine Unit
  | 0, pc => do
    modify fun m => { m with statement := pc }
    fail (.runawayLoop budget)
  | remaining + 1, pc => do
    modify fun m => { m with statement := pc }
    match ← cycle dispatch pc with
    | .next => loop dispatch budget exit remaining (pc + 1)
    | .jump target => loop dispatch budget exit remaining target
    | .returned caller =>
      if (← get).calls.depth = exit then return
      else loop dispatch budget exit remaining (caller + 1)

/-- Runs a function to its end. -/
def run (dispatch : Native → Engine Unit) (f : FuncRef) : Engine Unit := do
  let func ← function f
  match func.builtinNumber? with
  | some number => callBuiltin dispatch number f
  | none =>
    let m ← get
    let entry ← enter f
    loop dispatch m.config.budget m.calls.depth m.config.budget entry

/-! ## 2. Aborting. -/

/-- Whether a report shows the fields of `self`: when there was no function to call. -/
def concernsSelf : Cause → Bool
  | .nullFunctionCall | .functionOutOfRange .. => true
  | _ => false

/-- Adds the context to an error that has none, and tells the host. -/
def report (e : Error) : Engine Error := do
  if e.isReported then return e
  else
    let m ← get
    let edict := if m.config.diagnostics.dumpSelf && concernsSelf e.cause then some m.selfEdict else none
    let statement := if m.current = 0 then none else some m.statement
    let context := m.view.capture m.config.diagnostics statement m.stackFrames m.edicts edict
    let e := e.withContext context
    tell (.report e.report)
    return e

/-- Empties both stacks. -/
def unwind : Engine Unit :=
  modify fun m => { m with calls := m.calls.clear, locals := m.locals.clear, current := 0, state := .aborted }

/-- Runs a function to its end, or aborts it. -/
def execute (dispatch : Native → Engine Unit) (f : FuncRef) : Engine Unit := do
  let outer := (← get).state
  modify fun m => { m with state := .running }
  match ← attempt (run dispatch f) with
  | .ok () => modify fun m => { m with state := if outer = .running then .running else .idle }
  | .error e =>
    let e ← report e
    unwind
    throw e

/-- The number of a named function. -/
def functionNamed (name : String) : Engine FuncRef := do
  match (← get).program.findFunction? name with
  | some f => return f
  | none => fail (.missingSymbol name)

end Engine

/-! ## 3. Builtins of the host. -/

/-- What a builtin of the host does. What comes next may depend on the machine and on every outcome so far. A
    builtin that loops is, for each of its calls that ends, the routine that takes no more turns than this call. -/
inductive Routine where
  /-- Acts, and is done. -/
  | finish (act : Engine Unit)
  /-- Executes the function that `target` finds, and goes on with the outcome. -/
  | exec (target : Engine FuncRef) (next : Except Error Unit → Routine)
  /-- Looks at the machine, and goes on as it finds it. -/
  | look (next : Machine → Routine)

namespace Routine

instance : Inhabited Routine := ⟨.finish (pure ())⟩

/-- Runs a routine on top of a way to execute functions. -/
def run (execute : FuncRef → Engine Unit) : Routine → Engine Unit
  | .finish act => act
  | .exec target next => do
    let f ← target
    let outcome ← Engine.attempt (execute f)
    (next outcome).run execute
  | .look next => do (next (← get)).run execute

/-- Hands the outcome of an execution on. -/
def propagate : Except Error Unit → Routine
  | .ok () => .finish (pure ())
  | .error e => .finish (throw e)

end Routine

namespace Dispatch

/-- How many executions may be nested in one another. -/
def maxNesting : Nat := 0x10000

/-- The code behind every builtin, `routines` giving those of the host. -/
def link (routines : Nat → Routine) : (nesting : Nat) → Native → Engine Unit
  | _, .core b => Engine.core b
  | 0, .hosted _ => Engine.fail (.internal "executions nested too deeply")
  | nesting + 1, .hosted key => (routines key).run (Engine.execute (link routines nesting))

end Dispatch

end QuakeProgs
