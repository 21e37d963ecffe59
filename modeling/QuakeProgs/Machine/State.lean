/-
  File:      QuakeProgs/Machine/State.lean
  Subject:   THE STATE OF A MACHINE: a loaded program and all that it can change.

  * `Config` -- limits and switches;
  * `Host` -- the surrounding simulation: what it answers, and what it was told, in order;
  * `Machine` -- program, strings, globals, entities, builtins, stacks and registers;
  * `Machine.new`, `Machine.replaceProgram` -- starting with an image, and starting over with another;
  * access for the host: named globals and fields, the clock, `self` and `other`.
-/
import QuakeProgs.Builtin.Registry
import QuakeProgs.CallStack
import QuakeProgs.Diagnostics.Report
import QuakeProgs.Image.Load
import QuakeProgs.Profile
import QuakeProgs.Random
import QuakeProgs.Symbols

namespace QuakeProgs

/-- Limits and switches of a machine. -/
structure Config where
  /-- The most nested calls. -/
  maxDepth : Nat := 1024
  /-- The words for saved locals. -/
  localWords : Nat := 16384
  /-- The statements one execution may run. -/
  budget : Nat := 0x01000000
  load : LoadOptions := {}
  /-- The slots of the table of builtins. -/
  maxBuiltins : Nat := 1024
  numbering : Numbering := .declared
  store : StoreConfig := {}
  /-- Images that may write to the world at any time. -/
  legacy : List Digest := []
  seed : UInt64 := 0
  trace : Bool := false
  diagnostics : DiagnosticsConfig := {}
  deriving DecidableEq, Inhabited

/-- What a machine tells its host. -/
inductive Event where
  /-- Console output. -/
  | print (text : String)
  /-- Output for developers. -/
  | dprint (text : String)
  /-- A console variable was asked for. -/
  | cvar (name : String)
  /-- An entity is about to be freed. -/
  | unlink (id : EdictId)
  /-- An execution was aborted. -/
  | report (text : String)
  /-- A statement is about to run. -/
  | trace (line : String)
  /-- A builtin of the host left a note. -/
  | note (text : String)
  deriving DecidableEq, Inhabited

/-- What a host without a console writes to its log: a level and the text without trailing blanks. -/
def Event.logLine? : Event → Option (String × String)
  | .print text => some ("INFO", Text.trimEnd text)
  | .dprint text => some ("DEBUG", Text.trimEnd text)
  | _ => none

/-- The surrounding simulation. -/
structure Host where
  /-- The values of its console variables. -/
  cvar : String → Option Single := fun _ => none
  /-- What it answers when it is asked for a console variable; the answer may hang on all it was told
      before. -/
  answer : Array Event → String → Option Single := fun _ => cvar
  /-- All it was told, in order. -/
  events : Array Event := #[]

/-- What a machine is doing. -/
inductive ExecState where
  | idle | running | aborted
  deriving DecidableEq, Inhabited

def ExecState.text : ExecState → String
  | .idle => "Idle" | .running => "Running" | .aborted => "Aborted"

/-- The phase of the simulation: while it loads, programs may write to the world. -/
inductive Phase where
  | loading | active
  deriving DecidableEq, Inhabited

def Phase.text : Phase → String
  | .loading => "Loading" | .active => "Active"

/-- A loaded program and its state. -/
structure Machine where
  config : Config
  program : Program
  strings : StringTable
  globals : GlobalBlock
  edicts : EdictStore
  hot : HotFields
  fieldCache : FieldCache
  registry : Registry
  builtins : BuiltinTable
  calls : CallStack
  locals : LocalStack
  host : Host
  state : ExecState
  phase : Phase
  /-- The image is one that may write to the world at any time. -/
  legacy : Bool
  /-- The function that runs, zero if none does. -/
  current : FuncRef
  /-- The statement that runs. -/
  statement : Nat
  /-- The arguments of the last call. -/
  argc : Nat
  tracing : Bool
  profile : Profile
  random : Random

namespace Machine

/-! ## 1. Starting with an image. -/

/-- The globals that tell a program where to find a builtin. -/
def published : List (String × String) :=
  [("EXT_CHECKEXTENSION", "checkextension"), ("EXT_BUILTIN_FIND", "builtin_find")]

/-- Writes the number of a builtin into the float that asks for it. -/
def publish (p : Program) (t : BuiltinTable) (g : GlobalBlock) (entry : String × String) :
    GlobalBlock :=
  match p.findGlobal? entry.1 with
  | none => g
  | some d =>
    if d.type ≠ .float then g
    else match g.setFloat d.ofs (.ofNat ((t.numberOf? entry.2).getD 0)) with
      | .ok g' => g'
      | .error _ => g

/-- What a start with an image and a start over with one have in common. It reads the program, the builtins and
    the configuration of the machine. -/
def install (m : Machine) : Machine :=
  { m with
    fieldCache := {}
    hot := .resolve m.program
    legacy := m.config.legacy.contains m.program.digest
    globals := published.foldl (publish m.program m.builtins) m.globals }

/-- A machine at rest with a fresh image. -/
def new (image : Image) (config : Config) (registry : Registry) : Machine :=
  let p := image.program
  install
    { config
      program := p
      strings := image.strings
      globals := image.globals
      edicts := .new p.entityFields config.store
      hot := {}
      fieldCache := {}
      registry
      builtins := .build registry p config.numbering config.maxBuiltins
      calls := { limit := config.maxDepth }
      locals := { capacity := config.localWords }
      host := {}
      state := .idle
      phase := .loading
      legacy := false
      current := 0
      statement := 0
      argc := 0
      tracing := config.trace
      profile := .new p.functions.size
      random := .ofSeed config.seed }

/-- Puts another image in place of the present one: the parts that depend on the image are made anew and the
    stacks are emptied. The host, the trace switch and the random source stay. -/
def replaceProgram (m : Machine) (image : Image) : Except Error Machine :=
  if m.state = .running then
    .error (Cause.internal "cannot replace the program while executing")
  else
    let p := image.program
    .ok <| install
      { m with
        program := p
        strings := image.strings
        globals := image.globals
        edicts := .new p.entityFields m.config.store
        builtins := .build m.registry p m.config.numbering m.config.maxBuiltins
        profile := .new p.functions.size
        calls := m.calls.clear
        locals := m.locals.clear
        state := .idle
        phase := .loading
        current := 0
        statement := 0
        argc := 0 }

/-! ## 2. Access for the host. -/

/-- What diagnostics read from. -/
def view (m : Machine) : View := { program := m.program, strings := m.strings, globals := m.globals }

/-- Tells the host something. -/
def tell (m : Machine) (e : Event) : Machine :=
  { m with host := { m.host with events := m.host.events.push e } }

def time (m : Machine) : Single := (m.globals.float Global.time).toOption.getD .zero

def selfEdict (m : Machine) : EdictId := (m.globals.get Global.self).toOption.getD 0

/-- The value of a named global. -/
def global (m : Machine) (name : String) : Except Error Value :=
  match m.program.findGlobal? name with
  | some d => m.globals.value d.ofs d.type
  | none => .error (Cause.missingSymbol name)

/-- The call chain, innermost first; levels without a function are left out. -/
def stackFrames (m : Machine) : List StackFrame :=
  let outer := m.calls.frames.toList.reverse.map fun f => StackFrame.mk f.function f.statement
  (StackFrame.mk m.current m.statement :: outer).filter (·.function ≠ 0)

/-- A machine at a glance. -/
def summary (m : Machine) : String :=
  "Vm \x7b state: " ++ m.state.text ++ ", sim: " ++ m.phase.text ++
    s!", depth: {m.calls.depth}, functions: {m.program.functions.size}" ++
    s!", edicts: {m.edicts.inUse}, .. \x7d"

end Machine

end QuakeProgs
