/-
  File:      QuakeProgs/Session.lean
  Subject:   A SESSION: a machine under a name, and the chores of a simple host.

  * `Engine.runNamed`, `Engine.think`, `Engine.runFrame` -- entry points, thinks, and all thinks that
    are due at a time;
  * `Machine.functionListing`, `.globalListing`, `.fieldListing`, `.edictListing` -- tables as text;
  * `Session.openFile`, `Session.load` -- from a file or a source;
  * `Session.save`, `Session.restoreFrom` -- snapshots in files.
-/
import QuakeProgs.Machine.Execute
import QuakeProgs.Snapshot
import QuakeProgs.Source

namespace QuakeProgs

/-! ## 1. Running. -/

namespace Engine

/-- Makes an entity `self`, and the world `other`. -/
def setSelf (id : EdictId) : Engine Unit := do
  setWord Global.self id
  setWord Global.other 0

/-- Runs a named function with the world as `self`. -/
def runNamed (dispatch : Native → Engine Unit) (name : String) : Engine Unit := do
  setSelf 0
  execute dispatch (← functionNamed name)

/-- Runs the think function of an entity, if it has one. -/
def think (dispatch : Native → Engine Unit) (id : EdictId) : Engine Bool := do
  match (← get).hot.think with
  | none => return false
  | some ofs =>
    let f ← reads fun m => do (← m.edicts.get id).word ofs
    if f = 0 then return false
    else
      setSelf id
      execute dispatch f
      return true

/-- Whether an entity wants to think: at a time after zero that has come. -/
def isDue (time : Single) (nextthink : Nat) (e : Edict) : Bool :=
  match e.float nextthink with
  | .ok next => Single.zero.lt next && next.le time
  | .error _ => false

/-- Lets entities think one after the other, those apart that were freed meanwhile, and counts the
    thinks. The time of an entity's next think is cleared before it thinks. -/
def runDue (dispatch : Native → Engine Unit) (nextthink : Nat) : List Nat → (ran : Nat) → Engine Nat
  | [], ran => return ran
  | i :: rest, ran => do
    let id := i.toUInt32
    if (← edict id).free then runDue dispatch nextthink rest ran
    else
      writeField id nextthink [0]
      if ← think dispatch id then runDue dispatch nextthink rest (ran + 1)
      else runDue dispatch nextthink rest ran

/-- Sets the clock and lets every entity think that is due; gives the number of thinks. -/
def runFrame (dispatch : Native → Engine Unit) (time : Single) : Engine Nat := do
  setFloat Global.time time
  let m ← get
  match m.hot.nextthink with
  | none => return 0
  | some ofs =>
    let due := (m.edicts.liveEdicts.filter fun (_, e) => isDue time ofs e).map (·.1)
    runDue dispatch ofs due 0

end Engine

/-! ## 2. Listings. -/

namespace Machine

def functionLine (m : Machine) (f : Function) (i : Nat) : String :=
  let start := s!"{Text.padLeft 5 (toString i)} {Text.padRight 24 f.name} "
  match f.builtinNumber? with
  | some n =>
    let bound := match m.builtins.nameOf? n with
      | some name => s!"-> {name}"
      | none => "unbound"
    start ++ s!"builtin #{n} {bound}"
  | none =>
    start ++ s!"{Text.padRight 16 f.file} statement {f.firstStatement}" ++
      s!" parms {f.parmCount} locals {f.locals}"

/-- One line for each function: number, name, file and where it starts. -/
def functionListing (m : Machine) : List String :=
  (m.program.functions.toList.zipIdx.drop 1).map fun (f, i) => m.functionLine f i

def defLine (d : Def) : String := s!"{Text.padLeft 5 (toString d.ofs)} {Text.padRight 8 d.type.name} "

/-- One line for each named global that is no constant, with its value. -/
def globalListing (m : Machine) : List String :=
  let named := m.program.globalDefs.toList.filter fun d => d.name ≠ "" ∧ d.name ≠ "IMMEDIATE"
  named.map fun d =>
    let value := m.view.valueText d.type (m.view.wordsAt d.ofs d.type.words)
    defLine d ++ s!"{Text.padRight 24 d.name} {value}" ++ if d.save then " save" else ""

/-- One line for each named field. -/
def fieldListing (m : Machine) : List String :=
  (m.program.fieldDefs.toList.filter (·.name ≠ "")).map fun d => defLine d ++ s!".{d.name}"

/-- The statements of a named function. -/
def disassemblyOf (m : Machine) (name : String) : Except Error (List String) :=
  match m.program.findFunction? name with
  | some f => .ok (m.view.disassembleFunction f)
  | none => .error (Cause.missingSymbol name)

/-- The fields of every live entity. -/
def edictListing (m : Machine) : List String :=
  m.edicts.liveEdicts.map fun (i, e) => m.view.dump i e

/-- The busiest functions: statements, calls and name. -/
def profileListing (m : Machine) (most : Nat) : List String :=
  (m.profile.top m.program most).map fun e =>
    s!"{Text.padLeft 10 (toString e.statements)} {Text.padLeft 8 (toString e.calls)} {e.name}"

end Machine

/-! ## 3. Sessions. -/

/-- A machine under the name of its image, and the builtins of its host. -/
structure Session where
  name : String
  machine : Machine
  routines : Nat → Routine := fun _ => default

namespace Session

/-- Acts on the machine; what was changed before a failure stays. -/
def perform (s : Session) (act : (Native → Engine Unit) → Engine α) : Except Error α × Session :=
  match act (Dispatch.link s.routines Dispatch.maxNesting) s.machine with
  | .ok a m => (.ok a, { s with machine := m })
  | .error e m => (.error e, { s with machine := m })

/-- A session from the bytes of an image. -/
def ofBytes (name : String) (config : Config) (registry : Registry) (bytes : Bytes) :
    Except Error Session := do
  let image ← Image.load bytes config.load
  return { name, machine := .new image config registry }

variable {m : Type → Type} [Monad m]

/-- Loads an image, or its replacement, from a source. -/
def load (source : Source m) (name : String) (replacement : Option String) (config : Config) :
    m (Except Error Session) := do
  match ← source.fetchFirst name replacement with
  | .ok bytes => return ofBytes name config .core bytes
  | .error e => return .error e

/-- Loads the image in a file. -/
def openFile (files : Files m) (path : String) (config : Config) : m (Except Error Session) := do
  match Path.fileName? path with
  | none => return .error (Cause.io s!"not a file name: {path}")
  | some name => load (.directory files (Path.parent path)) name none config

/-- Saves the state of the machine in a file. -/
def save (s : Session) (files : Files m) (path : String) : m (Except Error Unit) := do
  match ← files.create path (Snapshot.capture s.machine).encode with
  | .ok () => return .ok ()
  | .error fault => return .error (Cause.io s!"failed to create file '{path}': {fault.text}")

/-- A snapshot from a file. A directory can be opened but not read. -/
def readSnapshot (files : Files m) (path : String) : m (Except Error Snapshot) := do
  match ← files.read path with
  | .ok bytes => return Snapshot.decode bytes
  | .error fault =>
    let verb := if fault = .isDirectory then "read" else "open"
    return .error (Cause.io s!"failed to {verb} file '{path}': {fault.text}")

/-- Restores a snapshot. -/
def restore (s : Session) (snapshot : Snapshot) : Except Error Session := do
  return { s with machine := ← snapshot.apply s.machine }

/-- Restores the state saved in a file. -/
def restoreFrom (s : Session) (files : Files m) (path : String) : m (Except Error Session) := do
  match ← readSnapshot files path with
  | .ok snapshot => return s.restore snapshot
  | .error e => return .error e

end Session

end QuakeProgs
