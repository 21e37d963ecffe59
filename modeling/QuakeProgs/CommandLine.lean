/-
  File:      QuakeProgs/CommandLine.lean
  Subject:   THE COMMAND LINE: options, and what they make a session do.

  * `Options.parse` -- the arguments, the first fault being the answer;
  * `CommandLine.run` -- loads an image, lists its tables, runs functions and saves the state; what
    was printed before a failure stays printed.
-/
import QuakeProgs.Session

namespace QuakeProgs

/-- What the arguments ask for. -/
structure Options where
  image : Option String := none
  help : Bool := false
  version : Bool := false
  functions : Bool := false
  globals : Bool := false
  fields : Bool := false
  disassemble : List String := []
  run : List String := []
  time : Option Single := none
  active : Bool := false
  trace : Bool := false
  profile : Option Nat := none
  ownNumbers : Bool := false
  maxEdicts : Option Nat := none
  seed : Option Nat := none
  dumpEdicts : Bool := false
  save : Option String := none
  restore : Option String := none
  deriving DecidableEq, Inhabited

namespace Options

/-! ## 1. Arguments. -/

/-- A number of at most 64 bits: decimal digits, perhaps after a plus sign. -/
def count? (s : String) : Option Nat :=
  let digits := match s.toList with
    | '+' :: r => r
    | r => r
  let n := Single.digitsValue digits
  if digits.isEmpty ∨ ¬ digits.all Char.isDigit ∨ n ≥ 0x10000000000000000 then none else some n

/-- An option that stands alone. -/
def switch? (o : Options) : String → Option Options
  | "-h" | "--help" => some { o with help := true }
  | "-V" | "--version" => some { o with version := true }
  | "--functions" => some { o with functions := true }
  | "--globals" => some { o with globals := true }
  | "--fields" => some { o with fields := true }
  | "--active" => some { o with active := true }
  | "--trace" => some { o with trace := true }
  | "--profile" => some { o with profile := some 10 }
  | "--no-remap" => some { o with ownNumbers := true }
  | "--dump-edicts" => some { o with dumpEdicts := true }
  | _ => none

/-- An option that takes a value: what it does with it, unless the value is no good. -/
def valued? (o : Options) : String → Option (String → Option Options)
  | "--disasm" => some fun v => some { o with disassemble := o.disassemble ++ [v] }
  | "--run" => some fun v => some { o with run := o.run ++ [v] }
  | "--time" => some fun v => (Single.ofDecimal? v).map fun t => { o with time := some t }
  | "--profile-top" => some fun v => (count? v).map fun n => { o with profile := some n }
  | "--max-edicts" => some fun v => (count? v).map fun n => { o with maxEdicts := some n }
  | "--seed" => some fun v => (count? v).map fun n => { o with seed := some n }
  | "--save" => some fun v => some { o with save := some v }
  | "--restore" => some fun v => some { o with restore := some v }
  | _ => none

/-- Takes arguments one after the other. -/
def take : List String → Options → Except String Options
  | [], o => .ok o
  | arg :: rest, o =>
    match o.switch? arg, o.valued? arg with
    | some o', _ => take rest o'
    | none, some set =>
      match rest with
      | [] => .error s!"{arg} requires a value"
      | v :: rest =>
        match set v with
        | some o' => take rest o'
        | none => .error s!"invalid {arg} value: {v}"
    | none, none =>
      if arg.startsWith "-" then .error s!"unknown option: {arg}"
      else if o.image.isSome then .error "only one program image may be given"
      else take rest { o with image := some arg }

def parse (args : List String) : Except String Options := take args {}

/-- The configuration of the machine. -/
def config (o : Options) : Config :=
  let base : Config := { trace := o.trace }
  { base with
    numbering := if o.ownNumbers then .own else base.numbering
    seed := match o.seed with
      | some n => n.toUInt64
      | none => base.seed
    store := match o.maxEdicts with
      | some max => { base.store with initial := Nat.min base.store.initial max, max }
      | none => base.store }

end Options

/-! ## 2. Running. -/

/-- Files and a screen. -/
structure Terminal (m : Type → Type) extends Files m where
  print : String → m Unit

namespace CommandLine

def helpText : String :=
  "\x1b[1mqcvm\x1b[0m - QuakeC progs inspector and runner\n\n" ++
  "\x1b[1mUSAGE:\x1b[0m\n    qcvm [OPTIONS] [PROGS]\n\n" ++
  "\x1b[1mARGUMENTS:\x1b[0m\n" ++
  "    [PROGS]    Program image to load (default: progs.dat)\n\n" ++
  "\x1b[1mOPTIONS:\x1b[0m\n" ++
  "    -h, --help           Print help information\n" ++
  "    -V, --version        Print version information\n\n" ++
  "\x1b[1mINSPECTION:\x1b[0m\n" ++
  "    --functions          List functions and builtin bindings\n" ++
  "    --globals            List global definitions with values\n" ++
  "    --fields             List entity fields\n" ++
  "    --disasm NAME        Disassemble a function (repeatable)\n\n" ++
  "\x1b[1mEXECUTION:\x1b[0m\n" ++
  "    --run NAME           Run a function (repeatable, in order)\n" ++
  "    --time T             Set the time global before running\n" ++
  "    --active             Run with the world entity read-only\n" ++
  "    --trace              Log every executed statement\n" ++
  "    --profile            Print the 10 busiest functions\n" ++
  "    --profile-top N      Print the N busiest functions\n" ++
  "    --no-remap           Keep compiled-in builtin numbers\n" ++
  "    --max-edicts N       Limit the number of entities\n" ++
  "    --seed N             Seed for the random builtin\n\n" ++
  "\x1b[1mSTATE:\x1b[0m\n" ++
  "    --dump-edicts        Dump every live entity after running\n" ++
  "    --save PATH          Save a snapshot after running\n" ++
  "    --restore PATH       Restore a snapshot before running\n\n" ++
  "\x1b[1mEXAMPLES:\x1b[0m\n" ++
  "    qcvm --functions progs.dat\n" ++
  "    qcvm --disasm worldspawn progs.dat\n" ++
  "    qcvm --run main --profile progs.dat\n" ++
  "    qcvm --run worldspawn --save start.sav progs.dat\n\n" ++
  "Set RUST_LOG to change the log filter (default: info).\n"

def versionText : String := "qcvm 0.1.0\n"

/-- A failure as it is shown on the error channel. -/
def errorText (message : String) : String := s!"\x1b[31mError: {message}\x1b[0m\n"

/-- Lines under a heading, and an empty line. -/
def sectionText (title : String) (lines : List String) : String :=
  s!"\x1b[1;36m=== {title} ===\x1b[0m\n" ++ String.join (lines.map (· ++ "\n")) ++ "\n"

variable {m : Type → Type} [Monad m]

/-- A step that ends the command with its message if it fails. -/
def orFail (act : m (Except Error α)) : ExceptT String m α := ExceptT.mk do
  match ← act with
  | .ok a => return .ok a
  | .error e => return .error e.message

/-- Acts on the machine of a session. -/
def perform (s : Session) (act : (Native → Engine Unit) → Engine Unit) : Except Error Session :=
  match s.perform act with
  | (.ok (), s') => .ok s'
  | (.error e, _) => .error e

/-- Lists what the options ask to see before anything runs. -/
def inspect (t : Terminal m) (o : Options) (s : Session) : ExceptT String m Unit := do
  let list (wanted : Bool) (title : String) (lines : List String) : ExceptT String m Unit :=
    if wanted then ExceptT.lift (t.print (sectionText title lines)) else pure ()
  list o.functions "Functions" s.machine.functionListing
  list o.globals "Globals" s.machine.globalListing
  list o.fields "Fields" s.machine.fieldListing
  for name in o.disassemble do
    list true name (← orFail (pure (s.machine.disassemblyOf name)))

/-- Runs what the options ask to run, in order. -/
def execute (o : Options) (s : Session) : ExceptT String m Session := do
  let mut s := s
  if let some time := o.time then
    s ← orFail (pure (perform s fun _ => Engine.setFloat Global.time time))
  if o.active then
    s := { s with machine := { s.machine with phase := .active } }
  for name in o.run do
    s ← orFail (pure (perform s fun dispatch => Engine.runNamed dispatch name))
  return s

/-- Does what the arguments say; a failure is a message. -/
def run (t : Terminal m) (args : List String) : ExceptT String m Unit := do
  let o ← ExceptT.mk (pure (Options.parse args))
  if o.help then ExceptT.lift (t.print helpText)
  else if o.version then ExceptT.lift (t.print versionText)
  else
    let mut s ← orFail (Session.openFile t.toFiles (o.image.getD "progs.dat") o.config)
    if let some saved := o.restore then
      s ← orFail (s.restoreFrom t.toFiles saved)
    inspect t o s
    s ← execute o s
    if let some most := o.profile then
      ExceptT.lift (t.print (sectionText "Profile (statements, calls)" (s.machine.profileListing most)))
    if o.dumpEdicts then
      ExceptT.lift (t.print (sectionText "Edicts" s.machine.edictListing))
    if let some out := o.save then
      orFail (s.save t.toFiles out)

end CommandLine

end QuakeProgs
