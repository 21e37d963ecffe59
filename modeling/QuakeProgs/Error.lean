/-
  File:      QuakeProgs/Error.lean
  Subject:   WHAT CAN GO WRONG: causes, their tiers, their wording, and the context of an abort.

  * `Cause` -- one constructor a cause, with the numbers its message shows;
  * `Cause.tier` -- whether loading, running or the surrounding host failed;
  * `Cause.name`, `Cause.message` -- the wording, in this one place;
  * `Context` -- the statement, the call chain and the entity an aborted run leaves behind;
  * `Error` -- a cause, and the context once a run has reported it.
-/
import QuakeProgs.Word

namespace QuakeProgs

/-- Which part of the system an error belongs to. -/
inductive Tier where
  | load | execution | host
  deriving DecidableEq

def Tier.name : Tier → String
  | .load => "Load" | .execution => "Execution" | .host => "Host"

/-- Why something failed. -/
inductive Cause where
  | versionMismatch (expected found : Int)
  | headerCorrupt (expected found : Int)
  | truncated (what : String) (start stop len : Nat)
  | malformed (what : String)
  | badOpcode (opcode statement : Nat)
  | badBranch (statement : Nat) (target : Int) (count : Nat)
  | missingSymbol (name : String)
  | nullFunctionCall
  | functionOutOfRange (index count : Nat)
  | stackOverflow (limit : Nat)
  | stackUnderflow
  | localStackOverflow (requested used capacity : Nat)
  | localStackUnderflow
  | badBuiltin (number : Nat)
  | worldWrite
  | runawayLoop (budget : Nat)
  | badGlobal (offset len : Nat)
  | badField (offset len : Nat)
  | badEdict (index count : Nat)
  | badPointer (ptr : Nat)
  | badString (ref : Int)
  | stringTableFull (capacity : Nat)
  | noFreeEdicts (limit : Nat)
  | programError (text : String)
  | io (text : String)
  | serialization (text : String)
  | internal (text : String)
  deriving DecidableEq, Inhabited

namespace Cause

def tier : Cause → Tier
  | .versionMismatch .. | .headerCorrupt .. | .truncated .. | .malformed _ | .badOpcode ..
  | .badBranch .. | .missingSymbol _ => .load
  | .io _ | .serialization _ => .host
  | _ => .execution

/-- The name of a cause, for hosts that tell causes apart by name. -/
def name : Cause → String
  | .versionMismatch .. => "VersionMismatch"
  | .headerCorrupt .. => "HeaderCorrupt"
  | .truncated .. => "Truncated"
  | .malformed _ => "Malformed"
  | .badOpcode .. => "BadOpcode"
  | .badBranch .. => "BadBranch"
  | .missingSymbol _ => "MissingSymbol"
  | .nullFunctionCall => "NullFunctionCall"
  | .functionOutOfRange .. => "FunctionIndexOutOfRange"
  | .stackOverflow _ => "StackOverflow"
  | .stackUnderflow => "StackUnderflow"
  | .localStackOverflow .. => "LocalStackOverflow"
  | .localStackUnderflow => "LocalStackUnderflow"
  | .badBuiltin _ => "BadBuiltin"
  | .worldWrite => "WorldWriteViolation"
  | .runawayLoop _ => "RunawayLoop"
  | .badGlobal .. => "BadGlobal"
  | .badField .. => "BadField"
  | .badEdict .. => "BadEdict"
  | .badPointer _ => "BadPointer"
  | .badString _ => "BadString"
  | .stringTableFull _ => "StringTableFull"
  | .noFreeEdicts _ => "NoFreeEdicts"
  | .programError _ => "ProgramError"
  | .io _ => "Io"
  | .serialization _ => "Serialization"
  | .internal _ => "Internal"

/-- The wording of a cause. -/
def message : Cause → String
  | .versionMismatch expected found =>
    s!"wrong version number: expected {expected}, found {found}"
  | .headerCorrupt expected found =>
    s!"system vars have been modified (header crc {found}, expected {expected})"
  | .truncated what start stop len =>
    s!"image truncated: {what} needs bytes {start}..{stop} but image is {len} bytes"
  | .malformed what => s!"malformed program: {what}"
  | .badOpcode opcode statement => s!"bad opcode {opcode} at statement {statement}"
  | .badBranch statement target count =>
    s!"branch at statement {statement} targets {target}, outside 0..{count}"
  | .missingSymbol name => s!"missing required symbol: {name}"
  | .nullFunctionCall => "NULL function"
  | .functionOutOfRange index count => s!"function {index} out of range (program has {count})"
  | .stackOverflow limit => s!"stack overflow (depth limit {limit})"
  | .stackUnderflow => "prog stack underflow"
  | .localStackOverflow requested used capacity =>
    s!"locals stack overflow ({requested} words requested, {used}/{capacity} in use)"
  | .localStackUnderflow => "locals stack underflow"
  | .badBuiltin number => s!"bad builtin call number {number}"
  | .worldWrite => "assignment to world entity"
  | .runawayLoop budget => s!"runaway loop error (budget {budget} statements)"
  | .badGlobal offset len => s!"global offset {offset} outside block of {len} words"
  | .badField offset len => s!"field offset {offset} outside {len} field words"
  | .badEdict index count => s!"edict {index} out of range (store has {count})"
  | .badPointer ptr => s!"bad pointer {ptr}"
  | .badString ref => s!"bad string reference {ref}"
  | .stringTableFull capacity => s!"string table full ({capacity} bytes)"
  | .noFreeEdicts limit => s!"no free edicts (limit {limit})"
  | .programError text => s!"program error: {text}"
  | .io text => s!"io error: {text}"
  | .serialization text => s!"serialization error: {text}"
  | .internal text => s!"internal error: {text}"

end Cause

/-- Where a run stood when it was aborted. -/
structure Context where
  /-- The statement that failed, disassembled. -/
  statement : Option String := none
  /-- The call chain, innermost first. -/
  stack : List String := []
  /-- The fields of the entity concerned. -/
  edict : Option String := none
  deriving DecidableEq, Inhabited

/-- The context line by line; the entity's text brings its own line ends. -/
def Context.text (c : Context) : String :=
  let statement := match c.statement with
    | some s => s ++ "\n"
    | none => ""
  let stack :=
    if c.stack.isEmpty then "<NO STACK>\n"
    else String.join (c.stack.map fun frame => "  " ++ frame ++ "\n")
  statement ++ stack ++ c.edict.getD ""

/-- An error on its way to the host. -/
structure Error where
  cause : Cause
  context : Option Context := none
  deriving DecidableEq, Inhabited

namespace Error

instance : Coe Cause Error := ⟨fun c => { cause := c }⟩

def message (e : Error) : String := e.cause.message

/-- An error that carries its context has been reported, and is not reported again. -/
def isReported (e : Error) : Bool := e.context.isSome

def withContext (e : Error) (c : Context) : Error := { e with context := some c }

/-- The report a host receives: the context, then the message. -/
def report (e : Error) : String := (e.context.getD {}).text ++ e.message

end Error

end QuakeProgs
