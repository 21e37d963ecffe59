/-
  File:      QuakeProgs/Diagnostics/Report.lean
  Subject:   WHAT AN ABORT LEAVES TO READ: the fields of an entity, the call chain, the statement.

  * `View.dump` -- the fields of an entity that are not zero;
  * `View.stackText` -- the call chain, innermost first;
  * `View.capture` -- the context of an abort, as far as the configuration asks for it.

  Nothing here fails: what is missing is shown as a placeholder or left out.
-/
import QuakeProgs.Diagnostics.Disassembly
import QuakeProgs.EdictStore

namespace QuakeProgs

/-- What an abort report holds. -/
structure DiagnosticsConfig where
  /-- Show the statement that failed. -/
  disassemble : Bool := true
  /-- Show `self` when no function could be called. -/
  dumpSelf : Bool := true
  /-- The most frames shown. -/
  maxFrames : Nat := 64
  deriving DecidableEq, Inhabited

/-- Only the message and a short call chain. -/
def DiagnosticsConfig.minimal : DiagnosticsConfig :=
  { disassemble := false, dumpSelf := false, maxFrames := 16 }

/-- A level of the call chain: a function and the statement it stands at. -/
structure StackFrame where
  function : FuncRef
  statement : Nat
  deriving DecidableEq, Inhabited

/-- A name for one component of a vector, such as `origin_x`. -/
def isComponentName (name : String) : Bool :=
  name.utf8ByteSize > 2 && (name.endsWith "_x" || name.endsWith "_y" || name.endsWith "_z")

namespace View

/-- One line for a field that is named, not void, no component of a vector, and not zero. -/
def dumpLine (v : View) (e : Edict) (d : Def) : String :=
  if d.name = "" || d.type = .void || isComponentName d.name then ""
  else match e.words d.ofs d.type.words with
    | .error _ => ""
    | .ok words =>
      if words.all (· = 0) then ""
      else s!"{Text.padLeft 15 d.name} {v.valueText d.type words.toList}\n"

/-- The fields of an entity that are not zero, one a line. -/
def dump (v : View) (number : Nat) (e : Edict) : String :=
  s!"EDICT {number}:\n" ++
    if e.free then "FREE\n" else String.join (v.program.fieldDefs.toList.map (v.dumpLine e))

/-- One level of the call chain; the statement is counted from the function's entry. -/
def frameText (v : View) (frame : StackFrame) : String :=
  match v.program.function? frame.function with
  | some f =>
    if frame.function = 0 then "<NO FUNCTION>"
    else
      let relative := match f.codeStart? with
        | some entry => frame.statement - entry
        | none => frame.statement
      s!"{Text.padLeft 12 f.file} : {f.name} statement {relative}"
  | none => "<NO FUNCTION>"

/-- The levels of the call chain that are shown, and how many more there are. -/
def frameLines (v : View) (frames : List StackFrame) (most : Nat) : List String :=
  (frames.take most).map v.frameText
    ++ if frames.length > most then [s!"... {frames.length - most} more frames"] else []

/-- The call chain; an empty one is said to be empty. -/
def stackText (v : View) (frames : List StackFrame) (most : Nat) : List String :=
  if frames.isEmpty then ["<NO STACK>"] else v.frameLines frames most

/-- The context of an abort. An entity is shown if the store has it. -/
def capture (v : View) (config : DiagnosticsConfig) (statement : Option Nat)
    (frames : List StackFrame) (edicts : EdictStore) (edict : Option EdictId) : Context :=
  { statement := if config.disassemble then statement.map v.disassemble else none
    stack := v.frameLines frames config.maxFrames
    edict := edict.bind fun id => (edicts.get? id.toNat).map (v.dump id.toNat) }

end View

end QuakeProgs
