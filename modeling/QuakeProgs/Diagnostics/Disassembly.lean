/-
  File:      QuakeProgs/Diagnostics/Disassembly.lean
  Subject:   STATEMENTS AS TEXT, one by one and function by function.

  * `View.disassemble` -- the statement with a number, operands named and with their values;
  * `View.functionRange?` -- the statements of a function: from its entry to the next entry;
  * `View.disassembleFunction` -- a heading and the statements of that range.
-/
import QuakeProgs.Diagnostics.View

namespace QuakeProgs.View

/-- The operands of a statement. -/
def operandsText (v : View) (s : Statement) : String :=
  match s.op with
  | .branchIf | .branchIfNot => s!"{v.globalText s.ga}branch {s.b.toInt}"
  | .goto => s!"branch {s.a.toInt}"
  | .store _ => v.globalText s.ga ++ v.globalName s.gb
  | _ =>
    (if s.ga = 0 then "" else v.globalText s.ga)
      ++ (if s.gb = 0 then "" else v.globalText s.gb)
      ++ (if s.gc = 0 then "" else v.globalName s.gc)

/-- The statement with a number. -/
def disassemble (v : View) (index : Nat) : String :=
  let number := Text.padLeft 5 (toString index)
  match v.program.statements[index]? with
  | none => s!"{number} <statement out of range>"
  | some s => Text.trimEnd s!"{number} {Text.padRight 10 s.op.mnemonic} {v.operandsText s}"

/-- The lowest entry above `entry`, or the end of the statements. -/
def nextEntry (v : View) (entry : Nat) : Nat :=
  let later := (v.program.functions.toList.filterMap Function.codeStart?).filter (· > entry)
  later.min?.getD v.program.statements.size

/-- The statements listed for a function that starts at `entry`. -/
def functionRange (v : View) (entry : Nat) : List Nat :=
  List.range' entry (v.nextEntry entry - entry)

/-- A heading and the statements of a function. -/
def disassembleFunction (v : View) (f : FuncRef) : List String :=
  match v.program.function? f with
  | none => [s!"<bad function {f.toNat}>"]
  | some func =>
    match func.codeStart? with
    | none => [s!"{func.name} is builtin #{func.builtinNumber?.getD 0}"]
    | some entry => s!"{func.name} ({func.file}):" :: (v.functionRange entry).map v.disassemble

end QuakeProgs.View
