/-
  File:      QuakeProgs/Diagnostics/View.lean
  Subject:   VALUES WITH THEIR NAMES, as the author of a program reads them.

  * `View` -- the tables and the state that names and values are looked up in;
  * `View.valueText` -- a typed value, its references resolved; what cannot be resolved is shown as
    a placeholder, nothing here fails;
  * `View.globalText`, `View.globalName` -- the columns of a disassembly.
-/
import QuakeProgs.Program
import QuakeProgs.StringTable
import QuakeProgs.Text.Layout

namespace QuakeProgs

/-- What diagnostics read from. -/
structure View where
  program : Program
  strings : StringTable
  globals : GlobalBlock

/-- A number with one place, at least five characters wide. -/
def Single.column (x : Single) : String := Text.padLeft 5 (x.fixed 1)

/-- A vector in quotes, each component a column. -/
def Vec3.columns (v : Vec3) : String := s!"'{v.x.column} {v.y.column} {v.z.column}'"

/-- Fills a column of a disassembly up to twenty bytes and adds the gap to the next. -/
def operandColumn (s : String) : String := s ++ Text.spaces (20 - s.utf8ByteSize) ++ " "

namespace View

/-- A typed value with its references resolved. -/
def valueText (v : View) (type : ValueType) (words : List Word) : String :=
  match Value.read type words with
  | .void => "void"
  | .string r =>
    match v.strings.text r with
    | .ok s => s
    | .error _ => s!"<bad string {r.toInt}>"
  | .float x => x.column
  | .vector u => u.columns
  | .entity e => EdictId.text e
  | .function f =>
    match v.program.function? f with
    | some func => s!"{func.name}()"
    | none => s!"<bad function {f.toNat}>"
  | .field ofs =>
    match v.program.fieldAt? ofs.toNat with
    | some d => s!".{d.name}"
    | none => s!".<{ofs.toNat}>"
  | .pointer p => s!"pointer {p.toNat}"

/-- The words of a global, none if they lie outside the block. -/
def wordsAt (v : View) (ofs n : Nat) : List Word :=
  match v.globals.slice ofs n with
  | .ok ws => ws.toList
  | .error _ => []

/-- A global as `offset(name)value`. -/
def globalText (v : View) (ofs : Nat) : String :=
  operandColumn <| match v.program.globalAt? ofs with
    | some d => s!"{ofs}({d.name}){v.valueText d.type (v.wordsAt ofs d.type.words)}"
    | none => s!"{ofs}(???)"

/-- A global as `offset(name)`. -/
def globalName (v : View) (ofs : Nat) : String :=
  operandColumn <| match v.program.globalAt? ofs with
    | some d => s!"{ofs}({d.name})"
    | none => s!"{ofs}(???)"

end View

end QuakeProgs
