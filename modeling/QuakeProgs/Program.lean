/-
  File:      QuakeProgs/Program.lean
  Subject:   THE TABLES OF A LOADED PROGRAM, and looking things up in them by name and by place.

  * `Def` -- a named global or field;
  * `Function` -- bytecode, or a builtin given by its number;
  * `Program` -- the tables with their indices: for every name the first entry that has it;
  * `Program.functionContaining?` -- the function whose code a statement belongs to.
-/
import QuakeProgs.Digest
import QuakeProgs.GlobalBlock
import QuakeProgs.Image.Record
import QuakeProgs.Opcode
import Std.Data.HashMap

namespace QuakeProgs

/-- The definition of a global or a field. -/
structure Def where
  type : ValueType
  /-- Kept across levels. -/
  save : Bool
  ofs : Nat
  nameRef : StringRef
  name : String
  deriving DecidableEq, Inhabited

/-- A function of a program. -/
structure Function where
  /-- The first statement, or minus the number of a builtin. -/
  firstStatement : Int
  /-- Where the parameters and locals start. -/
  parmStart : Nat
  /-- The words of parameters and locals together. -/
  locals : Nat
  numParms : Nat
  parmSizes : Vector UInt8 8
  name : String
  file : String
  deriving DecidableEq, Inhabited

namespace Function

/-- The number of a builtin. -/
def builtinNumber? (f : Function) : Option Nat :=
  if f.firstStatement < 0 then some f.firstStatement.natAbs else none

/-- The first statement of bytecode. -/
def codeStart? (f : Function) : Option Nat :=
  if f.firstStatement < 0 then none else some f.firstStatement.toNat

/-- The parameters that are passed: at most eight. -/
def parmCount (f : Function) : Nat := min f.numParms Global.maxParms

/-- The words of each parameter that is passed. -/
def passedSizes (f : Function) : List Nat := (f.parmSizes.toList.take f.parmCount).map UInt8.toNat

/-- The words of all parameters that are passed. -/
def parmWords (f : Function) : Nat := f.passedSizes.foldl (· + ·) 0

end Function

/-- The places in a table, under the first occurrence of each key. -/
def firstIndex [BEq α] [Hashable α] (keys : List (α × Nat)) : Std.HashMap α Nat :=
  keys.foldl (fun m (k, i) => m.insertIfNew k i) ∅

/-- The tables of a program; they never change while it is loaded. -/
structure Program where
  header : Header
  functions : Array Function
  statements : Array Statement
  globalDefs : Array Def
  fieldDefs : Array Def
  crc : UInt16
  digest : Digest
  functionNames : Std.HashMap String Nat
  globalNames : Std.HashMap String Nat
  fieldNames : Std.HashMap String Nat
  globalPlaces : Std.HashMap Nat Nat
  fieldPlaces : Std.HashMap Nat Nat

namespace Program

/-- The names of definitions; an empty name names nothing. -/
def namesOf (defs : Array Def) : Std.HashMap String Nat :=
  firstIndex (defs.toList.zipIdx.filterMap fun (d, i) => if d.name = "" then none else some (d.name, i))

/-- The offsets of definitions; a definition of type void marks no place. -/
def placesOf (defs : Array Def) : Std.HashMap Nat Nat :=
  firstIndex (defs.toList.zipIdx.filterMap fun (d, i) => if d.type = .void then none else some (d.ofs, i))

/-- The names of the functions from number one on. -/
def functionNamesOf (functions : Array Function) : Std.HashMap String Nat :=
  firstIndex ((functions.toList.zipIdx.drop 1).map fun (f, i) => (f.name, i))

/-- A program from its tables. -/
def build (header : Header) (functions : Array Function) (statements : Array Statement)
    (globalDefs fieldDefs : Array Def) (crc : UInt16) (digest : Digest) : Program :=
  { header, functions, statements, globalDefs, fieldDefs, crc, digest
    functionNames := functionNamesOf functions
    globalNames := namesOf globalDefs
    fieldNames := namesOf fieldDefs
    globalPlaces := placesOf globalDefs
    fieldPlaces := placesOf fieldDefs }

/-- The words of an entity's fields. -/
def entityFields (p : Program) : Nat := p.header.entityFields.toInt.toNat

def function? (p : Program) (f : FuncRef) : Option Function := p.functions[f.toNat]?

/-- The function with a name, the lowest number if there are several. -/
def findFunction? (p : Program) (name : String) : Option FuncRef :=
  p.functionNames[name]?.map Nat.toUInt32

def findGlobal? (p : Program) (name : String) : Option Def :=
  p.globalNames[name]?.bind fun i => p.globalDefs[i]?

def findField? (p : Program) (name : String) : Option Def :=
  p.fieldNames[name]?.bind fun i => p.fieldDefs[i]?

def globalAt? (p : Program) (ofs : Nat) : Option Def :=
  p.globalPlaces[ofs]?.bind fun i => p.globalDefs[i]?

def fieldAt? (p : Program) (ofs : Nat) : Option Def :=
  p.fieldPlaces[ofs]?.bind fun i => p.fieldDefs[i]?

/-- The better of two candidates for the function a statement belongs to: a later entry wins, and of
    equal entries the lower number, which comes first. -/
def laterEntry (statement : Nat) (best : Option (Nat × Nat)) (candidate : Function × Nat) :
    Option (Nat × Nat) :=
  match candidate.1.codeStart? with
  | none => best
  | some entry =>
    if entry ≤ statement ∧ best.all (·.1 < entry) then some (entry, candidate.2) else best

/-- The function whose entry comes last at or before a statement. -/
def functionContaining? (p : Program) (statement : Nat) : Option FuncRef :=
  ((p.functions.toList.zipIdx.drop 1).foldl (laterEntry statement) none).map (·.2.toUInt32)

end Program

end QuakeProgs
