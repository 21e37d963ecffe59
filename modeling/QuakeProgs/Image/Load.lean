/-
  File:      QuakeProgs/Image/Load.lean
  Subject:   LOADING AN IMAGE: every offset it holds is checked once, before anything runs.

  * `LoadOptions` -- the geometry of the string ring and the room for kept strings;
  * `Image` -- a program with its strings and its initial globals;
  * `Image.load` -- decodes and checks; the first fault in the order of the tables is the answer.
-/
import QuakeProgs.Image.Raw
import QuakeProgs.Program
import QuakeProgs.StringTable

namespace QuakeProgs

/-- What a loader needs to know beyond the bytes. -/
structure LoadOptions where
  tempSlots : Nat := 16
  tempSize : Nat := 1024
  stringCapacity : Nat := 0x100000
  deriving DecidableEq, Inhabited

/-- A loaded image. -/
structure Image where
  program : Program
  strings : StringTable
  globals : GlobalBlock

namespace Image

def malformed (what : String) : Except Error α := .error (Cause.malformed what)

/-- A name must lie inside the blob; offset zero is a name even when there is no blob. -/
def nameAt (strings : StringTable) (what : String) (r : Int32) : Except Error String :=
  if 0 ≤ r.toInt ∧ r.toInt.toNat < max strings.baseSize 1 then strings.text r
  else malformed s!"{what} name {r.toInt} outside string blob of {strings.baseSize} bytes"

/-! ## 1. Statements. -/

/-- The words a statement needs at a global operand. What a return copies is clamped to the block, so
    one word is enough for it. -/
def wordsNeeded (op : Opcode) (words : Nat) : Nat := if op.isReturn then 1 else words

/-- An operand used as a global must lie inside the block. -/
def checkOperand (index globals : Nat) (op : Opcode) (operand : Int16) : Operand → Except Error Unit
  | .unused | .branch => .ok ()
  | .global words =>
    let pos := operand.toUInt16.toNat
    if pos + wordsNeeded op words > globals then
      malformed s!"statement {index} ({op.mnemonic}) operand {pos} outside {globals} globals"
    else .ok ()

/-- A branch must lead to a statement. -/
def checkBranch (index count : Nat) (s : Statement) : Except Error Unit :=
  match s.target? index with
  | none => .ok ()
  | some t => if 0 ≤ t ∧ t < count then .ok () else .error (Cause.badBranch index t count)

/-- Statement `index` of `count`, over a block of `globals` words. -/
def checkStatement (index count globals : Nat) (raw : RawStatement) : Except Error Statement :=
  match Opcode.ofNumber? raw.op.toNat with
  | none => .error (Cause.badOpcode raw.op.toNat index)
  | some op => do
    let s : Statement := { op, a := raw.a, b := raw.b, c := raw.c }
    let (ua, ub, uc) := op.operands
    checkOperand index globals op s.a ua
    checkOperand index globals op s.b ub
    checkOperand index globals op s.c uc
    checkBranch index count s
    return s

/-! ## 2. Definitions. -/

/-- A definition's type and name. -/
def resolveDef (strings : StringTable) (raw : RawDef) : Except Error Def :=
  match ValueType.ofTag? raw.type with
  | none => malformed s!"unknown definition type {raw.type.toNat}"
  | some type => do
    let name ← nameAt strings "definition" raw.name
    return { type, save := raw.type.toNat ≥ ValueType.saveBit, ofs := raw.ofs.toNat,
             nameRef := raw.name, name }

/-- A global must lie inside the block. -/
def checkGlobalDef (strings : StringTable) (globals index : Nat) (raw : RawDef) :
    Except Error Def := do
  let d ← resolveDef strings raw
  if d.ofs + d.type.words > globals then
    malformed s!"global definition {index} ({d.name}) at {d.ofs} outside {globals} globals"
  else return d

/-- A field must lie inside an entity's fields, unless its type is void. -/
def checkFieldDef (strings : StringTable) (fields index : Nat) (raw : RawDef) :
    Except Error Def := do
  let d ← resolveDef strings raw
  if d.type ≠ .void ∧ d.ofs + d.type.words > fields then
    malformed s!"field definition {index} ({d.name}) at {d.ofs} outside {fields} field words"
  else return d

/-! ## 3. Functions. -/

/-- What bytecode must satisfy: an entry, except for function zero; locals and parameters inside the
    block; no parameter wider than a vector. -/
def checkBytecode (index statements globals : Nat) (f : Function) (entry : Nat) :
    Except Error Unit :=
  let bad (why : String) : Except Error Unit := malformed s!"function {index} ({f.name}): {why}"
  let stop := f.parmStart + f.locals
  if index ≠ 0 ∧ entry ≥ statements then
    bad s!"first statement {entry} outside {statements} statements"
  else if stop > globals then bad s!"locals {f.parmStart}..{stop} outside {globals} globals"
  else if f.passedSizes.any (· > 3) then bad "parameter wider than a vector"
  else if f.parmStart + f.parmWords > globals then bad "parameters outside the global block"
  else .ok ()

def checkFunction (strings : StringTable) (statements globals index : Nat) (raw : RawFunction) :
    Except Error Function := do
  let name ← nameAt strings "function" raw.name
  let file ← nameAt strings "function file" raw.file
  let natural (what : String) (n : Int32) : Except Error Nat :=
    Extent.natural n s!"function {index} ({name}): negative {what} {n.toInt}"
  let parmStart ← natural "parameter start" raw.parmStart
  let locals ← natural "locals count" raw.locals
  let numParms ← natural "parameter count" raw.numParms
  let f : Function :=
    { firstStatement := raw.firstStatement.toInt, parmStart, locals, numParms
      parmSizes := raw.parmSizes, name, file }
  match f.codeStart? with
  | some entry => checkBytecode index statements globals f entry
  | none => pure ()
  return f

/-! ## 4. The whole image. -/

/-- Checks the records of a table in order, each with its number. -/
def checkAll (check : Nat → α → Except Error β) : Nat → List α → Except Error (List β)
  | _, [] => .ok []
  | i, x :: xs => do
    let y ← check i x
    let ys ← checkAll check (i + 1) xs
    return y :: ys

/-- Checks the records of the tables. -/
def resolve (raw : RawImage) (options : LoadOptions) (crc : UInt16) (digest : Digest) :
    Except Error Image := do
  let globals := raw.globals.length
  let count := raw.statements.length
  if globals < Global.count then
    malformed s!"global block has {globals} words, well-known layout needs {Global.count}"
  else if raw.functions.isEmpty then malformed "function table is empty"
  else
    let strings := StringTable.new raw.strings options.tempSlots options.tempSize options.stringCapacity
    let fields := raw.header.entityFields.toInt.toNat
    let statements ← checkAll (fun i => checkStatement i count globals) 0 raw.statements
    let globalDefs ← checkAll (checkGlobalDef strings globals) 0 raw.globalDefs
    let fieldDefs ← checkAll (checkFieldDef strings fields) 0 raw.fieldDefs
    let functions ← checkAll (checkFunction strings count globals) 0 raw.functions
    return {
      program := Program.build raw.header functions.toArray statements.toArray globalDefs.toArray
        fieldDefs.toArray crc digest
      strings
      globals := ⟨raw.globals.toArray⟩ }

/-- Loads an image. -/
def load (bytes : Bytes) (options : LoadOptions) : Except Error Image := do
  let raw ← RawImage.decode bytes
  resolve raw options (crc16 bytes) (md5 bytes)

end Image

end QuakeProgs
