/-
  File:      QuakeProgs/Image/Builder.lean
  Subject:   AN ASSEMBLER FOR IMAGES: globals, fields and functions put together in memory.

  * `ImageBuilder` -- the tables under construction; allocation hands out global words in order;
  * `FunctionBuilder` -- the same with a function open: its statements go to the end of the table,
    and what is allocated meanwhile falls into the function's local range;
  * `ImageBuilder.build` -- the bytes of the image.

  Nothing is checked here, so that faulty images can be assembled too.
-/
import QuakeProgs.GlobalBlock
import QuakeProgs.Image.Raw
import QuakeProgs.Opcode
import QuakeProgs.Text.Utf8

namespace QuakeProgs

/-- An image under construction. -/
structure ImageBuilder where
  version : Int32 := Header.currentVersion
  crc : Int32 := Header.layoutCrc
  strings : Array UInt8 := #[0]
  /-- The texts of the blob and where they start. -/
  interned : List (String × Int32) := [("", 0)]
  statements : Array RawStatement := #[{}]
  functions : Array RawFunction := #[{}]
  globalDefs : Array RawDef := #[{}]
  fieldDefs : Array RawDef := #[{}]
  globals : Array Word := Array.replicate Global.count 0
  entityFields : Int32 := 0
  /-- The source file that functions are declared in. -/
  file : Int32 := 0
  /-- For each declared function, the global that holds it. -/
  functionGlobals : List (FuncRef × UInt16) := []
  /-- For each field, its offset; a field declared again goes in front. -/
  fieldOffsets : List (String × UInt16) := []

namespace ImageBuilder

/-! ## 1. Strings and globals. -/

/-- Puts a text into the blob, once. -/
def intern (b : ImageBuilder) (s : String) : Int32 × ImageBuilder :=
  match b.interned.lookup s with
  | some pos => (pos, b)
  | none =>
    let pos := Int32.ofNat b.strings.size
    (pos, { b with
      strings := b.strings ++ (Utf8.encode s).toArray ++ #[0]
      interned := (s, pos) :: b.interned })

/-- A builder with the well-known globals defined. -/
def new : ImageBuilder :=
  let (file, b) := ({} : ImageBuilder).intern "builder.qc"
  Global.wellKnown.foldl (fun b (name, type, ofs) =>
    let (ref, b) := b.intern name
    { b with globalDefs := b.globalDefs.push { type := type.tag, ofs := ofs.toUInt16, name := ref } })
    { b with file := file }

instance : Inhabited ImageBuilder := ⟨new⟩

def setFile (b : ImageBuilder) (name : String) : ImageBuilder :=
  let (file, b) := b.intern name
  { b with file := file }

/-- The offset the next allocation gets. -/
def nextGlobal (b : ImageBuilder) : UInt16 := b.globals.size.toUInt16

/-- Allocates words at the end of the block. -/
def alloc (b : ImageBuilder) (words : Nat) : UInt16 × ImageBuilder :=
  (b.nextGlobal, { b with globals := b.globals ++ Array.replicate words 0 })

/-- Names a place in the block. -/
def defineGlobal (b : ImageBuilder) (name : String) (type : ValueType) (ofs : UInt16) : ImageBuilder :=
  let (ref, b) := b.intern name
  { b with globalDefs := b.globalDefs.push { type := type.tag, ofs, name := ref } }

def setWords (b : ImageBuilder) (ofs : UInt16) (ws : List Word) : ImageBuilder :=
  { b with globals := Block.writeFrom b.globals ofs.toNat ws }

/-- A named global. -/
def global (b : ImageBuilder) (name : String) (type : ValueType) : UInt16 × ImageBuilder :=
  let (ofs, b) := b.alloc type.words
  (ofs, b.defineGlobal name type ofs)

/-- A named global with a value. -/
def globalValue (b : ImageBuilder) (name : String) (v : Value) : UInt16 × ImageBuilder :=
  let (ofs, b) := b.global name v.type
  (ofs, b.setWords ofs v.toWords)

/-- A named string. -/
def globalString (b : ImageBuilder) (name text : String) : UInt16 × ImageBuilder :=
  let (ref, b) := b.intern text
  b.globalValue name (.string ref)

/-- The name of unnamed constants. -/
def immediate : String := "IMMEDIATE"

def constant (b : ImageBuilder) (v : Value) : UInt16 × ImageBuilder := b.globalValue immediate v

def constantString (b : ImageBuilder) (text : String) : UInt16 × ImageBuilder :=
  b.globalString immediate text

/-- A field, and the global that holds its offset. -/
def field (b : ImageBuilder) (name : String) (type : ValueType) : UInt16 × ImageBuilder :=
  let ofs := b.entityFields.toUInt32.toUInt16
  let (ref, b) := b.intern name
  let b := { b with
    entityFields := b.entityFields + Int32.ofNat type.words
    fieldDefs := b.fieldDefs.push { type := type.tag, ofs, name := ref }
    fieldOffsets := (name, ofs) :: b.fieldOffsets }
  b.globalValue name (.field ofs.toUInt32)

def fieldOffset? (b : ImageBuilder) (name : String) : Option UInt16 := b.fieldOffsets.lookup name

/-! ## 2. Functions. -/

/-- A function without code, and the global that holds it. -/
def declare (b : ImageBuilder) (name : String) : FuncRef × ImageBuilder :=
  let f : FuncRef := b.functions.size.toUInt32
  let (ref, b) := b.intern name
  let b := { b with functions := b.functions.push { name := ref, file := b.file } }
  let (ofs, b) := b.globalValue name (.function f)
  (f, { b with functionGlobals := (f, ofs) :: b.functionGlobals })

/-- Changes the record of a function. -/
def modifyFunction (b : ImageBuilder) (f : FuncRef) (change : RawFunction → RawFunction) :
    ImageBuilder :=
  { b with functions := b.functions.modify f.toNat change }

/-- A builtin with a number. -/
def builtin (b : ImageBuilder) (name : String) (number : UInt32) : FuncRef × ImageBuilder :=
  let (f, b) := b.declare name
  (f, b.modifyFunction f fun r => { r with firstStatement := -number.toInt32 })

/-- The global that holds a function. -/
def functionGlobal (b : ImageBuilder) (f : FuncRef) : UInt16 := (b.functionGlobals.lookup f).getD 0

/-! ## 3. The image. -/

def statementCount (b : ImageBuilder) : Nat := b.statements.size

/-- The tables with the header that describes them. -/
def raw (b : ImageBuilder) : RawImage :=
  { header := RawImage.layout b.version b.crc b.entityFields b.statements.size b.globalDefs.size
      b.fieldDefs.size b.functions.size b.strings.size b.globals.size
    statements := b.statements.toList
    globalDefs := b.globalDefs.toList
    fieldDefs := b.fieldDefs.toList
    functions := b.functions.toList
    strings := b.strings.toList
    globals := b.globals.toList }

/-- The bytes of the image. -/
def build (b : ImageBuilder) : Bytes := b.raw.encode

end ImageBuilder

/-! ## 4. The body of a function. -/

/-- A function under construction. -/
structure FunctionBuilder where
  image : ImageBuilder
  func : FuncRef
  /-- The words of each parameter. -/
  sizes : List UInt8
  /-- Where each parameter was allocated. -/
  parms : List UInt16
  firstStatement : Nat
  parmStart : Nat

namespace FunctionBuilder

/-- Opens a function: its parameters, at most eight, are allocated first. -/
def start (b : ImageBuilder) (f : FuncRef) (sizes : List UInt8) : FunctionBuilder :=
  let (parms, image) := (sizes.take Global.maxParms).foldl (fun (parms, b) size =>
    let (ofs, b) := ImageBuilder.alloc b size.toNat
    (parms ++ [ofs], b)) ([], b)
  { image, func := f, sizes, parms
    firstStatement := b.statements.size
    parmStart := b.globals.size }

/-- Whether the code ends in a statement that nothing can fall through. -/
def isClosed (fb : FunctionBuilder) : Bool :=
  fb.image.statements.size > fb.firstStatement &&
    match fb.image.statements.back?.bind (fun s => Opcode.ofNumber? s.op.toNat) with
    | some op => op.isReturn || op = .goto
    | none => false

/-- The record of a function, filled in from its body. -/
def record (fb : FunctionBuilder) (r : RawFunction) : RawFunction :=
  { r with
    firstStatement := Int32.ofNat fb.firstStatement
    parmStart := Int32.ofNat fb.parmStart
    locals := Int32.ofNat (fb.image.globals.size - fb.parmStart)
    numParms := Int32.ofNat (min fb.sizes.length Global.maxParms)
    parmSizes := Vector.ofFn fun i => fb.sizes.getD i 0 }

/-- Closes a function: code that does not end in a return or a jump gets a `DONE`. -/
def finish (fb : FunctionBuilder) : ImageBuilder :=
  let image :=
    if fb.isClosed then fb.image
    else { fb.image with statements := fb.image.statements.push {} }
  image.modifyFunction fb.func fb.record

/-- The global that holds the function under construction. -/
def selfGlobal (fb : FunctionBuilder) : UInt16 := fb.image.functionGlobal fb.func

/-- Where parameter `n` lies. -/
def parm (fb : FunctionBuilder) (n : Nat) : UInt16 := fb.parms.getD n 0

def allocLocal (fb : FunctionBuilder) (type : ValueType) : UInt16 × FunctionBuilder :=
  let (ofs, image) := fb.image.alloc type.words
  (ofs, { fb with image := image })

/-- The number of the next statement. -/
def here (fb : FunctionBuilder) : Nat := fb.image.statements.size

/-- Appends a statement; operands are cut to sixteen bits. -/
def emitRaw (fb : FunctionBuilder) (op : UInt16) (a b c : Int) : FunctionBuilder :=
  let s : RawStatement := { op, a := Int16.ofInt a, b := Int16.ofInt b, c := Int16.ofInt c }
  { fb with image := { fb.image with statements := fb.image.statements.push s } }

def emit (fb : FunctionBuilder) (op : Opcode) (a b c : Int) : FunctionBuilder :=
  fb.emitRaw op.number.toUInt16 a b c

/-- The distance from the next statement to a target. -/
def distanceTo (fb : FunctionBuilder) (target : Int) : Int := target - fb.here

def goto (fb : FunctionBuilder) (target : Int) : FunctionBuilder :=
  fb.emit .goto (fb.distanceTo target) 0 0

def branchIf (fb : FunctionBuilder) (cond : Int) (target : Int) : FunctionBuilder :=
  fb.emit .branchIf cond (fb.distanceTo target) 0

def branchIfNot (fb : FunctionBuilder) (cond : Int) (target : Int) : FunctionBuilder :=
  fb.emit .branchIfNot cond (fb.distanceTo target) 0

/-- A branch aimed anew; any other statement stays as it is. -/
def retarget (distance : Int16) (s : RawStatement) : RawStatement :=
  match Opcode.ofNumber? s.op.toNat with
  | some .goto => { s with a := distance }
  | some .branchIf | some .branchIfNot => { s with b := distance }
  | _ => s

/-- Aims the branch at a statement at another target. -/
def patchBranch (fb : FunctionBuilder) (pos : Nat) (target : Int) : FunctionBuilder :=
  let statements := fb.image.statements.modify pos (retarget (Int16.ofInt (target - pos)))
  { fb with image := { fb.image with statements := statements } }

/-- Copies one argument into its parameter. -/
def pass (fb : FunctionBuilder) (n : Nat) (arg : Int) (type : ValueType) : FunctionBuilder :=
  fb.emit (.store (if type = .vector then .vector else .float)) arg (Global.parm n) 0

/-- Passes arguments, at most eight, and calls the function in a global. -/
def call (fb : FunctionBuilder) (func : Int) (args : List (Int × ValueType)) : FunctionBuilder :=
  let passed := args.take Global.maxParms
  let fb := passed.zipIdx.foldl (fun fb ((arg, type), n) => fb.pass n arg type) fb
  fb.emit ((Opcode.ofArgc? passed.length).getD (.call (Fin.last 8))) func 0 0

def ret (fb : FunctionBuilder) (value : Int) : FunctionBuilder := fb.emit .ret value 0 0

end FunctionBuilder

/-- Gives a declared function its body. -/
def ImageBuilder.define (b : ImageBuilder) (f : FuncRef) (sizes : List UInt8)
    (body : FunctionBuilder → FunctionBuilder) : ImageBuilder :=
  (body (.start b f sizes)).finish

end QuakeProgs
