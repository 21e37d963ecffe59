/-
  File:      QuakeProgs/Proofs/Image/Building.lean
  Subject:   WHAT WAS ASSEMBLED IS WHAT IS LOADED, after any sequence of commands to the assembler.

  * `ImageCommand`, `BodyCommand` -- the commands to an image and to an open function;
  * `Assembly` -- an image under construction with the functions that are open, the innermost first;
    `Assembly.step` is one command;
  * `ImageBuilder.Regular` -- what every command keeps: the well-known globals and the first function are
    there, and the width of an entity is the sum of widths of its fields;
  * `Assembly.build_loads` -- the bytes decode table by table to the records under construction, and load
    exactly if every record passes its check.
-/
import QuakeProgs.Image.Builder
import QuakeProgs.Proofs.Image.RoundTrip

namespace QuakeProgs

/-! ## 1. Commands. -/

/-- A command to an image under construction. -/
inductive ImageCommand where
  | version (version : Int32)
  | crc (crc : Int32)
  | file (name : String)
  | intern (text : String)
  | global (name : String) (type : ValueType)
  | globalValue (name : String) (value : Value)
  | globalString (name text : String)
  | constant (value : Value)
  | constantString (text : String)
  | setWords (ofs : UInt16) (words : List Word)
  | field (name : String) (type : ValueType)
  | declare (name : String)
  | builtin (name : String) (number : UInt32)
  | modifyFunction (f : FuncRef) (change : RawFunction → RawFunction)

def ImageBuilder.perform (b : ImageBuilder) : ImageCommand → ImageBuilder
  | .version version => { b with version }
  | .crc crc => { b with crc }
  | .file name => b.setFile name
  | .intern text => (b.intern text).2
  | .global name type => (b.global name type).2
  | .globalValue name value => (b.globalValue name value).2
  | .globalString name text => (b.globalString name text).2
  | .constant value => (b.constant value).2
  | .constantString text => (b.constantString text).2
  | .setWords ofs words => b.setWords ofs words
  | .field name type => (b.field name type).2
  | .declare name => (b.declare name).2
  | .builtin name number => (b.builtin name number).2
  | .modifyFunction f change => b.modifyFunction f change

/-- A command to an open function. -/
inductive BodyCommand where
  | allocLocal (type : ValueType)
  | emit (op : Opcode) (a b c : Int)
  | emitRaw (op : UInt16) (a b c : Int)
  | goto (target : Int)
  | branchIf (cond target : Int)
  | branchIfNot (cond target : Int)
  | patchBranch (pos : Nat) (target : Int)
  | call (func : Int) (args : List (Int × ValueType))
  | ret (value : Int)

def FunctionBuilder.perform (fb : FunctionBuilder) : BodyCommand → FunctionBuilder
  | .allocLocal type => (fb.allocLocal type).2
  | .emit op a b c => fb.emit op a b c
  | .emitRaw op a b c => fb.emitRaw op a b c
  | .goto target => fb.goto target
  | .branchIf cond target => fb.branchIf cond target
  | .branchIfNot cond target => fb.branchIfNot cond target
  | .patchBranch pos target => fb.patchBranch pos target
  | .call func args => fb.call func args
  | .ret value => fb.ret value

/-- An image under construction and the functions that are open, the innermost first. All work on the one
    image, so the image that an open function carries is the one it was last given. -/
structure Assembly where
  image : ImageBuilder
  opened : List FunctionBuilder

/-- A command: to the image, to the innermost open function, or to open or close one. -/
inductive AssemblyCommand where
  | image (command : ImageCommand)
  | start (f : FuncRef) (sizes : List UInt8)
  | body (command : BodyCommand)
  | finish

namespace Assembly

def new : Assembly := { image := .new, opened := [] }

/-- One command. Where no function is open, nothing is done to one. -/
def step (a : Assembly) : AssemblyCommand → Assembly
  | .image command => { a with image := a.image.perform command }
  | .start f sizes =>
    let fb := FunctionBuilder.start a.image f sizes
    { image := fb.image, opened := fb :: a.opened }
  | .body command =>
    match a.opened with
    | [] => a
    | fb :: rest =>
      let fb := FunctionBuilder.perform { fb with image := a.image } command
      { image := fb.image, opened := fb :: rest }
  | .finish =>
    match a.opened with
    | [] => a
    | fb :: rest => { image := FunctionBuilder.finish { fb with image := a.image }, opened := rest }

/-- The image after a sequence of commands. -/
def built (cs : List AssemblyCommand) : ImageBuilder := (cs.foldl step new).image

end Assembly

/-! ## 2. What every command keeps. -/

namespace ImageBuilder

/-- **The invariant of an image under construction.** -/
structure Regular (b : ImageBuilder) : Prop where
  wellKnown : Global.count ≤ b.globals.size
  someFunction : 0 < b.functions.size
  fields : ∃ words, words ≤ 3 * b.fieldDefs.size ∧ b.entityFields = Int32.ofNat words

variable {b : ImageBuilder}

theorem Regular.intern (h : b.Regular) (s : String) : (b.intern s).2.Regular := by
  unfold ImageBuilder.intern
  split
  · exact h
  · exact ⟨h.wellKnown, h.someFunction, h.fields⟩

theorem Regular.setFile (h : b.Regular) (name : String) : (b.setFile name).Regular :=
  ⟨(h.intern name).wellKnown, (h.intern name).someFunction, (h.intern name).fields⟩

theorem Regular.alloc (h : b.Regular) (words : Nat) : (b.alloc words).2.Regular := by
  refine ⟨?_, h.someFunction, h.fields⟩
  rw [ImageBuilder.alloc, Array.size_append]
  exact Nat.le_add_right_of_le h.wellKnown

theorem Regular.defineGlobal (h : b.Regular) (name : String) (type : ValueType) (ofs : UInt16) :
    (b.defineGlobal name type ofs).Regular :=
  ⟨(h.intern name).wellKnown, (h.intern name).someFunction, (h.intern name).fields⟩

theorem Regular.setWords (h : b.Regular) (ofs : UInt16) (ws : List Word) : (b.setWords ofs ws).Regular := by
  refine ⟨?_, h.someFunction, h.fields⟩
  rw [ImageBuilder.setWords, Block.size_writeFrom]
  exact h.wellKnown

theorem Regular.global (h : b.Regular) (name : String) (type : ValueType) : (b.global name type).2.Regular :=
  (h.alloc type.words).defineGlobal name type _

theorem Regular.globalValue (h : b.Regular) (name : String) (v : Value) : (b.globalValue name v).2.Regular :=
  (h.global name v.type).setWords _ _

theorem Regular.globalString (h : b.Regular) (name text : String) : (b.globalString name text).2.Regular :=
  (h.intern text).globalValue name _

/-- A field adds at most three words, and a definition. -/
theorem Regular.addField (h : b.Regular) (type : ValueType) (d : RawDef) (offsets : List (String × UInt16)) :
    { b with
      entityFields := b.entityFields + Int32.ofNat type.words
      fieldDefs := b.fieldDefs.push d
      fieldOffsets := offsets }.Regular := by
  obtain ⟨words, bound, width⟩ := h.fields
  refine ⟨h.wellKnown, h.someFunction, words + type.words, ?_, ?_⟩
  · have most : type.words ≤ 3 := by cases type <;> decide
    rw [Array.size_push]
    omega
  · rw [width, ← Int32.ofNat_add]

theorem Regular.field (h : b.Regular) (name : String) (type : ValueType) : (b.field name type).2.Regular :=
  ((h.intern name).addField type _ _).globalValue name _

theorem Regular.modifyFunction (h : b.Regular) (f : FuncRef) (change : RawFunction → RawFunction) :
    (b.modifyFunction f change).Regular := by
  refine ⟨h.wellKnown, ?_, h.fields⟩
  rw [ImageBuilder.modifyFunction, Array.size_modify]
  exact h.someFunction

theorem Regular.addFunction (h : b.Regular) (f : RawFunction) :
    { b with functions := b.functions.push f }.Regular := by
  refine ⟨h.wellKnown, ?_, h.fields⟩
  rw [Array.size_push]
  exact Nat.succ_pos _

theorem Regular.declare (h : b.Regular) (name : String) : (b.declare name).2.Regular := by
  have defined := ((h.intern name).addFunction
    { name := (b.intern name).1, file := (b.intern name).2.file }).globalValue
    name (.function b.functions.size.toUInt32)
  exact ⟨defined.wellKnown, defined.someFunction, defined.fields⟩

theorem Regular.new : ImageBuilder.new.Regular := by
  have empty : ({} : ImageBuilder).Regular := ⟨by decide, by decide, 0, by decide, rfl⟩
  have named := empty.setFile "builder.qc"
  unfold ImageBuilder.new
  exact List.foldlRecOn (motive := ImageBuilder.Regular) Global.wellKnown _ named
    fun b h d _ => h.defineGlobal d.1 d.2.1 d.2.2.toUInt16

/-- Every command to an image keeps the invariant. -/
theorem Regular.perform (h : b.Regular) (c : ImageCommand) : (b.perform c).Regular := by
  cases c with
  | version version => exact ⟨h.wellKnown, h.someFunction, h.fields⟩
  | crc crc => exact ⟨h.wellKnown, h.someFunction, h.fields⟩
  | file name => exact h.setFile name
  | intern text => exact h.intern text
  | global name type => exact h.global name type
  | globalValue name value => exact h.globalValue name value
  | globalString name text => exact h.globalString name text
  | constant value => exact h.globalValue _ value
  | constantString text => exact h.globalString _ text
  | setWords ofs words => exact h.setWords ofs words
  | field name type => exact h.field name type
  | declare name => exact h.declare name
  | builtin name number => exact (h.declare name).modifyFunction _ _
  | modifyFunction f change => exact h.modifyFunction f change

end ImageBuilder

namespace FunctionBuilder

variable {fb : FunctionBuilder}

theorem regular_start {b : ImageBuilder} (h : b.Regular) (f : FuncRef) (sizes : List UInt8) :
    (start b f sizes).image.Regular := by
  unfold start
  exact List.foldlRecOn (motive := fun p : List UInt16 × ImageBuilder => p.2.Regular) (sizes.take Global.maxParms) _ h
    fun _ h size _ => h.alloc size.toNat

/-- Statements do not matter. -/
theorem regular_emitRaw (h : fb.image.Regular) (op : UInt16) (x y z : Int) :
    (fb.emitRaw op x y z).image.Regular :=
  ⟨h.wellKnown, h.someFunction, h.fields⟩

theorem regular_call (h : fb.image.Regular) (func : Int) (args : List (Int × ValueType)) :
    (fb.call func args).image.Regular := by
  refine regular_emitRaw ?_ _ _ _ _
  exact List.foldlRecOn (motive := fun fb : FunctionBuilder => fb.image.Regular)
    (args.take Global.maxParms).zipIdx _ h fun _ h _ _ => regular_emitRaw h _ _ _ _

/-- Every command to an open function keeps the invariant. -/
theorem regular_perform (h : fb.image.Regular) (c : BodyCommand) : (fb.perform c).image.Regular := by
  cases c with
  | allocLocal type => exact h.alloc type.words
  | emit op a b c => exact regular_emitRaw h _ _ _ _
  | emitRaw op a b c => exact regular_emitRaw h _ _ _ _
  | goto target => exact regular_emitRaw h _ _ _ _
  | branchIf cond target => exact regular_emitRaw h _ _ _ _
  | branchIfNot cond target => exact regular_emitRaw h _ _ _ _
  | patchBranch pos target => exact ⟨h.wellKnown, h.someFunction, h.fields⟩
  | call func args => exact regular_call h func args
  | ret value => exact regular_emitRaw h _ _ _ _

theorem regular_finish (h : fb.image.Regular) : fb.finish.Regular := by
  refine ImageBuilder.Regular.modifyFunction ?_ _ _
  split
  · exact h
  · exact ⟨h.wellKnown, h.someFunction, h.fields⟩

end FunctionBuilder

namespace Assembly

/-- **One command** keeps the invariant. -/
theorem regular_step {a : Assembly} (h : a.image.Regular) (c : AssemblyCommand) : (a.step c).image.Regular := by
  obtain ⟨image, opened⟩ := a
  cases c with
  | image command => exact h.perform command
  | start f sizes => exact FunctionBuilder.regular_start h f sizes
  | body command =>
    cases opened with
    | nil => exact h
    | cons fb rest =>
      have given : { fb with image := image }.image.Regular := h
      exact FunctionBuilder.regular_perform given command
  | finish =>
    cases opened with
    | nil => exact h
    | cons fb rest =>
      have given : { fb with image := image }.image.Regular := h
      exact FunctionBuilder.regular_finish given

/-- **Any sequence of commands** keeps it. -/
theorem regular_built (cs : List AssemblyCommand) : (built cs).Regular := by
  have start : new.image.Regular := ImageBuilder.Regular.new
  exact List.foldlRecOn (motive := fun a : Assembly => a.image.Regular) cs step start
    fun a h c _ => regular_step h c

end Assembly

/-! ## 3. What was assembled is loaded. -/

namespace ImageBuilder

variable {b : ImageBuilder}

/-- The header is made to describe the tables. -/
theorem described_raw (b : ImageBuilder) : b.raw.Described := by
  simp [RawImage.Described, raw, RawImage.layout]

/-- The strings that a loader finds the names in. -/
def table (b : ImageBuilder) (options : LoadOptions) : StringTable :=
  .new b.strings.toList options.tempSlots options.tempSize options.stringCapacity

/-- **Every record passes** the loader's check of it. -/
structure Passes (b : ImageBuilder) (options : LoadOptions) : Prop where
  statements : ∀ (k : Nat) (r : RawStatement), b.statements[k]? = some r →
    ∃ st, Image.checkStatement k b.statements.size b.globals.size r = .ok st
  globalDefs : ∀ (k : Nat) (r : RawDef), b.globalDefs[k]? = some r →
    ∃ d, Image.checkGlobalDef (b.table options) b.globals.size k r = .ok d
  fieldDefs : ∀ (k : Nat) (r : RawDef), b.fieldDefs[k]? = some r →
    ∃ d, Image.checkFieldDef (b.table options) b.entityFields.toInt.toNat k r = .ok d
  functions : ∀ (k : Nat) (r : RawFunction), b.functions[k]? = some r →
    ∃ f, Image.checkFunction (b.table options) b.statements.size b.globals.size k r = .ok f

/-- The width of an entity is no overflow in an image of this size. -/
theorem Regular.entityFields_nonneg (h : b.Regular) (small : b.build.length < 2 ^ 31) :
    0 ≤ b.entityFields.toInt := by
  obtain ⟨words, bound, width⟩ := h.fields
  have length : b.build.length = _ := b.raw.length_encode
  have defs : b.raw.fieldDefs.length = b.fieldDefs.size := Array.length_toList
  rw [width, Int32.toInt_ofNat_of_lt (by omega)]
  exact Int.natCast_nonneg _

/-- Of a regular image the records fit if they all pass. -/
theorem Regular.recordsFit_iff (h : b.Regular) (options : LoadOptions) : b.raw.RecordsFit ↔ b.Passes options := by
  have size : (b.table options).baseSize ≤ (b.table options).size := Image.baseSize_le_size_new ..
  have statement := fun k r => (Image.checkStatement_decides k b.statements.size b.globals.size r).isOk
  have globalDef := fun k r => (Image.checkGlobalDef_decides size b.globals.size k r).isOk
  have fieldDef := fun k r => (Image.checkFieldDef_decides size b.entityFields.toInt.toNat k r).isOk
  have function := fun k r => (Image.checkFunction_decides size b.statements.size b.globals.size k r).isOk
  constructor
  · rintro ⟨-, -, statements, globalDefs, fieldDefs, functions⟩
    simp only [raw, Array.getElem?_toList, Array.length_toList] at statements globalDefs fieldDefs functions
    exact ⟨fun k r hr => (statement k r).mpr (statements k r hr),
      fun k r hr => (globalDef k r).mpr (globalDefs k r hr),
      fun k r hr => (fieldDef k r).mpr (fieldDefs k r hr),
      fun k r hr => (function k r).mpr (functions k r hr)⟩
  · rintro ⟨statements, globalDefs, fieldDefs, functions⟩
    refine ⟨h.wellKnown, h.someFunction, ?_, ?_, ?_, ?_⟩ <;>
      simp only [raw, Array.getElem?_toList, Array.length_toList] <;> intro k r hr
    · exact (statement k r).mp (statements k r hr)
    · exact (globalDef k r).mp (globalDefs k r hr)
    · exact (fieldDef k r).mp (fieldDefs k r hr)
    · exact (function k r).mp (functions k r hr)

end ImageBuilder

namespace Assembly

/-- **What was assembled is what is loaded.** -/
theorem build_loads (cs : List AssemblyCommand) (options : LoadOptions) (small : (built cs).build.length < 2 ^ 31) :
    (built cs).raw.StandsIn (built cs).build ∧
    ((∃ image, Image.load (built cs).build options = .ok image) ↔
      (built cs).version = Header.currentVersion ∧ (built cs).crc = Header.layoutCrc ∧
        (built cs).Passes options) ∧
    ∀ image, Image.load (built cs).build options = .ok image → image.Shows (built cs).raw options := by
  have regular := regular_built cs
  generalize built cs = b at small regular
  have decides := Image.load_encode_decides b.described_raw small options
  refine ⟨b.described_raw.standsIn small, decides.isOk.trans ?_, fun image loaded => (decides.passed image loaded).2⟩
  rw [regular.recordsFit_iff options, ← Int32.toInt_inj, ← Int32.toInt_inj]
  exact ⟨fun ⟨⟨⟨version, crc⟩, _⟩, passes⟩ => ⟨version, crc, passes⟩,
    fun ⟨version, crc, passes⟩ => ⟨⟨⟨version, crc⟩, regular.entityFields_nonneg small⟩, passes⟩⟩

/-- A program with a field and a builtin, and a function that passes its parameter on to itself. -/
def echoing : List AssemblyCommand :=
  [.image (.field "health" .vector), .image (.builtin "print" 26), .image (.declare "echo"), .start 2 [1],
    .body (.allocLocal .float), .body (.goto 3), .body (.patchBranch 1 2), .image (.globalString "greeting" "hi"),
    .body (.call 94 [(95, .float)]), .finish]

/-- The smallest ring of strings. -/
def tight : LoadOptions := { tempSlots := 1, tempSize := 4 }

theorem build_loads_echoing : (built echoing).build.length < 2 ^ 31 ∧
    ∃ image, Image.load (built echoing).build tight = .ok image ∧
      image.Shows (built echoing).raw tight := by
  have computed : (built echoing).build.length < 2 ^ 31 ∧
      (Image.load (built echoing).build tight).toOption.isSome = true := by decide +kernel
  obtain ⟨small, passed⟩ := computed
  obtain ⟨-, -, shows⟩ := build_loads echoing tight small
  cases loaded : Image.load (built echoing).build tight with
  | ok image => exact ⟨small, image, rfl, shows image loaded⟩
  | error e =>
    rw [loaded] at passed
    cases passed

end Assembly

end QuakeProgs
