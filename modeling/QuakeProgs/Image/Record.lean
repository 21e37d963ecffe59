/-
  File:      QuakeProgs/Image/Record.lean
  Subject:   THE RECORDS OF AN IMAGE as they lie in the file.

  An image is a header of fifteen signed numbers and six tables of records of fixed size, all in
  little-endian order.

  * `Header`, with the place and length of each table as an `Extent`;
  * `RawStatement`, `RawDef`, `RawFunction` -- records before any check;
  * each with `toBytes` and a reader, and the law that the reader gives back what was written.
-/
import QuakeProgs.Bytes

namespace QuakeProgs

/-! ## 1. The header. -/

/-- Where a table starts and how many records it has. -/
structure Extent where
  ofs : Int32 := 0
  count : Int32 := 0
  deriving DecidableEq, Inhabited

/-- The header of an image. -/
structure Header where
  version : Int32 := 0
  crc : Int32 := 0
  statements : Extent := {}
  globalDefs : Extent := {}
  fieldDefs : Extent := {}
  functions : Extent := {}
  strings : Extent := {}
  globals : Extent := {}
  entityFields : Int32 := 0
  deriving DecidableEq, Inhabited

namespace Header

/-- The version this library reads and writes. -/
def currentVersion : Int32 := 6

/-- The checksum of the layout of the well-known globals. -/
def layoutCrc : Int32 := 5927

/-- The size of a header in bytes. -/
def size : Nat := 60

/-- The names of the fifteen numbers, in order. -/
def names : List String :=
  ["version", "crc", "ofs_statements", "num_statements", "ofs_global_defs", "num_global_defs",
   "ofs_field_defs", "num_field_defs", "ofs_functions", "num_functions", "ofs_strings",
   "num_strings", "ofs_globals", "num_globals", "entity_fields"]

/-- The fifteen numbers, in order. -/
def toList (h : Header) : List Int32 :=
  [h.version, h.crc, h.statements.ofs, h.statements.count, h.globalDefs.ofs, h.globalDefs.count,
   h.fieldDefs.ofs, h.fieldDefs.count, h.functions.ofs, h.functions.count, h.strings.ofs,
   h.strings.count, h.globals.ofs, h.globals.count, h.entityFields]

/-- A header from its numbers; missing ones are zero. -/
def ofList (ns : List Int32) : Header :=
  let n (i : Nat) := ns.getD i 0
  { version := n 0, crc := n 1, statements := ⟨n 2, n 3⟩, globalDefs := ⟨n 4, n 5⟩
    fieldDefs := ⟨n 6, n 7⟩, functions := ⟨n 8, n 9⟩, strings := ⟨n 10, n 11⟩
    globals := ⟨n 12, n 13⟩, entityFields := n 14 }

def toBytes (h : Header) : Bytes := h.toList.flatMap fun n => Bytes.ofWord n.toUInt32

def read : Reader Header := fun bs =>
  (Reader.many Reader.int32 15 bs).map fun (ns, rest) => (ofList ns, rest)

theorem ofList_toList (h : Header) : ofList h.toList = h := rfl

end Header

/-! ## 2. The records. -/

/-- A statement whose opcode is not yet known to exist. -/
structure RawStatement where
  op : UInt16 := 0
  a : Int16 := 0
  b : Int16 := 0
  c : Int16 := 0
  deriving DecidableEq, Inhabited

/-- The definition of a global or a field. -/
structure RawDef where
  type : UInt16 := 0
  ofs : UInt16 := 0
  name : Int32 := 0
  deriving DecidableEq, Inhabited

/-- A function. -/
structure RawFunction where
  /-- The first statement, or minus the number of a builtin. -/
  firstStatement : Int32 := 0
  parmStart : Int32 := 0
  locals : Int32 := 0
  profile : Int32 := 0
  name : Int32 := 0
  file : Int32 := 0
  numParms : Int32 := 0
  parmSizes : Vector UInt8 8 := Vector.replicate 8 0
  deriving DecidableEq, Inhabited

namespace Reader

/-- Eight bytes. -/
def eight : Reader (Vector UInt8 8)
  | a :: b :: c :: d :: e :: f :: g :: h :: rest => some (#v[a, b, c, d, e, f, g, h], rest)
  | _ => none

end Reader

namespace RawStatement

def size : Nat := 8

def toBytes (s : RawStatement) : Bytes :=
  Bytes.ofHalf s.op ++ Bytes.ofHalf s.a.toUInt16 ++ Bytes.ofHalf s.b.toUInt16
    ++ Bytes.ofHalf s.c.toUInt16

def read : Reader RawStatement := fun bs => do
  let (op, bs) ← Reader.half bs
  let (a, bs) ← Reader.int16 bs
  let (b, bs) ← Reader.int16 bs
  let (c, bs) ← Reader.int16 bs
  return ({ op, a, b, c }, bs)

end RawStatement

namespace RawDef

def size : Nat := 8

def toBytes (d : RawDef) : Bytes :=
  Bytes.ofHalf d.type ++ Bytes.ofHalf d.ofs ++ Bytes.ofWord d.name.toUInt32

def read : Reader RawDef := fun bs => do
  let (type, bs) ← Reader.half bs
  let (ofs, bs) ← Reader.half bs
  let (name, bs) ← Reader.int32 bs
  return ({ type, ofs, name }, bs)

end RawDef

namespace RawFunction

def size : Nat := 36

def toBytes (f : RawFunction) : Bytes :=
  Bytes.ofWord f.firstStatement.toUInt32 ++ Bytes.ofWord f.parmStart.toUInt32
    ++ Bytes.ofWord f.locals.toUInt32 ++ Bytes.ofWord f.profile.toUInt32
    ++ Bytes.ofWord f.name.toUInt32 ++ Bytes.ofWord f.file.toUInt32
    ++ Bytes.ofWord f.numParms.toUInt32 ++ f.parmSizes.toList

def read : Reader RawFunction := fun bs => do
  let (firstStatement, bs) ← Reader.int32 bs
  let (parmStart, bs) ← Reader.int32 bs
  let (locals, bs) ← Reader.int32 bs
  let (profile, bs) ← Reader.int32 bs
  let (name, bs) ← Reader.int32 bs
  let (file, bs) ← Reader.int32 bs
  let (numParms, bs) ← Reader.int32 bs
  let (parmSizes, bs) ← Reader.eight bs
  return ({ firstStatement, parmStart, locals, profile, name, file, numParms, parmSizes }, bs)

end RawFunction

end QuakeProgs
