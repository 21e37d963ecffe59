/-
  File:      QuakeProgs/Image/Raw.lean
  Subject:   AN IMAGE AS SIX TABLES of records, and its bytes.

  * `RawImage` -- the tables, with no check of what the records say;
  * `RawImage.decode` -- finds the tables through the header; each must lie inside the bytes;
  * `RawImage.encode` -- the tables one after the other, behind a header that describes them.
-/
import QuakeProgs.Error
import QuakeProgs.Image.Record

namespace QuakeProgs

/-- The tables of an image. -/
structure RawImage where
  header : Header
  statements : List RawStatement
  globalDefs : List RawDef
  fieldDefs : List RawDef
  functions : List RawFunction
  strings : Bytes
  globals : List Word

namespace Extent

/-- A count or place that must not be negative. -/
def natural (n : Int32) (problem : String) : Except Error Nat :=
  if n < 0 then .error (Cause.malformed problem) else .ok n.toInt.toNat

def checkedCount (what : String) (n : Int32) : Except Error Nat :=
  natural n s!"negative {what} count {n.toInt}"

def checkedOffset (n : Int32) : Except Error Nat := natural n s!"negative table offset {n.toInt}"

/-- A table of records of `size` bytes must lie inside an image of `len` bytes. -/
def check (t : Extent) (what : String) (size len : Nat) : Except Error Unit := do
  let n ← checkedCount what t.count
  let start ← checkedOffset t.ofs
  let stop := start + n * size
  if stop > len then .error (Cause.truncated what start stop len) else .ok ()

/-- Reads the records of a table. -/
def read (t : Extent) (r : Reader α) (bytes : Bytes) : Except Error (List α) :=
  match Reader.many r t.count.toInt.toNat (bytes.drop t.ofs.toInt.toNat) with
  | some (xs, _) => .ok xs
  | none => .error (Cause.truncated "record" 0 0 bytes.length)

end Extent

/-- One byte. -/
def Reader.byte : Reader UInt8
  | b :: rest => some (b, rest)
  | [] => none

namespace RawImage

/-- Reads the header. -/
def decodeHeader (bytes : Bytes) : Except Error Header :=
  match Header.read bytes with
  | some (h, _) => .ok h
  | none => .error (Cause.truncated "header" 0 Header.size bytes.length)

/-- The version and the layout must be the ones known here. -/
def checkHeader (h : Header) : Except Error Unit :=
  if h.version ≠ Header.currentVersion then
    .error (Cause.versionMismatch Header.currentVersion.toInt h.version.toInt)
  else if h.crc ≠ Header.layoutCrc then
    .error (Cause.headerCorrupt Header.layoutCrc.toInt h.crc.toInt)
  else .ok ()

/-- All six tables must lie inside the bytes; they are looked at in this order. -/
def checkTables (h : Header) (len : Nat) : Except Error Unit := do
  h.statements.check "statements" RawStatement.size len
  h.globalDefs.check "global definitions" RawDef.size len
  h.fieldDefs.check "field definitions" RawDef.size len
  h.functions.check "functions" RawFunction.size len
  h.strings.check "strings" 1 len
  h.globals.check "globals" 4 len
  let _ ← Extent.checkedCount "entity fields" h.entityFields

/-- Finds and reads the tables. -/
def decode (bytes : Bytes) : Except Error RawImage := do
  let h ← decodeHeader bytes
  checkHeader h
  checkTables h bytes.length
  let statements ← h.statements.read RawStatement.read bytes
  let globalDefs ← h.globalDefs.read RawDef.read bytes
  let fieldDefs ← h.fieldDefs.read RawDef.read bytes
  let functions ← h.functions.read RawFunction.read bytes
  let strings ← h.strings.read Reader.byte bytes
  let globals ← h.globals.read Reader.word bytes
  return { header := h, statements, globalDefs, fieldDefs, functions, strings, globals }

/-- The header that describes the tables, laid out one after the other. -/
def layout (version crc entityFields : Int32) (statements globalDefs fieldDefs functions strings
    globals : Nat) : Header :=
  let ofsGlobalDefs := Header.size + statements * RawStatement.size
  let ofsFieldDefs := ofsGlobalDefs + globalDefs * RawDef.size
  let ofsFunctions := ofsFieldDefs + fieldDefs * RawDef.size
  let ofsStrings := ofsFunctions + functions * RawFunction.size
  let ofsGlobals := ofsStrings + strings
  let extent (ofs count : Nat) : Extent := ⟨Int32.ofNat ofs, Int32.ofNat count⟩
  { version, crc, entityFields
    statements := extent Header.size statements
    globalDefs := extent ofsGlobalDefs globalDefs
    fieldDefs := extent ofsFieldDefs fieldDefs
    functions := extent ofsFunctions functions
    strings := extent ofsStrings strings
    globals := extent ofsGlobals globals }

/-- The bytes of an image whose header describes its tables in order. -/
def encode (i : RawImage) : Bytes :=
  i.header.toBytes
    ++ i.statements.flatMap RawStatement.toBytes
    ++ i.globalDefs.flatMap RawDef.toBytes
    ++ i.fieldDefs.flatMap RawDef.toBytes
    ++ i.functions.flatMap RawFunction.toBytes
    ++ i.strings
    ++ i.globals.flatMap Bytes.ofWord

end RawImage

end QuakeProgs
