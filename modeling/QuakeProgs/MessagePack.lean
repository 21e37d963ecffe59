/-
  File:      QuakeProgs/MessagePack.lean
  Subject:   MESSAGEPACK: the binary format of saved states, written and read.

  An item starts with a marker byte that gives its kind and, if it is short, its value or length;
  longer values and lengths follow in big-endian order.

  * `MessagePack.nat`, `.text`, `.sequence`, `.entries`, `.flag`, `.single` -- writing, each number and
    length in its shortest form;
  * `Marker` -- the marker byte taken apart;
  * `DecodeError` -- what a reader found instead of what it wanted;
  * `Decoder` -- reading: numbers, flags, lists, and records, which may be maps from field names or
    numbers, or sequences of the fields in order. Keys that name no field are skipped, and a byte
    string stands for the sequence of its bytes.
-/
import QuakeProgs.Bytes
import QuakeProgs.Double
import QuakeProgs.Text.Quoted
import QuakeProgs.Text.Utf8

namespace QuakeProgs

namespace MessagePack

/-! ## 1. Writing. -/

/-- The last `width` bytes of a number, the most significant first. -/
def bigEndian : (width : Nat) → Nat → Bytes
  | 0, _ => []
  | width + 1, n => (n >>> (8 * width)).toUInt8 :: bigEndian width n

/-- A number that is not negative. -/
def nat (n : Nat) : Bytes :=
  if n < 0x80 then [n.toUInt8]
  else if n < 0x100 then 0xcc :: bigEndian 1 n
  else if n < 0x10000 then 0xcd :: bigEndian 2 n
  else if n < 0x100000000 then 0xce :: bigEndian 4 n
  else 0xcf :: bigEndian 8 n

/-- The head of a text of `n` bytes. -/
def textHead (n : Nat) : Bytes :=
  if n < 0x20 then [(0xa0 + n).toUInt8]
  else if n < 0x100 then 0xd9 :: bigEndian 1 n
  else if n < 0x10000 then 0xda :: bigEndian 2 n
  else 0xdb :: bigEndian 4 n

def text (s : String) : Bytes := let bytes := Utf8.encode s; textHead bytes.length ++ bytes

/-- The head of a sequence of `n` items. -/
def sequenceHead (n : Nat) : Bytes :=
  if n < 0x10 then [(0x90 + n).toUInt8]
  else if n < 0x10000 then 0xdc :: bigEndian 2 n
  else 0xdd :: bigEndian 4 n

def sequence (item : α → Bytes) (xs : List α) : Bytes := sequenceHead xs.length ++ xs.flatMap item

/-- The head of a map of `n` entries. -/
def mapHead (n : Nat) : Bytes :=
  if n < 0x10 then [(0x80 + n).toUInt8]
  else if n < 0x10000 then 0xde :: bigEndian 2 n
  else 0xdf :: bigEndian 4 n

/-- A record: a map from the names of its fields to items written before. -/
def entries (fields : List (String × Bytes)) : Bytes :=
  mapHead fields.length ++ fields.flatMap fun (name, item) => text name ++ item

def flag (b : Bool) : Bytes := [if b then 0xc3 else 0xc2]

def single (x : Single) : Bytes := 0xca :: bigEndian 4 x.bits.toNat

/-! ## 2. Markers. -/

/-- A marker byte; `width` is the number of bytes of the value or the length that follows. -/
inductive Marker where
  | fixPos (n : Nat) | fixNeg (n : Int) | fixMap (n : Nat) | fixArray (n : Nat) | fixStr (n : Nat)
  | null | reserved | bool (b : Bool)
  | bin (width : Nat) | ext (width : Nat) | float (width : Nat) | uint (width : Nat)
  | int (width : Nat) | fixExt (size : Nat) | str (width : Nat) | array (width : Nat)
  | map (width : Nat)
  deriving DecidableEq, Inhabited

def Marker.ofByte (b : UInt8) : Marker :=
  let n := b.toNat
  if n < 0x80 then .fixPos n
  else if n < 0x90 then .fixMap (n - 0x80)
  else if n < 0xa0 then .fixArray (n - 0x90)
  else if n < 0xc0 then .fixStr (n - 0xa0)
  else match n with
    | 0xc0 => .null | 0xc1 => .reserved | 0xc2 => .bool false | 0xc3 => .bool true
    | 0xc4 => .bin 1 | 0xc5 => .bin 2 | 0xc6 => .bin 4
    | 0xc7 => .ext 1 | 0xc8 => .ext 2 | 0xc9 => .ext 4
    | 0xca => .float 4 | 0xcb => .float 8
    | 0xcc => .uint 1 | 0xcd => .uint 2 | 0xce => .uint 4 | 0xcf => .uint 8
    | 0xd0 => .int 1 | 0xd1 => .int 2 | 0xd2 => .int 4 | 0xd3 => .int 8
    | 0xd4 => .fixExt 1 | 0xd5 => .fixExt 2 | 0xd6 => .fixExt 4 | 0xd7 => .fixExt 8
    | 0xd8 => .fixExt 16
    | 0xd9 => .str 1 | 0xda => .str 2 | 0xdb => .str 4
    | 0xdc => .array 2 | 0xdd => .array 4
    | 0xde => .map 2 | 0xdf => .map 4
    | _ => .fixNeg ((n : Int) - 256)

/-- A marker as messages show it. -/
def Marker.text : Marker → String
  | .fixPos n => s!"FixPos({n})" | .fixNeg n => s!"FixNeg({n})" | .fixMap n => s!"FixMap({n})"
  | .fixArray n => s!"FixArray({n})" | .fixStr n => s!"FixStr({n})"
  | .null => "Null" | .reserved => "Reserved" | .bool b => if b then "True" else "False"
  | .bin w => s!"Bin{8 * w}" | .ext w => s!"Ext{8 * w}" | .float w => s!"F{8 * w}"
  | .uint w => s!"U{8 * w}" | .int w => s!"I{8 * w}" | .fixExt n => s!"FixExt{n}"
  | .str w => s!"Str{8 * w}" | .array w => s!"Array{8 * w}" | .map w => s!"Map{8 * w}"

/-! ## 3. Errors. -/

/-- What stands in place of what was wanted. -/
inductive Found where
  | unit | bool (b : Bool) | int (i : Int) | single (x : Single) | double (x : Double)
  | string (s : String) | bytes | sequence | map | extension
  deriving DecidableEq, Inhabited

def Found.text : Found → String
  | .unit => "unit value"
  | .bool b => s!"boolean `{b}`"
  | .int i => s!"integer `{i}`"
  | .single x => s!"floating point `{(Double.ofSingle x).text}`"
  | .double x => s!"floating point `{x.text}`"
  | .string s => s!"string {Text.quoted s}"
  | .bytes => "byte array"
  | .sequence => "sequence"
  | .map => "map"
  | .extension => "newtype struct"

/-- Why bytes could not be read. -/
inductive DecodeError where
  /-- The bytes end where an item should start. -/
  | endAtMarker
  /-- The bytes end inside a number or a length. -/
  | endInNumber
  /-- The bytes end inside a text. -/
  | endInText
  | wrongMarker (m : Marker)
  | wrongType (found : Found) (expected : String)
  | wrongValue (found : Found) (expected : String)
  | tooShort (length : Nat) (expected : String)
  | tooLong (expected : Nat)
  | missing (field : String)
  | duplicate (field : String)
  | notText (fault : Utf8.Fault)
  | tooDeep
  deriving DecidableEq, Inhabited

def DecodeError.message : DecodeError → String
  | .endAtMarker => "IO error while reading marker: failed to fill whole buffer"
  | .endInNumber => "IO error while reading data: failed to fill whole buffer"
  | .endInText => "IO error while reading data: unexpected end of file"
  | .wrongMarker m => s!"wrong msgpack marker {m.text}"
  | .wrongType found expected => s!"invalid type: {found.text}, expected {expected}"
  | .wrongValue found expected => s!"invalid value: {found.text}, expected {expected}"
  | .tooShort length expected => s!"invalid length {length}, expected {expected}"
  | .tooLong expected => s!"array had incorrect length, expected {expected}"
  | .missing field => s!"missing field `{field}`"
  | .duplicate field => s!"duplicate field `{field}`"
  | .notText fault => s!"string found to be invalid utf8: {fault.message}"
  | .tooDeep => "depth limit exceeded"

end MessagePack

open MessagePack

/-! ## 4. Reading. -/

/-- Reads from the front of a run of bytes. -/
abbrev Decoder := StateT Bytes (Except DecodeError)

namespace Decoder

/-- The marker of the next item. -/
def marker : Decoder Marker
  | [] => .error .endAtMarker
  | b :: rest => .ok (.ofByte b, rest)

/-- A number of `width` bytes, the most significant first. -/
def unsigned : (width : Nat) → (high : Nat) → Decoder Nat
  | 0, high, bytes => .ok (high, bytes)
  | _ + 1, _, [] => .error .endInNumber
  | width + 1, high, b :: rest => unsigned width (256 * high + b.toNat) rest

/-- The same read as a signed number. -/
def signed (width : Nat) : Decoder Int := do
  let n ← unsigned width 0
  return if n < 1 <<< (8 * width - 1) then (n : Int) else (n : Int) - (1 <<< (8 * width) : Nat)

/-- The next `n` bytes. -/
def take (n : Nat) : Decoder Bytes := fun bytes =>
  let front := bytes.take n
  if front.length < n then .error .endInText else .ok (front, bytes.drop n)

/-- The value that a marker announces, if it is a single value: nothing, a flag or a number. -/
def scalar? : Marker → Option (Decoder Found)
  | .null => some (return .unit)
  | .bool b => some (return .bool b)
  | .fixPos n => some (return .int n)
  | .fixNeg n => some (return .int n)
  | .uint w => some do return .int (← unsigned w 0)
  | .int w => some do return .int (← signed w)
  | .float 4 => some do return .single ⟨(← unsigned 4 0).toUInt32⟩
  | .float _ => some do return .double ⟨(← unsigned 8 0).toUInt64⟩
  | _ => none

/-- A single value of any kind. -/
def scalar : Decoder Found := do
  let m ← marker
  match scalar? m with
  | some read => read
  | none => throw (.wrongMarker m)

/-- A whole number below a bound; `name` says what was wanted. -/
def below (bound : Nat) (name : String) : Decoder Nat := do
  match ← scalar with
  | .int i => if 0 ≤ i ∧ i < bound then return i.toNat else throw (.wrongValue (.int i) name)
  | found => throw (.wrongType found name)

def uint8 : Decoder UInt8 := do return (← below 0x100 "u8").toUInt8
def uint16 : Decoder UInt16 := do return (← below 0x10000 "u16").toUInt16
def uint32 : Decoder UInt32 := do return (← below 0x100000000 "u32").toUInt32
def uint64 : Decoder UInt64 := do return (← below 0x10000000000000000 "usize").toUInt64

/-- A single; whole numbers and wider numbers are rounded. -/
def single : Decoder Single := do
  match ← scalar with
  | .int i => return .ofInt i
  | .single x => return x
  | .double x => return x.toSingle
  | found => throw (.wrongType found "f32")

def bool : Decoder Bool := do
  match ← scalar with
  | .bool b => return b
  | found => throw (.wrongType found "a boolean")

/-- The length of the sequence that a marker announces. -/
def sequenceLength? : Marker → Option (Decoder Nat)
  | .fixArray n => some (return n)
  | .array w => some (unsigned w 0)
  | _ => none

/-- The number of entries of the map that a marker announces. -/
def mapLength? : Marker → Option (Decoder Nat)
  | .fixMap n => some (return n)
  | .map w => some (unsigned w 0)
  | _ => none

/-- The bytes of the text that a marker announces. -/
def text? : Marker → Option (Decoder Bytes)
  | .fixStr n => some (take n)
  | .str w => some do take (← unsigned w 0)
  | _ => none

/-- The byte string that a marker announces. -/
def bytes? : Marker → Option (Decoder Bytes)
  | .bin w => some do take (← unsigned w 0)
  | _ => none

/-- The number of data bytes of the extension that a marker announces. -/
def extensionSize : Marker → Decoder Nat
  | .ext w => unsigned w 0
  | .fixExt n => return n
  | _ => return 0

/-- Names the item that a marker starts. -/
def found (m : Marker) : Decoder Found := do
  match scalar? m, text? m, bytes? m, sequenceLength? m, mapLength? m with
  | some read, _, _, _, _ => read
  | _, some read, _, _, _ =>
    let s ← read
    match Utf8.fault? s with
    | none => return .string (Utf8.toText s)
    | some fault => throw (.notText fault)
  | _, _, some read, _, _ =>
    let _ ← read
    return .bytes
  | _, _, _, some read, _ =>
    let _ ← read
    return .sequence
  | _, _, _, _, some read =>
    let _ ← read
    return .map
  | _, _, _, _, _ =>
    if m = .reserved then throw (.wrongMarker m)
    let _ ← extensionSize m
    return .extension

/-- Refuses the item that a marker starts. -/
def refuse (m : Marker) (expected : String) : Decoder α := do throw (.wrongType (← found m) expected)

/-- `n` items one after the other. -/
def times (item : Decoder α) : Nat → Decoder (List α)
  | 0 => return []
  | n + 1 => do
    let x ← item
    let xs ← times item n
    return x :: xs

/-- Reads from other bytes and leaves the rest of these alone. -/
def within (bytes : Bytes) (read : Decoder α) : Decoder α := do
  let (a, _) ← read bytes
  return a

/-- The bytes of a byte string as numbers written one after the other. -/
def asNumbers (bytes : Bytes) : Bytes := bytes.flatMap fun b => MessagePack.nat b.toNat

/-- A sequence of any length; a byte string counts as the sequence of its bytes. -/
def list (item : Decoder α) : Decoder (List α) := do
  let m ← marker
  match sequenceLength? m, bytes? m with
  | some read, _ => times item (← read)
  | _, some read =>
    let s ← read
    within (asNumbers s) (times item s.length)
  | _, _ => refuse m "a sequence"

/-- A sequence of exactly `n` items. Of a byte string the first `n` bytes count, and there may be
    more. -/
def exactly (n : Nat) (item : Decoder α) : Decoder (List α) := do
  let expected := s!"an array of length {n}"
  let m ← marker
  match sequenceLength? m, bytes? m with
  | some read, _ =>
    let length ← read
    let xs ← times item (min n length)
    if length < n then throw (.tooShort length expected)
    else if length > n then throw (.tooLong n)
    else return xs
  | _, some read =>
    let s ← read
    let xs ← within (asNumbers s) (times item (min n s.length))
    if s.length < n then throw (.tooShort s.length expected)
    else return xs
  | _, _ => refuse m expected

/-! ## 5. Skipping. -/

/-- Does the same `n` times. -/
def repeated (act : Decoder Unit) : Nat → Decoder Unit
  | 0 => return
  | n + 1 => do
    act
    repeated act n

/-- Skips an item; `inner` skips the items of a container of the given number. An extension is a
    container of one type byte and its data. -/
def skipWith (inner : Nat → Decoder Unit) : Decoder Unit := do
  let m ← marker
  match m, scalar? m, text? m, bytes? m, sequenceLength? m, mapLength? m with
  | .reserved, _, _, _, _, _ => throw (.wrongMarker .reserved)
  | _, some read, _, _, _, _ =>
    let _ ← read
  | _, _, some read, _, _, _ =>
    let _ ← read
  | _, _, _, some read, _, _ =>
    let _ ← read
  | _, _, _, _, some read, _ => inner (← read)
  | _, _, _, _, _, some read => inner (2 * (← read))
  | _, _, _, _, _, _ =>
    let size ← extensionSize m
    inner 0
    let _ ← unsigned 1 0
    let _ ← take size

/-- Skips an item that holds containers nested at most `depth` deep. -/
def skip : (depth : Nat) → Decoder Unit
  | 0 => skipWith fun _ => throw .tooDeep
  | depth + 1 => skipWith (repeated (skip depth))

/-! ## 6. Records. -/

/-- A field of a record that is being read into a `σ`. -/
structure Field (σ : Type) where
  name : String
  /-- The field was read before. -/
  isSet : σ → Bool
  read : σ → Decoder σ

/-- The number that a marker announces, if it is of a kind without a sign. -/
def index? : Marker → Option (Decoder Nat)
  | .fixPos n => some (return n)
  | .uint w => some (unsigned w 0)
  | _ => none

/-- The field that a key names, by name or by number. -/
def key (fields : List (Field σ)) : Decoder (Option (Field σ)) := do
  let m ← marker
  match text? m, bytes? m, index? m with
  | some read, _, _ | _, some read, _ =>
    let s ← read
    return fields.find? fun f => Utf8.encode f.name = s
  | _, _, some read => return fields[← read]?
  | _, _, _ => refuse m "field identifier"

/-- Reads `n` entries of a map. -/
def mapEntries (fields : List (Field σ)) (depth : Nat) : (n : Nat) → σ → Decoder σ
  | 0, s => return s
  | n + 1, s => do
    match ← key fields with
    | some f =>
      if f.isSet s then throw (.duplicate f.name)
      else mapEntries fields depth n (← f.read s)
    | none =>
      skip depth
      mapEntries fields depth n s

/-- Reads fields in order from a sequence of `n` items; `i` fields were read before. -/
def inOrder (expected : String) (n : Nat) : (i : Nat) → List (Field σ) → σ → Decoder σ
  | i, [], s => if i < n then throw (.tooLong i) else return s
  | i, f :: fs, s => do
    if n ≤ i then throw (.tooShort i expected)
    else inOrder expected n (i + 1) fs (← f.read s)

/-- A record; items under keys that name no field may hold containers nested `depth` deep. -/
def record (name : String) (fields : List (Field σ)) (depth : Nat) (empty : σ) : Decoder σ := do
  let expected := s!"struct {name} with {fields.length} elements"
  let m ← marker
  match sequenceLength? m, bytes? m, mapLength? m with
  | some read, _, _ => inOrder expected (← read) 0 fields empty
  | _, some read, _ =>
    let s ← read
    within (asNumbers s) (inOrder expected (min s.length fields.length) 0 fields empty)
  | _, _, some read => mapEntries fields depth (← read) empty
  | _, _, _ => refuse m s!"struct {name}"

/-- The value of a field that must have been there. -/
def demand (name : String) : Option α → Decoder α
  | some a => return a
  | none => throw (.missing name)

end Decoder

end QuakeProgs
