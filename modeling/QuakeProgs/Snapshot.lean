/-
  File:      QuakeProgs/Snapshot.lean
  Subject:   SAVED STATES: all that a running program can change, and the image it belongs to.

  * `Snapshot.capture`, `Snapshot.apply` -- out of a machine and back into one with the same image;
    a snapshot that is refused changes nothing;
  * `Snapshot.encode`, `Snapshot.decode` -- as bytes.
-/
import QuakeProgs.Machine.State
import QuakeProgs.MessagePack

namespace QuakeProgs

/-- A saved state. -/
structure Snapshot where
  /-- The checksum of the image. -/
  crc : UInt16
  /-- The digest of the image. -/
  digest : Digest
  globals : List Word
  /-- The ring and the kept strings. -/
  strings : Bytes
  edicts : StoreSnapshot
  deriving DecidableEq

namespace Snapshot

/-! ## 1. Saving and restoring. -/

/-- The state of a machine. -/
def capture (m : Machine) : Snapshot :=
  { crc := m.program.crc
    digest := m.program.digest
    globals := m.globals.words.toList
    strings := m.strings.runtimeBytes
    edicts := m.edicts.snapshot }

/-- Puts a saved state into a machine at rest that has the same image. -/
def apply (s : Snapshot) (m : Machine) : Except Error Machine :=
  let p := m.program
  if m.state = .running then .error (Cause.serialization "cannot restore while executing")
  else if s.crc ≠ p.crc ∨ s.digest ≠ p.digest then
    .error (Cause.serialization
      (s!"snapshot is for image {s.digest.text} (crc {s.crc}), " ++
        s!"loaded image is {p.digest.text} (crc {p.crc})"))
  else if s.globals.length ≠ m.globals.size then
    .error (Cause.serialization
      s!"snapshot has {s.globals.length} globals, program has {m.globals.size}")
  else do
    let edicts ← m.edicts.restore s.edicts
    let strings ← m.strings.restoreRuntime s.strings
    return { m with edicts, strings, globals := ⟨s.globals.toArray⟩ }

/-! ## 2. As bytes. -/

def encodeRecord (r : EdictRecord) : Bytes :=
  MessagePack.entries
    [("free", MessagePack.flag r.free),
     ("free_time", MessagePack.single r.freeTime),
     ("fields", MessagePack.sequence (fun w => MessagePack.nat w.toNat) r.fields)]

def encodeStore (s : StoreSnapshot) : Bytes :=
  MessagePack.entries
    [("field_words", MessagePack.nat s.fieldWords.toNat),
     ("edicts", MessagePack.sequence encodeRecord s.edicts)]

/-- The bytes of a saved state. -/
def encode (s : Snapshot) : Bytes :=
  MessagePack.entries
    [("crc", MessagePack.nat s.crc.toNat),
     ("digest", MessagePack.sequence (fun b => MessagePack.nat b.toNat) s.digest.toList),
     ("globals", MessagePack.sequence (fun w => MessagePack.nat w.toNat) s.globals),
     ("strings", MessagePack.sequence (fun b => MessagePack.nat b.toNat) s.strings),
     ("edicts", encodeStore s.edicts)]

/-- How deep containers may be nested. -/
def maxDepth : Nat := 1023

/-- A record of an entity, as far as it was read. -/
structure RecordDraft where
  free : Option Bool := none
  freeTime : Option Single := none
  fields : Option (List Word) := none

def recordFields : List (Decoder.Field RecordDraft) :=
  [{ name := "free", isSet := (·.free.isSome)
     read := fun d => do return { d with free := some (← Decoder.bool) } },
   { name := "free_time", isSet := (·.freeTime.isSome)
     read := fun d => do return { d with freeTime := some (← Decoder.single) } },
   { name := "fields", isSet := (·.fields.isSome)
     read := fun d => do return { d with fields := some (← Decoder.list Decoder.uint32) } }]

/-- A record of an entity; it lies four containers deep. -/
def decodeRecord : Decoder EdictRecord := do
  let d ← Decoder.record "EdictRecord" recordFields (maxDepth - 4) {}
  return { free := ← Decoder.demand "free" d.free
           freeTime := ← Decoder.demand "free_time" d.freeTime
           fields := ← Decoder.demand "fields" d.fields }

/-- Saved entities, as far as they were read. -/
structure StoreDraft where
  fieldWords : Option UInt64 := none
  edicts : Option (List EdictRecord) := none

def storeFields : List (Decoder.Field StoreDraft) :=
  [{ name := "field_words", isSet := (·.fieldWords.isSome)
     read := fun d => do return { d with fieldWords := some (← Decoder.uint64) } },
   { name := "edicts", isSet := (·.edicts.isSome)
     read := fun d => do return { d with edicts := some (← Decoder.list decodeRecord) } }]

def decodeStore : Decoder StoreSnapshot := do
  let d ← Decoder.record "StoreSnapshot" storeFields (maxDepth - 2) {}
  return { fieldWords := ← Decoder.demand "field_words" d.fieldWords
           edicts := ← Decoder.demand "edicts" d.edicts }

/-- A saved state, as far as it was read. -/
structure Draft where
  crc : Option UInt16 := none
  digest : Option Digest := none
  globals : Option (List Word) := none
  strings : Option Bytes := none
  edicts : Option StoreSnapshot := none

/-- Sixteen bytes as a digest. -/
def decodeDigest : Decoder Digest := do
  match Digest.ofBytes? (← Decoder.exactly 16 Decoder.uint8) with
  | some d => return d
  | none => throw (.tooShort 0 "an array of length 16")

def fields : List (Decoder.Field Draft) :=
  [{ name := "crc", isSet := (·.crc.isSome)
     read := fun d => do return { d with crc := some (← Decoder.uint16) } },
   { name := "digest", isSet := (·.digest.isSome)
     read := fun d => do return { d with digest := some (← decodeDigest) } },
   { name := "globals", isSet := (·.globals.isSome)
     read := fun d => do return { d with globals := some (← Decoder.list Decoder.uint32) } },
   { name := "strings", isSet := (·.strings.isSome)
     read := fun d => do return { d with strings := some (← Decoder.list Decoder.uint8) } },
   { name := "edicts", isSet := (·.edicts.isSome)
     read := fun d => do return { d with edicts := some (← decodeStore) } }]

/-- A saved state at the front of a run of bytes. -/
def decoder : Decoder Snapshot := do
  let d ← Decoder.record "Snapshot" fields (maxDepth - 1) {}
  return { crc := ← Decoder.demand "crc" d.crc
           digest := ← Decoder.demand "digest" d.digest
           globals := ← Decoder.demand "globals" d.globals
           strings := ← Decoder.demand "strings" d.strings
           edicts := ← Decoder.demand "edicts" d.edicts }

/-- Reads a saved state; bytes after it do not matter. -/
def decode (bytes : Bytes) : Except Error Snapshot :=
  match decoder bytes with
  | .ok (s, _) => .ok s
  | .error e => .error (Cause.serialization e.message)

end Snapshot

end QuakeProgs
