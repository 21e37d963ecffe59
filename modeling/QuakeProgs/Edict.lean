/-
  File:      QuakeProgs/Edict.lean
  Subject:   AN ENTITY'S RECORD: its field words and what the engine notes about it.

  * `Edict` -- the field words, whether the record is free and since when;
  * access to fields by offset, checked against the number of field words;
  * `FieldPointer` -- the address of one field of one entity, packed into a word as
    `entity * fieldWords + field`, which stays valid when entities are added.
-/
import QuakeProgs.Error
import QuakeProgs.Value

namespace QuakeProgs

/-- What the engine notes about a record. -/
structure EdictHeader where
  /-- The record is unused and may be handed out again. -/
  free : Bool := false
  /-- The time at which the record was freed. -/
  freeTime : Single := .zero
  deriving DecidableEq, Inhabited

/-- An entity's record. -/
structure Edict where
  /-- The record is unused and may be handed out again. -/
  free : Bool := false
  /-- The time at which the record was freed. -/
  freeTime : Single := .zero
  fields : Array Word
  deriving DecidableEq, Inhabited

/-- An offset as messages show it: at most the largest 32-bit number. -/
def shownOffset (ofs : Nat) : Nat := min ofs 0xffffffff

namespace Edict

def header (e : Edict) : EdictHeader := { free := e.free, freeTime := e.freeTime }

/-- A record in use with all fields zero. -/
def blank (fieldWords : Nat) : Edict := { fields := Array.replicate fieldWords 0 }

/-- The error of an access at `ofs`. -/
def bad (e : Edict) (ofs : Nat) : Error := Cause.badField (shownOffset ofs) e.fields.size

def word (e : Edict) (ofs : Nat) : Except Error Word :=
  match e.fields[ofs]? with
  | some w => .ok w
  | none => .error (e.bad ofs)

/-- The `n` field words from `ofs` on. -/
def words (e : Edict) (ofs n : Nat) : Except Error (Array Word) :=
  match Block.slice? e.fields ofs n with
  | some ws => .ok ws
  | none => .error (e.bad ofs)

/-- Whether there are `n` field words from `ofs` on. -/
def check (e : Edict) (ofs n : Nat) : Except Error Unit :=
  if ofs + n ≤ e.fields.size then .ok () else .error (e.bad ofs)

/-- Overwrites field words from `ofs` on; what lies past the last field is dropped. -/
def overwrite (e : Edict) (ofs : Nat) (ws : List Word) : Edict :=
  { e with fields := Block.writeFrom e.fields ofs ws }

/-- Overwrites field words from `ofs` on, if the record has them all. -/
def write (e : Edict) (ofs : Nat) (ws : List Word) : Except Error Edict := do
  e.check ofs ws.length
  return e.overwrite ofs ws

def float (e : Edict) (ofs : Nat) : Except Error Single := (e.word ofs).map Word.toSingle

def vector (e : Edict) (ofs : Nat) : Except Error Vec3 :=
  (e.words ofs 3).map fun ws => Vec3.ofWords ws.toList

def value (e : Edict) (ofs : Nat) (t : ValueType) : Except Error Value :=
  (e.words ofs t.words).map fun ws => Value.read t ws.toList

/-- All fields zero. -/
def clear (e : Edict) : Edict := { e with fields := Array.replicate e.fields.size 0 }

theorem size_clear (e : Edict) : e.clear.fields.size = e.fields.size := Array.size_replicate

end Edict

/-! ## Pointers to fields. -/

/-- The address of a field of an entity. -/
structure FieldPointer where
  edict : EdictId
  field : Nat
  deriving DecidableEq, Inhabited

namespace FieldPointer

/-- Packs an address for entities of `fieldWords` words. -/
def encode (p : FieldPointer) (fieldWords : Nat) : Except Error Word :=
  if p.field ≥ fieldWords then .error (Cause.badField (shownOffset p.field) fieldWords)
  else
    let packed := p.edict.toNat * fieldWords + p.field
    if packed < 0x100000000 then .ok packed.toUInt32 else .error (Cause.badPointer 0xffffffff)

/-- Unpacks an address; it must lie in one of `count` entities. -/
def decode (ptr : Word) (fieldWords count : Nat) : Except Error FieldPointer :=
  if fieldWords = 0 ∨ ptr.toNat / fieldWords ≥ count then .error (Cause.badPointer ptr.toNat)
  else .ok { edict := (ptr.toNat / fieldWords).toUInt32, field := ptr.toNat % fieldWords }

end FieldPointer

end QuakeProgs
