/-
  File:      QuakeProgs/Bytes.lean
  Subject:   BYTE STRINGS: numbers in little-endian order, and reading from the front.

  * `Bytes` -- what an image and a saved state are made of;
  * `Bytes.ofWord`, `Bytes.ofHalf` -- a number as four or two bytes, least significant first;
  * `Reader` -- takes something off the front and gives the rest, or nothing when the bytes run out;
  * `Reader.many` -- a table of records, one after the other;
  * `Reader.word_ofWord`, `Reader.half_ofHalf` -- reading gives back what was written, whatever follows.
-/

namespace QuakeProgs

/-- A byte string. -/
abbrev Bytes := List UInt8

/-- Reads a value off the front of a byte string. -/
abbrev Reader (α : Type) := Bytes → Option (α × Bytes)

namespace Bytes

/-- Two bytes, least significant first. -/
def ofHalf (n : UInt16) : Bytes := [n.toNat.toUInt8, (n.toNat / 0x100).toUInt8]

/-- Four bytes, least significant first. -/
def ofWord (n : UInt32) : Bytes :=
  [n.toNat.toUInt8, (n.toNat / 0x100).toUInt8, (n.toNat / 0x10000).toUInt8,
    (n.toNat / 0x1000000).toUInt8]

def toHalf (a b : UInt8) : UInt16 := (a.toNat + 0x100 * b.toNat).toUInt16

def toWord (a b c d : UInt8) : UInt32 :=
  (a.toNat + 0x100 * b.toNat + 0x10000 * c.toNat + 0x1000000 * d.toNat).toUInt32

theorem toHalf_ofHalf (n : UInt16) :
    toHalf n.toNat.toUInt8 (n.toNat / 0x100).toUInt8 = n := by
  have h := n.toNat_lt
  apply UInt16.toNat.inj
  simp only [toHalf, Nat.toUInt16_eq, Nat.toUInt8_eq, UInt8.toNat_ofNat', UInt16.toNat_ofNat']
  omega

theorem toWord_ofWord (n : UInt32) :
    toWord n.toNat.toUInt8 (n.toNat / 0x100).toUInt8 (n.toNat / 0x10000).toUInt8
      (n.toNat / 0x1000000).toUInt8 = n := by
  have h := n.toNat_lt
  apply UInt32.toNat.inj
  simp only [toWord, Nat.toUInt32_eq, Nat.toUInt8_eq, UInt8.toNat_ofNat', UInt32.toNat_ofNat']
  omega

end Bytes

namespace Reader

/-- An unsigned number of two bytes. -/
def half : Reader UInt16
  | a :: b :: rest => some (Bytes.toHalf a b, rest)
  | _ => none

/-- An unsigned number of four bytes. -/
def word : Reader UInt32
  | a :: b :: c :: d :: rest => some (Bytes.toWord a b c d, rest)
  | _ => none

/-- A signed number of two bytes. -/
def int16 : Reader Int16 := fun bs => (half bs).map fun (n, rest) => (n.toInt16, rest)

/-- A signed number of four bytes. -/
def int32 : Reader Int32 := fun bs => (word bs).map fun (n, rest) => (n.toInt32, rest)

/-- `n` values, one after the other. -/
def many (r : Reader α) : Nat → Reader (List α)
  | 0, bs => some ([], bs)
  | n + 1, bs =>
    match r bs with
    | none => none
    | some (x, rest) =>
      match many r n rest with
      | none => none
      | some (xs, rest') => some (x :: xs, rest')

theorem half_ofHalf (n : UInt16) (rest : Bytes) : half (Bytes.ofHalf n ++ rest) = some (n, rest) := by
  show some (Bytes.toHalf _ _, rest) = _
  rw [Bytes.toHalf_ofHalf]

theorem word_ofWord (n : UInt32) (rest : Bytes) : word (Bytes.ofWord n ++ rest) = some (n, rest) := by
  show some (Bytes.toWord _ _ _ _, rest) = _
  rw [Bytes.toWord_ofWord]

end Reader

end QuakeProgs
