/-
  File:      QuakeProgs/StringTable.lean
  Subject:   THE STRING TABLE: one byte space for the strings of the image and those made at run time.

  Strings are referred to by the offset of their first byte and end at the next NUL. Three regions
  follow one another:

  * the blob of the image, never written;
  * a ring of slots of equal size for short-lived strings (`StringTable.temp`), used in turn;
  * the kept strings (`StringTable.keep`), appended and never moved, each text once.
-/
import QuakeProgs.Bytes
import QuakeProgs.Error
import QuakeProgs.Text.Utf8
import Std.Data.HashMap

namespace QuakeProgs

/-- The strings of a running program. -/
structure StringTable where
  bytes : Array UInt8
  /-- The length of the image's blob. -/
  baseSize : Nat
  /-- The number of slots of the ring. -/
  slots : Nat
  /-- The bytes of a slot. -/
  slotSize : Nat
  /-- The slot that is written next. -/
  nextSlot : Nat
  /-- The most bytes the kept strings may take up. -/
  capacity : Nat
  /-- The kept texts and where they start. -/
  kept : Std.HashMap Bytes Nat

/-- What a text is as a string: all before its first NUL. -/
def Bytes.beforeNul (s : Bytes) : Bytes := s.takeWhile (· ≠ 0)

/-- Where the first NUL from `i` on lies, or the end; `fuel` bounds the bytes looked at. -/
def nulFrom (b : Array UInt8) : (fuel i : Nat) → Nat
  | 0, i => i
  | fuel + 1, i =>
    match b[i]? with
    | none => i
    | some c => if c = 0 then i else nulFrom b fuel (i + 1)

/-- The bytes from `i` on up to a NUL. -/
def bytesUntilNul (b : Array UInt8) (i : Nat) : Bytes := (b.extract i (nulFrom b (b.size - i) i)).toList

/-- The scan stops where the string ends. -/
theorem nulFrom_eq (b : Array UInt8) (fuel i : Nat) (h : b.size - i ≤ fuel) :
    nulFrom b fuel i = i + (Bytes.beforeNul (b.toList.drop i)).length := by
  induction fuel generalizing i with
  | zero =>
    rw [List.drop_eq_nil_of_le (by rw [Array.length_toList]; omega)]
    rfl
  | succ fuel ih =>
    unfold nulFrom
    by_cases hi : i < b.size
    · rw [List.drop_eq_getElem_cons (by rwa [Array.length_toList])]
      simp only [Array.getElem?_eq_getElem hi, Bytes.beforeNul, Array.getElem_toList,
        List.takeWhile_cons]
      by_cases hc : b[i] = 0
      · simp [hc]
      · simp only [hc, if_false, ne_eq, not_false_eq_true, decide_true, if_true, List.length_cons]
        rw [ih (i + 1) (by omega), Bytes.beforeNul]
        simp only [ne_eq]
        omega
    · rw [List.drop_eq_nil_of_le (by rw [Array.length_toList]; omega), Array.getElem?_eq_none (by omega)]
      rfl

/-- Scanning the array is taking from its tail. -/
theorem bytesUntilNul_eq (b : Array UInt8) (i : Nat) :
    bytesUntilNul b i = Bytes.beforeNul (b.toList.drop i) := by
  have prefixed : Bytes.beforeNul (b.toList.drop i) <+: b.toList.drop i := List.takeWhile_prefix _
  rw [bytesUntilNul, nulFrom_eq b _ i (Nat.le_refl _), Array.toList_extract, List.extract_eq_take_drop,
    Nat.add_sub_cancel_left]
  exact (List.prefix_iff_eq_take.1 prefixed).symm

/-- The strings that a run of bytes is made of, each with the offset of its first byte; the last one
    may lack its NUL. -/
def Bytes.strings : (fuel : Nat) → (ofs : Nat) → Bytes → List (Bytes × Nat)
  | 0, _, _ => []
  | _ + 1, _, [] => []
  | fuel + 1, ofs, b :: bs =>
    let s := beforeNul (b :: bs)
    (s, ofs) :: strings fuel (ofs + s.length + 1) ((b :: bs).drop (s.length + 1))

/-- Overwrites bytes one after the other from `i` on. -/
def overwrite (b : Array UInt8) (i : Nat) : Bytes → Array UInt8
  | [] => b
  | c :: cs => overwrite (b.setIfInBounds i c) (i + 1) cs

namespace StringTable

/-- Whether a table can be made: a vector holds fewer than 2^63 bytes. For a larger one the engine stops, at once
    or, where the size of the ring has wrapped around, when a slot is written. -/
def fits (blobSize slots slotSize : Nat) : Bool := blobSize + slots * slotSize < 0x8000000000000000

/-- The table of a fresh program: the blob and an empty ring. Sizes are exact here; the engine counts them in 64
    bits, where they stay as they are for a table that `fits`. -/
def new (blob : Bytes) (slots slotSize capacity : Nat) : StringTable :=
  { bytes := blob.toArray ++ Array.replicate (slots * slotSize) 0
    baseSize := blob.length
    slots, slotSize
    nextSlot := 0
    capacity
    kept := ∅ }

def size (t : StringTable) : Nat := t.bytes.size

/-- Where the kept strings start. -/
def keptStart (t : StringTable) : Nat := t.baseSize + t.slots * t.slotSize

/-- The bytes of the kept strings. -/
def keptSize (t : StringTable) : Nat := t.size - t.keptStart

/-- The bytes of a string. The very end of the table is an empty string, beyond it there is none. -/
def get (t : StringTable) (r : StringRef) : Except Error Bytes :=
  if 0 ≤ r.toInt ∧ r.toInt.toNat ≤ t.size then
    .ok (bytesUntilNul t.bytes r.toInt.toNat)
  else .error (Cause.badString r.toInt)

/-- A string as text. -/
def text (t : StringTable) (r : StringRef) : Except Error String := (t.get r).map Utf8.toText

/-- A reference out of range counts as the empty string. -/
def isEmptyAt (t : StringTable) (r : StringRef) : Bool :=
  r = 0 || match t.get r with
    | .ok s => s.isEmpty
    | .error _ => true

/-- The difference of the first two bytes that differ, the shorter string filled up with zeros. -/
def difference : Bytes → Bytes → Int
  | [], [] => 0
  | a :: as, [] => if a = 0 then difference as [] else a.toNat
  | [], b :: bs => if b = 0 then difference [] bs else -(b.toNat : Int)
  | a :: as, b :: bs => if a = b then difference as bs else (a.toNat : Int) - b.toNat

/-- Compares two strings byte by byte. -/
def compare (t : StringTable) (a b : StringRef) : Except Error Int := do
  let x ← t.get a
  let y ← t.get b
  return difference x y

/-- Where a text is kept, or will be. -/
def keptRef (t : StringTable) (s : Bytes) : Except Error StringRef :=
  let s := s.beforeNul
  match t.kept[s]? with
  | some ofs => .ok (Int32.ofNat ofs)
  | none =>
    if t.keptSize + s.length + 1 > t.capacity ∨ t.size ≥ 0x80000000 then
      .error (Cause.stringTableFull t.capacity)
    else .ok (Int32.ofNat t.size)

/-- Appends a text, unless it is kept already. -/
def addKept (t : StringTable) (s : Bytes) : StringTable :=
  let s := s.beforeNul
  if t.kept.contains s then t
  else
    let ofs := t.size
    { t with bytes := t.bytes ++ (s ++ [0]).toArray, kept := t.kept.insert s ofs }

/-- Keeps a text for good and gives its reference; a text kept before gets the reference it has. -/
def keep (t : StringTable) (s : Bytes) : Except Error (StringRef × StringTable) := do
  let r ← t.keptRef s
  return (r, t.addKept s)

/-- Whether there is a ring. -/
def hasRing (t : StringTable) : Bool := t.slots ≠ 0 && t.slotSize ≠ 0

/-- Where the slot lies that is written next. -/
def slotStart (t : StringTable) : Nat := t.baseSize + t.nextSlot * t.slotSize

/-- Where a text will lie that goes into the ring. -/
def tempRef (t : StringTable) (s : Bytes) : Except Error StringRef :=
  if !t.hasRing then t.keptRef s
  else if t.slotStart ≥ 0x80000000 then .error (Cause.internal "temp string offset overflow")
  else .ok (Int32.ofNat t.slotStart)

/-- Writes a text, cut to the size of a slot, into the next slot of the ring. -/
def addTemp (t : StringTable) (s : Bytes) : StringTable :=
  if !t.hasRing then t.addKept s
  else
    let start := t.slotStart
    { t with
      bytes := overwrite t.bytes start (s.take (t.slotSize - 1) ++ [0])
      nextSlot := (t.nextSlot + 1) % t.slots }

/-- The table once a text was to go into the ring. The slot is written even where it lies too far for a
    reference; a text that is to be kept and cannot be leaves no trace. -/
def putTemp (t : StringTable) (s : Bytes) : StringTable :=
  if t.hasRing then t.addTemp s
  else match t.keptRef s with
    | .ok _ => t.addKept s
    | .error _ => t

/-- Puts a text into the ring and gives its reference. Without a ring the text is kept. -/
def temp (t : StringTable) (s : Bytes) : Except Error (StringRef × StringTable) := do
  let r ← t.tempRef s
  return (r, t.addTemp s)

/-! ## Saving and restoring. -/

/-- The ring and the kept strings. -/
def runtimeBytes (t : StringTable) : Bytes := (t.bytes.extract t.baseSize t.size).toList

/-- Each kept text of a run of bytes with its first place, as far as a reference can name it. -/
def indexOf (ofs : Nat) (bytes : Bytes) : Std.HashMap Bytes Nat :=
  let places := (Bytes.strings bytes.length ofs bytes).filter (·.2 < 0x80000000)
  places.foldl (fun m (s, pos) => m.insertIfNew s pos) ∅

/-- Puts a saved ring and saved strings in place of the present ones. -/
def restoreRuntime (t : StringTable) (saved : Bytes) : Except Error StringTable :=
  let ring := t.slots * t.slotSize
  if saved.length < ring then
    .error (Cause.malformed "saved string region shorter than temp ring")
  else if saved.length - ring > t.capacity then .error (Cause.stringTableFull t.capacity)
  else
    .ok { t with
      bytes := t.bytes.extract 0 t.baseSize ++ saved.toArray
      kept := indexOf t.keptStart (saved.drop ring) }

end StringTable

end QuakeProgs
