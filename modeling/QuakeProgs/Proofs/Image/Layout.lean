/-
  File:      QuakeProgs/Proofs/Image/Layout.lean
  Subject:   THE RECORDS OF AN IMAGE BY POSITION, and readers that find them there.

  A reader takes a record off the front and hands on the rest. Here the same records are read by the
  position of their first byte, with no reader at work:

  * `Bytes.wordAt`, `Header.at`, `RawStatement.at`, `RawDef.at`, `RawFunction.at`;
  * `Reader.Finds` -- where enough bytes are left, a reader gives the record at its position and moves
    on by the size of it;
  * `Reader.Finds.many` -- and so a table: record `k` is the one at `ofs + k * size`;
  * `Reader.Takes` -- a reader that succeeds had the bytes it takes, so none succeeds on fewer.
-/
import QuakeProgs.Image.Raw

namespace QuakeProgs

/-! ## 1. By position. -/

namespace Bytes

/-- The byte at a position; past the end it counts as zero. -/
def byteAt (b : Bytes) (i : Nat) : UInt8 := b.getD i 0

def halfAt (b : Bytes) (i : Nat) : UInt16 := toHalf (b.byteAt i) (b.byteAt (i + 1))

def wordAt (b : Bytes) (i : Nat) : UInt32 :=
  toWord (b.byteAt i) (b.byteAt (i + 1)) (b.byteAt (i + 2)) (b.byteAt (i + 3))

/-- The four bytes from `i` on as a signed number. -/
def intAt (b : Bytes) (i : Nat) : Int32 := (b.wordAt i).toInt32

/-- The place and length of a table. -/
def extentAt (b : Bytes) (i : Nat) : Extent := { ofs := b.intAt i, count := b.intAt (i + 4) }

/-- What is left from a position on starts with the byte there. -/
theorem drop_eq_byteAt_cons {b : Bytes} {i : Nat} (h : i < b.length) :
    b.drop i = b.byteAt i :: b.drop (i + 1) := by
  rw [List.drop_eq_getElem_cons h, byteAt, List.getD_eq_getElem?_getD, List.getElem?_eq_getElem h,
    Option.getD_some]

end Bytes

def Header.at (b : Bytes) (i : Nat) : Header :=
  { version := b.intAt i
    crc := b.intAt (i + 4)
    statements := b.extentAt (i + 8)
    globalDefs := b.extentAt (i + 16)
    fieldDefs := b.extentAt (i + 24)
    functions := b.extentAt (i + 32)
    strings := b.extentAt (i + 40)
    globals := b.extentAt (i + 48)
    entityFields := b.intAt (i + 56) }

def RawStatement.at (b : Bytes) (i : Nat) : RawStatement :=
  { op := b.halfAt i
    a := (b.halfAt (i + 2)).toInt16
    b := (b.halfAt (i + 4)).toInt16
    c := (b.halfAt (i + 6)).toInt16 }

def RawDef.at (b : Bytes) (i : Nat) : RawDef :=
  { type := b.halfAt i, ofs := b.halfAt (i + 2), name := b.intAt (i + 4) }

def RawFunction.at (b : Bytes) (i : Nat) : RawFunction :=
  { firstStatement := b.intAt i
    parmStart := b.intAt (i + 4)
    locals := b.intAt (i + 8)
    profile := b.intAt (i + 12)
    name := b.intAt (i + 16)
    file := b.intAt (i + 20)
    numParms := b.intAt (i + 24)
    parmSizes := Vector.ofFn fun k : Fin 8 => b.byteAt (i + 28 + k.val) }

/-! ## 2. Readers find what stands there. -/

namespace Reader

variable {α : Type}

/-- **A reader finds the record at its position**, and takes `size` bytes for it. -/
def Finds (r : Reader α) (size : Nat) (at' : Bytes → Nat → α) : Prop :=
  ∀ (b : Bytes) (i : Nat), i + size ≤ b.length → r (b.drop i) = some (at' b i, b.drop (i + size))

theorem finds_byte : Finds Reader.byte 1 Bytes.byteAt := by
  intro b i h
  rw [Bytes.drop_eq_byteAt_cons (by omega)]
  rfl

theorem finds_half : Finds half 2 Bytes.halfAt := by
  intro b i h
  rw [Bytes.drop_eq_byteAt_cons (by omega), Bytes.drop_eq_byteAt_cons (i := i + 1) (by omega)]
  rfl

theorem finds_word : Finds word 4 Bytes.wordAt := by
  intro b i h
  rw [Bytes.drop_eq_byteAt_cons (by omega), Bytes.drop_eq_byteAt_cons (i := i + 1) (by omega),
    Bytes.drop_eq_byteAt_cons (i := i + 1 + 1) (by omega),
    Bytes.drop_eq_byteAt_cons (i := i + 1 + 1 + 1) (by omega)]
  rfl

theorem finds_int16 : Finds int16 2 fun b i => (b.halfAt i).toInt16 := by
  intro b i h
  rw [int16, finds_half b i h]
  rfl

theorem finds_int32 : Finds int32 4 Bytes.intAt := by
  intro b i h
  rw [int32, finds_word b i h]
  rfl

theorem finds_eight : Finds eight 8 fun b i => Vector.ofFn fun k : Fin 8 => b.byteAt (i + k.val) := by
  intro b i h
  rw [Bytes.drop_eq_byteAt_cons (by omega), Bytes.drop_eq_byteAt_cons (i := i + 1) (by omega),
    Bytes.drop_eq_byteAt_cons (i := i + 1 + 1) (by omega),
    Bytes.drop_eq_byteAt_cons (i := i + 1 + 1 + 1) (by omega),
    Bytes.drop_eq_byteAt_cons (i := i + 1 + 1 + 1 + 1) (by omega),
    Bytes.drop_eq_byteAt_cons (i := i + 1 + 1 + 1 + 1 + 1) (by omega),
    Bytes.drop_eq_byteAt_cons (i := i + 1 + 1 + 1 + 1 + 1 + 1) (by omega),
    Bytes.drop_eq_byteAt_cons (i := i + 1 + 1 + 1 + 1 + 1 + 1 + 1) (by omega)]
  rfl

theorem finds_statement : Finds RawStatement.read RawStatement.size RawStatement.at := by
  intro b i h
  have h : i + 8 ≤ b.length := h
  simp only [RawStatement.read, finds_half b i (by omega), finds_int16 b (i + 2) (by omega),
    finds_int16 b (i + 2 + 2) (by omega), finds_int16 b (i + 2 + 2 + 2) (by omega),
    Option.bind_eq_bind, Option.bind_some]
  rfl

theorem finds_def : Finds RawDef.read RawDef.size RawDef.at := by
  intro b i h
  have h : i + 8 ≤ b.length := h
  simp only [RawDef.read, finds_half b i (by omega), finds_half b (i + 2) (by omega),
    finds_int32 b (i + 2 + 2) (by omega), Option.bind_eq_bind, Option.bind_some]
  rfl

theorem finds_function : Finds RawFunction.read RawFunction.size RawFunction.at := by
  intro b i h
  have h : i + 36 ≤ b.length := h
  simp only [RawFunction.read, finds_int32 b i (by omega), finds_int32 b (i + 4) (by omega),
    finds_int32 b (i + 4 + 4) (by omega), finds_int32 b (i + 4 + 4 + 4) (by omega),
    finds_int32 b (i + 4 + 4 + 4 + 4) (by omega), finds_int32 b (i + 4 + 4 + 4 + 4 + 4) (by omega),
    finds_int32 b (i + 4 + 4 + 4 + 4 + 4 + 4) (by omega),
    finds_eight b (i + 4 + 4 + 4 + 4 + 4 + 4 + 4) (by omega), Option.bind_eq_bind, Option.bind_some]
  rfl

/-- **A table read record by record**: record `k` is the one at `i + k * size`. -/
theorem Finds.many {r : Reader α} {size : Nat} {at' : Bytes → Nat → α} (h : Finds r size at') (n : Nat)
    (b : Bytes) (i : Nat) (hn : i + n * size ≤ b.length) :
    many r n (b.drop i) =
      some ((List.range n).map fun k => at' b (i + k * size), b.drop (i + n * size)) := by
  induction n generalizing i with
  | zero => simp [Reader.many]
  | succ n ih =>
    have hn' : i + size + n * size ≤ b.length := by
      rw [Nat.succ_mul] at hn
      omega
    rw [Reader.many, h b i (by rw [Nat.succ_mul] at hn; omega)]
    simp only [ih (i + size) hn']
    rw [List.range_succ_eq_map, List.map_cons, List.map_map]
    have hk : ∀ k, i + size + k * size = i + (k + 1) * size := fun k => by
      rw [Nat.succ_mul]
      omega
    simp only [Function.comp_def, hk, Nat.zero_mul, Nat.add_zero, Nat.succ_eq_add_one]

theorem finds_header : Finds Header.read Header.size Header.at := by
  intro b i h
  have h : i + 15 * 4 ≤ b.length := h
  rw [Header.read, finds_int32.many 15 b i h]
  rfl

/-! ## 3. Readers need what they take. -/

/-- What a reader takes off the front is `size` bytes long. -/
def Takes (r : Reader α) (size : Nat) : Prop :=
  ∀ (b : Bytes) (x : α) (rest : Bytes), r b = some (x, rest) → b.length = rest.length + size

theorem takes_int32 : Takes int32 4 := by
  intro b x rest h
  obtain ⟨⟨n, rest'⟩, hw, h'⟩ := Option.map_eq_some_iff.mp h
  cases h'
  unfold word at hw
  split at hw
  · cases hw
    rfl
  · cases hw

theorem Takes.many {r : Reader α} {size : Nat} (h : Takes r size) (n : Nat) : Takes (many r n) (n * size) := by
  induction n with
  | zero =>
    intro b xs rest hb
    cases hb
    rw [Nat.zero_mul, Nat.add_zero]
  | succ n ih =>
    intro b xs rest hb
    rw [Reader.many] at hb
    cases hr : r b with
    | none => rw [hr] at hb; cases hb
    | some p =>
      obtain ⟨x, mid⟩ := p
      rw [hr] at hb
      cases hm : Reader.many r n mid with
      | none => simp only [hm] at hb; cases hb
      | some q =>
        simp only [hm] at hb
        cases hb
        have hx := h b x mid hr
        have hxs := ih mid q.1 q.2 hm
        rw [Nat.succ_mul]
        omega

/-- Fifteen numbers are not read from fewer than sixty bytes. -/
theorem read_header_of_short {b : Bytes} (h : b.length < 60) : Header.read b = none := by
  rw [Header.read, Option.map_eq_none_iff, Option.eq_none_iff_forall_ne_some]
  intro p hp
  have := takes_int32.many 15 b p.1 p.2 hp
  omega

end Reader

end QuakeProgs
