/-
  File:      QuakeProgs/Proofs/Store/Layout.lean
  Subject:   RECORDS IN ONE ARRAY OF WORDS: each has its own range, and only its own.

  A batch keeps the words of its records one after the other. Record `i` has those from `i * width` up to
  `(i + 1) * width`. That these lie within the array, and that no two records share a word, is arithmetic,
  and it is done here once.

  * `Batch.Whole` -- a batch has the words of all its records;
  * `range_within`, `ranges_apart` -- the arithmetic;
  * `Batch.edicts` -- the records of a batch in one list, and `Whole.edict?_eq`: looking one up;
  * `Whole.edicts_modify` -- changing one record changes one place of the list;
  * `Batch.range?`, `Batch.range?_eq` -- the same ranges in 64-bit arithmetic: nothing wraps around in a batch
    that fits into memory.
-/
import QuakeProgs.EdictStore

namespace QuakeProgs

/-! ## 1. Ranges of words. -/

/-- The range of a record lies within the words of all. -/
theorem range_within {i n : Nat} (h : i < n) (width : Nat) : i * width + width ≤ n * width := by
  rw [← Nat.succ_mul]
  exact Nat.mul_le_mul_right width h

/-- **Two records share no word**: one ends before the other begins. -/
theorem ranges_apart {i j : Nat} (h : i ≠ j) (width : Nat) :
    i * width + width ≤ j * width ∨ j * width + width ≤ i * width :=
  (Nat.lt_or_gt_of_ne h).imp (range_within · width) (range_within · width)

/-- A product of sizes that is small enough is the same in 64 bits. -/
theorem toNat_mul_toUInt64 (n width : Nat) (hn : n < 0x10000000000000000) (hw : width < 0x10000000000000000)
    (small : n * width < 0x10000000000000000) : (n.toUInt64 * width.toUInt64).toNat = n * width := by
  rw [UInt64.toNat_mul, UInt64.toNat_ofNat_of_lt' hn, UInt64.toNat_ofNat_of_lt' hw]
  exact Nat.mod_eq_of_lt small

namespace Block

variable {b : Array Word} {ofs n : Nat} {ws : List Word}

theorem slice?_eq_some (h : ofs + n ≤ b.size) : slice? b ofs n = some (b.extract ofs (ofs + n)) := if_pos h

/-- The words that were written are read back. -/
theorem extract_writeFrom (h : ofs + ws.length ≤ b.size) :
    (writeFrom b ofs ws).extract ofs (ofs + ws.length) = ws.toArray := by
  refine Array.ext_getElem? fun i => ?_
  have wanted : ws.toArray[i]? = ws[i]? := List.getElem?_toArray
  rw [wanted, Array.getElem?_extract, size_writeFrom, Nat.min_eq_left h, Nat.add_sub_cancel_left]
  by_cases hi : i < ws.length
  · rw [if_pos hi, getElem?_writeFrom _ _ _ _ h, if_pos (by omega), Nat.add_sub_cancel_left]
  · rw [if_neg hi, List.getElem?_eq_none (by omega)]

/-- All other words are as they were. -/
theorem extract_writeFrom_apart (h : ofs + ws.length ≤ b.size) (lo hi : Nat)
    (apart : hi ≤ ofs ∨ ofs + ws.length ≤ lo) :
    (writeFrom b ofs ws).extract lo hi = b.extract lo hi := by
  refine Array.ext_getElem? fun i => ?_
  rw [Array.getElem?_extract, Array.getElem?_extract, size_writeFrom]
  split
  · rw [getElem?_writeFrom _ _ _ _ h, if_neg (by omega)]
  · rfl

end Block

/-- A change of a record that keeps its number of words. -/
def KeepsWidth (width : Nat) (change : Edict → Edict) : Prop :=
  ∀ e, e.fields.size = width → (change e).fields.size = width

theorem keepsWidth_overwrite (width ofs : Nat) (ws : List Word) : KeepsWidth width (·.overwrite ofs ws) :=
  fun _ h => (Block.size_writeFrom _ _ _).trans h

theorem keepsWidth_clear (width : Nat) (free : Bool) (time : Single) :
    KeepsWidth width fun e => { e.clear with free := free, freeTime := time } :=
  fun e h => e.size_clear.trans h

/-! ## 2. The records of a batch. -/

namespace Batch

variable {b : Batch} {width i : Nat}

/-- **A batch has the words of all its records.** -/
def Whole (width : Nat) (b : Batch) : Prop := b.fields.size = b.headers.size * width

/-- The records of a batch, one after the other. -/
def edicts (width : Nat) (b : Batch) : List Edict :=
  b.headers.toList.mapIdx fun i h =>
    { free := h.free, freeTime := h.freeTime, fields := b.fields.extract (i * width) (i * width + width) }

theorem length_edicts (width : Nat) (b : Batch) : (b.edicts width).length = b.headers.size := by
  rw [edicts, List.length_mapIdx, Array.length_toList]

theorem getElem?_edicts (width : Nat) (b : Batch) (i : Nat) :
    (b.edicts width)[i]? = b.headers[i]?.map fun h =>
      { free := h.free, freeTime := h.freeTime, fields := b.fields.extract (i * width) (i * width + width) } := by
  rw [edicts, List.getElem?_mapIdx, Array.getElem?_toList]

/-- **Looking a record up** is looking it up in the list. -/
theorem Whole.edict?_eq (h : b.Whole width) (i : Nat) : b.edict? width i = (b.edicts width)[i]? := by
  rw [edict?, getElem?_edicts]
  by_cases hi : i < b.headers.size
  · have range : i * width + width ≤ b.fields.size := h ▸ range_within hi width
    rw [Array.getElem?_eq_getElem hi, Block.slice?_eq_some range]
    rfl
  · rw [Array.getElem?_eq_none (Nat.le_of_not_lt hi)]
    rfl

/-- What is noted about a record is found without its words. -/
theorem getElem?_headers (width : Nat) (b : Batch) (i : Nat) :
    b.headers[i]? = ((b.edicts width)[i]?).map Edict.header := by
  rw [getElem?_edicts, Option.map_map]
  cases b.headers[i]? <;> rfl

theorem mem_edicts_width (h : b.Whole width) {e : Edict} (he : e ∈ b.edicts width) : e.fields.size = width := by
  obtain ⟨i, found⟩ := List.mem_iff_getElem?.mp he
  have below := (List.getElem?_eq_some_iff.mp found).1
  rw [length_edicts] at below
  have range : i * width + width ≤ b.fields.size := h ▸ range_within below width
  rw [getElem?_edicts, Array.getElem?_eq_getElem below, Option.map_some] at found
  cases found
  rw [Array.size_extract, Nat.min_eq_left range, Nat.add_sub_cancel_left]

/-! ## 3. What changes a batch. -/

theorem start_modify (b : Batch) (width i : Nat) (change : Edict → Edict) :
    (b.modify width i change).start = b.start := by
  unfold modify
  split <;> rfl

theorem size_headers_modify (b : Batch) (width i : Nat) (change : Edict → Edict) :
    (b.modify width i change).headers.size = b.headers.size := by
  unfold modify
  split
  · exact Array.size_setIfInBounds
  · rfl

theorem Whole.modify (h : b.Whole width) (i : Nat) (change : Edict → Edict) :
    (b.modify width i change).Whole width := by
  unfold Batch.modify
  split
  · rw [Whole, Block.size_writeFrom, Array.size_setIfInBounds]
    exact h
  · exact h

/-- **Changing one record** changes its place in the list, and no other. -/
theorem Whole.edicts_modify (h : b.Whole width) (i : Nat) {change : Edict → Edict}
    (keeps : KeepsWidth width change) :
    (b.modify width i change).edicts width = (b.edicts width).modify i change := by
  unfold Batch.modify
  rw [h.edict?_eq]
  cases found : (b.edicts width)[i]? with
  | none =>
    rw [List.modify_eq_self]
    exact List.getElem?_eq_none_iff.mp found
  | some e =>
    have below := (List.getElem?_eq_some_iff.mp found).1
    rw [length_edicts] at below
    have kept := keeps e (mem_edicts_width h (List.mem_of_getElem? found))
    have length : (change e).fields.toList.length = width := Array.length_toList.trans kept
    have all : (change e).fields.toList.take width = (change e).fields.toList :=
      List.take_of_length_le (Nat.le_of_eq length)
    have range : i * width + (change e).fields.toList.length ≤ b.fields.size := by
      rw [length]
      exact h ▸ range_within below width
    refine List.ext_getElem? fun j => ?_
    rw [getElem?_edicts, List.getElem?_modify]
    dsimp only
    by_cases same : i = j
    · subst same
      have written := Block.extract_writeFrom range
      rw [length, Array.toArray_toList] at written
      rw [found, all, Array.getElem?_setIfInBounds_self_of_lt below, written]
      simp [Edict.header]
    · have apart := Block.extract_writeFrom_apart range (j * width) (j * width + width)
        (by rw [length]; exact (ranges_apart same width).symm)
      rw [all, Array.getElem?_setIfInBounds_ne same, apart, ← getElem?_edicts]
      simp [same]

theorem whole_blank (start width n : Nat) : (blank start width n).Whole width := by
  rw [Whole, blank, Array.size_replicate, Array.size_replicate]

/-- The records of a fresh batch are blank. -/
theorem edicts_blank (start width n : Nat) :
    (blank start width n).edicts width = List.replicate n (.blank width) := by
  refine List.ext_getElem? fun i => ?_
  rw [getElem?_edicts, blank, Array.getElem?_replicate, List.getElem?_replicate]
  split
  · next below =>
    have words : (Array.replicate (n * width) (0 : Word)).extract (i * width) (i * width + width) =
        Array.replicate width 0 := by
      rw [Array.extract_replicate, Nat.min_eq_left (range_within below width), Nat.add_sub_cancel_left]
    simp only [Option.map_some, words, Edict.blank]
  · rfl

theorem Whole.reset (h : b.Whole width) : b.reset.Whole width := by
  rw [Whole, Batch.reset, Array.size_map, Array.size_map]
  exact h

/-- A reset leaves blank records. -/
theorem Whole.edicts_reset (h : b.Whole width) :
    b.reset.edicts width = List.replicate b.headers.size (.blank width) := by
  have same : b.reset = blank b.start width b.headers.size := by
    rw [Batch.reset, blank, Array.map_const', Array.map_const', h]
  rw [same, edicts_blank]

/-! ## 4. In 64-bit arithmetic. -/

/-- Where the words of a record begin and end, with all sizes counted in 64 bits: the batch has `size` words, and
    the record those from `first` up to `last`. A range that ends before it begins, or past the last word, is
    none. -/
def range? (b : Batch) (width i : UInt64) : Option (Nat × Nat) :=
  let size := b.headers.size.toUInt64 * width
  let first := i * width
  let last := (i + 1) * width
  if first ≤ last ∧ last ≤ size then some (first.toNat, last.toNat) else none

/-- What fits into memory is counted without wrapping around. -/
theorem fits_bounds {width n : Nat} (h : fits width n) :
    n < 0x1000000000000000 ∧ n * width < 0x2000000000000000 := by
  simp only [fits, Bool.and_eq_true, decide_eq_true_eq] at h
  omega

/-- **In 64 bits** a record of a batch that fits has the same range. -/
theorem range?_eq (h : fits width b.headers.size) (below : i < b.headers.size) :
    b.range? width.toUInt64 i.toUInt64 = some (i * width, i * width + width) := by
  obtain ⟨few, small⟩ := fits_bounds h
  have range := range_within below width
  have next : i.toUInt64 + 1 = (i + 1).toUInt64 := (UInt64.ofNat_add i 1).symm
  have narrow : width < 0x10000000000000000 := by omega
  have hsize := toNat_mul_toUInt64 b.headers.size width (by omega) narrow (by omega)
  have hfirst := toNat_mul_toUInt64 i width (by omega) narrow (by omega)
  have hlast := toNat_mul_toUInt64 (i + 1) width (by omega) narrow (by rw [Nat.succ_mul]; omega)
  rw [Nat.succ_mul] at hlast
  have within : i.toUInt64 * width.toUInt64 ≤ (i + 1).toUInt64 * width.toUInt64 ∧
      (i + 1).toUInt64 * width.toUInt64 ≤ b.headers.size.toUInt64 * width.toUInt64 := by
    rw [UInt64.le_iff_toNat_le, UInt64.le_iff_toNat_le, hsize, hfirst, hlast]
    exact ⟨Nat.le_add_right _ _, range⟩
  rw [range?]
  simp only [next, if_pos within, hfirst, hlast]

/-- Where the words of a batch are so many that their number wraps around to none, no record has its words. -/
theorem range?_eq_none {width : UInt64} (wraps : b.headers.size.toUInt64 * width = 0) (wide : width ≠ 0)
    (i : UInt64) : b.range? width i = none := by
  refine if_neg fun ⟨ordered, within⟩ => wide ?_
  have last : (i + 1) * width = 0 := UInt64.le_zero_iff.mp (wraps ▸ within)
  have first : i * width = 0 := UInt64.le_zero_iff.mp (last ▸ ordered)
  rw [UInt64.add_mul, first, UInt64.zero_add, UInt64.one_mul] at last
  exact last

end Batch

namespace EdictStore

/-- Where the words of the record with a number lie, with all sizes counted in 64 bits: the batch, and their range
    in it. -/
def rangeAt? (s : EdictStore) (index : Nat) : Option (Nat × Nat × Nat) :=
  if index < s.count then
    match s.locate? index with
    | some (b, i) => s.batches[b]?.bind fun batch => (batch.range? s.fieldWords.toUInt64 i.toUInt64).map (b, ·)
    | none => none
  else none

/-- The words of the record with a number, with all sizes counted in 64 bits. -/
def wordsAt? (s : EdictStore) (index : Nat) : Option (Array Word) :=
  (s.rangeAt? index).bind fun (b, first, last) => s.batches[b]?.map fun batch => batch.fields.extract first last

end EdictStore

end QuakeProgs
