/-
  File:      QuakeProgs/Proofs/Store/Packing.lean
  Subject:   POINTERS AS WORDS: an entity and a field of it in 32 bits.

  A pointer is packed as the number of words that lie before it when the records stand in a row: those of the entities
  before its own, then the fields before its own. Division by the width of a record gives both back, and nothing is
  lost as long as that number fits a word.

  * `FieldPointer.encode_eq_ok_iff` -- the word of a pointer, and when there is one;
  * `FieldPointer.decode_eq_ok_iff` -- the pointer in a word, and when there is one;
  * `FieldPointer.decode_eq_ok_iff_encode` -- a word is unpacked to the one pointer that is packed to it;
  * `FieldPointer.encode_eq_ok_iff_unwrapped` -- the same word in arithmetic of 64 bits, where no step wraps;
  * `FieldPointer.packs_one_to_one` -- pointers and words correspond one to one.
-/
import QuakeProgs.Edict

namespace QuakeProgs

namespace FieldPointer

variable {p q : FieldPointer} {fieldWords count : Nat} {ptr : Word}

/-! ## 1. Packing and unpacking. -/

/-- **The word of a pointer** is the number of words before it, for a field that the record has. -/
theorem encode_eq_ok_iff :
    p.encode fieldWords = .ok ptr ↔
      p.field < fieldWords ∧ p.edict.toNat * fieldWords + p.field = ptr.toNat := by
  have small := ptr.toNat_lt
  rw [encode]
  by_cases outside : p.field ≥ fieldWords
  · rw [if_pos outside]
    exact ⟨nofun, fun packed => absurd packed.1 (Nat.not_lt_of_ge outside)⟩
  · rw [if_neg outside, and_iff_right (Nat.lt_of_not_ge outside)]
    dsimp only
    by_cases fits : p.edict.toNat * fieldWords + p.field < 0x100000000
    · rw [if_pos fits, Except.ok.injEq, ← UInt32.toNat_inj, Nat.toUInt32_eq, UInt32.toNat_ofNat_of_lt' fits]
    · rw [if_neg fits]
      exact ⟨nofun, fun same => absurd (same ▸ small) fits⟩

/-- The quotient of a word is a word, so the number of an entity that is unpacked is not cut short. -/
theorem quotient_lt_size (ptr : Word) (n : Nat) : ptr.toNat / n < UInt32.size :=
  Nat.lt_of_le_of_lt (Nat.div_le_self _ _) ptr.toNat_lt_size

/-- **The pointer in a word** is the quotient and the remainder by the width of a record, for an entity that is
    there. -/
theorem decode_eq_ok_iff :
    decode ptr fieldWords count = .ok p ↔
      0 < fieldWords ∧ ptr.toNat / fieldWords < count ∧
        ptr.toNat / fieldWords = p.edict.toNat ∧ ptr.toNat % fieldWords = p.field := by
  rw [decode]
  by_cases refused : fieldWords = 0 ∨ ptr.toNat / fieldWords ≥ count
  · rw [if_pos refused]
    exact ⟨nofun, fun ⟨positive, known, _⟩ => by omega⟩
  · have positive : 0 < fieldWords := by omega
    have known : ptr.toNat / fieldWords < count := by omega
    obtain ⟨entity, field⟩ := p
    rw [if_neg refused, and_iff_right positive, and_iff_right known, Except.ok.injEq, FieldPointer.mk.injEq,
      ← UInt32.toNat_inj, Nat.toUInt32_eq, UInt32.toNat_ofNat_of_lt' (quotient_lt_size ptr fieldWords)]

/-- **Packing and unpacking are one relation**: a word is unpacked to the pointer that is packed to it, by every store
    that has the entity. -/
theorem decode_eq_ok_iff_encode :
    decode ptr fieldWords count = .ok p ↔ p.edict.toNat < count ∧ p.encode fieldWords = .ok ptr := by
  rw [decode_eq_ok_iff, encode_eq_ok_iff]
  constructor
  · rintro ⟨positive, known, entity, field⟩
    obtain ⟨sum, inside⟩ := (Nat.div_mod_unique positive).mp ⟨entity, field⟩
    rw [Nat.add_comm, Nat.mul_comm] at sum
    exact ⟨entity ▸ known, inside, sum⟩
  · rintro ⟨known, inside, sum⟩
    have positive : 0 < fieldWords := Nat.zero_lt_of_lt inside
    rw [Nat.add_comm, Nat.mul_comm] at sum
    obtain ⟨entity, field⟩ := (Nat.div_mod_unique positive).mpr ⟨sum, inside⟩
    exact ⟨positive, entity ▸ known, entity, field⟩

/-- **A pointer that was packed is unpacked** by every store of the same width that has the entity. -/
theorem decode_of_encode (packed : p.encode fieldWords = .ok ptr) (known : p.edict.toNat < count) :
    decode ptr fieldWords count = .ok p := decode_eq_ok_iff_encode.mpr ⟨known, packed⟩

/-- No two pointers share a word: a store that has both entities could unpack it to only one of them. -/
theorem eq_of_encode (first : p.encode fieldWords = .ok ptr) (second : q.encode fieldWords = .ok ptr) : p = q := by
  let count := max p.edict.toNat q.edict.toNat + 1
  have one : decode ptr fieldWords count = .ok p := decode_of_encode first (by omega)
  have other : decode ptr fieldWords count = .ok q := decode_of_encode second (by omega)
  exact Except.ok.inj (one.symm.trans other)

/-! ## 2. Where there is a word, and where there is a pointer. -/

theorem exists_encode_iff :
    (∃ ptr, p.encode fieldWords = .ok ptr) ↔
      p.field < fieldWords ∧ p.edict.toNat * fieldWords + p.field < UInt32.size := by
  simp only [encode_eq_ok_iff, exists_and_left]
  refine and_congr_right fun _ => ⟨?_, fun fits => ?_⟩
  · rintro ⟨ptr, sum⟩
    exact sum ▸ ptr.toNat_lt_size
  · exact ⟨.ofNat (p.edict.toNat * fieldWords + p.field), (UInt32.toNat_ofNat_of_lt' fits).symm⟩

theorem exists_decode_iff :
    (∃ p, decode ptr fieldWords count = .ok p) ↔ 0 < fieldWords ∧ ptr.toNat / fieldWords < count := by
  simp only [decode_eq_ok_iff]
  constructor
  · rintro ⟨p, positive, known, -⟩
    exact ⟨positive, known⟩
  · rintro ⟨positive, known⟩
    exact ⟨⟨.ofNat (ptr.toNat / fieldWords), ptr.toNat % fieldWords⟩, positive, known,
      (UInt32.toNat_ofNat_of_lt' (quotient_lt_size ptr fieldWords)).symm, rfl⟩

/-! ## 3. Arithmetic of 64 bits. -/

/-- **In words of 64 bits** a pointer is packed to the same word, as long as neither the product nor the sum wraps;
    where one of them does, there is no word. -/
theorem encode_eq_ok_iff_unwrapped {entity : EdictId} {field width : UInt64} :
    encode ⟨entity, field.toNat⟩ width.toNat = .ok ptr ↔
      field < width ∧
      ¬ entity.toUInt64.toBitVec.umulOverflow width.toBitVec ∧
      ¬ (entity.toUInt64 * width).toBitVec.uaddOverflow field.toBitVec ∧
      entity.toUInt64 * width + field = ptr.toUInt64 := by
  let base := entity.toUInt64 * width
  have product : ¬ entity.toUInt64.toBitVec.umulOverflow width.toBitVec →
      base.toNat = entity.toNat * width.toNat := by
    intro unwrapped
    rw [← UInt32.toNat_toUInt64]
    exact BitVec.toNat_mul_of_not_umulOverflow unwrapped
  have total : ¬ base.toBitVec.uaddOverflow field.toBitVec → (base + field).toNat = base.toNat + field.toNat :=
    BitVec.toNat_add_of_not_uaddOverflow
  rw [encode_eq_ok_iff, UInt64.lt_iff_toNat_lt, ← UInt64.toNat_inj, UInt32.toNat_toUInt64]
  refine and_congr_right fun _ => ⟨fun sum => ?_, fun ⟨first, second, sum⟩ => ?_⟩
  · -- the sum fits 32 bits, so both steps fit 64
    have small := ptr.toNat_lt
    dsimp only at sum
    have first : ¬ entity.toUInt64.toBitVec.umulOverflow width.toBitVec := by
      rw [BitVec.umulOverflow, decide_eq_true_iff, UInt64.toNat_toBitVec, UInt64.toNat_toBitVec,
        UInt32.toNat_toUInt64]
      omega
    have second : ¬ base.toBitVec.uaddOverflow field.toBitVec := by
      rw [BitVec.uaddOverflow, decide_eq_true_iff, UInt64.toNat_toBitVec, UInt64.toNat_toBitVec, product first]
      omega
    exact ⟨first, second, by rw [total second, product first, sum]⟩
  · rw [← sum, total second, product first]

/-! ## 4. One to one. -/

/-- **Pointers and words correspond one to one**, for records of any width and any count of entities. A pointer is
    packed exactly if the record has the field and the number of words before it, counted without wrapping, fits a
    word; a word is unpacked exactly if the records have words and the store has the entity. Every store that has the
    entity unpacks the word of a pointer to that pointer, and a pointer that came out of a word has a field of the
    record and is packed to that word again; so no two pointers share a word. In arithmetic of 64 bits the word is
    the same, and there is none where a step wraps. -/
theorem packs_one_to_one (fieldWords count : Nat) :
    (∀ p : FieldPointer, (∃ ptr, p.encode fieldWords = .ok ptr) ↔
      p.field < fieldWords ∧ p.edict.toNat * fieldWords + p.field < UInt32.size) ∧
    (∀ ptr : Word, (∃ p, decode ptr fieldWords count = .ok p) ↔
      0 < fieldWords ∧ ptr.toNat / fieldWords < count) ∧
    (∀ (p : FieldPointer) (ptr : Word), p.encode fieldWords = .ok ptr → p.edict.toNat < count →
      decode ptr fieldWords count = .ok p) ∧
    (∀ (ptr : Word) (p : FieldPointer), decode ptr fieldWords count = .ok p →
      p.field < fieldWords ∧ p.encode fieldWords = .ok ptr) ∧
    (∀ (p q : FieldPointer) (ptr : Word), p.encode fieldWords = .ok ptr → q.encode fieldWords = .ok ptr → p = q) ∧
    (∀ (entity : EdictId) (field width : UInt64) (ptr : Word),
      encode ⟨entity, field.toNat⟩ width.toNat = .ok ptr ↔
        field < width ∧
        ¬ entity.toUInt64.toBitVec.umulOverflow width.toBitVec ∧
        ¬ (entity.toUInt64 * width).toBitVec.uaddOverflow field.toBitVec ∧
        entity.toUInt64 * width + field = ptr.toUInt64) := by
  refine ⟨fun _ => exists_encode_iff, fun _ => exists_decode_iff, fun _ _ => decode_of_encode, ?_,
    fun _ _ _ => eq_of_encode, fun _ _ _ _ => encode_eq_ok_iff_unwrapped⟩
  intro ptr p unpacked
  obtain ⟨-, packed⟩ := decode_eq_ok_iff_encode.mp unpacked
  exact ⟨(encode_eq_ok_iff.mp packed).1, packed⟩

/-- Records of 65537 words reach the last word with the first field of entity 65535, and its second field has no word.
    With records of `2 ^ 63` words entity 2 has no words either, though the product wraps to that of the world. -/
theorem packs_one_to_one_last_word :
    encode ⟨65535, 0⟩ 65537 = .ok 0xffffffff ∧
    decode 0xffffffff 65537 65536 = .ok ⟨65535, 0⟩ ∧
    (∀ q : FieldPointer, q.encode 65537 = .ok 0xffffffff → q = ⟨65535, 0⟩) ∧
    (¬ ∃ ptr, encode ⟨65535, 1⟩ 65537 = .ok ptr) ∧
    (2 : UInt64) * 0x8000000000000000 = 0 ∧
    (∃ ptr, encode ⟨0, 5⟩ 0x8000000000000000 = .ok ptr) ∧
    (¬ ∃ ptr, encode ⟨2, 5⟩ 0x8000000000000000 = .ok ptr) := by
  obtain ⟨packable, -, unpacks, -, apart, -⟩ := packs_one_to_one 65537 65536
  obtain ⟨wide, -⟩ := packs_one_to_one 0x8000000000000000 1
  have last : encode ⟨65535, 0⟩ 65537 = .ok 0xffffffff := encode_eq_ok_iff.mpr (by decide +kernel)
  have alone : ∀ q : FieldPointer, q.encode 65537 = .ok 0xffffffff → q = ⟨65535, 0⟩ :=
    fun q packed => apart _ _ _ packed last
  refine ⟨last, unpacks _ _ last (by decide +kernel), alone, ?_, by decide, ?_, ?_⟩
  · rw [packable]
    decide
  · rw [wide]
    decide
  · rw [wide]
    decide

end FieldPointer

end QuakeProgs
