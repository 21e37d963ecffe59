/-
  File:      QuakeProgs/Proofs/Snapshot/Encoding.lean
  Subject:   A SAVED STATE AS BYTES READS BACK AS IT WAS, bit for bit.

  Numbers, lengths and texts are written in the shortest of several forms, and the reader must tell from
  the marker which one it has. Everything here is said of bytes with anything behind them, so that what
  was proved of an item can be used of the container it lies in.

  * `Decoder.Restores` -- a decoder takes off the front exactly what was written there, whatever follows;
  * `Decoder.restores_below`, `.restores_list`, `.restores_exactly` -- numbers and sequences, in every form
    they are written in;
  * `Decoder.Fills` -- the entries of a map, one after the other, each going into a field not yet read;
  * `Decoder.Fills.record` -- a record is restored entry by entry;
  * `Snapshot.decode_encode` -- so is a whole saved state.
-/
import Mathlib.Algebra.GroupWithZero.Nat
import QuakeProgs.Snapshot

namespace QuakeProgs

open MessagePack

/-! ## 1. One thing after the other. -/

namespace Decoder

variable {α β σ : Type}

/-- **A decoder restores `x` from the bytes** it was written as, and leaves what follows. -/
def Restores (d : Decoder α) (bytes : Bytes) (x : α) : Prop :=
  ∀ rest, d (bytes ++ rest) = .ok (x, rest)

theorem Restores.pure (x : α) : Restores (Pure.pure x) [] x := fun _ => rfl

/-- Two items, one behind the other. -/
theorem Restores.bind {d : Decoder α} {f : α → Decoder β} {xs ys : Bytes} {x : α} {y : β}
    (hd : Restores d xs x) (hf : Restores (f x) ys y) : Restores (d >>= f) (xs ++ ys) y := by
  intro rest
  have first := hd (ys ++ rest)
  rw [← List.append_assoc] at first
  show (d (xs ++ ys ++ rest) >>= fun p => f p.1 p.2) = _
  rw [first]
  exact hf rest

/-- An item, and then a value made of it. -/
theorem Restores.map {d : Decoder α} {xs : Bytes} {x : α} (hd : Restores d xs x) (f : α → β) :
    Restores (do return f (← d)) xs (f x) := by
  have both := hd.bind (f := fun a => Pure.pure (f a)) (Restores.pure (f x))
  rwa [List.append_nil] at both

/-- A marker decides how the rest of its item is read. -/
theorem restores_marker {f : Marker → Decoder α} {b : UInt8} {ys : Bytes} {y : α}
    (h : Restores (f (.ofByte b)) ys y) : Restores (marker >>= f) (b :: ys) y := by
  have first : Restores marker [b] (.ofByte b) := fun _ => rfl
  exact first.bind h

/-! ## 2. Numbers. -/

/-- Big-endian bytes carry a number up to their width. -/
theorem unsigned_bigEndian (width high n : Nat) (rest : Bytes) :
    unsigned width high (bigEndian width n ++ rest) = .ok (256 ^ width * high + n % 256 ^ width, rest) := by
  induction width generalizing high with
  | zero => simp [unsigned, bigEndian, Nat.mod_one]
  | succ width ih =>
    have digit : (n >>> (8 * width)).toUInt8.toNat = n / 256 ^ width % 256 := by
      rw [Nat.shiftRight_eq_div_pow, Nat.pow_mul, Nat.toUInt8_eq, UInt8.toNat_ofNat']
    rw [bigEndian, List.cons_append, unsigned, ih, digit]
    have split : n % 256 ^ (width + 1) = n % 256 ^ width + 256 ^ width * (n / 256 ^ width % 256) := by
      rw [Nat.pow_succ, Nat.mod_mul]
    rw [split, Nat.pow_succ, Nat.mul_add, Nat.mul_assoc, Nat.add_assoc, Nat.add_comm (n % 256 ^ width)]

theorem restores_unsigned {width n : Nat} (h : n < 256 ^ width) :
    Restores (unsigned width 0) (bigEndian width n) n := by
  intro rest
  rw [unsigned_bigEndian, Nat.mul_zero, Nat.zero_add, Nat.mod_eq_of_lt h]

/-- The marker of a short form carries the value itself. -/
theorem ofByte_fixPos {n : Nat} (h : n < 0x80) : Marker.ofByte n.toUInt8 = .fixPos n := by
  simp only [Marker.ofByte, Nat.toUInt8_eq, UInt8.toNat_ofNat']
  rw [Nat.mod_eq_of_lt (by omega), if_pos h]

theorem ofByte_fixMap {n : Nat} (h : n < 0x10) : Marker.ofByte (0x80 + n).toUInt8 = .fixMap n := by
  simp only [Marker.ofByte, Nat.toUInt8_eq, UInt8.toNat_ofNat']
  rw [Nat.mod_eq_of_lt (by omega), if_neg (by omega), if_pos (by omega), Nat.add_sub_cancel_left]

theorem ofByte_fixArray {n : Nat} (h : n < 0x10) : Marker.ofByte (0x90 + n).toUInt8 = .fixArray n := by
  simp only [Marker.ofByte, Nat.toUInt8_eq, UInt8.toNat_ofNat']
  rw [Nat.mod_eq_of_lt (by omega), if_neg (by omega), if_neg (by omega), if_pos (by omega),
    Nat.add_sub_cancel_left]

theorem ofByte_fixStr {n : Nat} (h : n < 0x20) : Marker.ofByte (0xa0 + n).toUInt8 = .fixStr n := by
  simp only [Marker.ofByte, Nat.toUInt8_eq, UInt8.toNat_ofNat']
  rw [Nat.mod_eq_of_lt (by omega), if_neg (by omega), if_neg (by omega), if_neg (by omega), if_pos (by omega),
    Nat.add_sub_cancel_left]

/-- A number behind its marker. -/
theorem restores_uint {b : UInt8} {width n : Nat} (hb : Marker.ofByte b = .uint width) (h : n < 256 ^ width) :
    Restores scalar (b :: bigEndian width n) (.int n) := by
  refine restores_marker ?_
  rw [hb]
  exact (restores_unsigned h).map fun k => Found.int k

/-- **A number of any size**, in the shortest of its five forms. -/
theorem restores_nat {n : Nat} (h : n < 2 ^ 64) : Restores scalar (nat n) (.int n) := by
  unfold nat
  split
  · next short =>
    refine restores_marker ?_
    rw [ofByte_fixPos short]
    exact .pure _
  split
  · exact restores_uint rfl (by omega)
  split
  · exact restores_uint rfl (by omega)
  split
  · exact restores_uint rfl (by omega)
  · exact restores_uint rfl (by omega)

theorem restores_below {bound n : Nat} (h : n < bound) (wide : bound ≤ 2 ^ 64) (name : String) :
    Restores (below bound name) (nat n) n := by
  have number := restores_nat (Nat.lt_of_lt_of_le h wide)
  rw [← List.append_nil (nat n)]
  refine number.bind ?_
  simp only
  rw [if_pos (by omega), Int.toNat_natCast]
  exact .pure n

theorem restores_uint8 (n : UInt8) : Restores uint8 (nat n.toNat) n := by
  have number := (restores_below n.toNat_lt (by decide) "u8").map Nat.toUInt8
  rwa [Nat.toUInt8_eq, UInt8.ofNat_toNat] at number

theorem restores_uint16 (n : UInt16) : Restores uint16 (nat n.toNat) n := by
  have number := (restores_below n.toNat_lt (by decide) "u16").map Nat.toUInt16
  rwa [Nat.toUInt16_eq, UInt16.ofNat_toNat] at number

theorem restores_uint32 (n : UInt32) : Restores uint32 (nat n.toNat) n := by
  have number := (restores_below n.toNat_lt (by decide) "u32").map Nat.toUInt32
  rwa [Nat.toUInt32_eq, UInt32.ofNat_toNat] at number

theorem restores_uint64 (n : UInt64) : Restores uint64 (nat n.toNat) n := by
  have number := (restores_below n.toNat_lt (by decide) "usize").map Nat.toUInt64
  rwa [Nat.toUInt64_eq, UInt64.ofNat_toNat] at number

theorem restores_flag (b : Bool) : Restores bool (flag b) b := by
  intro rest
  cases b <;> rfl

/-- A single keeps its bits, whatever number they stand for. -/
theorem restores_single (x : Single) : Restores Decoder.single (MessagePack.single x) x := by
  have bits : Restores scalar (MessagePack.single x) (.single x) := by
    refine restores_marker ?_
    have word := (restores_unsigned (show x.bits.toNat < 256 ^ 4 from x.bits.toNat_lt)).map
      fun k => Found.single ⟨k.toUInt32⟩
    rwa [Nat.toUInt32_eq, UInt32.ofNat_toNat] at word
  rw [← List.append_nil (MessagePack.single x)]
  exact bits.bind (Restores.pure x)

/-! ## 3. Sequences. -/

/-- The head of a sequence announces its length, in one of three forms. -/
theorem sequenceHead_cases {n : Nat} (h : n < 2 ^ 32) :
    ∃ b tail read, sequenceHead n = b :: tail ∧ sequenceLength? (.ofByte b) = some read ∧
      Restores read tail n := by
  unfold sequenceHead
  split
  · next short => exact ⟨_, _, _, rfl, by rw [ofByte_fixArray short]; rfl, .pure n⟩
  split
  · exact ⟨_, _, _, rfl, rfl, restores_unsigned (by omega)⟩
  · exact ⟨_, _, _, rfl, rfl, restores_unsigned (by omega)⟩

/-- Items one after the other. -/
theorem restores_times {item : Decoder α} {write : α → Bytes} {xs : List α}
    (h : ∀ x ∈ xs, Restores item (write x) x) : Restores (times item xs.length) (xs.flatMap write) xs := by
  induction xs with
  | nil => exact .pure []
  | cons x xs ih =>
    have later := ih fun y hy => h y (List.mem_cons_of_mem x hy)
    exact (h x List.mem_cons_self).bind (later.map fun ys => x :: ys)

/-- **A sequence of any length.** -/
theorem restores_list {item : Decoder α} {write : α → Bytes} {xs : List α}
    (h : ∀ x ∈ xs, Restores item (write x) x) (short : xs.length < 2 ^ 32) :
    Restores (list item) (sequence write xs) xs := by
  obtain ⟨b, tail, read, head, announced, length⟩ := sequenceHead_cases short
  rw [MessagePack.sequence, head]
  refine restores_marker ?_
  rw [announced]
  exact length.bind (restores_times h)

/-- A sequence of a length that was agreed on. -/
theorem restores_exactly {item : Decoder α} {write : α → Bytes} {xs : List α}
    (h : ∀ x ∈ xs, Restores item (write x) x) (short : xs.length < 2 ^ 32) :
    Restores (exactly xs.length item) (sequence write xs) xs := by
  obtain ⟨b, tail, read, head, announced, length⟩ := sequenceHead_cases short
  rw [MessagePack.sequence, head]
  refine restores_marker ?_
  rw [announced]
  refine length.bind ?_
  rw [Nat.min_self, ← List.append_nil (xs.flatMap write)]
  refine (restores_times h).bind ?_
  rw [if_neg (Nat.lt_irrefl _), if_neg (Nat.lt_irrefl _)]
  exact .pure xs

/-! ## 4. Records. -/

theorem restores_take (s : Bytes) : Restores (take s.length) s s := by
  intro rest
  simp [take]

/-- The head of a text announces the bytes of the text, in one of four forms. -/
theorem textHead_cases (s : Bytes) (h : s.length < 2 ^ 32) :
    ∃ b tail read, textHead s.length = b :: tail ∧ text? (.ofByte b) = some read ∧
      Restores read (tail ++ s) s := by
  have wide : ∀ width, s.length < 256 ^ width →
      Restores (do take (← unsigned width 0)) (bigEndian width s.length ++ s) s :=
    fun _ fits => (restores_unsigned fits).bind (restores_take s)
  unfold textHead
  split
  · next short => exact ⟨_, _, _, rfl, by rw [ofByte_fixStr short]; rfl, restores_take s⟩
  split
  · exact ⟨_, _, _, rfl, rfl, wide 1 (by omega)⟩
  split
  · exact ⟨_, _, _, rfl, rfl, wide 2 (by omega)⟩
  · exact ⟨_, _, _, rfl, rfl, wide 4 (by omega)⟩

/-- A key that is a name finds the first field with that name. -/
theorem restores_key (fields : List (Field σ)) {name : String} (h : (Utf8.encode name).length < 2 ^ 32) :
    Restores (key fields) (MessagePack.text name)
      (fields.find? fun f => Utf8.encode f.name = Utf8.encode name) := by
  obtain ⟨b, tail, read, head, announced, bytes⟩ := textHead_cases (Utf8.encode name) h
  rw [MessagePack.text]
  simp only [head]
  refine restores_marker ?_
  rw [announced]
  exact bytes.map fun s => fields.find? fun f => Utf8.encode f.name = s

/-- **The fields can be told apart by their names**, and their number and the length of every name can be
    written. -/
structure Named (fields : List (Field σ)) : Prop where
  few : fields.length < 2 ^ 32
  distinct : (fields.map fun f => Utf8.encode f.name).Nodup
  short : ∀ name ∈ fields.map fun f => Utf8.encode f.name, name.length < 2 ^ 32

/-- A field is found under its name. -/
theorem Named.find? {fields : List (Field σ)} (h : Named fields) {f : Field σ} (mem : f ∈ fields) :
    fields.find? (fun g => Utf8.encode g.name = Utf8.encode f.name) = some f := by
  have distinct := h.distinct
  clear h
  induction fields with
  | nil => cases mem
  | cons g fields ih =>
    obtain ⟨apart, distinct⟩ := List.nodup_cons.mp distinct
    rcases List.mem_cons.mp mem with rfl | later
    · simp
    · have other : Utf8.encode g.name ≠ Utf8.encode f.name := fun same =>
        apart (List.mem_map.mpr ⟨f, later, same.symm⟩)
      rw [List.find?_cons_of_neg (by simpa using other)]
      exact ih later distinct

/-- **Items that fields read, one after the other**, none of which was read before: what was read so far
    goes from `s` to `s'`. -/
inductive Fills : List (Field σ) → List Bytes → σ → σ → Prop
  | done (s : σ) : Fills [] [] s s
  | next {f : Field σ} {fs : List (Field σ)} {item : Bytes} {items : List Bytes} {s s₁ s' : σ} :
      f.isSet s = false → Restores (f.read s) item s₁ → Fills fs items s₁ s' →
      Fills (f :: fs) (item :: items) s s'

/-- The entries of a map: items under the names of the fields that read them. -/
def named (fields : List (Field σ)) (items : List Bytes) : List (String × Bytes) :=
  (fields.map Field.name).zip items

theorem Fills.mapEntries {fields fs : List (Field σ)} {items : List Bytes} {s s' : σ} (h : Fills fs items s s')
    (names : Named fields) (within : fs ⊆ fields) (depth : Nat) :
    Restores (mapEntries fields depth (named fs items).length s)
      ((named fs items).flatMap fun (name, item) => MessagePack.text name ++ item) s' := by
  induction h with
  | done s => exact .pure s
  | @next f fs item items s s₁ s' unread restores _ ih =>
    have mem := within List.mem_cons_self
    have key := restores_key fields (names.short _ (List.mem_map_of_mem mem))
    rw [names.find? mem] at key
    rw [named, List.map_cons, List.zip_cons_cons, List.flatMap_cons, List.append_assoc]
    refine key.bind ?_
    simp only [unread, Bool.false_eq_true, if_false]
    exact restores.bind (ih fun g hg => within (List.mem_cons_of_mem f hg))

/-- The head of a map announces the number of its entries, in one of three forms, and is the head of nothing
    else. -/
theorem mapHead_cases {n : Nat} (h : n < 2 ^ 32) :
    ∃ b tail read, mapHead n = b :: tail ∧ sequenceLength? (.ofByte b) = none ∧ bytes? (.ofByte b) = none ∧
      mapLength? (.ofByte b) = some read ∧ Restores read tail n := by
  unfold mapHead
  split
  · next short =>
    have marker := ofByte_fixMap short
    exact ⟨_, _, _, rfl, by rw [marker]; rfl, by rw [marker]; rfl, by rw [marker]; rfl, .pure n⟩
  split
  · exact ⟨_, _, _, rfl, rfl, rfl, rfl, restores_unsigned (by omega)⟩
  · exact ⟨_, _, _, rfl, rfl, rfl, rfl, restores_unsigned (by omega)⟩

/-- **A record is restored entry by entry.** -/
theorem Fills.record {fields : List (Field σ)} {items : List Bytes} {empty s' : σ}
    (h : Fills fields items empty s') (names : Named fields) (name : String) (depth : Nat) :
    Restores (record name fields depth empty) (entries (named fields items)) s' := by
  have few : (named fields items).length < 2 ^ 32 := by
    have := names.few
    rw [named, List.length_zip, List.length_map]
    omega
  obtain ⟨b, tail, read, head, noSequence, noBytes, announced, number⟩ := mapHead_cases few
  rw [entries, head]
  refine restores_marker ?_
  rw [noSequence, noBytes, announced]
  exact number.bind (h.mapEntries names (fun _ mem => mem) depth)

end Decoder

/-! ## 5. Saved states. -/

namespace Snapshot

open Decoder

/-- **Every list of a saved state has a length that can be written**: less than 2^32. -/
structure Short (s : Snapshot) : Prop where
  globals : s.globals.length < 2 ^ 32
  strings : s.strings.length < 2 ^ 32
  edicts : s.edicts.edicts.length < 2 ^ 32
  fields : ∀ r ∈ s.edicts.edicts, r.fields.length < 2 ^ 32

theorem recordFields_named : Named recordFields :=
  ⟨by decide, by decide +kernel, by decide +kernel⟩

theorem storeFields_named : Named storeFields :=
  ⟨by decide, by decide +kernel, by decide +kernel⟩

theorem fields_named : Named fields :=
  ⟨by decide, by decide +kernel, by decide +kernel⟩

theorem restores_record {r : EdictRecord} (short : r.fields.length < 2 ^ 32) :
    Restores decodeRecord (encodeRecord r) r := by
  have words := restores_list (fun w _ => restores_uint32 w) short
  have filled : Fills recordFields
      [flag r.free, MessagePack.single r.freeTime, sequence (fun w => nat w.toNat) r.fields] {}
      { free := some r.free, freeTime := some r.freeTime, fields := some r.fields } :=
    .next rfl ((restores_flag r.free).map _) (.next rfl ((restores_single r.freeTime).map _)
      (.next rfl (words.map _) (.done _)))
  have record := filled.record recordFields_named "EdictRecord" (maxDepth - 4)
  rw [← List.append_nil (encodeRecord r)]
  exact record.bind (Restores.pure r)

theorem restores_store {s : StoreSnapshot} (short : s.edicts.length < 2 ^ 32)
    (fields : ∀ r ∈ s.edicts, r.fields.length < 2 ^ 32) : Restores decodeStore (encodeStore s) s := by
  have records := restores_list (fun r mem => restores_record (fields r mem)) short
  have filled : Fills storeFields [nat s.fieldWords.toNat, sequence encodeRecord s.edicts] {}
      { fieldWords := some s.fieldWords, edicts := some s.edicts } :=
    .next rfl ((restores_uint64 s.fieldWords).map _) (.next rfl (records.map _) (.done _))
  have store := filled.record storeFields_named "StoreSnapshot" (maxDepth - 2)
  rw [← List.append_nil (encodeStore s)]
  exact store.bind (Restores.pure s)

theorem restores_digest (d : Digest) :
    Restores decodeDigest (sequence (fun b => nat b.toNat) d.toList) d := by
  have sixteen : d.toList.length = 16 := Vector.length_toList
  have bytes : Restores (exactly d.toList.length uint8) (sequence (fun b => nat b.toNat) d.toList) d.toList :=
    restores_exactly (fun b _ => restores_uint8 b) (by omega)
  rw [sixteen] at bytes
  have whole : Digest.ofBytes? d.toList = some d := by
    rw [Digest.ofBytes?, dif_pos sixteen]
    rfl
  rw [← List.append_nil (sequence _ _)]
  refine bytes.bind ?_
  rw [whole]
  exact .pure d

/-- **A saved state is restored from its bytes**, whatever follows them. -/
theorem restores_snapshot {s : Snapshot} (short : s.Short) : Restores decoder s.encode s := by
  have globals := restores_list (fun w _ => restores_uint32 w) short.globals
  have strings := restores_list (fun b _ => restores_uint8 b) short.strings
  have edicts := restores_store short.edicts short.fields
  have filled : Fills fields [nat s.crc.toNat, sequence (fun b => nat b.toNat) s.digest.toList,
      sequence (fun w => nat w.toNat) s.globals, sequence (fun b => nat b.toNat) s.strings, encodeStore s.edicts] {}
      { crc := some s.crc, digest := some s.digest, globals := some s.globals, strings := some s.strings,
        edicts := some s.edicts } :=
    .next rfl ((restores_uint16 s.crc).map _) (.next rfl ((restores_digest s.digest).map _)
      (.next rfl (globals.map _) (.next rfl (strings.map _) (.next rfl (edicts.map _) (.done _)))))
  have state := filled.record fields_named "Snapshot" (maxDepth - 1)
  rw [← List.append_nil s.encode]
  exact state.bind (Restores.pure s)

/-- **Reading a saved state gives back what was written**, bit for bit: the bits of a single are its number,
    so also those that stand for no number. -/
theorem decode_encode {s : Snapshot} (short : s.Short) : decode s.encode = .ok s := by
  have whole := restores_snapshot short []
  rw [List.append_nil] at whole
  rw [decode, whole]

/-- A state whose numbers and lengths lie where one form of writing gives way to the next. Its time is no number. -/
def boundary : Snapshot where
  crc := 0xffff
  digest := Vector.replicate 16 0x80
  globals := [0, 0x7f, 0x80, 0xff, 0x100, 0xffff, 0x10000, 0xffffffff]
  strings := List.replicate 16 0xff
  edicts := {
    fieldWords := 0x100000000
    edicts := [{ free := true, freeTime := ⟨0x7fa00001⟩, fields := List.replicate 15 0x7f }] }

theorem decode_encode_boundary : boundary.Short ∧ decode boundary.encode = .ok boundary := by
  have short : boundary.Short := ⟨by decide, by decide, by decide, by decide⟩
  exact ⟨short, decode_encode short⟩

end Snapshot

end QuakeProgs
