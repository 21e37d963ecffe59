/-
  File:      QuakeProgs/Proofs/Strings/References.lean
  Subject:   HOW LONG A STRING REFERENCE IS GOOD FOR.

  Every fact here is read off what a table is made of (`StringTable.Laid`):

  * `Laid.get_placed`, `Laid.get_slot`, `Laid.get_blob`, `Laid.get_kept` -- what a reference yields, by the
    region it lies in;
  * `StringTable.texts_last` -- a kept text keeps its reference and its bytes for good, each text has a
    reference of its own, and a text in the ring lasts until the cursor has come round;
  * `StringTable.second_slot_out_of_reach` -- a ring may be too large for its slots to be named;
  * `Image.references_last` -- a reference outside the ring yields the same bytes as long as the image is
    loaded, if the string it names has its NUL in its own region;
  * `Image.reference_reads_on` -- and not otherwise: the loader accepts a blob without a NUL at its end.
-/
import QuakeProgs.Proofs.Strings.Regions
import QuakeProgs.Image.Builder
import QuakeProgs.Proofs.Image.Acceptance

namespace QuakeProgs

open Bytes

namespace StringTable

/-! ## 1. What a reference yields. -/

theorem get_of_le {t : StringTable} {r : StringRef} (hr : 0 ≤ r.toInt) (h : r.toInt.toNat ≤ t.size) :
    t.get r = .ok (beforeNul (t.bytes.toList.drop r.toInt.toNat)) := by
  rw [get, if_pos ⟨hr, h⟩, bytesUntilNul_eq]

/-- A reference made from an offset that it can name. -/
theorem get_ofNat {t : StringTable} {k : Nat} (named : k < 0x80000000) (h : k ≤ t.size) :
    t.get (Int32.ofNat k) = .ok (beforeNul (t.bytes.toList.drop k)) := by
  have hk : (Int32.ofNat k).toInt = k := Int32.toInt_ofNat_of_lt named
  rw [get_of_le (by omega) (by omega), hk, Int.toNat_natCast]

theorem get_eq_ok {t : StringTable} {r : StringRef} {x : Bytes} (h : t.get r = .ok x) :
    0 ≤ r.toInt ∧ r.toInt.toNat ≤ t.size ∧ x = beforeNul (t.bytes.toList.drop r.toInt.toNat) := by
  by_cases hr : 0 ≤ r.toInt ∧ r.toInt.toNat ≤ t.size
  · rw [get_of_le hr.1 hr.2] at h
    exact ⟨hr.1, hr.2, (Except.ok.inj h).symm⟩
  · rw [get, if_neg hr] at h
    cases h

namespace Laid

variable {blob s x : Bytes} {ring texts : List Bytes} {t : StringTable} {r : StringRef} {k i : Nat}

/-- A kept text. -/
theorem get_placed (h : Laid blob ring texts t) (hk : (s, k) ∈ placed t.keptStart texts) :
    t.get (Int32.ofNat k) = .ok s := by
  have named := h.reach _ hk
  obtain ⟨mem, before, behind, hj, rfl⟩ := joined_of_mem_placed hk
  have inside : t.keptStart + before.length ≤ t.size := by
    rw [h.size_eq, hj, List.length_append]
    omega
  rw [get_ofNat named inside, h.drop_kept, hj, List.drop_left, beforeNul_append_nul (h.plain s mem)]

/-- A text in a slot of the ring. -/
theorem get_slot (h : Laid blob ring texts t) (hsize : t.slotSize ≠ 0) (hx : ring[i]? = some x)
    (named : t.baseSize + i * t.slotSize < 0x80000000) :
    t.get (Int32.ofNat (t.baseSize + i * t.slotSize)) = .ok (beforeNul x) := by
  obtain ⟨before, behind, hring, -, hlen⟩ := split_slots (fun x hx => (h.slot x hx).1) hx
  have place : t.baseSize + i * t.slotSize = (blob ++ before.flatten).length := by
    rw [List.length_append, hlen, h.base]
  have whole : t.bytes.toList = (blob ++ before.flatten) ++ (x ++ (behind.flatten ++ joined texts)) := by
    rw [h.bytes, hring]
    simp only [List.flatten_append, List.flatten_cons, List.append_assoc]
  have inside : t.baseSize + i * t.slotSize ≤ t.size := by
    have len := congrArg List.length whole
    rw [Array.length_toList, List.length_append] at len
    rw [size, len, place]
    exact Nat.le_add_right ..
  have ended := (h.slot x (List.mem_of_getElem? hx)).2 hsize
  rw [get_ofNat named inside, place, whole, List.drop_left, beforeNul_append_of_mem ended]

/-- A string that ends within the blob. -/
theorem get_blob (h : Laid blob ring texts t) (hr : 0 ≤ r.toInt) (inside : r.toInt.toNat ≤ t.baseSize)
    (ended : 0 ∈ blob.drop r.toInt.toNat) : t.get r = .ok (beforeNul (blob.drop r.toInt.toNat)) := by
  have len := h.size_eq
  rw [get_of_le hr (by rw [keptStart] at len; omega), h.bytes,
    List.drop_append_of_le_length (h.base ▸ inside), beforeNul_append_of_mem ended]

/-- A string that begins among the kept texts. -/
theorem get_kept (h : Laid blob ring texts t) (hr : 0 ≤ r.toInt) (behind : t.keptStart ≤ r.toInt.toNat)
    (inside : r.toInt.toNat ≤ t.size) :
    t.get r = .ok (beforeNul ((joined texts).drop (r.toInt.toNat - t.keptStart))) := by
  rw [get_of_le hr inside, ← h.drop_kept]
  congr 4
  omega

/-! ## 2. Texts and their places. -/

/-- A text that has a place keeps it when texts come behind. -/
theorem lookup_of_prefix {texts' : List Bytes} (more : texts <+: texts') {ofs : Nat}
    (hk : (placed ofs texts).lookup s = some k) : (placed ofs texts').lookup s = some k := by
  obtain ⟨behind, rfl⟩ := more
  rw [placed_append, List.lookup_append, hk]
  rfl

theorem get_of_lookup (h : Laid blob ring texts t) (hk : (placed t.keptStart texts).lookup s = some k) :
    t.get (Int32.ofNat k) = .ok s := by
  obtain ⟨before, behind, split, -⟩ := List.lookup_eq_some_iff.1 hk
  exact h.get_placed (split ▸ List.mem_append_right _ List.mem_cons_self)

/-- A text that has a place is kept again at no cost. -/
theorem keep_of_lookup (h : Laid blob ring texts t)
    (hk : (placed t.keptStart texts).lookup s.beforeNul = some k) :
    t.keep s = .ok (Int32.ofNat k, t) := keep_of_some (h.kept_eq _ ▸ hk)

end Laid

/-- Want of room is the one reason not to keep a text. -/
theorem keep_eq_error {t : StringTable} {s : Bytes} {e : Error} (h : t.keep s = .error e) :
    e.cause = .stringTableFull t.capacity := by
  unfold keep keptRef at h
  dsimp only at h
  split at h
  · cases h
  · split at h
    · cases h
      rfl
    · cases h

/-! ## 3. How long texts last. -/

/-- **A kept text**: whatever calls follow, its reference yields it, keeping it again gives that reference
    and changes nothing, and no other text gets it. -/
def Keeps (t : StringTable) (s : Bytes) (r : StringRef) : Prop :=
  ∀ later : List StringCommand,
    let t' := later.foldl after t
    t'.get r = .ok s.beforeNul ∧
    (∀ s', s'.beforeNul = s.beforeNul → t'.keep s' = .ok (r, t')) ∧
    ∀ s' r' t'', t'.keep s' = .ok (r', t'') → s'.beforeNul ≠ s.beforeNul → r' ≠ r

theorem Laid.keeps {blob s : Bytes} {ring texts : List Bytes} {t : StringTable} {r : StringRef}
    (h : t.Laid blob ring texts) (hr : t.keptRef s = .ok r) : (t.addKept s).Keeps s r := by
  intro later t'
  obtain ⟨texts₁, k, -, laid₁, hk, rfl⟩ := h.addKept hr
  obtain ⟨ring', texts', laid', regions, more, -⟩ := laid₁.run later
  have hk' : (placed t'.keptStart texts').lookup s.beforeNul = some k := by
    rw [((sameRegions_addKept t s).trans regions).keptStart]
    exact lookup_of_prefix more hk
  refine ⟨laid'.get_of_lookup hk', fun s' hs => ?_, fun s' r' t'' hs' differ same => ?_⟩
  · exact laid'.keep_of_lookup (hs ▸ hk')
  · -- both texts would be read from the one place
    obtain ⟨ref, rfl⟩ := keep_eq_ok hs'
    obtain ⟨texts'', k', more', laid'', hk'', rfl⟩ := laid'.addKept ref
    have start : (t'.addKept s').keptStart = t'.keptStart := (sameRegions_addKept t' s').keptStart
    have one := laid''.get_of_lookup (start.symm ▸ lookup_of_prefix more' hk')
    have other := laid''.get_of_lookup (start.symm ▸ hk'')
    rw [same, one] at other
    exact differ (Except.ok.inj other).symm

/-- The cursor does not come back to a slot before it has gone through the others. -/
theorem cursor_away {slots i n : Nat} (hi : i < slots) (hn : n + 1 < slots) :
    ((i + 1) % slots + n) % slots ≠ i := by
  rw [Nat.mod_add_mod, Nat.add_assoc]
  by_cases h : i + (1 + n) < slots
  · rw [Nat.mod_eq_of_lt h]
    omega
  · rw [Nat.mod_eq_sub_mod (Nat.le_of_not_lt h), Nat.mod_eq_of_lt (by omega)]
    omega

/-- **A text in the ring** lasts until the cursor has come round. -/
theorem slot_lasts {blob : Bytes} {ring texts : List Bytes} {t : StringTable}
    (h : t.Laid blob ring texts) (ringed : t.hasRing = true) (named : t.slotStart < 0x80000000) (s : Bytes)
    (later : List StringCommand) (few : later.countP (·.isTemp) < t.slots) :
    (later.foldl after (t.addTemp s)).get (Int32.ofNat t.slotStart) =
      .ok (beforeNul (s.take (t.slotSize - 1))) := by
  have hi := h.nextSlot_lt ringed
  have hsize : t.slotSize ≠ 0 := fun h0 => by simp [hasRing, h0] at ringed
  obtain ⟨ring', texts', laid, regions, -, spared⟩ :=
    (h.addTemp ringed (List.getElem?_eq_getElem hi) s).run later
  have same := (sameRegions_addTemp t s).trans regions
  have moved : (t.addTemp s).nextSlot = (t.nextSlot + 1) % t.slots := by simp [addTemp, ringed]
  have there : ring'[t.nextSlot]? = some (filled t.slotSize s ring[t.nextSlot]) := by
    rw [spared t.nextSlot fun n hn => ?_, List.getElem?_set_self hi]
    rw [moved, (sameRegions_addTemp t s).slots]
    exact cursor_away (h.slots ▸ hi) (by omega)
  have place : t.slotStart = (later.foldl after (t.addTemp s)).baseSize +
      t.nextSlot * (later.foldl after (t.addTemp s)).slotSize := by
    rw [same.baseSize, same.slotSize, slotStart]
  rw [place] at named ⊢
  rw [laid.get_slot (same.slotSize ▸ hsize) there named, beforeNul_filled]

/-- A text goes into the ring where a reference can name its slot. -/
theorem temp_within_reach {t : StringTable} (ringed : t.hasRing = true) (near : t.slotStart < 0x80000000)
    (s : Bytes) : t.temp s = .ok (Int32.ofNat t.slotStart, t.addTemp s) := by
  rw [temp, tempRef]
  simp [ringed, Nat.not_le.2 near]

/-- Where none can, the call fails. -/
theorem temp_beyond_reach {t : StringTable} (ringed : t.hasRing = true) (far : 0x80000000 ≤ t.slotStart)
    (s : Bytes) : t.temp s = .error (Cause.internal "temp string offset overflow") := by
  rw [temp, tempRef]
  simp [ringed, far]

/-- Where the slot lies that is written next, with sizes of 64 bits. -/
def slotPlace (t : StringTable) : UInt64 := t.baseSize.toUInt64 + t.nextSlot.toUInt64 * t.slotSize.toUInt64

/-- In a table that fits into memory no size wraps around. -/
theorem slotPlace_eq {t : StringTable} (cursor : t.CursorFits) (ringed : t.hasRing = true)
    (small : fits t.baseSize t.slots t.slotSize = true) : t.slotPlace.toNat = t.slotStart := by
  have slot := cursor.slotEnd_le ringed
  have hsize : 0 < t.slotSize := Nat.pos_of_ne_zero fun h0 => by simp [hasRing, h0] at ringed
  have next := Nat.le_mul_of_pos_right t.nextSlot hsize
  rw [fits, decide_eq_true_iff] at small
  rw [keptStart, slotStart] at slot
  have product := toNat_mul_toUInt64 t.nextSlot t.slotSize (by omega) (by omega) (by omega)
  have base : t.baseSize.toUInt64.toNat = t.baseSize :=
    UInt64.toNat_ofNat_of_lt' (show t.baseSize < 0x10000000000000000 by omega)
  rw [slotPlace, UInt64.toNat_add, base, product, slotStart]
  exact Nat.mod_eq_of_lt (show _ < 0x10000000000000000 by omega)

/-- What a table of such a geometry promises about the texts that are put into it. -/
structure Reliable (blobSize slots slotSize capacity : Nat) (t : StringTable) : Prop where
  room : t.keptSize ≤ capacity
  /-- A text that finds no room changes nothing. -/
  refused : ∀ s e, t.keep s = .error e →
    e.cause = .stringTableFull capacity ∧ t.after (.keep s) = t
  kept : ∀ s r t', t.keep s = .ok (r, t') → t' = t.after (.keep s) ∧ t'.Keeps s r
  /-- A text in the ring is cut to the size of a slot and is there while the other slots are used; the
      call fails only where the slot lies beyond the reach of references. -/
  ring : slots ≠ 0 → slotSize ≠ 0 → ∀ s,
    if t.slotStart < 0x80000000 then
      ∃ r, t.temp s = .ok (r, t.after (.temp s)) ∧
        ∀ later : List StringCommand, later.countP (·.isTemp) < slots →
          (later.foldl after (t.after (.temp s))).get r = .ok (beforeNul (s.take (slotSize - 1)))
    else t.temp s = .error (Cause.internal "temp string offset overflow")
  /-- No slot lies there if the ring ends within their reach. -/
  reach : slots ≠ 0 → slotSize ≠ 0 → blobSize + slots * slotSize ≤ 0x80000000 → t.slotStart < 0x80000000
  /-- In a table that fits into memory, the slot lies at the same place with sizes of 64 bits. -/
  place : slots ≠ 0 → slotSize ≠ 0 → fits blobSize slots slotSize = true → t.slotPlace.toNat = t.slotStart
  /-- Without a ring it is kept. -/
  ringless : slots = 0 ∨ slotSize = 0 → ∀ s, t.temp s = t.keep s

/-- **Texts last.** From any blob, with any ring and any room, after any calls. -/
theorem texts_last (blob : Bytes) (slots slotSize capacity : Nat) (past : List StringCommand) :
    (past.foldl after (new blob slots slotSize capacity)).Reliable blob.length slots slotSize capacity := by
  obtain ⟨ring, texts, laid, regions, -, -⟩ := (Laid.new blob slots slotSize capacity).run past
  generalize past.foldl after (new blob slots slotSize capacity) = t at laid regions
  obtain ⟨hbase, hslots, hsize, hcapacity⟩ := regions
  replace hbase : t.baseSize = blob.length := hbase
  replace hslots : t.slots = slots := hslots
  replace hsize : t.slotSize = slotSize := hsize
  replace hcapacity : t.capacity = capacity := hcapacity
  subst hslots hsize hcapacity
  have ringed (hslots : t.slots ≠ 0) (hsize : t.slotSize ≠ 0) : t.hasRing = true := by simp [hasRing, hslots, hsize]
  exact {
    room := laid.keptSize_eq ▸ laid.room
    refused := by
      intro s e he
      exact ⟨keep_eq_error he, by rw [after, afterKeep, he]⟩
    kept := by
      intro s r t' hk
      obtain ⟨ref, rfl⟩ := keep_eq_ok hk
      exact ⟨by rw [after, afterKeep, hk], laid.keeps ref⟩
    ring := by
      intro hslots hsize s
      have ringed := ringed hslots hsize
      have called : t.after (.temp s) = t.addTemp s := by rw [after, if_pos ringed]
      rw [called]
      split
      next named =>
        exact ⟨_, temp_within_reach ringed named s, fun later few => slot_lasts laid ringed named s later few⟩
      next beyond => exact temp_beyond_reach ringed (Nat.le_of_not_lt beyond) s
    reach := by
      intro hslots hsize near
      have slot := laid.cursor.slotEnd_le (ringed hslots hsize)
      rw [keptStart, hbase] at slot
      omega
    place := by
      intro hslots hsize small
      exact slotPlace_eq laid.cursor (ringed hslots hsize) (hbase ▸ small)
    ringless := by
      intro none s
      have ringless : t.hasRing = false := by
        rcases none with h | h <;> simp [hasRing, h]
      simp [temp, tempRef, addTemp, ringless, keep] }

/-- In a ring of two slots, a text goes into the second one after the first text. -/
theorem second_slot (blob s : Bytes) {slotSize : Nat} (capacity : Nat) (hsize : slotSize ≠ 0) :
    let t := (new blob 2 slotSize capacity).after (.temp s)
    t.hasRing = true ∧ t.slotStart = blob.length + slotSize := by
  have ringed : (new blob 2 slotSize capacity).hasRing = true := by simp [hasRing, new, hsize]
  rw [after, if_pos ringed, addTemp_of_ring ringed]
  exact ⟨ringed, by simp [slotStart, new]⟩

/-- **A slot out of reach**: of a ring of two slots of 2^31 bytes, the second cannot be named by a reference. The
    table fits into memory, and the second text is refused. -/
theorem second_slot_out_of_reach :
    fits 0 2 0x80000000 = true ∧ ((new [] 2 0x80000000 64).after (.temp [97])).temp [98] =
      .error (Cause.internal "temp string offset overflow") := by
  obtain ⟨ringed, place⟩ := second_slot [] [97] 64 (by decide : 0x80000000 ≠ 0)
  exact ⟨by decide, temp_beyond_reach ringed (by rw [place]; decide) [98]⟩

/-! ## 4. How long a reference is good. -/

/-- A string that is shorter than the bytes at hand has its NUL among them. -/
theorem nul_mem_of_short {l l' : Bytes} (h : (beforeNul (l ++ l')).length < l.length) : 0 ∈ l := by
  refine Classical.byContradiction fun none => ?_
  rw [beforeNul, List.takeWhile_append_of_pos (all_ne_nul none), List.length_append] at h
  omega

/-- A string that ends within the blob stays as it is: the blob is never written. -/
theorem Laid.get_blob_after {blob x : Bytes} {ring ring' texts texts' : List Bytes} {t t' : StringTable}
    {r : StringRef} (h : t.Laid blob ring texts) (h' : t'.Laid blob ring' texts') (same : t.SameRegions t')
    (hx : t.get r = .ok x) (ended : r.toInt.toNat + x.length < t.baseSize) : t'.get r = .ok x := by
  obtain ⟨hr, -, hcut⟩ := get_eq_ok hx
  have inside : r.toInt.toNat ≤ t.baseSize := by omega
  have nul : 0 ∈ blob.drop r.toInt.toNat := by
    rw [h.bytes, List.drop_append_of_le_length (h.base ▸ inside)] at hcut
    refine @nul_mem_of_short _ (ring.flatten ++ joined texts) ?_
    rw [← hcut, List.length_drop, ← h.base]
    omega
  rw [h.get_blob hr inside nul] at hx
  rw [h'.get_blob hr (same.baseSize ▸ inside) nul, hx]

/-- A string that begins among the kept texts stays as it is: each has its NUL, and texts only come behind. -/
theorem Laid.get_kept_after {blob x : Bytes} {ring ring' texts texts' : List Bytes} {t t' : StringTable}
    {r : StringRef} (h : t.Laid blob ring texts) (h' : t'.Laid blob ring' texts') (same : t.SameRegions t')
    (more : texts <+: texts') (hx : t.get r = .ok x) (behind : t.keptStart ≤ r.toInt.toNat)
    (inside : r.toInt.toNat < t.size) : t'.get r = .ok x := by
  obtain ⟨hr, -, -⟩ := get_eq_ok hx
  obtain ⟨added, rfl⟩ := more
  have hin : r.toInt.toNat - t.keptStart < (joined texts).length := by
    rw [h.size_eq] at inside
    omega
  have inside' : r.toInt.toNat ≤ t'.size := by
    rw [h'.size_eq, same.keptStart, joined_append, List.length_append]
    omega
  rw [h.get_kept hr behind (Nat.le_of_lt inside)] at hx
  rw [h'.get_kept hr (same.keptStart.symm ▸ behind) inside', same.keptStart, joined_append,
    List.drop_append_of_le_length (Nat.le_of_lt hin), beforeNul_append_of_mem (nul_mem_drop_joined hin), hx]

end StringTable

namespace Image

open StringTable

/-- **A reference outside the ring is good for as long as the image is loaded**, if there is a string at it
    that ends in its own region: it lies before the end of the table, and in the blob its NUL does too. -/
theorem references_last {bytes : Bytes} {options : LoadOptions} {image : Image}
    (loaded : load bytes options = .ok image) (past later : List StringCommand) {r : StringRef} {x : Bytes}
    (hx : (past.foldl after image.strings).get r = .ok x)
    (outside : r.toInt.toNat < image.strings.baseSize ∨ image.strings.keptStart ≤ r.toInt.toNat)
    (inside : r.toInt.toNat < (past.foldl after image.strings).size)
    (ended : r.toInt.toNat < image.strings.baseSize →
      r.toInt.toNat + x.length < image.strings.baseSize) :
    (later.foldl after (past.foldl after image.strings)).get r = .ok x := by
  obtain ⟨blob, fresh⟩ := (load_checked loaded).strings
  rw [fresh] at hx outside inside ended ⊢
  obtain ⟨ring, texts, laid, regions, -, -⟩ := (Laid.new blob ..).run past
  obtain ⟨ring', texts', laid', regions', more, -⟩ := laid.run later
  rcases outside with inBlob | behind
  · exact laid.get_blob_after laid' regions' hx (regions.baseSize ▸ ended inBlob)
  · exact laid.get_kept_after laid' regions' more hx (regions.keptStart ▸ behind) inside

/-- The image can be loaded and its strings satisfy `P`. -/
def Holds (bytes : Bytes) (options : LoadOptions) (P : StringTable → Prop) : Prop :=
  ∃ image, load bytes options = .ok image ∧ P image.strings

instance Holds.decidable (bytes : Bytes) (options : LoadOptions) (P : StringTable → Prop) [DecidablePred P] :
    Decidable (Holds bytes options P) :=
  match h : load bytes options with
  | .ok image => decidable_of_iff (P image.strings) (by simp [Holds, h])
  | .error _ => isFalse (by simp [Holds, h])

/-- A program whose blob is the empty string and `x`. -/
def oneText : ImageBuilder := { strings := #[0, 120, 0] }

theorem references_last_one_text : ∃ image : Image,
    load oneText.build { tempSlots := 1, tempSize := 4 } = .ok image ∧
    image.strings.get 1 = .ok [120] ∧
    ([.temp [121], .keep [121], .temp [122]].foldl after image.strings).get 1 = .ok [120] := by
  have holds : Holds oneText.build { tempSlots := 1, tempSize := 4 } fun t =>
      (t.get 1).toOption = some [120] ∧ t.baseSize = 3 ∧ t.size = 7 := by
    decide +kernel
  obtain ⟨image, loaded, hx, base, size⟩ := holds
  have there := eq_ok_of_toOption hx
  refine ⟨image, loaded, there, ?_⟩
  have one : (1 : StringRef).toInt.toNat = 1 := by decide
  exact references_last loaded [] _ there (.inl (by omega)) (by rw [List.foldl_nil]; omega)
    fun _ => by rw [one, base]; decide

/-- The same without a NUL at the end. -/
def unended : ImageBuilder := { strings := #[0, 120] }

/-- **A string without its NUL reads on.** The loader accepts a blob whose last byte is not a NUL, and a
    reference into its last string yields other bytes once the ring is written. So does a reference to the
    very end of a table once a text is kept. -/
theorem reference_reads_on : ∃ image : Image,
    load unended.build { tempSlots := 1, tempSize := 4 } = .ok image ∧
    image.strings.baseSize = 2 ∧ image.strings.keptStart = 6 ∧
    image.strings.get 1 = .ok [120] ∧ (image.strings.after (.temp [121])).get 1 = .ok [120, 121] ∧
    image.strings.get 6 = .ok [] ∧ (image.strings.after (.keep [121])).get 6 = .ok [121] := by
  have holds : Holds unended.build { tempSlots := 1, tempSize := 4 } fun t =>
      t.baseSize = 2 ∧ t.keptStart = 6 ∧ (t.get 1).toOption = some [120] ∧
      ((t.after (.temp [121])).get 1).toOption = some [120, 121] ∧ (t.get 6).toOption = some [] := by
    decide +kernel
  obtain ⟨image, loaded, base, start, before, behind, last⟩ := holds
  obtain ⟨blob, fresh⟩ := (load_checked loaded).strings
  have ref : image.strings.keptRef [121] = .ok 6 := by
    have short : blob.length = 2 := by rw [← base, fresh]; rfl
    simp [fresh, keptRef, StringTable.new, keptSize, size, keptStart, beforeNul, short]
  have kept : image.strings.after (.keep [121]) = image.strings.addKept [121] := by
    rw [after, afterKeep, keep_of_keptRef ref]
  have laid := Laid.new blob 1 4 0x100000
  rw [← fresh] at laid
  refine ⟨image, loaded, base, start, eq_ok_of_toOption before, eq_ok_of_toOption behind, eq_ok_of_toOption last, ?_⟩
  rw [kept]
  exact (laid.keeps ref []).1

end Image

end QuakeProgs
