/-
  File:      QuakeProgs/Proofs/Strings/Regions.lean
  Subject:   THE REGIONS OF THE STRING TABLE: what a call that adds a text does to them.

  The table is one run of bytes, and reading a string goes on until a NUL, whatever region it is in. So
  a table is described by what its bytes are made of:

  * `StringCommand`, `StringTable.after` -- the two calls that add a text, and the table they leave;
  * `Bytes.joined`, `Bytes.placed` -- texts one after the other, each with its NUL, and where they start;
  * `Bytes.filled` -- a slot with a text in it;
  * `StringTable.Laid` -- the invariant: the blob, then slots of equal size with a NUL in each, then
    texts without a NUL, and the index says where each text stands first;
  * `Laid.new`, `Laid.addKept`, `Laid.addTemp`, `Laid.after` -- it holds at first, and after every call;
  * `Laid.run` -- what any number of calls can do to each region;
  * `Laid.restored` -- an index made anew from the saved bytes is the one that has grown with them.
-/
import Mathlib.Data.List.TakeWhile
import QuakeProgs.Proofs.Machine.Evolution

namespace QuakeProgs

/-! ## 1. Bytes up to a NUL. -/

namespace Bytes

variable {s l l' : Bytes}

theorem beforeNul_append_of_mem (h : 0 ∈ l) : beforeNul (l ++ l') = beforeNul l := by
  induction l with
  | nil => cases h
  | cons c l ih =>
    simp only [beforeNul, List.cons_append, List.takeWhile_cons]
    by_cases hc : c = 0
    · simp [hc]
    · have h : 0 ∈ l := (List.mem_cons.1 h).resolve_left (Ne.symm hc)
      simpa [hc, beforeNul] using ih h

theorem nul_not_mem_beforeNul (s : Bytes) : 0 ∉ beforeNul s := by
  intro h
  simpa using List.mem_takeWhile_imp h

theorem all_ne_nul (h : 0 ∉ s) : ∀ c ∈ s, decide (c ≠ 0) = true := by
  intro c hc
  have : c ≠ 0 := fun h0 => h (h0 ▸ hc)
  simpa using this

theorem beforeNul_of_not_mem (h : 0 ∉ s) : beforeNul s = s := List.takeWhile_eq_self_iff.2 (all_ne_nul h)

theorem beforeNul_append_nul (h : 0 ∉ s) (l : Bytes) : beforeNul (s ++ 0 :: l) = s := by
  rw [beforeNul, List.takeWhile_append_of_pos (all_ne_nul h)]
  simp

/-- A NUL put behind a text ends it no earlier than its own first NUL. -/
theorem beforeNul_append_singleton (s : Bytes) : beforeNul (s ++ [0]) = beforeNul s := by
  by_cases h : 0 ∈ s
  · exact beforeNul_append_of_mem h
  · rw [beforeNul_append_nul h, beforeNul_of_not_mem h]

/-! ## 2. Texts one after the other. -/

/-- Texts one after the other, each with its NUL. -/
def joined (texts : List Bytes) : Bytes := texts.flatMap (· ++ [0])

/-- Texts one after the other from an offset on, each with the offset where it starts. -/
def placed : Nat → List Bytes → List (Bytes × Nat)
  | _, [] => []
  | ofs, s :: texts => (s, ofs) :: placed (ofs + s.length + 1) texts

@[simp] theorem joined_nil : joined [] = [] := rfl

@[simp] theorem joined_cons (s : Bytes) (texts : List Bytes) :
    joined (s :: texts) = s ++ 0 :: joined texts := by
  simp [joined]

theorem joined_append (texts texts' : List Bytes) :
    joined (texts ++ texts') = joined texts ++ joined texts' := by
  simp [joined]

theorem placed_append (ofs : Nat) (texts texts' : List Bytes) :
    placed ofs (texts ++ texts') = placed ofs texts ++ placed (ofs + (joined texts).length) texts' := by
  induction texts generalizing ofs with
  | nil => rfl
  | cons s texts ih =>
    simp only [List.cons_append, placed, ih, joined_cons, List.length_append, List.length_cons]
    rw [show ofs + s.length + 1 + (joined texts).length = ofs + (s.length + ((joined texts).length + 1)) by
      omega]

/-- Where a text is placed, it stands, with a NUL behind it. -/
theorem joined_of_mem_placed {texts : List Bytes} {ofs k : Nat} (h : (s, k) ∈ placed ofs texts) :
    s ∈ texts ∧ ∃ before behind, joined texts = before ++ (s ++ 0 :: behind) ∧ k = ofs + before.length := by
  induction texts generalizing ofs with
  | nil => cases h
  | cons s' texts ih =>
    rcases List.mem_cons.1 h with first | later
    · obtain ⟨rfl, rfl⟩ := Prod.mk.inj first
      exact ⟨List.mem_cons_self, [], joined texts, joined_cons s texts, rfl⟩
    · obtain ⟨mem, before, behind, hj, rfl⟩ := ih later
      refine ⟨List.mem_cons_of_mem _ mem, s' ++ 0 :: before, behind, ?_, ?_⟩
      · rw [joined_cons, hj, List.append_assoc, List.cons_append]
      · simp only [List.length_append, List.length_cons]
        omega

/-- Behind every place in joined texts a NUL follows. -/
theorem nul_mem_drop_joined {texts : List Bytes} {i : Nat} (h : i < (joined texts).length) :
    0 ∈ (joined texts).drop i := by
  have last : texts ≠ [] := fun h0 => by simp [h0] at h
  obtain ⟨texts', s, rfl⟩ := List.eq_nil_or_concat texts |>.resolve_left last
  rw [List.concat_eq_append, joined_append] at h ⊢
  simp only [joined_cons, joined_nil] at h ⊢
  have hi : i ≤ (joined texts' ++ s).length := by
    simp only [List.length_append, List.length_cons, List.length_nil] at h ⊢
    omega
  rw [← List.append_assoc, List.drop_append_of_le_length hi]
  exact List.mem_append_right _ List.mem_cons_self

/-- **Cutting joined texts at their NULs gives the texts.** -/
theorem strings_joined {texts : List Bytes} (plain : ∀ s ∈ texts, 0 ∉ s) {fuel : Nat}
    (h : (joined texts).length ≤ fuel) (ofs : Nat) :
    strings fuel ofs (joined texts) = placed ofs texts := by
  induction texts generalizing fuel ofs with
  | nil => cases fuel <;> rfl
  | cons s texts ih =>
    rw [joined_cons] at h ⊢
    obtain ⟨fuel, rfl⟩ : ∃ n, fuel = n + 1 := ⟨fuel - 1, by simp at h; omega⟩
    have cut : beforeNul (s ++ 0 :: joined texts) = s :=
      beforeNul_append_nul (plain s List.mem_cons_self) _
    have rest : (s ++ 0 :: joined texts).drop (s.length + 1) = joined texts := by
      rw [List.drop_append]
      simp
    have short : (joined texts).length ≤ fuel := by
      simp only [List.length_append, List.length_cons] at h
      omega
    have ih := ih (fun s' hs' => plain s' (List.mem_cons_of_mem _ hs')) short (ofs + s.length + 1)
    obtain ⟨c, tail, hc⟩ : ∃ c tail, s ++ 0 :: joined texts = c :: tail := by
      cases s with
      | nil => exact ⟨0, joined texts, rfl⟩
      | cons c s => exact ⟨c, s ++ 0 :: joined texts, rfl⟩
    rw [hc] at cut rest ⊢
    simp only [strings, placed]
    rw [cut, rest, ih]

/-! ## 3. Slots of equal size. -/

theorem length_flatten_of_size {slots : List Bytes} {size : Nat} (h : ∀ x ∈ slots, x.length = size) :
    slots.flatten.length = slots.length * size := by
  induction slots with
  | nil => rw [List.flatten_nil, List.length_nil, List.length_nil, Nat.zero_mul]
  | cons x slots ih =>
    rw [List.flatten_cons, List.length_append, h x List.mem_cons_self,
      ih fun y hy => h y (List.mem_cons_of_mem _ hy), List.length_cons, Nat.succ_mul, Nat.add_comm]

/-- A slot and what lies in front of it, in slots of equal size. -/
theorem split_slots {slots : List Bytes} {size i : Nat} {x : Bytes} (h : ∀ x ∈ slots, x.length = size)
    (hx : slots[i]? = some x) : ∃ before behind, slots = before ++ x :: behind ∧
      before.length = i ∧ before.flatten.length = i * size := by
  obtain ⟨hi, rfl⟩ := List.getElem?_eq_some_iff.1 hx
  have hb : (slots.take i).length = i := List.length_take_of_le (Nat.le_of_lt hi)
  refine ⟨slots.take i, slots.drop (i + 1), ?_, hb, ?_⟩
  · rw [← List.drop_eq_getElem_cons hi, List.take_append_drop]
  · rw [length_flatten_of_size fun x hx => h x (List.mem_of_mem_take hx), hb]

/-- A text in a slot: cut to the size, with a NUL behind it, and then what was there before. -/
def filled (size : Nat) (s old : Bytes) : Bytes :=
  s.take (size - 1) ++ 0 :: old.drop ((s.take (size - 1)).length + 1)

theorem length_take_lt {size : Nat} (hsize : size ≠ 0) (s : Bytes) : (s.take (size - 1)).length < size := by
  rw [List.length_take]
  omega

theorem length_filled {size : Nat} (hsize : size ≠ 0) {s old : Bytes} (hold : old.length = size) :
    (filled size s old).length = size := by
  have := length_take_lt hsize s
  rw [filled, List.length_append, List.length_cons, List.length_drop]
  omega

theorem beforeNul_filled (size : Nat) (s old : Bytes) :
    beforeNul (filled size s old) = beforeNul (s.take (size - 1)) := by
  have split : filled size s old = (s.take (size - 1) ++ [0]) ++
      old.drop ((s.take (size - 1)).length + 1) := by
    rw [filled, List.append_assoc]
    rfl
  rw [split, beforeNul_append_of_mem (List.mem_append_right _ List.mem_cons_self),
    beforeNul_append_singleton]

/-- Overwriting changes as many bytes as are given. -/
theorem toList_overwrite {b : Array UInt8} {i : Nat} {x y z cs : Bytes}
    (hb : b.toList = x ++ (y ++ z)) (hx : x.length = i) (hy : y.length = cs.length) :
    (overwrite b i cs).toList = x ++ (cs ++ z) := by
  induction cs generalizing b i x y with
  | nil => rw [overwrite, hb, List.eq_nil_of_length_eq_zero hy]
  | cons c cs ih =>
    cases y with
    | nil => cases hy
    | cons d y =>
      have hset : (b.setIfInBounds i c).toList = (x ++ [c]) ++ (y ++ z) := by
        rw [Array.toList_setIfInBounds, hb, List.set_append_right _ _ (Nat.le_of_eq hx), hx, Nat.sub_self]
        simp
      rw [overwrite, ih hset (by simp [hx]) (Nat.succ.inj hy), List.append_assoc]
      rfl

end Bytes

open Bytes

/-! ## 4. The index. -/

namespace StringTable

/-- A text that has no place yet gets one, whichever way it is put in. -/
theorem insert_eq_insertIfNew {m : Std.HashMap Bytes Nat} {s : Bytes} (h : m.contains s = false) (k : Nat) :
    m.insert s k = m.insertIfNew s k := by
  rcases m with ⟨⟨⟨size, buckets⟩, wf⟩⟩
  simp only [Std.HashMap.contains, Std.DHashMap.contains, Std.DHashMap.Internal.Raw₀.contains] at h
  simp only [Std.HashMap.insert, Std.HashMap.insertIfNew, Std.DHashMap.insert, Std.DHashMap.insertIfNew,
    Std.DHashMap.Internal.Raw₀.insert, Std.DHashMap.Internal.Raw₀.insertIfNew]
  congr 2
  simp_all

/-- The first place of a text counts. -/
theorem getElem?_foldl_insertIfNew {α : Type} [BEq α] [Hashable α] [LawfulBEq α] [LawfulHashable α]
    (l : List (α × Nat))
    (m : Std.HashMap α Nat) (s : α) :
    (l.foldl (fun m (s, pos) => m.insertIfNew s pos) m)[s]? = m[s]?.or (l.lookup s) := by
  induction l generalizing m with
  | nil => simp
  | cons p l ih =>
    obtain ⟨s', pos⟩ := p
    rw [List.foldl_cons, ih, Std.HashMap.getElem?_insertIfNew, List.lookup_cons]
    by_cases hs : s' = s
    · subst hs
      by_cases hm : s' ∈ m
      · simp [hm]
      · simp [hm]
    · have hs' : (s == s') = false := by simpa using Ne.symm hs
      simp [hs, hs']

/-- The place of a text in an index is the first that a reference can name. -/
theorem getElem?_indexOf (ofs : Nat) (bytes s : Bytes) :
    (indexOf ofs bytes)[s]? = ((Bytes.strings bytes.length ofs bytes).filter (·.2 < 0x80000000)).lookup s := by
  rw [indexOf, getElem?_foldl_insertIfNew, Std.HashMap.getElem?_empty, Option.none_or]

variable {texts : List Bytes} {ofs : Nat}

theorem indexOf_joined (plain : ∀ s ∈ texts, 0 ∉ s) (reach : ∀ p ∈ placed ofs texts, p.2 < 0x80000000) :
    indexOf ofs (joined texts) =
      (placed ofs texts).foldl (fun m (s, pos) => m.insertIfNew s pos) ∅ := by
  have all : (placed ofs texts).filter (·.2 < 0x80000000) = placed ofs texts :=
    List.filter_eq_self.2 fun p hp => by simpa using reach p hp
  rw [indexOf, strings_joined plain (Nat.le_refl _)]
  dsimp only
  rw [all]

theorem getElem?_indexOf_joined (plain : ∀ s ∈ texts, 0 ∉ s)
    (reach : ∀ p ∈ placed ofs texts, p.2 < 0x80000000) (s : Bytes) :
    (indexOf ofs (joined texts))[s]? = (placed ofs texts).lookup s := by
  rw [indexOf_joined plain reach, getElem?_foldl_insertIfNew]
  simp

/-- One more text at the end is one more entry, unless the text is there already. -/
theorem indexOf_joined_append (plain : ∀ s ∈ texts, 0 ∉ s) {s : Bytes} (hs : 0 ∉ s)
    (reach : ∀ p ∈ placed ofs (texts ++ [s]), p.2 < 0x80000000) :
    indexOf ofs (joined (texts ++ [s])) =
      (indexOf ofs (joined texts)).insertIfNew s (ofs + (joined texts).length) := by
  have plain' : ∀ s' ∈ texts ++ [s], 0 ∉ s' := by
    intro s' hs'
    rcases List.mem_append.1 hs' with h | h
    · exact plain s' h
    · exact List.mem_singleton.1 h ▸ hs
  have before : ∀ p ∈ placed ofs texts, p.2 < 0x80000000 := fun p hp =>
    reach p (by rw [placed_append]; exact List.mem_append_left _ hp)
  rw [indexOf_joined plain' reach, indexOf_joined plain before, placed_append, List.foldl_append]
  rfl

end StringTable

/-! ## 5. The calls. -/

/-- A call that adds a text. -/
inductive StringCommand where
  /-- Keep a text for good. -/
  | keep (s : Bytes)
  /-- Put a text into the ring; without a ring, keep it. -/
  | temp (s : Bytes)
  deriving DecidableEq

/-- Whether the call goes into the ring. -/
def StringCommand.isTemp : StringCommand → Bool
  | .keep _ => false
  | .temp _ => true

namespace StringTable

/-- What keeping a text leaves; a text that finds no room leaves the table as it is. -/
def afterKeep (t : StringTable) (s : Bytes) : StringTable :=
  match t.keep s with
  | .ok (_, t') => t'
  | .error _ => t

/-- **What a call leaves**, whether it succeeds or fails. A slot is written even where no reference can
    name it and the call fails for that. -/
def after (t : StringTable) : StringCommand → StringTable
  | .keep s => t.afterKeep s
  | .temp s => if t.hasRing then t.addTemp s else t.afterKeep s

theorem keep_eq_ok {t t' : StringTable} {s : Bytes} {r : StringRef} (h : t.keep s = .ok (r, t')) :
    t.keptRef s = .ok r ∧ t' = t.addKept s := by
  rw [keep] at h
  cases hr : t.keptRef s with
  | error e => rw [hr] at h; cases h
  | ok r' => rw [hr] at h; cases h; exact ⟨rfl, rfl⟩

theorem keep_of_keptRef {t : StringTable} {s : Bytes} {r : StringRef} (h : t.keptRef s = .ok r) :
    t.keep s = .ok (r, t.addKept s) := by
  rw [keep, h]
  rfl

/-- A text that has a place stays there. -/
theorem addKept_of_some {t : StringTable} {s : Bytes} {k : Nat} (h : t.kept[s.beforeNul]? = some k) :
    t.addKept s = t := by
  have known : t.kept.contains s.beforeNul = true := by
    rw [Std.HashMap.contains_eq_isSome_getElem?, h]
    rfl
  simp [addKept, known]

/-- A text that has none comes behind all bytes, with its NUL. -/
theorem addKept_of_none {t : StringTable} {s : Bytes} (h : t.kept[s.beforeNul]? = none) :
    t.addKept s = { t with
      bytes := t.bytes ++ (s.beforeNul ++ [0]).toArray
      kept := t.kept.insert s.beforeNul t.size } := by
  have unknown : t.kept.contains s.beforeNul = false := by
    rw [Std.HashMap.contains_eq_isSome_getElem?, h]
    rfl
  simp [addKept, unknown]

/-- A text that has a place is kept again at no cost. -/
theorem keep_of_some {t : StringTable} {s : Bytes} {k : Nat} (h : t.kept[s.beforeNul]? = some k) :
    t.keep s = .ok (Int32.ofNat k, t) := by
  have ref : t.keptRef s = .ok (Int32.ofNat k) := by simp [keptRef, h]
  rw [keep_of_keptRef ref, addKept_of_some h]

theorem nextSlot_addKept (t : StringTable) (s : Bytes) : (t.addKept s).nextSlot = t.nextSlot := by
  unfold addKept
  dsimp only
  split <;> rfl

/-- Keeping a text adds it, or finds no room. -/
theorem afterKeep_cases (t : StringTable) (s : Bytes) :
    (∃ r, t.keptRef s = .ok r ∧ t.afterKeep s = t.addKept s) ∨
    (∃ e, t.keep s = .error e ∧ t.afterKeep s = t) := by
  cases h : t.keptRef s with
  | ok r => exact .inl ⟨r, rfl, by rw [afterKeep, keep_of_keptRef h]⟩
  | error e =>
    have hk : t.keep s = .error e := by rw [keep, h]; rfl
    exact .inr ⟨e, hk, by rw [afterKeep, hk]⟩

/-- Where a text has a place, putting it there is a call. -/
theorem addKept_eq_after {t : StringTable} {s : Bytes} {r : StringRef} (h : t.keptRef s = .ok r) :
    t.addKept s = t.after (.keep s) := by
  rw [after, afterKeep, keep_of_keptRef h]

/-- Where there is a ring, a text goes into the slot at the cursor. -/
theorem addTemp_of_ring {t : StringTable} (ringed : t.hasRing = true) (s : Bytes) :
    t.addTemp s = { t with
      bytes := overwrite t.bytes t.slotStart (s.take (t.slotSize - 1) ++ [0])
      nextSlot := (t.nextSlot + 1) % t.slots } := by
  simp [addTemp, ringed]

/-- What goes into the ring goes there by a call, wherever it lies. -/
theorem putTemp_eq_after (t : StringTable) (s : Bytes) : t.putTemp s = t.after (.temp s) := by
  rw [putTemp, after, afterKeep, keep]
  cases t.keptRef s <;> rfl

/-! ## 6. The invariant. -/

/-- **What a table is made of**: the blob, the slots of the ring and the kept texts. -/
structure Laid (blob : Bytes) (ring texts : List Bytes) (t : StringTable) : Prop where
  bytes : t.bytes.toList = blob ++ (ring.flatten ++ joined texts)
  base : t.baseSize = blob.length
  slots : ring.length = t.slots
  /-- Every slot has its size, and a NUL that ends what is read from its start. -/
  slot : ∀ x ∈ ring, x.length = t.slotSize ∧ (t.slotSize ≠ 0 → 0 ∈ x)
  plain : ∀ s ∈ texts, 0 ∉ s
  kept : t.kept = indexOf t.keptStart (joined texts)
  /-- A reference can name every kept text. -/
  reach : ∀ p ∈ placed t.keptStart texts, p.2 < 0x80000000
  room : (joined texts).length ≤ t.capacity
  cursor : t.CursorFits

namespace Laid

variable {blob s : Bytes} {ring texts : List Bytes} {t : StringTable} {r : StringRef}

theorem new (blob : Bytes) (slots slotSize capacity : Nat) :
    (StringTable.new blob slots slotSize capacity).Laid blob
      (List.replicate slots (List.replicate slotSize 0)) [] where
  bytes := by simp [StringTable.new, List.flatten_replicate_replicate]
  base := rfl
  slots := List.length_replicate
  slot x hx := by
    rw [List.eq_of_mem_replicate hx]
    refine ⟨List.length_replicate, fun hsize => ?_⟩
    exact List.mem_replicate.2 ⟨hsize, rfl⟩
  plain := nofun
  kept := rfl
  reach := nofun
  room := Nat.zero_le _
  cursor h := Nat.pos_of_ne_zero h

theorem length_flatten (h : Laid blob ring texts t) : ring.flatten.length = t.slots * t.slotSize := by
  rw [Bytes.length_flatten_of_size fun x hx => (h.slot x hx).1, h.slots]

theorem length_before (h : Laid blob ring texts t) : (blob ++ ring.flatten).length = t.keptStart := by
  rw [List.length_append, h.length_flatten, keptStart, h.base]

theorem size_eq (h : Laid blob ring texts t) : t.size = t.keptStart + (joined texts).length := by
  rw [size, ← Array.length_toList, h.bytes, ← List.append_assoc, List.length_append, h.length_before]

theorem keptSize_eq (h : Laid blob ring texts t) : t.keptSize = (joined texts).length := by
  rw [keptSize, h.size_eq, Nat.add_sub_cancel_left]

/-- The bytes behind a place among the kept texts. -/
theorem drop_kept (h : Laid blob ring texts t) (i : Nat) :
    t.bytes.toList.drop (t.keptStart + i) = (joined texts).drop i := by
  rw [h.bytes, ← List.append_assoc, ← h.length_before, List.drop_append, List.drop_eq_nil_of_le (by omega)]
  simp

/-- The place of a text in the index. -/
theorem kept_eq (h : Laid blob ring texts t) (s : Bytes) :
    t.kept[s]? = (placed t.keptStart texts).lookup s := by
  rw [h.kept, getElem?_indexOf_joined h.plain h.reach]

/-- A text that is kept, or for which there is room, gets a place and stays there. -/
theorem addKept (h : Laid blob ring texts t) (hr : t.keptRef s = .ok r) :
    ∃ texts' k, texts <+: texts' ∧ Laid blob ring texts' (t.addKept s) ∧
      (placed t.keptStart texts').lookup s.beforeNul = some k ∧ r = Int32.ofNat k := by
  unfold keptRef at hr
  cases hk : t.kept[s.beforeNul]? with
  | some k =>
    simp only [hk] at hr
    refine ⟨texts, k, List.prefix_rfl, (addKept_of_some hk).symm ▸ h, ?_, (Except.ok.inj hr).symm⟩
    rw [← h.kept_eq, hk]
  | none =>
    simp only [hk] at hr
    split at hr
    · cases hr
    next room =>
      have text := nul_not_mem_beforeNul s
      have place : placed t.keptStart (texts ++ [s.beforeNul]) =
          placed t.keptStart texts ++ [(s.beforeNul, t.size)] := by
        rw [placed_append, h.size_eq]
        rfl
      have reach : ∀ p ∈ placed t.keptStart (texts ++ [s.beforeNul]), p.2 < 0x80000000 := by
        intro p hp
        rw [place] at hp
        rcases List.mem_append.1 hp with hp | hp
        · exact h.reach p hp
        · rw [List.mem_singleton.1 hp]
          omega
      rw [addKept_of_none hk]
      refine ⟨texts ++ [s.beforeNul], t.size, List.prefix_append .., ?_, ?_, (Except.ok.inj hr).symm⟩
      · exact {
          bytes := by
            rw [Array.toList_append, h.bytes, joined_append, joined_cons, joined_nil]
            simp only [List.append_assoc]
          base := h.base
          slots := h.slots
          slot := h.slot
          plain := by
            intro s' hs'
            rcases List.mem_append.1 hs' with hs' | hs'
            · exact h.plain s' hs'
            · exact List.mem_singleton.1 hs' ▸ text
          kept := by
            have unknown : t.kept.contains s.beforeNul = false := by
              rw [Std.HashMap.contains_eq_isSome_getElem?, hk]
              rfl
            change t.kept.insert s.beforeNul t.size = indexOf t.keptStart _
            rw [insert_eq_insertIfNew unknown, indexOf_joined_append h.plain text reach, ← h.kept, h.size_eq]
          reach
          room := by
            rw [h.keptSize_eq] at room
            rw [joined_append, joined_cons, joined_nil]
            simp only [List.length_append, List.length_cons, List.length_nil]
            omega
          cursor := h.cursor }
      · rw [place, List.lookup_append, ← h.kept_eq, hk]
        simp

/-- The slot that is written next. -/
theorem nextSlot_lt (h : Laid blob ring texts t) (ringed : t.hasRing = true) : t.nextSlot < ring.length := by
  rw [h.slots]
  refine h.cursor fun h0 => ?_
  simp [hasRing, h0] at ringed

/-- A text goes into the slot at the cursor, and nowhere else. -/
theorem addTemp (h : Laid blob ring texts t) (ringed : t.hasRing = true) {old : Bytes}
    (hold : ring[t.nextSlot]? = some old) (s : Bytes) :
    Laid blob (ring.set t.nextSlot (filled t.slotSize s old)) texts (t.addTemp s) := by
  have hsize : t.slotSize ≠ 0 := fun h0 => by simp [hasRing, h0] at ringed
  have hlen := (h.slot old (List.mem_of_getElem? hold)).1
  have written := addTemp_of_ring ringed s
  rw [written]
  exact {
    bytes := by
      obtain ⟨before, behind, rfl, hcount, hbefore⟩ := split_slots (fun x hx => (h.slot x hx).1) hold
      have cut := length_take_lt hsize s
      have whole : t.bytes.toList = (blob ++ before.flatten) ++
          (old.take ((s.take (t.slotSize - 1)).length + 1) ++
            (old.drop ((s.take (t.slotSize - 1)).length + 1) ++ (behind.flatten ++ joined texts))) := by
        rw [h.bytes, ← List.append_assoc (List.take _ _), List.take_append_drop]
        simp only [List.flatten_append, List.flatten_cons, List.append_assoc]
      rw [toList_overwrite whole, List.set_append_right _ _ (Nat.le_of_eq hcount), hcount, Nat.sub_self]
      · simp only [filled, List.set_cons_zero, List.flatten_append, List.flatten_cons, List.append_assoc,
          List.cons_append, List.nil_append]
      · rw [List.length_append, hbefore, slotStart, h.base]
      · rw [List.length_take_of_le (by omega), List.length_append]
        rfl
    base := h.base
    slots := by rw [List.length_set]; exact h.slots
    slot := by
      intro x hx
      rcases List.mem_or_eq_of_mem_set hx with hx | rfl
      · exact h.slot x hx
      · exact ⟨length_filled hsize hlen, fun _ => List.mem_append_right _ List.mem_cons_self⟩
    plain := h.plain
    kept := h.kept
    reach := h.reach
    room := h.room
    cursor := written ▸ h.cursor.addTemp s }

/-- **What a call can do**: texts come behind those that are there, and at most the slot at the cursor is
    written, which moves on. -/
theorem after (h : Laid blob ring texts t) (c : StringCommand) :
    ∃ ring' texts', Laid blob ring' texts' (t.after c) ∧ t.SameRegions (t.after c) ∧ texts <+: texts' ∧
      (ring' = ring ∧ (t.after c).nextSlot = t.nextSlot ∨
        c.isTemp = true ∧ (∃ x, ring' = ring.set t.nextSlot x) ∧
          (t.after c).nextSlot = (t.nextSlot + 1) % t.slots) := by
  have keeping : ∀ s, ∃ texts', Laid blob ring texts' (t.afterKeep s) ∧ t.SameRegions (t.afterKeep s) ∧
      texts <+: texts' ∧ (t.afterKeep s).nextSlot = t.nextSlot := by
    intro s
    rcases t.afterKeep_cases s with ⟨r, hr, same⟩ | ⟨e, -, same⟩
    · obtain ⟨texts', k, prefixed, laid, -, -⟩ := h.addKept hr
      rw [same]
      exact ⟨texts', laid, sameRegions_addKept t s, prefixed, nextSlot_addKept t s⟩
    · rw [same]
      exact ⟨texts, h, .refl t, List.prefix_rfl, rfl⟩
  cases c with
  | keep s =>
    obtain ⟨texts', laid, regions, prefixed, cursor⟩ := keeping s
    exact ⟨ring, texts', laid, regions, prefixed, .inl ⟨rfl, cursor⟩⟩
  | temp s =>
    rw [StringTable.after]
    split
    next ringed =>
      have hi := h.nextSlot_lt ringed
      refine ⟨_, texts, h.addTemp ringed (List.getElem?_eq_getElem hi) s, sameRegions_addTemp t s,
        List.prefix_rfl, .inr ⟨rfl, ⟨_, rfl⟩, ?_⟩⟩
      simp [StringTable.addTemp, ringed]
    next =>
      obtain ⟨texts', laid, regions, prefixed, cursor⟩ := keeping s
      exact ⟨ring, texts', laid, regions, prefixed, .inl ⟨rfl, cursor⟩⟩

/-- **What any calls can do**: texts come behind those that are there, and a slot is left alone as long as
    the cursor has not come round to it. -/
theorem run (h : Laid blob ring texts t) (calls : List StringCommand) :
    ∃ ring' texts', Laid blob ring' texts' (calls.foldl StringTable.after t) ∧
      t.SameRegions (calls.foldl StringTable.after t) ∧ texts <+: texts' ∧
      ∀ i, (∀ n < calls.countP (·.isTemp), (t.nextSlot + n) % t.slots ≠ i) → ring'[i]? = ring[i]? := by
  induction calls generalizing ring texts t with
  | nil => exact ⟨ring, texts, h, .refl t, List.prefix_rfl, fun _ _ => rfl⟩
  | cons c calls ih =>
    obtain ⟨ring₁, texts₁, laid₁, regions₁, prefixed₁, wrote⟩ := h.after c
    obtain ⟨ring₂, texts₂, laid₂, regions₂, prefixed₂, spared⟩ := ih laid₁
    refine ⟨ring₂, texts₂, laid₂, regions₁.trans regions₂, prefixed₁.trans prefixed₂, fun i away => ?_⟩
    rcases wrote with ⟨rfl, cursor⟩ | ⟨temp, ⟨x, rfl⟩, cursor⟩
    · refine spared i fun n hn => ?_
      rw [cursor, regions₁.slots]
      refine away n (Nat.lt_of_lt_of_le hn ?_)
      rw [List.countP_cons]
      omega
    · rw [List.countP_cons_of_pos temp] at away
      have other : t.nextSlot ≠ i := by
        intro here
        have first := away 0 (Nat.succ_pos _)
        rw [Nat.add_zero, here] at first
        by_cases hs : t.slots = 0
        · rw [hs, Nat.mod_zero] at first
          exact first rfl
        · exact first (Nat.mod_eq_of_lt (here ▸ h.cursor hs))
      rw [spared i fun n hn => ?_, List.getElem?_set_ne other]
      rw [cursor, regions₁.slots, Nat.mod_add_mod, Nat.add_assoc, Nat.add_comm 1 n]
      exact away (n + 1) (Nat.succ_lt_succ hn)

/-- The ring and the kept strings, as they are saved. -/
theorem runtimeBytes_eq (h : Laid blob ring texts t) : t.runtimeBytes = ring.flatten ++ joined texts := by
  have whole : t.bytes.toList.take t.size = t.bytes.toList := List.take_of_length_le (Nat.le_refl _)
  rw [runtimeBytes, Array.toList_extract, List.extract_eq_take_drop, ← List.drop_take, whole, h.bytes, h.base,
    List.drop_left]

/-- **Restoring what was saved** gives the table back, the index included; only the cursor is that of the
    table which is restored into. -/
theorem restored {ring₀ texts₀ : List Bytes} {t₀ : StringTable} (h₀ : Laid blob ring₀ texts₀ t₀)
    (h : Laid blob ring texts t) (same : t₀.SameRegions t) :
    t₀.restoreRuntime t.runtimeBytes = .ok { t with nextSlot := t₀.nextSlot } := by
  have hring : ring.flatten.length = t₀.slots * t₀.slotSize := by
    rw [h.length_flatten, same.slots, same.slotSize]
  have base : t₀.bytes.extract 0 t₀.baseSize = blob.toArray := by
    apply Array.toList_inj.1
    rw [Array.toList_extract, List.extract_eq_take_drop, h₀.bytes, h₀.base]
    simp
  have bytes : blob.toArray ++ (ring.flatten ++ joined texts).toArray = t.bytes := by
    apply Array.toList_inj.1
    rw [h.bytes]
    simp
  have behind : (ring.flatten ++ joined texts).drop (t₀.slots * t₀.slotSize) = joined texts := by
    rw [← hring, List.drop_left]
  have room := h.room
  rw [same.capacity] at room
  rw [restoreRuntime, h.runtimeBytes_eq]
  simp only [List.length_append, hring]
  rw [if_neg (by omega), if_neg (by omega), base, bytes, behind, ← same.keptStart, ← h.kept]
  cases t
  cases same
  simp_all

end Laid

end StringTable

end QuakeProgs
