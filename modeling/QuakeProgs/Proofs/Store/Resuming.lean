/-
  File:      QuakeProgs/Proofs/Store/Resuming.lean
  Subject:   A STORE GOES ON WHERE ANOTHER STOPPED, whatever either of them has been through.

  What is saved of a store are the records below its mark. Two stores of the same sizes may have grown in
  other steps, to other counts, and have other marks, and the store that is restored into is reset first.
  Nothing of this shows in what is handed out next.

  * `Ordered.fits` -- what a store saved is accepted by every store of the same sizes;
  * `EdictStore.vacancy_congr` -- the number handed out next is a matter of the records below the mark;
  * `EdictStore.Resumes` -- what it is for one store to go on where another stopped;
  * `EdictStore.goes_on_elsewhere` -- a store into which the records of another are put does, where the limit
    leaves room for the world and the reserved numbers.
-/
import QuakeProgs.Proofs.Store.Batches

namespace QuakeProgs

namespace EdictStore

variable {s s₁ s₂ t t' : EdictStore} {config : StoreConfig}

/-! ## 1. What was saved is accepted. -/

/-- Where the limit leaves room for the world and the reserved numbers, all of them are in use, and not more
    than the limit. -/
theorem Ordered.inUse_bounds {fieldWords : Nat} (h : s.Ordered fieldWords config) (world : 1 ≤ config.max)
    (reserved : config.reserved ≤ config.max) : max config.reserved 1 ≤ s.inUse ∧ s.inUse ≤ config.max := by
  have first : max config.reserved 1 ≤ s.inUse ∨ config.max ≤ s.inUse := h.marked.reserved
  have last : s.inUse ≤ max config.max (max config.reserved 1) := h.marked.limit
  omega

/-- **What a store saved fits**: it has the right width, and is not too much. -/
theorem Ordered.fits {fieldWords : UInt64} (h : s.Ordered fieldWords.toNat config)
    (into : t.Ordered fieldWords.toNat config) (world : 1 ≤ config.max) (reserved : config.reserved ≤ config.max) :
    ∃ t', t.restore s.snapshot = .ok t' := by
  have within : s.inUse ≤ s.records.length := h.regular.within
  have saved := h.tiled.snapshot_edicts within
  have width : s.snapshot.fieldWords.toNat = t.fieldWords := by
    have own : s.fieldWords = fieldWords.toNat := h.marked.width
    have other : t.fieldWords = fieldWords.toNat := into.marked.width
    rw [snapshot, own, other]
    exact congrArg UInt64.toNat (UInt64.ofNat_toNat)
  have few : ¬ s.snapshot.edicts.length > t.config.max := by
    have sizes : t.config = config := into.marked.sizes
    have bounds := h.inUse_bounds world reserved
    rw [saved, List.length_map, List.length_take, Nat.min_eq_left within, sizes]
    omega
  have wide : ¬ (s.snapshot.edicts.any fun r => r.fields.length ≠ t.fieldWords) = true := by
    rw [List.any_eq_true, saved]
    rintro ⟨r, mem, other⟩
    obtain ⟨e, he, rfl⟩ := List.mem_map.mp mem
    have size : e.fields.size = fieldWords.toNat :=
      (h.regular.width e (List.mem_of_mem_take he)).trans h.marked.width
    exact of_decide_eq_true other (Array.length_toList.trans (size.trans into.marked.width.symm))
  rw [restore]
  dsimp only
  rw [if_neg (not_not_intro width), if_neg few, if_neg wide]
  exact ⟨_, rfl⟩

/-! ## 2. What is handed out next. -/

/-- **The number handed out next** is a matter of the sizes and of the records below the mark. -/
theorem vacancy_congr (h₁ : s₁.Tiled) (h₂ : s₂.Tiled) (sizes : s₁.config = s₂.config)
    (mark : s₁.inUse = s₂.inUse) (below : ∀ i < s₂.inUse, s₁.get? i = s₂.get? i) (time : Single) :
    s₁.vacancy time = s₂.vacancy time := by
  have found : s₁.reusable? time = s₂.reusable? time := by
    rw [reusable?, reusable?, firstOf_eq, firstOf_eq, sizes, mark, ← List.head?_filter, ← List.head?_filter]
    refine congrArg List.head? (List.filter_congr fun i mem => ?_)
    rw [List.mem_range'_1] at mem
    rw [h₁.headerAt?_eq, h₂.headerAt?_eq, below i (by omega)]
  rw [vacancy, vacancy, found, mark, sizes]

/-- What is handed out is the vacant number, as a reference. -/
theorem alloc_fst (s : EdictStore) (time : Single) :
    (s.alloc time).map (·.1) = (s.vacancy time).map (·.toUInt32) := by
  rw [alloc]
  cases s.vacancy time <;> rfl

/-! ## 3. Going on. -/

/-- **Going on where another store stopped**: `t'`, which was `t`, holds all that is saved of `s`, and nothing
    more; it has given no record up, and hands out what `s` would. -/
structure Resumes (s t t' : EdictStore) : Prop where
  saved : t'.snapshot = s.snapshot
  mark : t'.inUse = s.inUse
  blank : ∀ i, t'.inUse ≤ i → i < t'.count → t'.get? i = some (.blank s.fieldWords)
  count : t.count ≤ t'.count
  /-- The next number, at any time, or the error that there is none. -/
  next : ∀ time, t'.vacancy time = s.vacancy time
  alloc : ∀ time, (t'.alloc time).map (·.1) = (s.alloc time).map (·.1)

theorem Ordered.resumes {fieldWords : Nat} (h : s.Ordered fieldWords config) (into : t.Ordered fieldWords config)
    (world : 1 ≤ config.max) (reserved : config.reserved ≤ config.max) (e : t.restore s.snapshot = .ok t') :
    s.Resumes t t' := by
  obtain ⟨ordered, records, inUse⟩ := h.refilled into e
  have within : s.inUse ≤ s.records.length := h.regular.within
  have first : (s.records.take s.inUse).length = s.inUse := by rw [List.length_take, Nat.min_eq_left within]
  have width : t'.fieldWords = s.fieldWords := ordered.marked.width.trans h.marked.width.symm
  have sizes : t'.config = s.config := ordered.marked.sizes.trans h.marked.sizes.symm
  -- the mark of the reset store lies at or below that of `s`, which has all reserved numbers in use
  have mark : t'.inUse = s.inUse := by
    have bounds := h.inUse_bounds world reserved
    omega
  have upTo : t'.records.take t'.inUse = s.records.take s.inUse := by
    rw [records, mark, List.take_append_of_le_length (Nat.le_of_eq first.symm),
      List.take_of_length_le (Nat.le_of_eq first)]
  have below : ∀ i < s.inUse, t'.get? i = s.get? i := by
    intro i hi
    rw [ordered.tiled.get?_eq_records, h.tiled.get?_eq_records, ← List.getElem?_take_of_lt (mark ▸ hi), upTo,
      List.getElem?_take_of_lt hi]
  have next : ∀ time, t'.vacancy time = s.vacancy time :=
    vacancy_congr ordered.tiled h.tiled sizes mark below
  exact {
    saved := by
      have own := ordered.tiled.snapshot_edicts ordered.regular.within
      rw [upTo, ← h.tiled.snapshot_edicts within] at own
      show StoreSnapshot.mk t'.fieldWords.toUInt64 t'.snapshot.edicts = s.snapshot
      rw [own, width]
      rfl
    mark
    blank := by
      intro i beyond inside
      rw [mark] at beyond
      rw [← ordered.tiled.length_records, records, List.length_append, first, List.length_replicate] at inside
      rw [ordered.tiled.get?_eq_records, records, List.getElem?_append_right (by omega), first,
        List.getElem?_replicate, if_pos (by omega)]
      exact congrArg (fun n => some (Edict.blank n)) h.marked.width.symm
    count := by
      rw [eq_after_restore e]
      exact (into.stands.after _).2
    next
    alloc := fun time => by rw [alloc_fst, alloc_fst, next] }

/-- **A store goes on in another.** After any sequences of operations on two fresh stores of the same sizes,
    failed ones included, what is saved of the one is accepted by the other, which then goes on where the first
    stopped. -/
theorem goes_on_elsewhere (fieldWords : UInt64) (config : StoreConfig) (world : 1 ≤ config.max)
    (reserved : config.reserved ≤ config.max) (cs ds : List StoreCommand) :
    let s := cs.foldl after (new fieldWords.toNat config)
    let t := ds.foldl after (new fieldWords.toNat config)
    ∃ t', t.restore s.snapshot = .ok t' ∧ s.Resumes t t' := by
  intro s t
  have ordered : s.Ordered fieldWords.toNat config := (Ordered.new _ _).foldl cs
  have into : t.Ordered fieldWords.toNat config := (Ordered.new _ _).foldl ds
  obtain ⟨t', e⟩ := ordered.fits into world reserved
  exact ⟨t', e, ordered.resumes into world reserved e⟩

/-- Of two stores with room for four records, one has handed out number 1 and freed it ten seconds into a level,
    the other has grown to its limit and has two in use. The other goes on where the first stopped: number 1 is
    next, three quarters of a second later. -/
theorem goes_on_elsewhere_grown :
    let config : StoreConfig := { initial := 2, batch := 1, max := 4, reserved := 1 }
    let s := [StoreCommand.alloc ⟨0x41200000⟩, .release 1 ⟨0x41200000⟩].foldl after (new 1 config)
    let t := [StoreCommand.grow 3, .alloc ⟨0x41200000⟩, .alloc ⟨0x41200000⟩].foldl after (new 1 config)
    1 ≤ config.max ∧ config.reserved ≤ config.max ∧ s.count < t.count ∧ s.inUse < t.inUse ∧
      ∃ t', t.restore s.snapshot = .ok t' ∧ t'.inUse = 2 ∧ t'.vacancy ⟨0x412c0000⟩ = .ok 1 := by
  intro config s t
  have world : 1 ≤ config.max := by decide
  have reserved : config.reserved ≤ config.max := by decide
  have found : s.reusable? ⟨0x412c0000⟩ = some 1 := by decide
  have vacant : s.vacancy ⟨0x412c0000⟩ = .ok 1 := by rw [vacancy, found]
  have mark : s.inUse = 2 := by decide
  obtain ⟨t', e, resumes⟩ : ∃ t', t.restore s.snapshot = .ok t' ∧ s.Resumes t t' :=
    goes_on_elsewhere 1 config world reserved _ _
  exact ⟨world, reserved, by decide, by decide, t', e, resumes.mark.trans mark, (resumes.next _).trans vacant⟩

end EdictStore

end QuakeProgs
