/-
  File:      QuakeProgs/Proofs/Store/Batches.lean
  Subject:   STORES THAT DIFFER IN THEIR BATCHES ONLY: no operation can tell them apart.

  A store that grew step by step and one that was filled at once may hold the same records in different
  batches. Each stands for one plain table, and all that is read or changed goes through the table.

  * `EdictStore.SameTable` -- both stand for one table;
  * `EdictStore.Alike` -- the same store, or one in other batches where that is allowed;
  * `Alike.after` -- an operation keeps stores alike, and every lookup and every check gives the same;
  * `overwrite_eq_after` and its kin -- what running code does to a store are operations of the store;
  * `Ordered.refilled` -- a store into which the records below the mark of another are put;
  * `Ordered.restored` -- a fresh one then holds the same table, if the records past the mark are the same.
-/
import QuakeProgs.Proofs.Store.Allocation

namespace QuakeProgs

namespace EdictStore

variable {p : Prop} {s s₁ s₂ : EdictStore}

/-! ## 1. One table. -/

/-- Both stand for one table. -/
def SameTable (s₁ s₂ : EdictStore) : Prop := ∃ t, s₁.Stands t ∧ s₂.Stands t

theorem SameTable.after (h : s₁.SameTable s₂) (c : StoreCommand) : (s₁.after c).SameTable (s₂.after c) := by
  obtain ⟨t, stands₁, stands₂⟩ := h
  exact ⟨t.after c, (stands₁.after c).1, (stands₂.after c).1⟩

/-- The same store. If `scattered`, the records may lie in other batches. -/
def Alike (scattered : Prop) (s₁ s₂ : EdictStore) : Prop := s₁ = s₂ ∨ scattered ∧ s₁.SameTable s₂

theorem Alike.eq (h : s₁.Alike p s₂) (gathered : ¬ p) : s₁ = s₂ := h.resolve_right fun hs => gathered hs.1

theorem Alike.after (h : s₁.Alike p s₂) (c : StoreCommand) : (s₁.after c).Alike p (s₂.after c) := by
  rcases h with same | ⟨scattered, table⟩
  · exact .inl (by rw [same])
  · exact .inr ⟨scattered, table.after c⟩

theorem Alike.flat (h : s₁.Alike p s₂) : s₁.flat = s₂.flat := by
  rcases h with same | ⟨-, t, stands₁, stands₂⟩
  · rw [same]
  · rw [stands₁.flat, stands₂.flat]

/-! ## 2. What is read. -/

theorem Alike.fieldWords (h : s₁.Alike p s₂) : s₁.fieldWords = s₂.fieldWords :=
  congrArg EdictTable.fieldWords h.flat

theorem Alike.inUse (h : s₁.Alike p s₂) : s₁.inUse = s₂.inUse := congrArg EdictTable.inUse h.flat

theorem Alike.config (h : s₁.Alike p s₂) : s₁.config = s₂.config := congrArg EdictTable.config h.flat

theorem Alike.get? (h : s₁.Alike p s₂) (i : Nat) : s₁.get? i = s₂.get? i := by
  have table : s₁.records = s₂.records := congrArg EdictTable.records h.flat
  rcases h with same | ⟨-, t, stands₁, stands₂⟩
  · rw [same]
  · rw [stands₁.tiled.get?_eq_records, stands₂.tiled.get?_eq_records, table]

theorem Alike.count (h : s₁.Alike p s₂) : s₁.count = s₂.count := by
  have table : s₁.records = s₂.records := congrArg EdictTable.records h.flat
  rcases h with same | ⟨-, t, stands₁, stands₂⟩
  · rw [same]
  · rw [← stands₁.tiled.length_records, ← stands₂.tiled.length_records, table]

theorem Alike.get (h : s₁.Alike p s₂) (id : EdictId) : s₁.get id = s₂.get id := by
  rw [EdictStore.get, h.get?, h.count, EdictStore.get]

theorem Alike.search (h : s₁.Alike p s₂) (q : Edict → Bool) (i n : Nat) : s₁.search q i n = s₂.search q i n := by
  simp only [EdictStore.search, h.get?]

theorem Alike.liveEdicts (h : s₁.Alike p s₂) : s₁.liveEdicts = s₂.liveEdicts := by
  simp only [EdictStore.liveEdicts, h.inUse, h.get?]

/-! ## 3. What is checked before a change. -/

theorem Alike.checkWrite (h : s₁.Alike p s₂) (id : EdictId) (ofs n : Nat) :
    s₁.checkWrite id ofs n = s₂.checkWrite id ofs n := by
  rw [EdictStore.checkWrite, h.get, EdictStore.checkWrite]

theorem Alike.headerAt? (h : s₁.Alike p s₂) (i : Nat) : s₁.headerAt? i = s₂.headerAt? i := by
  rcases h with same | ⟨scattered, t, stands₁, stands₂⟩
  · rw [same]
  · have found := Alike.get? (.inr ⟨scattered, t, stands₁, stands₂⟩) i
    rw [stands₁.tiled.headerAt?_eq, stands₂.tiled.headerAt?_eq, found]

theorem Alike.vacancy (h : s₁.Alike p s₂) (time : Single) : s₁.vacancy time = s₂.vacancy time := by
  simp only [EdictStore.vacancy, reusable?, h.headerAt?, h.config, h.inUse]

theorem Alike.checkRelease (h : s₁.Alike p s₂) (id : EdictId) : s₁.checkRelease id = s₂.checkRelease id := by
  rw [EdictStore.checkRelease, h.get, EdictStore.checkRelease]

/-! ## 4. Changes are operations. -/

theorem overwrite_eq_after {id : EdictId} {ofs : Nat} {ws : List Word}
    (h : s.checkWrite id ofs ws.length = .ok ()) : s.overwrite id ofs ws = s.after (.write id ofs ws) := by
  rw [EdictStore.after, perform, write, h]
  rfl

theorem occupy_eq_after {time : Single} {i : Nat} (h : s.vacancy time = .ok i) :
    s.occupy i = s.after (.alloc time) := by
  rw [EdictStore.after, perform, alloc, h]
  rfl

theorem free_eq_after {id : EdictId} (h : s.checkRelease id = .ok ()) (time : Single) :
    s.free id time = s.after (.release id time) := by
  rw [EdictStore.after, perform, release, h]
  rfl

theorem eq_after_restore {s' : EdictStore} {saved : StoreSnapshot} (h : s.restore saved = .ok s') :
    s' = s.after (.restore saved) := by
  rw [EdictStore.after, perform, h]
  rfl

theorem modify_eq_after {id : EdictId} {e : Edict} (h : s.get id = .ok e) (edit : RecordEdit) :
    s.modify id.toNat edit.change = s.after (.edit id edit) := by
  rw [EdictStore.after, perform, h]
  rfl

/-! ## 5. Saving and restoring. -/

/-- A record that was saved is the record. -/
theorem saved_record (e : Edict) : EdictTable.saved (record e) = e := by
  rw [EdictTable.saved, record, Array.toArray_toList]

/-- What is saved are the records below the mark. -/
theorem Tiled.snapshot_edicts (h : s.Tiled) (within : s.inUse ≤ s.records.length) :
    s.snapshot.edicts = (s.records.take s.inUse).map record := by
  have each : ∀ n, n ≤ s.records.length →
      (List.range n).filterMap (fun i => (s.get? i).map record) = (s.records.take n).map record := by
    intro n
    induction n with
    | zero => exact fun _ => rfl
    | succ n ih =>
      intro hn
      rw [List.range_succ, List.filterMap_append, ih (by omega), List.take_add_one, List.map_append]
      simp [h.get?_eq_records, List.getElem?_eq_getElem (show n < s.records.length by omega)]
  exact each s.inUse within

/-- **What restoring leaves** where the records come from a store of the same sizes: those below its mark come
    first, and all past them are blank. -/
theorem Ordered.refilled {fieldWords : Nat} {config : StoreConfig} {t t' : EdictStore}
    (h : s.Ordered fieldWords config) (into : t.Ordered fieldWords config) (e : t.restore s.snapshot = .ok t') :
    t'.Ordered fieldWords config ∧
      t'.records = s.records.take s.inUse ++ List.replicate (t.count - s.inUse) (.blank fieldWords) ∧
      t'.inUse = max s.inUse (min (max config.reserved 1) t.count) := by
  have within : s.inUse ≤ s.records.length := h.regular.within
  have table := into.tiled.flat_restore s.snapshot
  rw [e] at table
  obtain ⟨-, -, filled⟩ := EdictTable.restore_eq_ok table.symm
  have length : t.flat.records.length = t.count := into.tiled.length_records
  rw [h.tiled.snapshot_edicts within, List.map_map, List.length_map, List.length_take, Nat.min_eq_left within,
    show EdictTable.saved ∘ record = id from funext saved_record, List.map_id, length, into.marked.width,
    into.marked.sizes] at filled
  refine ⟨?_, congrArg EdictTable.records filled, congrArg EdictTable.inUse filled⟩
  rw [eq_after_restore e]
  exact (into.after _).1

/-- **A fresh store with the saved records in it.** It holds the table of the store they were saved from, if
    nothing is lost past the mark. -/
theorem Ordered.restored {fieldWords : Nat} {config : StoreConfig} {s' : EdictStore}
    (h : s.Ordered fieldWords config) (he : (EdictStore.new fieldWords config).restore s.snapshot = .ok s')
    (beyond : ∀ i, s.inUse ≤ i → s.get? i = s'.get? i) : s.SameTable s' := by
  have fresh := Ordered.new fieldWords config
  obtain ⟨ordered, first, mark⟩ := h.refilled fresh he
  have within : s.inUse ≤ s.records.length := h.regular.within
  have records : s'.records = s.records := by
    refine List.ext_getElem? fun i => ?_
    by_cases below : i < s.inUse
    · rw [first, List.getElem?_append_left (by rw [List.length_take]; omega), List.getElem?_take_of_lt below]
    · rw [← h.tiled.get?_eq_records, ← ordered.tiled.get?_eq_records, beyond i (Nat.le_of_not_lt below)]
  have inUse : s'.inUse = s.inUse := by
    have count : (EdictStore.new fieldWords config).count =
        min (max (max config.initial config.reserved) 1) (max config.max 1) := by
      rw [← fresh.tiled.length_records]
      exact (congrArg (List.length ∘ EdictTable.records) (flat_new fieldWords config)).trans List.length_replicate
    have reserved := h.marked.reserved
    have started := h.regular.started
    rw [mark, count]
    simp only [flat] at reserved started
    omega
  have flat : s'.flat = s.flat := by
    rw [EdictStore.flat, EdictStore.flat, records, inUse]
    congr 1
    · exact ordered.marked.width.trans h.marked.width.symm
    · exact ordered.marked.sizes.trans h.marked.sizes.symm
  exact ⟨s.flat, h.stands, ⟨ordered.tiled, flat, h.regular⟩⟩

end EdictStore

end QuakeProgs
