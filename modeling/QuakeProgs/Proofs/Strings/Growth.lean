/-
  File:      QuakeProgs/Proofs/Strings/Growth.lean
  Subject:   WHAT CALLS LEAVE OF A TABLE, whatever it was made of.

  `StringTable.Laid` says what a table is made of that has grown from a blob. Of a table that holds bytes from
  elsewhere less is known, yet any calls leave as much of it.

  * `StringTable.Stands` -- a text stands at a place with its NUL, and is read from there (`Stands.get`);
  * `StringTable.Extends` -- bytes only come behind, texts keep their places, and a text that gets a place stands
    there;
  * `Extends.after`, `Extends.foldl` -- so it is after one call, and after any.
-/
import QuakeProgs.Proofs.Strings.References

namespace QuakeProgs

open Bytes

namespace StringTable

variable {t t' t'' : StringTable} {s : Bytes} {r : StringRef} {k : Nat}

/-! ## 1. Texts with their NUL. -/

theorem length_bytes (t : StringTable) : t.bytes.toList.length = t.size :=
  Array.length_toList

/-- **A text stands at a place**, where a reference can name it: behind the ring, with its NUL. -/
structure Stands (t : StringTable) (s : Bytes) (k : Nat) : Prop where
  named : k < 0x80000000
  behind : t.keptStart ≤ k
  plain : 0 ∉ s
  ended : s ++ [0] <+: t.bytes.toList.drop k

theorem Stands.end_lt (h : t.Stands s k) : k + s.length < t.size := by
  have length := h.ended.length_le
  rw [List.length_append, List.length_singleton, List.length_drop, length_bytes] at length
  omega

/-- A text that stands is read from its place. -/
theorem Stands.get (h : t.Stands s k) : t.get (Int32.ofNat k) = .ok s := by
  have inside := h.end_lt
  obtain ⟨behind, split⟩ := h.ended
  rw [get_ofNat h.named (by omega), ← split, List.append_assoc, List.singleton_append,
    beforeNul_append_nul h.plain]

/-! ## 2. What calls leave of a table. -/

/-- **What calls leave of a table.** -/
structure Extends (t t' : StringTable) : Prop where
  regions : t.SameRegions t'
  cursor : t'.CursorFits
  size : t.size ≤ t'.size
  /-- Behind the ring bytes only come behind those that are there. -/
  bytes : ∀ k, t.keptStart ≤ k → t.bytes.toList.drop k <+: t'.bytes.toList.drop k
  /-- Texts keep their places. -/
  kept : ∀ (s : Bytes) (k : Nat), t.kept[s]? = some k → t'.kept[s]? = some k
  added : ∀ (s : Bytes) (k : Nat), t'.kept[s]? = some k → t.kept[s]? = some k ∨ t'.Stands s k

theorem Stands.mono (h : t.Stands s k) (more : t.Extends t') : t'.Stands s k :=
  ⟨h.named, more.regions.keptStart.symm ▸ h.behind, h.plain, h.ended.trans (more.bytes k h.behind)⟩

theorem Extends.refl (cursor : t.CursorFits) : t.Extends t :=
  ⟨.refl t, cursor, Nat.le_refl _, fun _ _ => List.prefix_rfl, fun _ _ h => h, fun _ _ h => .inl h⟩

theorem Extends.trans (h : t.Extends t') (h' : t'.Extends t'') : t.Extends t'' where
  regions := h.regions.trans h'.regions
  cursor := h'.cursor
  size := Nat.le_trans h.size h'.size
  bytes k behind := (h.bytes k behind).trans (h'.bytes k (h.regions.keptStart.symm ▸ behind))
  kept s k found := h'.kept s k (h.kept s k found)
  added s k found := by
    rcases h'.added s k found with before | stands
    · exact (h.added s k before).imp_right (·.mono h')
    · exact .inr stands

/-- The kept strings begin within the table, also later. -/
theorem Extends.within (h : t.Extends t') (within : t.keptStart ≤ t.size) : t'.keptStart ≤ t'.size :=
  h.regions.keptStart ▸ Nat.le_trans within h.size

/-- A text that is kept, or for which there is room, has a place afterwards. -/
theorem kept_of_keptRef (h : t.keptRef s = .ok r) :
    ∃ k, (t.addKept s).kept[s.beforeNul]? = some k ∧ r = Int32.ofNat k := by
  unfold keptRef at h
  cases found : t.kept[s.beforeNul]? with
  | some k =>
    simp only [found] at h
    exact ⟨k, (addKept_of_some found).symm ▸ found, (Except.ok.inj h).symm⟩
  | none =>
    simp only [found] at h
    split at h
    · cases h
    · refine ⟨t.size, ?_, (Except.ok.inj h).symm⟩
      rw [addKept_of_none found, Std.HashMap.getElem?_insert_self]

theorem size_le_addKept (t : StringTable) (s : Bytes) : t.size ≤ (t.addKept s).size := by
  rw [addKept]
  dsimp only
  split
  · exact Nat.le_refl _
  · exact Nat.le_trans (Nat.le_add_right _ _) (Nat.le_of_eq Array.size_append.symm)

/-- **Keeping a text** puts it behind all others, with its NUL, or leaves the table as it is. -/
theorem Extends.addKept (cursor : t.CursorFits) (within : t.keptStart ≤ t.size) (h : t.keptRef s = .ok r) :
    t.Extends (t.addKept s) := by
  cases found : t.kept[s.beforeNul]? with
  | some k => exact (addKept_of_some found).symm ▸ .refl cursor
  | none =>
    have named : t.size < 0x80000000 := by
      simp only [keptRef, found] at h
      split at h
      · cases h
      · omega
    have bytes : (t.addKept s).bytes.toList = t.bytes.toList ++ (s.beforeNul ++ [0]) := by
      rw [addKept_of_none found, Array.toList_append]
    have kept (x : Bytes) : (t.addKept s).kept[x]? = if s.beforeNul = x then some t.size else t.kept[x]? := by
      rw [addKept_of_none found, Std.HashMap.getElem?_insert]
      simp only [beq_iff_eq]
    have placed : (t.addKept s).bytes.toList.drop t.size = s.beforeNul ++ [0] := by
      rw [bytes, ← length_bytes, List.drop_left]
    exact {
      regions := sameRegions_addKept t s
      cursor := cursor.addKept s
      size := size_le_addKept t s
      bytes := fun k _ => by
        rw [bytes, List.drop_append]
        exact List.prefix_append ..
      kept := fun x k there => by
        rw [kept, if_neg, there]
        rintro rfl
        cases found.symm.trans there
      added := fun x k there => by
        rw [kept] at there
        split at there
        · next same =>
          subst same
          cases there
          exact .inr ⟨named, (sameRegions_addKept t s).keptStart ▸ within, nul_not_mem_beforeNul s,
            placed ▸ List.prefix_rfl⟩
        · exact .inl there }

theorem size_overwrite (b : Array UInt8) (i : Nat) (cs : Bytes) : (QuakeProgs.overwrite b i cs).size = b.size := by
  induction cs generalizing b i with
  | nil => rfl
  | cons c cs ih => rw [QuakeProgs.overwrite, ih, Array.size_setIfInBounds]

/-- What lies behind the overwritten bytes is left alone. -/
theorem drop_overwrite {b : Array UInt8} {i : Nat} {cs : Bytes} (behind : i + cs.length ≤ k) :
    (QuakeProgs.overwrite b i cs).toList.drop k = b.toList.drop k := by
  induction cs generalizing b i with
  | nil => rfl
  | cons c cs ih =>
    rw [List.length_cons] at behind
    rw [QuakeProgs.overwrite, ih (by omega), Array.toList_setIfInBounds, List.drop_set_of_lt (by omega)]

/-- **A text in the ring** leaves all behind the ring alone. -/
theorem Extends.addTemp (cursor : t.CursorFits) (ringed : t.hasRing = true) (s : Bytes) :
    t.Extends (t.addTemp s) := by
  have hsize : t.slotSize ≠ 0 := fun h0 => by simp [hasRing, h0] at ringed
  have written := addTemp_of_ring ringed s
  have inRing : t.slotStart + (s.take (t.slotSize - 1) ++ [0]).length ≤ t.keptStart := by
    have slot := cursor.slotEnd_le ringed
    have cut := length_take_lt hsize s
    rw [List.length_append, List.length_singleton]
    omega
  have spared : ∀ k, t.keptStart ≤ k → (t.addTemp s).bytes.toList.drop k = t.bytes.toList.drop k := by
    intro k behind
    rw [written]
    exact drop_overwrite (Nat.le_trans inRing behind)
  exact {
    regions := sameRegions_addTemp t s
    cursor := cursor.addTemp s
    size := written ▸ Nat.le_of_eq (size_overwrite _ _ _).symm
    bytes := fun k behind => (spared k behind).symm ▸ List.prefix_rfl
    kept := fun _ _ there => written ▸ there
    added := fun _ _ there => .inl (by rwa [written] at there) }

/-- **One call**, whether it succeeds or fails. -/
theorem Extends.after (cursor : t.CursorFits) (within : t.keptStart ≤ t.size) (c : StringCommand) :
    t.Extends (t.after c) := by
  have keeping : ∀ s, t.Extends (t.afterKeep s) := by
    intro s
    rcases t.afterKeep_cases s with ⟨r, ref, same⟩ | ⟨e, -, same⟩
    · rw [same]
      exact .addKept cursor within ref
    · rw [same]
      exact .refl cursor
  cases c with
  | keep s => exact keeping s
  | temp s =>
    rw [StringTable.after]
    split
    · next ringed => exact .addTemp cursor ringed s
    · exact keeping s

/-- **Any calls.** -/
theorem Extends.foldl (cursor : t.CursorFits) (within : t.keptStart ≤ t.size) (calls : List StringCommand) :
    t.Extends (calls.foldl StringTable.after t) := by
  induction calls generalizing t with
  | nil => exact .refl cursor
  | cons c calls ih =>
    have first := Extends.after cursor within c
    exact first.trans (ih first.cursor (first.within within))

end StringTable

end QuakeProgs
