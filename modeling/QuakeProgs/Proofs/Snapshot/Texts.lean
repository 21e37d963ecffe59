/-
  File:      QuakeProgs/Proofs/Snapshot/Texts.lean
  Subject:   THE TEXTS OF A RESTORED TABLE: what restored bytes are good for.

  The index of the kept texts is not saved. It is made anew by cutting the saved bytes at their NULs. Bytes that
  come from a table of the same kind give back the index that grew with them. Bytes from elsewhere need not end in
  a NUL; then the last text has its place in the index all the same, and what is kept next is written right behind
  it.

  * `StringTable.keepAll` -- what keeping texts one after the other answers; the cursor of the ring has no part in
    it (`keepAll_cursor`);
  * `StringTable.restored_answers_alike` -- after restoring the bytes of another table of the same kind every
    string is the same, and keeping texts gives the same references;
  * `StringTable.Dangles` -- a text in the index that lacks its NUL, which is never so where the saved bytes end in
    one (`Made.not_dangles`);
  * `StringTable.restored_texts_read` -- after restoring any bytes, a text that is kept is read from its reference
    for good, unless it dangles; then it is read together with what came behind it;
  * `StringTable.restored_text_reads_on` -- so it is not always read as it was kept.
-/
import QuakeProgs.Proofs.Snapshot.Restoring

namespace QuakeProgs

open Bytes

namespace StringTable

variable {t t' t'' : StringTable} {s saved : Bytes} {r : StringRef} {k : Nat}

/-! ## 1. Bytes from a table of the same kind. -/

/-- **What keeping texts one after the other answers**: for each its reference, or why it has none. -/
def keepAll (t : StringTable) : List Bytes → List (Except Error StringRef)
  | [] => []
  | s :: texts => (t.keep s).map (·.1) :: (t.after (.keep s)).keepAll texts

/-- Keeping a text does not look at the cursor of the ring. -/
theorem after_keep_cursor (t : StringTable) (n : Nat) (s : Bytes) :
    ({ t with nextSlot := n } : StringTable).after (.keep s) = { t.after (.keep s) with nextSlot := n } := by
  have same : ({ t with nextSlot := n } : StringTable).keptRef s = t.keptRef s := rfl
  have added : ({ t with nextSlot := n } : StringTable).addKept s = { t.addKept s with nextSlot := n } := by
    unfold addKept
    dsimp only
    split <;> rfl
  simp only [after, afterKeep, keep, same]
  cases t.keptRef s with
  | error e => rfl
  | ok r => exact added

theorem keepAll_cursor (t : StringTable) (n : Nat) (texts : List Bytes) :
    ({ t with nextSlot := n } : StringTable).keepAll texts = t.keepAll texts := by
  induction texts generalizing t with
  | nil => rfl
  | cons s texts ih =>
    have answer : (({ t with nextSlot := n } : StringTable).keep s).map (·.1) = (t.keep s).map (·.1) := by
      have same : ({ t with nextSlot := n } : StringTable).keptRef s = t.keptRef s := rfl
      rw [keep, keep, same]
      cases t.keptRef s <;> rfl
    rw [keepAll, keepAll, answer, after_keep_cursor, ih]

/-- **Restored bytes answer as the bytes they were saved from.** Of two tables over one blob, with rings of one
    shape and the same room, each after any calls: the bytes of the one can be restored into the other, which
    then yields the same string at every reference, saves the same bytes, finds each text where the first does,
    and gives every further text the reference that the first would give it, or refuses it where the first does. -/
theorem restored_answers_alike (blob : Bytes) (slots slotSize capacity : Nat) (past past' : List StringCommand) :
    let t := past.foldl after (new blob slots slotSize capacity)
    let u := past'.foldl after (new blob slots slotSize capacity)
    ∃ u', u.restoreRuntime t.runtimeBytes = .ok u' ∧ (∀ r, u'.get r = t.get r) ∧
      u'.runtimeBytes = t.runtimeBytes ∧ (∀ s : Bytes, u'.kept[s]? = t.kept[s]?) ∧
      ∀ texts, u'.keepAll texts = t.keepAll texts := by
  intro t u
  obtain ⟨ring, texts, laid, regions, -, -⟩ := (Laid.new blob slots slotSize capacity).run past
  obtain ⟨ring', texts', laid', regions', -, -⟩ := (Laid.new blob slots slotSize capacity).run past'
  have same : u.SameRegions t :=
    ⟨regions.baseSize.trans regions'.baseSize.symm, regions.slots.trans regions'.slots.symm,
      regions.slotSize.trans regions'.slotSize.symm, regions.capacity.trans regions'.capacity.symm⟩
  exact ⟨_, laid'.restored laid same, fun _ => rfl, rfl, fun _ => rfl, keepAll_cursor t u.nextSlot⟩

/-! ## 2. Texts without their NUL. -/

/-- A run of bytes that holds a NUL goes on with it behind its text. -/
theorem beforeNul_append_nul_prefix {l : Bytes} (h : 0 ∈ l) : beforeNul l ++ [0] <+: l := by
  induction l with
  | nil => cases h
  | cons c l ih =>
    by_cases hc : c = 0
    · subst hc
      exact ⟨l, rfl⟩
    · have text : beforeNul (c :: l) = c :: beforeNul l := by simp [beforeNul, hc]
      rw [text, List.cons_append, List.prefix_cons_inj]
      exact ih ((List.mem_cons.mp h).resolve_left (Ne.symm hc))

/-- **A text dangles**: the index finds it at the very end of the table, with no NUL behind it. -/
def Dangles (t : StringTable) (s : Bytes) : Prop := ∃ k, t.kept[s]? = some k ∧ k + s.length = t.size

/-- **A text trails at a place**: it stands there without a NUL, and is all there is. -/
structure Trails (t : StringTable) (s : Bytes) (k : Nat) : Prop where
  named : k < 0x80000000
  behind : t.keptStart ≤ k
  inside : k < t.size
  plain : 0 ∉ s
  rest : t.bytes.toList.drop k = s

theorem Trails.end_eq (h : t.Trails s k) : k + s.length = t.size := by
  have length := congrArg List.length h.rest
  have inside := h.inside
  rw [List.length_drop, length_bytes] at length
  omega

/-- **A text that trails** is read together with what came behind it. -/
theorem Trails.get (h : t.Trails s k) (more : t.Extends t') :
    t'.get (Int32.ofNat k) = .ok (s ++ beforeNul (t'.bytes.toList.drop t.size)) := by
  have inside := h.inside
  have size := more.size
  obtain ⟨behind, split⟩ := more.bytes k h.behind
  rw [h.rest] at split
  have rest : t'.bytes.toList.drop t.size = behind := by
    rw [← h.end_eq, ← List.drop_drop, ← split, List.drop_left]
  rw [get_ofNat h.named (by omega), ← split, rest, beforeNul, List.takeWhile_append_of_pos (all_ne_nul h.plain),
    ← beforeNul]

/-- **The texts of the new index** stand with their NULs, but for one that may trail. -/
theorem Made.stands_or_trails (made : Made t) (e : t.restoreRuntime saved = .ok t')
    (found : t'.kept[s]? = some k) : t'.Stands s k ∨ t'.Trails s k := by
  obtain ⟨named, behind, inside, rfl⟩ := made.indexed_restored e found
  have plain := nul_not_mem_beforeNul (t'.bytes.toList.drop k)
  by_cases ended : 0 ∈ t'.bytes.toList.drop k
  · exact .inl ⟨named, behind, plain, beforeNul_append_nul_prefix ended⟩
  · exact .inr ⟨named, behind, inside, plain, (beforeNul_of_not_mem ended).symm⟩

/-- **No text dangles** where the saved strings end in a NUL, or there are none. -/
theorem Made.not_dangles (made : Made t) (e : t.restoreRuntime saved = .ok t')
    (ended : ∀ c, (saved.drop (t.slots * t.slotSize)).getLast? = some c → c = 0) (s : Bytes) : ¬ t'.Dangles s := by
  rintro ⟨k, found, atEnd⟩
  rcases made.stands_or_trails e found with stands | trails
  · exact absurd atEnd (Nat.ne_of_lt stands.end_lt)
  · have inside := trails.inside
    have rest := trails.rest.symm.trans (made.drop_restored e (keptStart_restored e ▸ trails.behind))
    have some : s ≠ [] := by
      rintro rfl
      rw [List.length_nil] at atEnd
      omega
    have last : s.getLast? = (saved.drop (t.slots * t.slotSize)).getLast? := by
      rw [rest, List.getLast?_drop, if_neg]
      intro short
      exact some (rest.trans (List.drop_of_length_le short))
    have nul := ended _ (last.symm.trans (List.getLast?_eq_some_getLast some))
    exact trails.plain (nul ▸ List.getLast_mem some)

/-- What a text is read as that was kept in a restored table, after any calls. -/
theorem Made.get_restored (made : Made t) (e : t.restoreRuntime saved = .ok t') (more : t'.Extends t'')
    (there : t''.kept[s]? = some k) :
    (¬ t'.Dangles s → t''.get (Int32.ofNat k) = .ok s) ∧
      (t'.Dangles s → t''.get (Int32.ofNat k) = .ok (s ++ beforeNul (t''.bytes.toList.drop t'.size))) := by
  cases found : t'.kept[s]? with
  | none =>
    refine ⟨fun _ => ?_, ?_⟩
    · rcases more.added s k there with before | stands
      · cases found.symm.trans before
      · exact stands.get
    · rintro ⟨_, before, -⟩
      cases found.symm.trans before
  | some k' =>
    cases there.symm.trans (more.kept s k' found)
    rcases made.stands_or_trails e found with stands | trails
    · refine ⟨fun _ => (stands.mono more).get, ?_⟩
      rintro ⟨_, before, atEnd⟩
      cases found.symm.trans before
      exact absurd atEnd (Nat.ne_of_lt stands.end_lt)
    · exact ⟨fun firm => absurd ⟨k, found, trails.end_eq⟩ firm, fun _ => trails.get more⟩

/-- **How a text is read that is kept after restoring any bytes.** Whatever table it is and whatever bytes it
    accepts, and whatever calls follow: a text that is kept is read from its reference up to its first NUL, also
    after all later calls, unless the index had it dangling; then it is read together with what the first call to
    come behind it has put there. -/
theorem restored_texts_read (made : Made t) (e : t.restoreRuntime saved = .ok t') (calls : List StringCommand)
    {t₁ : StringTable} (kept : (calls.foldl after t').keep s = .ok (r, t₁)) (more : List StringCommand) :
    let t₂ := more.foldl after t₁
    (¬ t'.Dangles s.beforeNul → t₂.get r = .ok s.beforeNul) ∧
      (t'.Dangles s.beforeNul → t₂.get r = .ok (s.beforeNul ++ beforeNul (t₂.bytes.toList.drop t'.size))) := by
  intro t₂
  obtain ⟨ref, rfl⟩ := keep_eq_ok kept
  obtain ⟨k, there, rfl⟩ := kept_of_keptRef ref
  obtain ⟨cursor, within⟩ := (Made.restored saved made e).fits
  have before := Extends.foldl cursor within calls
  have now := Extends.addKept before.cursor (before.within within) ref
  have behind := Extends.foldl now.cursor (now.within (before.within within)) more
  exact made.get_restored e ((before.trans now).trans behind) (behind.kept _ _ there)

/-- Bytes that the table can hold are restored. -/
theorem Holds.restores (h : t.Holds s) : ∃ t', t.restoreRuntime s = .ok t' :=
  ⟨_, ((t.restoreRuntime_cases s).resolve_right fun unfit => unfit.1 h).2⟩

/-- A text that ends in a NUL among the restored bytes is kept where it stands, and still read there after a
    further one was kept. -/
theorem restored_texts_read_ended :
    let t := new [0] 1 4 64
    ∃ t', Made t ∧ t.restoreRuntime [0, 0, 0, 0, 120, 0] = .ok t' ∧
      ∃ t₁, (t'.after (.temp [121])).keep [120] = .ok (5, t₁) ∧ ¬ t'.Dangles [120] ∧
        (t₁.after (.keep [122])).get 5 = .ok [120] := by
  intro t
  have made : Made t := .fresh ..
  obtain ⟨t', e⟩ := Holds.restores (t := t) (s := [0, 0, 0, 0, 120, 0]) (by decide)
  have found : t'.kept[beforeNul [120]]? = some 5 := by
    rw [restoreRuntime_eq_ok e, getElem?_indexOf]
    decide
  have firm : ¬ t'.Dangles [120] := made.not_dangles e (fun _ last => (Option.some.inj last).symm) _
  obtain ⟨cursor, within⟩ := (Made.restored _ made e).fits
  have kept := keep_of_some ((Extends.after cursor within (.temp [121])).kept _ _ found)
  exact ⟨t', made, e, _, kept, firm, (restored_texts_read made e [.temp [121]] kept [.keep [122]]).1 firm⟩

/-- **A text may be read with what was kept next.** The saved bytes end in the text itself, which is found where
    it stands; the text that is kept next is put right behind it, and the reference now yields both. -/
theorem restored_text_reads_on :
    let t := new [0] 1 4 64
    ∃ t', t.restoreRuntime [0, 0, 0, 0, 120] = .ok t' ∧ t'.keep [120] = .ok (5, t') ∧ t'.get 5 = .ok [120] ∧
      (t'.after (.keep [121])).get 5 = .ok [120, 121] := by
  intro t
  obtain ⟨t', e⟩ := Holds.restores (t := t) (s := [0, 0, 0, 0, 120]) (by decide)
  have restored := restoreRuntime_eq_ok e
  have found : t'.kept[beforeNul [120]]? = some 5 := by
    rw [restored, getElem?_indexOf]
    decide
  have absent : t'.kept[beforeNul [121]]? = none := by
    rw [restored, getElem?_indexOf]
    decide
  have room : t'.keptRef [121] = .ok 6 := by
    rw [keptRef, absent, restored]
    decide
  refine ⟨t', e, keep_of_some found, by rw [restored]; decide, ?_⟩
  rw [← addKept_eq_after room, addKept_of_none absent, restored]
  decide

end StringTable

end QuakeProgs
