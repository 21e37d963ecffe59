/-
  File:      QuakeProgs/Proofs/Snapshot/Restoring.lean
  Subject:   A SAVED STATE IS TAKEN OVER WHOLE OR NOT AT ALL, whatever it holds.

  Globals, strings and entities are restored by three routines, each of which can refuse. A saved state need
  not come from any machine, so nothing is known of its shape.

  * `EdictStore.Stands.restored` -- the saved records come first, all others are blank;
  * `StringTable.Made.restored_bytes` -- the saved bytes come behind the blob, and every text of the index is
    where it says;
  * `Snapshot.Fits` -- what a saved state is checked for;
  * `Snapshot.TakenOver` -- what a machine is after it was restored;
  * `Snapshot.restores_whole_or_not` -- one or the other, for every machine and every saved state.
-/
import QuakeProgs.Proofs.Machine.Assembly
import QuakeProgs.Proofs.Machine.Resumption
import QuakeProgs.Proofs.Strings.Growth

namespace QuakeProgs

open Bytes

/-! ## 1. Entities. -/

/-- What the saved records of a store are checked for. -/
structure StoreSnapshot.Fits (saved : StoreSnapshot) (s : EdictStore) : Prop where
  fieldWords : saved.fieldWords.toNat = s.fieldWords
  room : saved.edicts.length ≤ s.config.max
  widths : ∀ r ∈ saved.edicts, r.fields.length = s.fieldWords

instance (saved : StoreSnapshot) (s : EdictStore) : Decidable (saved.Fits s) :=
  decidable_of_iff (saved.fieldWords.toNat = s.fieldWords ∧ saved.edicts.length ≤ s.config.max ∧
      ∀ r ∈ saved.edicts, r.fields.length = s.fieldWords)
    ⟨fun ⟨fieldWords, room, widths⟩ => ⟨fieldWords, room, widths⟩, fun h => ⟨h.fieldWords, h.room, h.widths⟩⟩

namespace EdictStore

variable {s s' : EdictStore} {saved : StoreSnapshot}

/-- Records are restored exactly if they fit. -/
theorem restore_cases (s : EdictStore) (saved : StoreSnapshot) :
    (saved.Fits s ∧ ∃ s', s.restore saved = .ok s') ∨ ¬ saved.Fits s ∧ ∃ e, s.restore saved = .error e := by
  rw [restore]
  dsimp only
  by_cases width : saved.fieldWords.toNat ≠ s.fieldWords
  · exact .inr ⟨fun fits => width fits.fieldWords, _, if_pos width⟩
  rw [if_neg width]
  by_cases many : saved.edicts.length > s.config.max
  · exact .inr ⟨fun fits => absurd fits.room (Nat.not_le_of_gt many), _, if_pos many⟩
  rw [if_neg many]
  by_cases narrow : saved.edicts.any fun r => r.fields.length ≠ s.fieldWords
  · refine .inr ⟨fun fits => ?_, _, if_pos narrow⟩
    obtain ⟨r, mem, other⟩ := List.any_eq_true.mp narrow
    exact of_decide_eq_true other (fits.widths r mem)
  · rw [if_neg narrow]
    refine .inl ⟨⟨Decidable.not_not.mp width, Nat.le_of_not_lt many, fun r mem => ?_⟩, _, rfl⟩
    by_contra other
    exact narrow (List.any_eq_true.mpr ⟨r, mem, decide_eq_true other⟩)

/-- **What restoring leaves of the entities**: the saved records come first, all others are blank. -/
theorem Stands.restored {t : EdictTable} (h : s.Stands t) (e : s.restore saved = .ok s') :
    s'.Tiled ∧ s'.flat = { s.flat with
      records := saved.edicts.map EdictTable.saved ++
        List.replicate (s.count - saved.edicts.length) (.blank s.fieldWords)
      inUse := max saved.edicts.length (min (max s.config.reserved 1) s.count) } := by
  obtain ⟨tiled, rfl, regular⟩ := h
  have table := tiled.flat_restore saved
  rw [e] at table
  have length : s.flat.records.length = s.count := tiled.length_records
  obtain ⟨-, -, filled⟩ := EdictTable.restore_eq_ok table.symm
  rw [length] at filled
  exact ⟨tiled.restore e, filled⟩

end EdictStore

/-! ## 2. Strings. -/

namespace StringTable

variable {t t' : StringTable} {saved : Bytes}

/-- What the saved bytes of a table are checked for: the ring is whole, and the kept strings find room. -/
structure Holds (t : StringTable) (saved : Bytes) : Prop where
  ring : t.slots * t.slotSize ≤ saved.length
  room : saved.length ≤ t.slots * t.slotSize + t.capacity

instance (t : StringTable) (saved : Bytes) : Decidable (t.Holds saved) :=
  decidable_of_iff (t.slots * t.slotSize ≤ saved.length ∧ saved.length ≤ t.slots * t.slotSize + t.capacity)
    ⟨fun ⟨ring, room⟩ => ⟨ring, room⟩, fun h => ⟨h.ring, h.room⟩⟩

/-- Bytes are restored exactly if the table can hold them. -/
theorem restoreRuntime_cases (t : StringTable) (saved : Bytes) :
    (t.Holds saved ∧ t.restoreRuntime saved = .ok { t with
      bytes := t.bytes.extract 0 t.baseSize ++ saved.toArray
      kept := indexOf t.keptStart (saved.drop (t.slots * t.slotSize)) }) ∨
    ¬ t.Holds saved ∧ ∃ e, t.restoreRuntime saved = .error e := by
  unfold restoreRuntime
  dsimp only
  by_cases short : saved.length < t.slots * t.slotSize
  · exact .inr ⟨fun holds => absurd holds.ring (Nat.not_le_of_gt short), _, if_pos short⟩
  rw [if_neg short]
  by_cases long : saved.length - t.slots * t.slotSize > t.capacity
  · refine .inr ⟨fun holds => ?_, _, if_pos long⟩
    have room := holds.room
    omega
  · rw [if_neg long]
    exact .inl ⟨⟨by omega, by omega⟩, rfl⟩

/-- What restoring leaves of the strings. -/
theorem restoreRuntime_eq_ok (e : t.restoreRuntime saved = .ok t') :
    t' = { t with
      bytes := t.bytes.extract 0 t.baseSize ++ saved.toArray
      kept := indexOf t.keptStart (saved.drop (t.slots * t.slotSize)) } := by
  rcases t.restoreRuntime_cases saved with ⟨-, ok⟩ | ⟨-, err, refused⟩
  · exact Except.ok.inj (e.symm.trans ok)
  · cases e.symm.trans refused

/-- The kept strings begin where they did. -/
theorem keptStart_restored (e : t.restoreRuntime saved = .ok t') : t'.keptStart = t.keptStart := by
  rw [restoreRuntime_eq_ok e]
  rfl

/-- The cursor of a table is one of the ring's, and blob and ring are never cut. -/
theorem Made.fits (h : Made t) : t.CursorFits ∧ t.keptStart ≤ t.size := by
  induction h with
  | fresh blob slots slotSize capacity =>
    have laid := Laid.new blob slots slotSize capacity
    exact ⟨laid.cursor, laid.size_eq ▸ Nat.le_add_right ..⟩
  | call c _ fits =>
    have step := Extends.after fits.1 fits.2 c
    exact ⟨step.cursor, step.within fits.2⟩
  | @restored t t' saved _ e fits =>
    refine ⟨fits.1.restoreRuntime e, ?_⟩
    rcases t.restoreRuntime_cases saved with ⟨holds, -⟩ | ⟨-, err, refused⟩
    · have start : t'.keptStart = t.baseSize + t.slots * t.slotSize := keptStart_restored e
      have size : t'.size = min t.baseSize t.size + saved.length := by
        rw [restoreRuntime_eq_ok e, StringTable.size, Array.size_append, Array.size_extract]
        rfl
      have ring := holds.ring
      have whole : t.baseSize + t.slots * t.slotSize ≤ t.size := fits.2
      omega
    · cases e.symm.trans refused

/-- The blob is never cut. -/
theorem Made.base_le (h : Made t) : t.baseSize ≤ t.size :=
  Nat.le_trans (Nat.le_add_right ..) h.fits.2

/-- Each string of a run of bytes stands where it is said to stand. -/
theorem mem_strings {fuel ofs k : Nat} {bytes s : Bytes} (h : (s, k) ∈ Bytes.strings fuel ofs bytes) :
    ofs ≤ k ∧ k < ofs + bytes.length ∧ beforeNul (bytes.drop (k - ofs)) = s := by
  induction fuel generalizing ofs bytes with
  | zero => cases h
  | succ fuel ih =>
    cases bytes with
    | nil => cases h
    | cons b bs =>
      rw [Bytes.strings] at h
      rcases List.mem_cons.mp h with first | later
      · cases first
        simp
      · obtain ⟨after, before, stands⟩ := ih later
        rw [List.length_drop] at before
        refine ⟨by omega, by omega, ?_⟩
        rw [← stands, List.drop_drop]
        congr 2
        omega

/-- **Every text of the index is where it says**, and a reference can name the place. -/
theorem indexed_stands {ofs k : Nat} {bytes s : Bytes} (h : (indexOf ofs bytes)[s]? = some k) :
    k < 0x80000000 ∧ ofs ≤ k ∧ k < ofs + bytes.length ∧ beforeNul (bytes.drop (k - ofs)) = s := by
  rw [getElem?_indexOf] at h
  obtain ⟨before, behind, split, -⟩ := List.lookup_eq_some_iff.1 h
  have mem : (s, k) ∈ (Bytes.strings bytes.length ofs bytes).filter (·.2 < 0x80000000) := by
    rw [split]
    exact List.mem_append_right _ List.mem_cons_self
  obtain ⟨mem, named⟩ := List.mem_filter.mp mem
  exact ⟨of_decide_eq_true named, mem_strings mem⟩

/-- The saved bytes come behind the blob. -/
theorem Made.bytes_restored (h : Made t) (e : t.restoreRuntime saved = .ok t') :
    t'.bytes.toList = t.bytes.toList.take t.baseSize ++ saved ∧
      (t.bytes.toList.take t.baseSize).length = t.baseSize ∧ t'.size = t.baseSize + saved.length := by
  have whole : (t.bytes.toList.take t.baseSize).length = t.baseSize := by
    rw [List.length_take, length_bytes]
    exact Nat.min_eq_left h.base_le
  have bytes : t'.bytes.toList = t.bytes.toList.take t.baseSize ++ saved := by
    rw [restoreRuntime_eq_ok e, Array.toList_append, Array.toList_extract, List.extract_eq_take_drop]
    simp
  refine ⟨bytes, whole, ?_⟩
  rw [← length_bytes, bytes, List.length_append, whole]

/-- Behind the ring lie the saved strings. -/
theorem Made.drop_restored (h : Made t) (e : t.restoreRuntime saved = .ok t') {k : Nat} (behind : t.keptStart ≤ k) :
    t'.bytes.toList.drop k = (saved.drop (t.slots * t.slotSize)).drop (k - t.keptStart) := by
  obtain ⟨bytes, whole, -⟩ := h.bytes_restored e
  rw [keptStart] at behind ⊢
  rw [bytes, List.drop_append, whole, List.drop_of_length_le (by omega), List.nil_append, List.drop_drop]
  congr 1
  omega

/-- **Every text of the new index** is the string at its place, which lies behind the ring. -/
theorem Made.indexed_restored (h : Made t) (e : t.restoreRuntime saved = .ok t') {text : Bytes} {k : Nat}
    (found : t'.kept[text]? = some k) :
    k < 0x80000000 ∧ t'.keptStart ≤ k ∧ k < t'.size ∧ beforeNul (t'.bytes.toList.drop k) = text := by
  obtain ⟨-, -, size⟩ := h.bytes_restored e
  have kept : t'.kept = indexOf t.keptStart (saved.drop (t.slots * t.slotSize)) := by
    rw [restoreRuntime_eq_ok e]
  rw [kept] at found
  obtain ⟨named, behind, inside, stands⟩ := indexed_stands found
  refine ⟨named, keptStart_restored e ▸ behind, ?_, by rw [h.drop_restored e behind, stands]⟩
  rw [keptStart] at behind inside
  rw [List.length_drop] at inside
  omega

/-- **What restoring leaves of the strings**: the blob as it was, the saved bytes behind it, and an index in
    which every text is found where it says. -/
theorem Made.restored_bytes (h : Made t) (e : t.restoreRuntime saved = .ok t') :
    t'.bytes.toList = t.bytes.toList.take t.baseSize ++ saved ∧ t'.runtimeBytes = saved ∧
      ∀ text k, t'.kept[text]? = some k → t'.keptStart ≤ k ∧ t'.get (Int32.ofNat k) = .ok text := by
  obtain ⟨bytes, whole, size⟩ := h.bytes_restored e
  have base' : t'.baseSize = t.baseSize := by rw [restoreRuntime_eq_ok e]
  refine ⟨bytes, ?_, fun text k found => ?_⟩
  · rw [runtimeBytes, Array.toList_extract, List.extract_eq_take_drop, ← List.drop_take, bytes, base', size,
      List.take_of_length_le (by rw [List.length_append, whole]), List.drop_left' whole]
  · obtain ⟨named, behind, inside, stands⟩ := h.indexed_restored e found
    exact ⟨behind, by rw [get_ofNat named (Nat.le_of_lt inside), stands]⟩

end StringTable

/-! ## 3. What a saved state is checked for, and what comes of it. -/

namespace Snapshot

/-- **What a saved state is checked for.** -/
structure Fits (s : Snapshot) (m : Machine) : Prop where
  atRest : m.state ≠ .running
  crc : s.crc = m.program.crc
  digest : s.digest = m.program.digest
  globals : s.globals.length = m.globals.size
  edicts : s.edicts.Fits m.edicts
  strings : m.strings.Holds s.strings

/-- **What a machine is after it was restored**: the saved globals, the saved bytes behind the blob, the saved
    records and blank ones. -/
structure TakenOver (s : Snapshot) (m m' : Machine) : Prop where
  globals : m'.globals.words.toList = s.globals
  runtime : m'.strings.runtimeBytes = s.strings
  blob : m'.strings.bytes.toList.take m.strings.baseSize = m.strings.bytes.toList.take m.strings.baseSize
  /-- The index is made anew; every text is found where it says. -/
  indexed : ∀ text k, m'.strings.kept[text]? = some k →
    m'.strings.keptStart ≤ k ∧ m'.strings.get (Int32.ofNat k) = .ok text
  records : ∀ i (h : i < s.edicts.edicts.length),
    m'.edicts.get? i = some (EdictTable.saved s.edicts.edicts[i])
  others : ∀ i, s.edicts.edicts.length ≤ i → i < m'.edicts.count →
    m'.edicts.get? i = some (.blank m.edicts.fieldWords)
  /-- The store grew if it had to, and starts handing out anew. -/
  count : m'.edicts.count = max s.edicts.edicts.length m.edicts.count
  mark : m'.edicts.inUse =
    max s.edicts.edicts.length (min (max m.edicts.config.reserved 1) m.edicts.count)
  /-- Nothing else is touched. -/
  rest : m' = { m with
    globals := m'.globals
    strings := { m.strings with bytes := m'.strings.bytes, kept := m'.strings.kept }
    edicts := { m.edicts with
      batches := m'.edicts.batches, count := m'.edicts.count, inUse := m'.edicts.inUse } }

variable {m m' : Machine}

/-- A saved state is accepted exactly if it fits. -/
theorem apply_cases (s : Snapshot) (m : Machine) :
    (s.Fits m ∧ ∃ m', s.apply m = .ok m') ∨ ¬ s.Fits m ∧ ∃ e, s.apply m = .error e := by
  rw [apply]
  by_cases running : m.state = .running
  · exact .inr ⟨fun fits => fits.atRest running, _, if_pos running⟩
  rw [if_neg running]
  by_cases other : s.crc ≠ m.program.crc ∨ s.digest ≠ m.program.digest
  · exact .inr ⟨fun fits => other.elim (· fits.crc) (· fits.digest), _, if_pos other⟩
  rw [if_neg other]
  by_cases size : s.globals.length ≠ m.globals.size
  · exact .inr ⟨fun fits => size fits.globals, _, if_pos size⟩
  rw [if_neg size]
  obtain ⟨crc, digest⟩ := not_or.mp other
  rcases m.edicts.restore_cases s.edicts with ⟨edicts, edicts', he⟩ | ⟨unfit, e, he⟩
  · rw [he]
    rcases m.strings.restoreRuntime_cases s.strings with ⟨strings, hs⟩ | ⟨unfit, e, hs⟩
    · rw [hs]
      exact .inl ⟨⟨running, Decidable.not_not.mp crc, Decidable.not_not.mp digest, Decidable.not_not.mp size,
        edicts, strings⟩, _, rfl⟩
    · rw [hs]
      exact .inr ⟨fun fits => unfit fits.strings, _, rfl⟩
  · rw [he]
    exact .inr ⟨fun fits => unfit fits.edicts, _, rfl⟩

/-- What an accepted state leaves. -/
theorem takenOver_of_apply (assembled : m.Assembled) {s : Snapshot} (e : s.apply m = .ok m') :
    s.TakenOver m m' := by
  obtain ⟨edicts, strings, he, hs, -, rfl⟩ := apply_eq_ok e
  obtain ⟨bytes, runtime, indexed⟩ := assembled.strings.restored_bytes hs
  obtain ⟨fieldWords, config, cs, made⟩ := assembled.edicts
  have stands := (EdictStore.Stands.new fieldWords config).foldl cs
  rw [← made] at stands
  obtain ⟨tiled, table⟩ := stands.restored he
  have records : edicts.records = s.edicts.edicts.map EdictTable.saved ++
      List.replicate (m.edicts.count - s.edicts.edicts.length) (.blank m.edicts.fieldWords) :=
    congrArg EdictTable.records table
  have count : edicts.count = max s.edicts.edicts.length m.edicts.count := by
    rw [← tiled.length_records, records, List.length_append, List.length_map, List.length_replicate]
    omega
  exact {
    globals := rfl
    runtime
    blob := by
      rw [bytes, List.take_append_of_le_length, List.take_take, Nat.min_self]
      rw [List.length_take, Array.length_toList]
      exact Nat.le_min.mpr ⟨Nat.le_refl _, assembled.strings.base_le⟩
    indexed
    records := fun i below => by
      rw [tiled.get?_eq_records, records, List.getElem?_append_left (by rwa [List.length_map]),
        List.getElem?_map, List.getElem?_eq_getElem below, Option.map_some]
    others := fun i beyond within => by
      have within : i < edicts.count := within
      rw [tiled.get?_eq_records, records, List.getElem?_append_right (by rwa [List.length_map]),
        List.length_map, List.getElem?_replicate, if_pos (by omega)]
    count
    mark := congrArg EdictTable.inUse table
    rest := by
      have words : edicts.fieldWords = m.edicts.fieldWords := congrArg EdictTable.fieldWords table
      have sizes : edicts.config = m.edicts.config := congrArg EdictTable.config table
      have store : edicts = { m.edicts with
          batches := edicts.batches, count := edicts.count, inUse := edicts.inUse } := by
        dsimp only
        rw [← words, ← sizes]
      have texts : strings = { m.strings with bytes := strings.bytes, kept := strings.kept } := by
        rw [StringTable.restoreRuntime_eq_ok hs]
      dsimp only
      rw [← store, ← texts] }

open Engine in
/-- **A saved state is taken over whole or not at all.** On any machine (`Reachable.assembled`) and for any saved
    state: if it fits, the machine holds what was saved and is otherwise as before, and if it does not, the
    machine is as before in every respect. -/
theorem restores_whole_or_not (assembled : m.Assembled) (s : Snapshot) :
    Ends (Command.restore s).perform m (fun _ m' => s.Fits m ∧ s.TakenOver m m')
      fun _ m' => ¬ s.Fits m ∧ m' = m := by
  refine ends_bind (ends_update (fun m' ok => ends_pure ?_) fun e refused => ?_)
  · rcases s.apply_cases m with ⟨fits, -⟩ | ⟨-, e, refused⟩
    · exact ⟨fits, takenOver_of_apply assembled ok⟩
    · cases ok.symm.trans refused
  · rcases s.apply_cases m with ⟨-, m', ok⟩ | ⟨unfit, -⟩
    · cases ok.symm.trans refused
    · exact ⟨unfit, rfl⟩

/-- A state that no machine was in: six entities that are free, with as many fields as one likes, and a text
    behind the ring. -/
def contrived (m : Machine) (width : Nat) : Snapshot :=
  { capture m with
    strings := [0, 0, 0, 0, 120, 0]
    edicts :=
      { fieldWords := m.edicts.fieldWords.toUInt64
        edicts := List.replicate 6 { free := true, freeTime := .half, fields := List.replicate width 7 } } }

/-- On a machine that has run, one such state is taken over, and the other, whose records are too wide, is
    not. -/
theorem restores_whole_or_not_contrived : ∃ m : Machine, m.Assembled ∧
    (∃ m', (Command.restore (contrived m m.edicts.fieldWords)).perform m = .ok () m' ∧
      (contrived m m.edicts.fieldWords).TakenOver m m') ∧
    ∃ e, (Command.restore (contrived m (m.edicts.fieldWords + 1))).perform m = .error e m := by
  obtain ⟨image, m, -, loaded, played, -, -, -, -, -, atRest, records, bytes, tooWide⟩ :=
    @restored_once .small (fun m _ => m.state ≠ .running ∧
      (contrived m m.edicts.fieldWords).edicts.Fits m.edicts ∧ m.strings.Holds (contrived m 0).strings ∧
      ¬ (contrived m (m.edicts.fieldWords + 1)).edicts.Fits m.edicts) inferInstance (by decide +kernel)
  have fits : (contrived m m.edicts.fieldWords).Fits m :=
    ⟨atRest, rfl, rfl, Array.length_toList, records, bytes⟩
  have unfit : ¬ (contrived m (m.edicts.fieldWords + 1)).Fits m := fun fits => tooWide fits.edicts
  have idle : ∀ key, ((default : Nat → Routine) key).Assembles := fun _ => Engine.Maintains.pure ()
  have assembled := (played.reachable loaded).assembled idle
  refine ⟨m, assembled, ?_, ?_⟩
  · have accepted := restores_whole_or_not assembled (contrived m m.edicts.fieldWords)
    obtain ⟨_, m', done, -, taken⟩ := (accepted.mono (fun _ _ h => h) fun _ _ h => h.1 fits).exists_ok
    exact ⟨m', done, taken⟩
  · have refused := restores_whole_or_not assembled (contrived m (m.edicts.fieldWords + 1))
    obtain ⟨e, _, failed, -, rfl⟩ := (refused.mono (fun _ _ h => unfit h.1) fun _ _ h => h).exists_error
    exact ⟨e, failed⟩

end Snapshot

end QuakeProgs
