/-
  File:      QuakeProgs/Proofs/Store/Refinement.lean
  Subject:   A STORE IS ONE TABLE OF RECORDS: that they lie in batches never shows.

  The operations of a store are said a second time, of records in one list. Batches, the search for a
  batch and the arithmetic within it do not occur there.

  * `EdictTable` -- the plain table, with the operations of a store;
  * `StoreCommand`, `EdictStore.perform`, `EdictTable.perform` -- an operation, on either side;
  * `EdictTable.Regular` -- all records have the width of the table, and the high-water mark lies within
    it; every operation keeps this (`EdictTable.Regular.perform`);
  * `EdictStore.perform_flat` -- one operation gives the same answer and the same table on both sides;
  * `EdictStore.refines_table` -- so does any sequence of them, and the batches tile the numbers all the
    while; sizes of 64 bits are enough as long as the batches fit into memory, and not otherwise
    (`EdictStore.words_wrap_around`).
-/
import QuakeProgs.Proofs.Store.Records

namespace QuakeProgs

/-! ## 1. The plain table. -/

/-- The records of a store in one list. -/
structure EdictTable where
  fieldWords : Nat
  records : List Edict
  /-- One past the highest number ever handed out. -/
  inUse : Nat
  config : StoreConfig

namespace EdictTable

/-- A table of blank records. The reserved ones are in use, at least the world. -/
def new (fieldWords : Nat) (config : StoreConfig) : EdictTable :=
  let count := min (max (max config.initial config.reserved) 1) (max config.max 1)
  { fieldWords
    records := List.replicate count (.blank fieldWords)
    inUse := min (max config.reserved 1) count
    config }

def get (t : EdictTable) (id : EdictId) : Except Error Edict :=
  match t.records[id.toNat]? with
  | some e => .ok e
  | none => .error (Cause.badEdict id.toNat t.records.length)

/-- Changes one record. -/
def modify (t : EdictTable) (i : Nat) (change : Edict → Edict) : EdictTable :=
  { t with records := t.records.modify i change }

/-- Appends blank records. -/
def grow (t : EdictTable) (n : Nat) : EdictTable :=
  { t with records := t.records ++ List.replicate n (.blank t.fieldWords) }

/-- The lowest number in use, past the reserved ones, whose record has rested. -/
def rested? (t : EdictTable) (time : Single) : Option Nat :=
  let first := max t.config.reserved 1
  (List.range' first (t.inUse - first)).find? fun i => (t.records[i]?).any (EdictStore.reusable time)

/-- Hands a blank record out: one that has rested, else the next one. -/
def alloc (t : EdictTable) (time : Single) : Except Error (EdictId × EdictTable) :=
  match t.rested? time with
  | some i => .ok (i.toUInt32, t.modify i fun _ => .blank t.fieldWords)
  | none =>
    if t.inUse ≥ t.config.max then .error (Cause.noFreeEdicts t.config.max)
    else
      let missing :=
        if t.inUse < t.records.length then 0
        else min (max t.config.batch 1) (t.config.max - t.records.length)
      .ok (t.inUse.toUInt32,
        { (t.grow missing).modify t.inUse (fun _ => .blank t.fieldWords) with inUse := t.inUse + 1 })

/-- Frees a record, which is left with all fields zero. The world is never freed. -/
def release (t : EdictTable) (id : EdictId) (time : Single) : Except Error EdictTable := do
  if id = 0 then .error (Cause.programError "tried to free the world entity")
  else
    let _ ← t.get id
    return t.modify id.toNat fun _ => { Edict.blank t.fieldWords with free := true, freeTime := time }

/-- Makes every record blank. -/
def reset (t : EdictTable) : EdictTable :=
  { t with
    records := List.replicate t.records.length (.blank t.fieldWords)
    inUse := min (max t.config.reserved 1) t.records.length }

/-- The record that was saved. -/
def saved (r : EdictRecord) : Edict :=
  { free := r.free, freeTime := r.freeTime, fields := r.fields.toArray }

/-- The saved records come first; all others are blank. -/
def restore (t : EdictTable) (s : StoreSnapshot) : Except Error EdictTable :=
  if s.fieldWords.toNat ≠ t.fieldWords then
    .error (Cause.serialization
      s!"snapshot has {s.fieldWords.toNat} field words, program has {t.fieldWords}")
  else if s.edicts.length > t.config.max then .error (Cause.noFreeEdicts t.config.max)
  else if s.edicts.any fun r => r.fields.length ≠ t.fieldWords then
    .error (Cause.serialization "edict record with wrong field count")
  else
    let others := List.replicate (t.records.length - s.edicts.length) (Edict.blank t.fieldWords)
    .ok { t with
      records := s.edicts.map saved ++ others
      inUse := max s.edicts.length (min (max t.config.reserved 1) t.records.length) }

/-- Overwrites field words of a record. -/
def write (t : EdictTable) (id : EdictId) (ofs : Nat) (ws : List Word) : Except Error EdictTable := do
  (← t.get id).check ofs ws.length
  return t.modify id.toNat (·.overwrite ofs ws)

end EdictTable

/-! ## 2. Operations, on either side. -/

/-- A change of a record's fields and header that keeps the number of its fields. -/
structure RecordEdit where
  change : Edict → Edict
  width : ∀ e, (change e).fields.size = e.fields.size

/-- An operation on a store. -/
inductive StoreCommand where
  | grow (n : Nat)
  | alloc (time : Single)
  | release (id : EdictId) (time : Single)
  | reset
  | restore (saved : StoreSnapshot)
  | write (id : EdictId) (ofs : Nat) (ws : List Word)
  | edit (id : EdictId) (edit : RecordEdit)

/-- What an operation does to a store, with the number it hands out, if any. -/
def EdictStore.perform (s : EdictStore) : StoreCommand → Except Error (Option EdictId × EdictStore)
  | .grow n => .ok (none, s.grow n)
  | .alloc time => (s.alloc time).map fun (id, s') => (some id, s')
  | .release id time => (s.release id time).map (none, ·)
  | .reset => .ok (none, s.reset)
  | .restore saved => (s.restore saved).map (none, ·)
  | .write id ofs ws => (s.write id ofs ws).map (none, ·)
  | .edit id edit => (s.get id).map fun _ => (none, s.modify id.toNat edit.change)

/-- What it does to a plain table. -/
def EdictTable.perform (t : EdictTable) : StoreCommand → Except Error (Option EdictId × EdictTable)
  | .grow n => .ok (none, t.grow n)
  | .alloc time => (t.alloc time).map fun (id, t') => (some id, t')
  | .release id time => (t.release id time).map (none, ·)
  | .reset => .ok (none, t.reset)
  | .restore saved => (t.restore saved).map (none, ·)
  | .write id ofs ws => (t.write id ofs ws).map (none, ·)
  | .edit id edit => (t.get id).map fun _ => (none, t.modify id.toNat edit.change)

/-- The store after an operation; one that fails changes nothing. -/
def EdictStore.after (s : EdictStore) (c : StoreCommand) : EdictStore :=
  match s.perform c with
  | .ok (_, s') => s'
  | .error _ => s

def EdictTable.after (t : EdictTable) (c : StoreCommand) : EdictTable :=
  match t.perform c with
  | .ok (_, t') => t'
  | .error _ => t

/-! ## 3. What every operation keeps of the table. -/

namespace EdictTable

/-- **The invariant of a table**: every record has its width, and the high-water mark lies between one and
    the number of records. -/
structure Regular (t : EdictTable) : Prop where
  width : ∀ e ∈ t.records, e.fields.size = t.fieldWords
  started : 1 ≤ t.inUse
  within : t.inUse ≤ t.records.length

/-- What an operation leaves: a regular table with no fewer records. -/
structure Follows (t t' : EdictTable) : Prop where
  regular : t'.Regular
  length : t.records.length ≤ t'.records.length

@[simp] theorem size_blank (n : Nat) : (Edict.blank n).fields.size = n := Array.size_replicate

variable {t t' : EdictTable}

theorem Regular.modify (h : t.Regular) (i : Nat) {f : Edict → Edict}
    (hf : KeepsWidth t.fieldWords f) :
    (t.modify i f).Regular := by
  refine ⟨fun e he => ?_, h.started, ?_⟩
  · obtain ⟨j, hj⟩ := List.mem_iff_getElem?.mp he
    rw [EdictTable.modify, List.getElem?_modify, Option.map_eq_map, Option.map_eq_some_iff] at hj
    obtain ⟨old, hold, rfl⟩ := hj
    have width := h.width old (List.mem_of_getElem? hold)
    split
    · exact hf old width
    · exact width
  · rw [EdictTable.modify, List.length_modify]
    exact h.within

theorem Regular.grow (h : t.Regular) (n : Nat) : (t.grow n).Regular := by
  refine ⟨fun e he => ?_, h.started, ?_⟩
  · rcases List.mem_append.mp he with he | he
    · exact h.width e he
    · rw [List.eq_of_mem_replicate he]
      exact size_blank _
  · have := h.within
    simp only [EdictTable.grow, List.length_append]
    omega

/-- The numbers in use at the start are at least one and at most all. -/
theorem startInUse_within (reserved : Nat) {count : Nat} (h : 0 < count) :
    1 ≤ min (max reserved 1) count ∧ min (max reserved 1) count ≤ count := by
  omega

theorem Regular.new (fieldWords : Nat) (config : StoreConfig) : (new fieldWords config).Regular := by
  have count : 0 < min (max (max config.initial config.reserved) 1) (max config.max 1) := by omega
  have start := startInUse_within config.reserved count
  refine ⟨fun e he => ?_, start.1, ?_⟩
  · rw [List.eq_of_mem_replicate he]
    exact size_blank _
  · rw [EdictTable.new, List.length_replicate]
    exact start.2

/-- A table always has the world. -/
theorem Regular.inhabited (h : t.Regular) : 0 < t.records.length := by
  have := h.started
  have := h.within
  omega

theorem Regular.reset (h : t.Regular) : t.reset.Regular := by
  have start := startInUse_within t.config.reserved h.inhabited
  refine ⟨fun e he => ?_, start.1, ?_⟩
  · rw [List.eq_of_mem_replicate he]
    exact size_blank _
  · rw [EdictTable.reset, List.length_replicate]
    exact start.2

theorem Follows.modify (h : t.Regular) (i : Nat) {f : Edict → Edict}
    (hf : KeepsWidth t.fieldWords f) :
    t.Follows (t.modify i f) :=
  ⟨h.modify i hf, Nat.le_of_eq (List.length_modify f t.records i).symm⟩

/-- Handing out: where the mark reaches the end of the table, at least one record is added. -/
theorem Follows.alloc (h : t.Regular) {time : Single} {id : EdictId} (e : t.alloc time = .ok (id, t')) :
    t.Follows t' := by
  unfold EdictTable.alloc at e
  split at e
  · cases e
    exact .modify h _ fun _ _ => size_blank _
  · split at e
    · cases e
    · next room =>
      cases e
      have grown := h.grow (if t.inUse < t.records.length then 0
        else min (max t.config.batch 1) (t.config.max - t.records.length))
      have wiped := grown.modify t.inUse (f := fun _ => .blank t.fieldWords) fun _ _ => size_blank _
      refine ⟨⟨wiped.width, Nat.le_add_left 1 _, ?_⟩, ?_⟩
      · simp only [EdictTable.modify, EdictTable.grow, List.length_modify, List.length_append,
          List.length_replicate]
        have := h.within
        split <;> omega
      · simp only [EdictTable.modify, EdictTable.grow, List.length_modify, List.length_append]
        omega

/-- **What restoring gives**: the saved records, of the right width and not too many, and blank ones past
    them. -/
theorem restore_eq_ok {s : StoreSnapshot} (e : t.restore s = .ok t') :
    s.edicts.length ≤ t.config.max ∧ (∀ r ∈ s.edicts, r.fields.length = t.fieldWords) ∧
      t' = { t with
        records := s.edicts.map saved ++
          List.replicate (t.records.length - s.edicts.length) (.blank t.fieldWords)
        inUse := max s.edicts.length (min (max t.config.reserved 1) t.records.length) } := by
  unfold EdictTable.restore at e
  split at e
  · cases e
  · split at e
    · cases e
    · next few =>
      split at e
      · cases e
      · next width =>
        simp only [List.any_eq_true, decide_eq_true_eq, not_exists, not_and, ne_eq, Decidable.not_not] at width
        exact ⟨Nat.le_of_not_lt few, width, (Except.ok.inj e).symm⟩

theorem release_eq_ok {id : EdictId} {time : Single} (e : t.release id time = .ok t') :
    t' = t.modify id.toNat fun _ => { Edict.blank t.fieldWords with free := true, freeTime := time } := by
  unfold EdictTable.release at e
  split at e
  · cases e
  · cases hg : t.get id with
    | error err => rw [hg] at e; cases e
    | ok old =>
      rw [hg] at e
      cases e
      rfl

theorem write_eq_ok {id : EdictId} {ofs : Nat} {ws : List Word} (e : t.write id ofs ws = .ok t') :
    t' = t.modify id.toNat (·.overwrite ofs ws) := by
  unfold EdictTable.write at e
  cases hg : t.get id with
  | error err => rw [hg] at e; cases e
  | ok old =>
    rw [hg] at e
    cases hc : old.check ofs ws.length with
    | error err => simp only [bind, Except.bind, hc] at e; cases e
    | ok u =>
      simp only [bind, Except.bind, hc] at e
      cases e
      rfl

theorem Follows.restore (h : t.Regular) {s : StoreSnapshot} (e : t.restore s = .ok t') : t.Follows t' := by
  obtain ⟨-, width, rfl⟩ := restore_eq_ok e
  have start := startInUse_within t.config.reserved h.inhabited
  have length : (s.edicts.map saved ++
      List.replicate (t.records.length - s.edicts.length) (Edict.blank t.fieldWords)).length =
      max s.edicts.length t.records.length := by
    simp only [List.length_append, List.length_map, List.length_replicate]
    omega
  refine ⟨⟨fun e he => ?_, ?_, ?_⟩, ?_⟩
  · rcases List.mem_append.mp he with he | he
    · obtain ⟨r, hr, rfl⟩ := List.mem_map.mp he
      exact List.size_toArray.trans (width r hr)
    · rw [List.eq_of_mem_replicate he]
      exact size_blank _
  · exact Nat.le_trans start.1 (Nat.le_max_right _ _)
  · rw [length]
    exact Nat.max_le.mpr ⟨Nat.le_max_left _ _, Nat.le_trans start.2 (Nat.le_max_right _ _)⟩
  · rw [length]
    exact Nat.le_max_right _ _

theorem Follows.release (h : t.Regular) {id : EdictId} {time : Single} (e : t.release id time = .ok t') :
    t.Follows t' := by
  rw [release_eq_ok e]
  exact .modify h _ fun _ _ => size_blank _

theorem Follows.write (h : t.Regular) {id : EdictId} {ofs : Nat} {ws : List Word}
    (e : t.write id ofs ws = .ok t') : t.Follows t' := by
  rw [write_eq_ok e]
  exact .modify h _ (keepsWidth_overwrite _ _ _)

theorem map_eq_ok {α β : Type} {x : Except Error α} {f : α → β} {b : β} (h : x.map f = .ok b) :
    ∃ a, x = .ok a ∧ f a = b := by
  cases x with
  | error e => cases h
  | ok a => exact ⟨a, rfl, Except.ok.inj h⟩

/-- **Every operation** leaves a regular table, with no fewer records. -/
theorem Regular.perform (h : t.Regular) {c : StoreCommand} {answer : Option EdictId}
    (e : t.perform c = .ok (answer, t')) : t.Follows t' := by
  cases c with
  | grow n =>
    cases e
    refine ⟨h.grow n, ?_⟩
    rw [EdictTable.grow, List.length_append]
    exact Nat.le_add_right _ _
  | alloc time =>
    obtain ⟨⟨id, t₁⟩, ha, heq⟩ := map_eq_ok e
    cases heq
    exact .alloc h ha
  | release id time =>
    obtain ⟨t₁, hr, heq⟩ := map_eq_ok e
    cases heq
    exact .release h hr
  | reset =>
    cases e
    exact ⟨h.reset, Nat.le_of_eq List.length_replicate.symm⟩
  | restore saved =>
    obtain ⟨t₁, hr, heq⟩ := map_eq_ok e
    cases heq
    exact .restore h hr
  | write id ofs ws =>
    obtain ⟨t₁, hw, heq⟩ := map_eq_ok e
    cases heq
    exact .write h hw
  | edit id edit =>
    obtain ⟨old, -, heq⟩ := map_eq_ok e
    cases heq
    exact .modify h _ fun old width => (edit.width old).trans width

end EdictTable

/-! ## 4. The table a store stands for. -/

namespace EdictStore

variable {s s' : EdictStore}

/-- The records of a store, its batches forgotten. -/
def flat (s : EdictStore) : EdictTable :=
  { fieldWords := s.fieldWords, records := s.records, inUse := s.inUse, config := s.config }

theorem flat_grow (s : EdictStore) (n : Nat) : (s.grow n).flat = s.flat.grow n := by
  have records := s.records_grow n
  unfold grow at records ⊢
  split
  · next h => simp [flat, EdictTable.grow, h]
  · next h =>
    rw [if_neg h] at records
    simp only [flat, EdictTable.grow, records]

theorem Tiled.flat_modify (h : s.Tiled) (i : Nat) {f : Edict → Edict} (keeps : KeepsWidth s.fieldWords f) :
    (s.modify i f).flat = s.flat.modify i f := by
  have records := h.records_modify i keeps
  unfold EdictStore.modify at records ⊢
  split
  · next b j hloc =>
    simp only [hloc] at records
    simp only [flat, EdictTable.modify, records]
  · next hloc =>
    simp only [hloc] at records
    simp only [flat, EdictTable.modify, ← records]

theorem count_grow (s : EdictStore) (n : Nat) : (s.grow n).count = s.count + n := by
  unfold grow
  split
  · next h => rw [h, Nat.add_zero]
  · rfl

theorem flat_new (fieldWords : Nat) (config : StoreConfig) :
    (new fieldWords config).flat = .new fieldWords config := by
  have table := flat_grow { fieldWords, batches := #[], count := 0, inUse := 0, config }
    (min (max (max config.initial config.reserved) 1) (max config.max 1))
  rw [flat, EdictTable.grow, EdictTable.mk.injEq] at table
  obtain ⟨width, records, -, sizes⟩ := table
  refine EdictTable.mk.injEq .. |>.mpr ⟨width, records, ?_, sizes⟩
  exact congrArg (startInUse config) ((count_grow _ _).trans (Nat.zero_add _))

/-- Looking a record up is looking it up in the table. -/
theorem Tiled.get_flat (h : s.Tiled) (id : EdictId) : s.get id = s.flat.get id := by
  rw [get, h.get?_eq_records, EdictTable.get, ← h.length_records]
  rfl

/-- Two changes that agree on the record they reach are one. -/
theorem modify_congr {α : Type} {xs : List α} {i : Nat} {f g : α → α}
    (h : ∀ x, xs[i]? = some x → f x = g x) : xs.modify i f = xs.modify i g := by
  refine List.ext_getElem? fun j => ?_
  rw [List.getElem?_modify, List.getElem?_modify]
  cases hx : xs[j]? with
  | none => rfl
  | some x =>
    by_cases hij : i = j
    · subst hij
      simp [h x hx]
    · simp [hij]

/-- Clearing a record is putting a blank one there. -/
theorem Tiled.flat_clear (h : s.Tiled) (i : Nat) (free : Bool) (time : Single) :
    (s.modify i fun e => { e.clear with free := free, freeTime := time }).flat =
      s.flat.modify i fun _ => { Edict.blank s.flat.fieldWords with free := free, freeTime := time } := by
  rw [h.flat_modify i (keepsWidth_clear _ free time)]
  have same : s.flat.records.modify i (fun e => { e.clear with free := free, freeTime := time }) =
      s.flat.records.modify i fun _ => { Edict.blank s.flat.fieldWords with free := free, freeTime := time } := by
    refine modify_congr fun e he => ?_
    simp only [Edict.clear, Edict.blank, h.width (List.mem_of_getElem? he), flat]
  simp only [EdictTable.modify, same]

theorem Tiled.rested_flat (h : s.Tiled) (time : Single) : s.reusable? time = s.flat.rested? time := by
  rw [reusable?, firstOf_eq]
  simp only [h.headerAt?_eq, h.get?_eq_records, Option.any_map]
  rfl

/-! ## 5. One operation, on either side. -/

theorem Tiled.flat_extend (h : s.Tiled) :
    s.extend.flat =
      { s.flat.grow (if s.inUse < s.flat.records.length then 0
          else min (max s.config.batch 1) (s.config.max - s.flat.records.length)) with
        inUse := s.inUse + 1 } := by
  have length : s.flat.records.length = s.count := h.length_records
  unfold EdictStore.extend
  rw [length]
  split
  · next full =>
    rw [if_neg (Nat.not_lt.mpr full), ← flat_grow]
    rfl
  · next room =>
    rw [if_pos (Nat.lt_of_not_le room), ← flat_grow]
    rfl

theorem Tiled.flat_alloc (h : s.Tiled) (time : Single) :
    (s.alloc time).map (fun (id, s') => (id, s'.flat)) = s.flat.alloc time := by
  unfold alloc vacancy EdictTable.alloc
  rw [h.rested_flat]
  cases hr : s.flat.rested? time with
  | some i =>
    have below : i < s.inUse := by
      have mem := List.mem_of_find?_eq_some hr
      rw [List.mem_range'_1] at mem
      simp only [flat] at mem
      omega
    have wiped := h.flat_clear i false .zero
    simp only [bind, Except.bind, pure, Except.pure, Except.map, EdictStore.occupy, if_pos below]
    exact congrArg (fun t => Except.ok (i.toUInt32, t)) wiped
  | none =>
    dsimp only
    by_cases full : s.inUse ≥ s.config.max
    · rw [if_pos full, if_pos (show s.flat.inUse ≥ s.flat.config.max from full)]
      rfl
    · rw [if_neg full, if_neg (show ¬ s.flat.inUse ≥ s.flat.config.max from full)]
      have wiped := h.extend.flat_clear s.inUse false .zero
      simp only [bind, Except.bind, pure, Except.pure, Except.map, EdictStore.occupy, Nat.lt_irrefl, if_false]
      rw [h.flat_extend] at wiped
      exact congrArg (fun t => Except.ok (s.inUse.toUInt32, t)) wiped

theorem Tiled.flat_release (h : s.Tiled) (id : EdictId) (time : Single) :
    (s.release id time).map flat = s.flat.release id time := by
  unfold release checkRelease EdictTable.release
  rw [h.get_flat]
  by_cases world : id = 0
  · rw [if_pos world, if_pos world]
    rfl
  · rw [if_neg world, if_neg world]
    cases s.flat.get id with
    | error e => rfl
    | ok old => exact congrArg Except.ok (h.flat_clear id.toNat true time)

theorem Tiled.flat_write (h : s.Tiled) (id : EdictId) (ofs : Nat) (ws : List Word) :
    (s.write id ofs ws).map flat = s.flat.write id ofs ws := by
  unfold write checkWrite EdictTable.write
  rw [h.get_flat]
  cases s.flat.get id with
  | error e => rfl
  | ok old =>
    cases hc : old.check ofs ws.length with
    | error e => simp only [bind, Except.bind, hc]; rfl
    | ok u =>
      simp only [bind, Except.bind, hc]
      exact congrArg Except.ok (h.flat_modify _ (keepsWidth_overwrite _ _ _))

/-- **A reset leaves blank records**, as many as there were. -/
theorem Tiled.records_reset (h : s.Tiled) : s.reset.records = List.replicate s.count (.blank s.fieldWords) := by
  refine List.eq_replicate_iff.mpr ⟨h.reset.length_records, fun e he => ?_⟩
  obtain ⟨b, hb, heb⟩ := List.mem_flatMap.mp he
  rw [EdictStore.reset, Array.toList_map, List.mem_map] at hb
  obtain ⟨c, hc, rfl⟩ := hb
  have blank : c.reset.edicts s.fieldWords = List.replicate c.headers.size (.blank s.fieldWords) :=
    (h.whole c hc).edicts_reset
  exact List.eq_of_mem_replicate (blank ▸ heb)

theorem Tiled.flat_reset (h : s.Tiled) : s.reset.flat = s.flat.reset := by
  have length : s.flat.records.length = s.count := h.length_records
  rw [EdictTable.reset, length, flat, h.records_reset]
  rfl

/-- Records put in place one after the other. -/
theorem Tiled.flat_place (h : s.Tiled) (i : Nat) (rs : List EdictRecord) (room : i + rs.length ≤ s.count)
    (widths : ∀ r ∈ rs, r.fields.length = s.fieldWords) :
    (s.place i rs).flat =
      { s.flat with
        records := s.records.take i ++ (rs.map EdictTable.saved ++ s.records.drop (i + rs.length)) } := by
  induction rs generalizing s i with
  | nil => simp [EdictStore.place, flat]
  | cons r rs ih =>
    rw [List.length_cons] at room
    obtain ⟨width, widths⟩ := List.forall_mem_cons.mp widths
    have keeps : KeepsWidth s.fieldWords fun _ => EdictTable.saved r := fun _ _ => List.size_toArray.trans width
    have modified := h.flat_modify i keeps
    have length : (s.modify i fun _ => EdictTable.saved r).count = s.count := by
      rw [← (h.modify i _).length_records, h.records_modify i keeps, List.length_modify, h.length_records]
    have placed := ih (h.modify i fun _ => EdictTable.saved r) (i + 1) (by omega)
      (by rw [fieldWords_modify]; exact widths)
    have here : i < s.records.length := by rw [h.length_records]; omega
    have upTo : (s.records.modify i fun _ => EdictTable.saved r).take (i + 1) =
        s.records.take i ++ [EdictTable.saved r] := by
      have before : (s.records.take i).length = i := List.length_take_of_le (Nat.le_of_lt here)
      rw [List.modify_eq_take_cons_drop here, List.take_append, before, Nat.add_sub_cancel_left,
        List.take_of_length_le (Nat.le_succ_of_le (Nat.le_of_eq before)), List.take_succ_cons, List.take_zero]
    have beyond : (s.records.modify i fun _ => EdictTable.saved r).drop (i + 1 + rs.length) =
        s.records.drop (i + (rs.length + 1)) := by
      rw [List.drop_modify_of_lt _ _ _ _ (by omega)]
      congr 1
      omega
    rw [modified, h.records_modify i keeps, upTo, beyond, List.append_assoc] at placed
    exact placed

/-- The saved records, then the blank ones past them. -/
theorem Tiled.flat_refill (h : s.Tiled) (rs : List EdictRecord)
    (widths : ∀ r ∈ rs, r.fields.length = s.fieldWords) :
    ((s.reset.grow (rs.length - s.count)).place 0 rs).flat =
      { s.flat.reset with
        records := rs.map EdictTable.saved ++
          List.replicate (s.flat.records.length - rs.length) (.blank s.fieldWords) } := by
  have length : s.flat.records.length = s.count := h.length_records
  have room : 0 + rs.length ≤ (s.reset.grow (rs.length - s.count)).count := by
    rw [count_grow, show s.reset.count = s.count from rfl]
    omega
  have width : (s.reset.grow (rs.length - s.count)).fieldWords = s.fieldWords := by
    unfold EdictStore.grow
    split <;> rfl
  have placed := (h.reset.grow (rs.length - s.count)).flat_place 0 rs room (width ▸ widths)
  rw [flat_grow, h.flat_reset, records_grow, h.records_reset, Nat.zero_add, List.take_zero, List.nil_append,
    show s.reset.fieldWords = s.fieldWords from rfl, List.replicate_append_replicate, List.drop_replicate,
    show s.count + (rs.length - s.count) - rs.length = s.count - rs.length by omega, ← length] at placed
  rw [← length]
  exact placed

theorem Tiled.flat_restore (h : s.Tiled) (saved : StoreSnapshot) :
    (s.restore saved).map flat = s.flat.restore saved := by
  unfold EdictStore.restore EdictTable.restore
  dsimp only
  by_cases width : saved.fieldWords.toNat ≠ s.fieldWords
  · rw [if_pos width]
    exact (if_pos width).symm
  · rw [if_neg width]
    refine Eq.trans ?_ (if_neg width).symm
    by_cases many : saved.edicts.length > s.config.max
    · rw [if_pos many]
      exact (if_pos many).symm
    · rw [if_neg many]
      refine Eq.trans ?_ (if_neg many).symm
      by_cases narrow : saved.edicts.any fun r => r.fields.length ≠ s.fieldWords
      · rw [if_pos narrow]
        exact (if_pos narrow).symm
      · rw [if_neg narrow]
        refine Eq.trans ?_ (if_neg narrow).symm
        have widths : ∀ r ∈ saved.edicts, r.fields.length = s.fieldWords := by
          simpa only [List.any_eq_true, decide_eq_true_eq, not_exists, not_and, ne_eq, Decidable.not_not] using
            narrow
        exact congrArg (fun t : EdictTable => Except.ok { t with inUse := max saved.edicts.length t.inUse })
          (h.flat_refill saved.edicts widths)

/-- **One operation** gives the same answer and the same table on both sides. -/
theorem Tiled.flat_perform (h : s.Tiled) (c : StoreCommand) :
    (s.perform c).map (fun (answer, s') => (answer, s'.flat)) = s.flat.perform c := by
  cases c with
  | grow n => exact congrArg (fun t => Except.ok (none, t)) (s.flat_grow n)
  | alloc time =>
    rw [perform, EdictTable.perform, ← h.flat_alloc]
    cases s.alloc time <;> rfl
  | release id time =>
    rw [perform, EdictTable.perform, ← h.flat_release]
    cases s.release id time <;> rfl
  | reset => exact congrArg (fun t => Except.ok (none, t)) h.flat_reset
  | restore saved =>
    rw [perform, EdictTable.perform, ← h.flat_restore]
    cases s.restore saved <;> rfl
  | write id ofs ws =>
    rw [perform, EdictTable.perform, ← h.flat_write]
    cases s.write id ofs ws <;> rfl
  | edit id edit =>
    rw [perform, EdictTable.perform, ← h.get_flat,
      ← h.flat_modify id.toNat fun e he => (edit.width e).trans he]
    cases s.get id <;> rfl

/-! ## 6. Any sequence of operations. -/

/-- Every operation keeps the batches without a gap. -/
theorem Tiled.perform (h : s.Tiled) {c : StoreCommand} {answer : Option EdictId}
    (e : s.perform c = .ok (answer, s')) : s'.Tiled := by
  cases c with
  | grow n =>
    cases e
    exact h.grow n
  | alloc time =>
    obtain ⟨⟨id, s₁⟩, ha, heq⟩ := EdictTable.map_eq_ok e
    cases heq
    unfold alloc at ha
    cases hv : s.vacancy time with
    | error err => rw [hv] at ha; cases ha
    | ok i =>
      rw [hv] at ha
      cases ha
      exact h.occupy i
  | release id time =>
    obtain ⟨s₁, hr, heq⟩ := EdictTable.map_eq_ok e
    cases heq
    unfold release at hr
    cases hc : s.checkRelease id with
    | error err => rw [hc] at hr; cases hr
    | ok u =>
      rw [hc] at hr
      cases hr
      exact h.modify _ _
  | reset =>
    cases e
    exact h.reset
  | restore saved =>
    obtain ⟨s₁, hr, heq⟩ := EdictTable.map_eq_ok e
    cases heq
    exact h.restore hr
  | write id ofs ws =>
    obtain ⟨s₁, hw, heq⟩ := EdictTable.map_eq_ok e
    cases heq
    unfold write at hw
    cases hc : s.checkWrite id ofs ws.length with
    | error err => rw [hc] at hw; cases hw
    | ok u =>
      rw [hc] at hw
      cases hw
      exact h.modify _ _
  | edit id edit =>
    obtain ⟨old, -, heq⟩ := EdictTable.map_eq_ok e
    cases heq
    exact h.modify _ _

/-- A store that stands for a regular table. -/
structure Stands (s : EdictStore) (t : EdictTable) : Prop where
  tiled : s.Tiled
  flat : s.flat = t
  regular : t.Regular

/-- One operation, failed or not, on either side: a store still stands for its table, and has no fewer
    records. -/
theorem Stands.after {t : EdictTable} (h : s.Stands t) (c : StoreCommand) :
    (s.after c).Stands (t.after c) ∧ s.count ≤ (s.after c).count := by
  obtain ⟨tiled, rfl, regular⟩ := h
  have same := tiled.flat_perform c
  unfold EdictStore.after EdictTable.after
  cases hs : s.perform c with
  | error e =>
    rw [← same, hs]
    exact ⟨⟨tiled, rfl, regular⟩, Nat.le_refl _⟩
  | ok r =>
    obtain ⟨answer, s'⟩ := r
    have tiled' := tiled.perform hs
    rw [hs] at same
    have follows := regular.perform same.symm
    rw [← same]
    refine ⟨⟨tiled', rfl, follows.regular⟩, ?_⟩
    rw [← tiled.length_records, ← tiled'.length_records]
    exact follows.length

theorem Stands.foldl {t : EdictTable} (h : s.Stands t) (cs : List StoreCommand) :
    (cs.foldl EdictStore.after s).Stands (cs.foldl EdictTable.after t) := by
  induction cs generalizing s t with
  | nil => exact h
  | cons c cs ih => exact ih (h.after c).1

theorem Stands.new (fieldWords : Nat) (config : StoreConfig) :
    (EdictStore.new fieldWords config).Stands (.new fieldWords config) :=
  ⟨.new fieldWords config, flat_new fieldWords config, .new fieldWords config⟩

/-- Batches without a gap start at ever higher numbers. -/
theorem tiles_pairwise {lo hi : Nat} {bs : List Batch} (h : Tiles lo hi bs) :
    (∀ b ∈ bs, 0 < b.headers.size) ∧ bs.Pairwise fun b c => b.start < c.start := by
  induction bs generalizing lo with
  | nil => exact ⟨nofun, .nil⟩
  | cons b bs ih =>
    obtain ⟨start, inhabited, rest⟩ := h
    obtain ⟨all, increasing⟩ := ih rest
    refine ⟨List.forall_mem_cons.mpr ⟨inhabited, all⟩, .cons (fun c hc => ?_) increasing⟩
    have := tiles_start_le rest c hc
    omega

/-- A number has a record exactly when it lies below the count. -/
theorem Tiled.get_ok_iff (h : s.Tiled) (id : EdictId) : (∃ e, s.get id = .ok e) ↔ id.toNat < s.count := by
  rw [h.get_flat, EdictTable.get, ← h.length_records]
  change _ ↔ id.toNat < s.flat.records.length
  constructor
  · rintro ⟨e, he⟩
    split at he
    · next hget => exact (List.getElem?_eq_some_iff.mp hget).1
    · cases he
  · intro below
    rw [List.getElem?_eq_getElem below]
    exact ⟨_, rfl⟩

/-- A change of one record shows at its number only. -/
theorem Tiled.get?_modify (h : s.Tiled) (i : Nat) {change : Edict → Edict} (keeps : KeepsWidth s.fieldWords change) :
    (s.modify i change).count = s.count ∧ (s.modify i change).get? i = (s.get? i).map change ∧
      ∀ j, j ≠ i → (s.modify i change).get? j = s.get? j := by
  have h' := h.modify i change
  refine ⟨?_, ?_, fun j hj => ?_⟩
  · rw [← h'.length_records, h.records_modify i keeps, List.length_modify, h.length_records]
  · rw [h'.get?_eq_records, h.get?_eq_records, h.records_modify i keeps, List.getElem?_modify]
    simp
  · rw [h'.get?_eq_records, h.get?_eq_records, h.records_modify i keeps, List.getElem?_modify_ne _ _ hj.symm]

/-- Growing shows past the last number only. -/
theorem Tiled.get?_grow (h : s.Tiled) (n : Nat) :
    (s.grow n).count = s.count + n ∧ (∀ i < s.count, (s.grow n).get? i = s.get? i) ∧
      ∀ i, s.count ≤ i → i < s.count + n → (s.grow n).get? i = some (.blank s.fieldWords) := by
  have length := h.length_records
  refine ⟨s.count_grow n, fun i below => ?_, fun i past within => ?_⟩
  · rw [(h.grow n).get?_eq_records, h.get?_eq_records, records_grow,
      List.getElem?_append_left (by omega)]
  · rw [(h.grow n).get?_eq_records, records_grow, List.getElem?_append_right (by omega),
      List.getElem?_replicate, if_pos (by omega)]

/-- **A store is one table of records.** After any sequence of operations on a fresh store, failed ones
    included, its batches tile the numbers, and each has the words of all its records; its records, its
    answers to every next operation and all lookups are those of the plain table after the same operations;
    a change of one record and growing leave the others alone; and the mark of numbers in use lies within
    the table, so that the room left when the table must grow is not negative. As long as every batch fits
    into memory, the words of a record lie at the same place with sizes of 64 bits, and are found there. -/
theorem refines_table (fieldWords : Nat) (config : StoreConfig) (cs : List StoreCommand) :
    let s := cs.foldl after (new fieldWords config)
    let t := cs.foldl EdictTable.after (.new fieldWords config)
    ((∀ b ∈ s.batches.toList, 0 < b.headers.size) ∧
      (s.batches.toList.Pairwise fun b c => b.start < c.start) ∧ Tiles 0 s.count s.batches.toList ∧
      ∀ b ∈ s.batches.toList, b.Whole s.fieldWords) ∧
    (s.flat = t ∧
      ∀ c, (s.perform c).map (fun (answer, s') => (answer, s'.flat)) = t.perform c) ∧
    (∀ id, s.get id = t.get id ∧ ((∃ e, s.get id = .ok e) ↔ id.toNat < s.count)) ∧
    (∀ i change, KeepsWidth s.fieldWords change → (s.modify i change).count = s.count ∧
      (s.modify i change).get? i = (s.get? i).map change ∧
      ∀ j, j ≠ i → (s.modify i change).get? j = s.get? j) ∧
    (∀ n, (s.grow n).count = s.count + n ∧ (∀ i < s.count, (s.grow n).get? i = s.get? i) ∧
      ∀ i, s.count ≤ i → i < s.count + n → (s.grow n).get? i = some (.blank s.fieldWords)) ∧
    (∀ c, s.count ≤ (s.after c).count) ∧
    1 ≤ s.inUse ∧ s.inUse ≤ s.count ∧
    (s.inUse < s.config.max → s.inUse ≥ s.count → s.count ≤ s.config.max) ∧
    ((∀ b ∈ s.batches.toList, Batch.fits s.fieldWords b.headers.size) →
      (∀ i < s.count, s.rangeAt? i =
        (s.locate? i).map fun (b, k) => (b, k * s.fieldWords, k * s.fieldWords + s.fieldWords)) ∧
      ∀ i, s.wordsAt? i = (s.get? i).map (·.fields)) := by
  intro s t
  have stands : s.Stands t := (Stands.new fieldWords config).foldl cs
  have tiled := stands.tiled
  have regular : s.flat.Regular := stands.flat ▸ stands.regular
  have within : s.inUse ≤ s.count := tiled.length_records ▸ regular.within
  refine ⟨⟨(tiles_pairwise tiled.tiles).1, (tiles_pairwise tiled.tiles).2, tiled.tiles, tiled.whole⟩,
    ⟨stands.flat, fun c => ?_⟩, fun id => ⟨?_, tiled.get_ok_iff id⟩,
    fun i _ keeps => tiled.get?_modify i keeps, tiled.get?_grow,
    fun c => (stands.after c).2, regular.started, within, fun room _ => by omega,
    fun fits => ⟨fun i below => tiled.rangeAt?_eq fits below, tiled.wordsAt?_eq fits⟩⟩
  · rw [← stands.flat]
    exact tiled.flat_perform c
  · rw [← stands.flat]
    exact tiled.get_flat id

/-- Where the words of a fresh store are so many that their number wraps around to none, no record has its
    words. -/
theorem new_wordsAt?_eq_none {fieldWords : Nat} {config : StoreConfig}
    (wraps : (startCount config).toUInt64 * fieldWords.toUInt64 = 0) (wide : fieldWords.toUInt64 ≠ 0) (i : Nat) :
    (new fieldWords config).wordsAt? i = none := by
  obtain ⟨k, b, place, found, mem, -⟩ := (Tiled.new fieldWords config).batch i
  have words : (new fieldWords config).fieldWords = fieldWords := by rw [new_eq]
  have size : b.headers.size = startCount config := by
    rw [new_eq, List.mem_singleton] at mem
    rw [mem]
    exact Array.size_replicate
  have none := Batch.range?_eq_none (size.symm ▸ wraps) wide (i - b.start).toUInt64
  rw [wordsAt?, rangeAt?, place]
  split
  · simp only [found, words, none, Option.bind_some, Option.map_none, Option.bind_none]
  · rfl

/-- **Sizes that wrap around**: 2^24 records of 2^40 words have 2^64 words together, which is none in 64 bits.
    The store has all the records, and not one of them has its words. -/
theorem words_wrap_around :
    let s := new 0x10000000000 { initial := 0x1000000, batch := 1, max := 0x1000000, reserved := 0 }
    s.count = 0x1000000 ∧ ∀ i, s.wordsAt? i = none :=
  ⟨congrArg count (new_eq 0x10000000000 { initial := 0x1000000, batch := 1, max := 0x1000000, reserved := 0 }),
    new_wordsAt?_eq_none (by decide) (by decide)⟩

end EdictStore

end QuakeProgs
