/-
  File:      QuakeProgs/Proofs/Store/Allocation.lean
  Subject:   WHICH NUMBER IS HANDED OUT, after any history of a store.

  A number is handed out because its record has rested, or because it is the first one never used. That it
  is neither reserved nor beyond the limit does not follow from this alone: it takes an invariant of the
  high-water mark, which resetting, restoring and odd limits have to keep.

  * `EdictTable.Rested` -- the record with a number has rested; `EdictTable.rested?_eq_some_iff` -- the
    search finds the lowest of them;
  * `EdictTable.Marked` -- the invariant of the mark, kept by every operation (`EdictTable.Marked.perform`);
  * `EdictTable.HandsOut` -- what handing a number out does to a table;
  * `StoreCommand.KeepsFlags`, `EdictTable.Holds` -- a number that was handed out stays taken;
  * `EdictStore.alloc_hands_out` -- all of it, for a store with any history;
  * `EdictStore.world_handed_out` -- what becomes of a number that no reference can name.
-/
import QuakeProgs.Proofs.Store.Refinement

namespace QuakeProgs

/-! ## 1. The lowest record that has rested. -/

namespace EdictTable

variable {t t' : EdictTable} {time : Single} {i : Nat}

/-- **The record with a number may be handed out again**: it is in use, is not reserved, is free, and has
    rested. -/
def Rested (t : EdictTable) (time : Single) (i : Nat) : Prop :=
  max t.config.reserved 1 ≤ i ∧ i < t.inUse ∧ ∃ e, t.records[i]? = some e ∧ EdictStore.reusable time e = true

theorem any_reusable_iff (t : EdictTable) (time : Single) (i : Nat) :
    (t.records[i]?).any (EdictStore.reusable time) = true ↔
      ∃ e, t.records[i]? = some e ∧ EdictStore.reusable time e = true := by
  rw [Option.any_eq_true]

theorem rested?_eq_some_iff :
    t.rested? time = some i ↔ t.Rested time i ∧ ∀ j < i, ¬ t.Rested time j := by
  unfold rested? Rested
  rw [List.find?_range'_eq_some, List.mem_range'_1, any_reusable_iff]
  constructor
  · rintro ⟨found, ⟨first, last⟩, before⟩
    refine ⟨⟨first, by omega, found⟩, ?_⟩
    rintro j below ⟨first', -, found'⟩
    have absent := before j first' below
    rw [(any_reusable_iff t time j).mpr found'] at absent
    cases absent
  · rintro ⟨⟨first, last, found⟩, before⟩
    refine ⟨found, ⟨first, by omega⟩, fun j first' below => ?_⟩
    rw [Bool.not_eq_true']
    refine Bool.eq_false_iff.mpr fun found' => ?_
    exact before j below ⟨first', by omega, (any_reusable_iff t time j).mp found'⟩

theorem rested?_eq_none_iff : t.rested? time = none ↔ ∀ j, ¬ t.Rested time j := by
  unfold rested? Rested
  rw [List.find?_eq_none]
  simp only [List.mem_range'_1, any_reusable_iff]
  constructor
  · rintro none j ⟨first, last, found⟩
    exact none j ⟨first, by omega⟩ found
  · rintro none j ⟨first, last⟩ found
    exact none j ⟨first, by omega, found⟩

/-! ## 2. Where the mark of numbers in use can be. -/

/-- **The invariant of the mark**: all reserved numbers are in use, unless that takes all there may be; and
    only reserved numbers are in use beyond the limit. The width and the limits are those of the start. -/
structure Marked (fieldWords : Nat) (config : StoreConfig) (t : EdictTable) : Prop where
  width : t.fieldWords = fieldWords
  sizes : t.config = config
  reserved : max config.reserved 1 ≤ t.inUse ∨ config.max ≤ t.inUse
  limit : t.inUse ≤ max config.max (max config.reserved 1)

section Marked

variable {fieldWords : Nat} {config : StoreConfig}

theorem Marked.new (fieldWords : Nat) (config : StoreConfig) :
    (new fieldWords config).Marked fieldWords config := by
  refine ⟨rfl, rfl, ?_, ?_⟩
  · simp only [EdictTable.new]
    omega
  · simp only [EdictTable.new]
    omega

/-- Where the mark is put back, it is at the end of the reserved numbers, or of the table. -/
theorem Marked.reset (h : t.Marked fieldWords config) (regular : t.Regular) :
    t.reset.Marked fieldWords config := by
  have reserved := h.reserved
  have within := regular.within
  refine ⟨h.width, h.sizes, ?_, ?_⟩
  · simp only [EdictTable.reset, h.sizes]
    omega
  · simp only [EdictTable.reset, h.sizes]
    omega

theorem Marked.alloc (h : t.Marked fieldWords config) {id : EdictId} (e : t.alloc time = .ok (id, t')) :
    t'.Marked fieldWords config := by
  unfold EdictTable.alloc at e
  split at e
  · cases e
    exact ⟨h.width, h.sizes, h.reserved, h.limit⟩
  · split at e
    · cases e
    · next room =>
      cases e
      rw [h.sizes] at room
      have reserved := h.reserved
      refine ⟨h.width, h.sizes, ?_, ?_⟩
      · dsimp only
        omega
      · dsimp only
        omega

theorem Marked.restore (h : t.Marked fieldWords config) (regular : t.Regular) {saved : StoreSnapshot}
    (e : t.restore saved = .ok t') : t'.Marked fieldWords config := by
  have reserved := h.reserved
  have within := regular.within
  obtain ⟨few, -, rfl⟩ := restore_eq_ok e
  rw [h.sizes] at few
  refine ⟨h.width, h.sizes, ?_, ?_⟩
  · simp only [h.sizes]
    omega
  · simp only [h.sizes]
    omega

/-- A change of one record leaves the mark where it is. -/
theorem Marked.modify (h : t.Marked fieldWords config) (k : Nat) (change : Edict → Edict) :
    (t.modify k change).Marked fieldWords config := ⟨h.width, h.sizes, h.reserved, h.limit⟩

end Marked

/-- **Every operation keeps the mark where it may be.** -/
theorem Marked.perform {fieldWords : Nat} {config : StoreConfig} (h : t.Marked fieldWords config)
    (regular : t.Regular) {c : StoreCommand} {answer : Option EdictId}
    (e : t.perform c = .ok (answer, t')) : t'.Marked fieldWords config := by
  cases c with
  | grow n =>
    cases e
    exact ⟨h.width, h.sizes, h.reserved, h.limit⟩
  | alloc time =>
    obtain ⟨⟨id, t₁⟩, ha, heq⟩ := map_eq_ok e
    cases heq
    exact h.alloc ha
  | release id time =>
    obtain ⟨t₁, hr, heq⟩ := map_eq_ok e
    cases heq
    rw [release_eq_ok hr]
    exact h.modify _ _
  | reset =>
    cases e
    exact h.reset regular
  | restore saved =>
    obtain ⟨t₁, hr, heq⟩ := map_eq_ok e
    cases heq
    exact h.restore regular hr
  | write id ofs ws =>
    obtain ⟨t₁, hw, heq⟩ := map_eq_ok e
    cases heq
    rw [write_eq_ok hw]
    exact h.modify _ _
  | edit id edit =>
    obtain ⟨old, -, heq⟩ := map_eq_ok e
    cases heq
    exact h.modify _ _

/-! ## 3. What handing a number out does. -/

/-- **The number is in use and its record is not free.** -/
def Holds (t : EdictTable) (i : Nat) : Prop := i < t.inUse ∧ ∃ e, t.records[i]? = some e ∧ e.free = false

theorem Rested.not_holds (h : t.Rested time i) : ¬ t.Holds i := by
  rintro ⟨-, e, he, taken⟩
  obtain ⟨-, -, e', he', reusable⟩ := h
  cases he.symm.trans he'
  rw [EdictStore.reusable_eq, taken] at reusable
  cases reusable

/-- **What handing number `i` out does**: it was not held; it is the lowest that has rested, or else the next
    one; its record is blank afterwards, and no other changes; records are added only where the mark had
    reached the last one, and not beyond the limit. -/
structure HandsOut (t : EdictTable) (time : Single) (i : Nat) (t' : EdictTable) : Prop where
  first : max t.config.reserved 1 ≤ i
  limit : i < t.config.max
  vacant : ¬ t.Holds i
  lowest : (t.Rested time i ∧ ∀ j < i, ¬ t.Rested time j) ∨ i = t.inUse ∧ ∀ j, ¬ t.Rested time j
  blank : t'.records[i]? = some (.blank t.fieldWords)
  others : ∀ j, j ≠ i → j < t.records.length → t'.records[j]? = t.records[j]?
  added : ∀ j, j ≠ i → t.records.length ≤ j → j < t'.records.length → t'.records[j]? = some (.blank t.fieldWords)
  mark : t'.inUse = max t.inUse (i + 1)
  length : t.records.length ≤ t'.records.length
  grown : t.records.length < t'.records.length → t.inUse = t.records.length ∧ t'.records.length ≤ t.config.max

/-- A record that has rested is used again. -/
theorem HandsOut.of_rested (marked : t.Marked t.fieldWords t.config) (found : t.rested? time = some i) :
    t.HandsOut time i (t.modify i fun _ => .blank t.fieldWords) := by
  obtain ⟨rested, before⟩ := rested?_eq_some_iff.mp found
  have ⟨first, last, e, he, _⟩ := rested
  have limit := marked.limit
  have length : (t.modify i fun _ => .blank t.fieldWords).records.length = t.records.length :=
    List.length_modify ..
  exact {
    first
    limit := by omega
    vacant := rested.not_holds
    lowest := .inl ⟨rested, before⟩
    blank := by
      rw [EdictTable.modify, List.getElem?_modify, he]
      simp
    others := fun j other _ => List.getElem?_modify_ne _ _ other.symm
    added := fun j _ past within => by omega
    mark := by
      show t.inUse = max t.inUse (i + 1)
      omega
    length := Nat.le_of_eq length.symm
    grown := fun grown => by omega }

/-- The next number is brought into use. -/
theorem HandsOut.of_next (marked : t.Marked t.fieldWords t.config) (regular : t.Regular)
    (none : t.rested? time = none) (room : t.inUse < t.config.max) {missing : Nat}
    (short : t.inUse < t.records.length → missing = 0)
    (full : t.records.length ≤ t.inUse → 0 < missing ∧ t.records.length + missing ≤ t.config.max) :
    t.HandsOut time t.inUse
      { (t.grow missing).modify t.inUse (fun _ => .blank t.fieldWords) with inUse := t.inUse + 1 } := by
  have reserved := marked.reserved
  have within := regular.within
  have grownLength : (t.grow missing).records.length = t.records.length + missing := by
    rw [EdictTable.grow, List.length_append, List.length_replicate]
  have length : ((t.grow missing).modify t.inUse fun _ => .blank t.fieldWords).records.length =
      t.records.length + missing := by
    rw [EdictTable.modify, List.length_modify, grownLength]
  exact {
    first := by omega
    limit := room
    vacant := fun held => Nat.lt_irrefl _ held.1
    lowest := .inr ⟨rfl, rested?_eq_none_iff.mp none⟩
    blank := by
      have inside : t.inUse < (t.grow missing).records.length := by omega
      rw [EdictTable.modify, List.getElem?_modify, List.getElem?_eq_getElem inside]
      simp
    others := fun j other below => by
      rw [EdictTable.modify, List.getElem?_modify_ne _ _ other.symm, EdictTable.grow,
        List.getElem?_append_left below]
    added := fun j other past last => by
      rw [length] at last
      rw [EdictTable.modify, List.getElem?_modify_ne _ _ other.symm, EdictTable.grow,
        List.getElem?_append_right past, List.getElem?_replicate, if_pos (by omega)]
    mark := by
      show t.inUse + 1 = max t.inUse (t.inUse + 1)
      omega
    length := by
      rw [length]
      omega
    grown := fun grown => by
      rw [length] at grown ⊢
      omega }

/-- **How handing out ends**: with a number, or, where none has rested and the mark has reached the limit,
    with an error. -/
theorem alloc_cases (marked : t.Marked t.fieldWords t.config) (regular : t.Regular) (time : Single) :
    (∃ i t', t.alloc time = .ok (i.toUInt32, t') ∧ t.HandsOut time i t') ∨
      t.alloc time = .error (Cause.noFreeEdicts t.config.max) ∧ (∀ j, ¬ t.Rested time j) ∧
        t.config.max ≤ t.inUse := by
  unfold EdictTable.alloc
  cases found : t.rested? time with
  | some i => exact .inl ⟨i, _, rfl, .of_rested marked found⟩
  | none =>
    dsimp only
    by_cases full : t.inUse ≥ t.config.max
    · rw [if_pos full]
      exact .inr ⟨rfl, rested?_eq_none_iff.mp found, full⟩
    · rw [if_neg full]
      refine .inl ⟨t.inUse, _, rfl, .of_next marked regular found (Nat.lt_of_not_le full) ?_ ?_⟩
      · exact fun below => if_pos below
      · intro reached
        rw [if_neg (Nat.not_lt.mpr reached)]
        have := regular.within
        omega

/-! ## 4. A number that was handed out stays taken. -/

theorem HandsOut.holds (h : t.HandsOut time i t') : t'.Holds i := by
  refine ⟨?_, _, h.blank, rfl⟩
  rw [h.mark]
  omega

/-- A number that is held is not handed out. -/
theorem HandsOut.ne_of_holds (h : t.HandsOut time i t') {k : Nat} (held : t.Holds k) : i ≠ k := by
  rintro rfl
  exact h.vacant held

theorem HandsOut.keeps_holds (h : t.HandsOut time i t') {k : Nat} (held : t.Holds k) : t'.Holds k := by
  have other := h.ne_of_holds held
  obtain ⟨below, e, he, taken⟩ := held
  refine ⟨?_, e, ?_, taken⟩
  · rw [h.mark]
    omega
  · rw [h.others k other.symm (List.getElem?_eq_some_iff.mp he).1, he]

theorem Holds.modify (h : t.Holds i) (k : Nat) {change : Edict → Edict} (flag : ∀ e, (change e).free = e.free) :
    (t.modify k change).Holds i := by
  obtain ⟨below, e, he, taken⟩ := h
  refine ⟨below, if k = i then change e else e, ?_, ?_⟩
  · rw [EdictTable.modify, List.getElem?_modify, he]
    split <;> rfl
  · split
    · rw [flag, taken]
    · exact taken

end EdictTable

/-- **An operation that writes no header**: it frees nothing, and is neither a reset nor a restore. -/
def StoreCommand.KeepsFlags : StoreCommand → Prop
  | .grow _ | .alloc _ | .write .. => True
  | .edit _ revision => ∀ e, (revision.change e).free = e.free
  | .release .. | .reset | .restore _ => False

namespace EdictTable

variable {t : EdictTable} {i : Nat}

/-- Such an operation frees no number that is held. -/
theorem Holds.after (h : t.Holds i) (marked : t.Marked t.fieldWords t.config) (regular : t.Regular)
    {c : StoreCommand} (keeps : c.KeepsFlags) : (t.after c).Holds i := by
  unfold EdictTable.after
  cases hp : t.perform c with
  | error e => exact h
  | ok result =>
    obtain ⟨answer, t'⟩ := result
    cases c with
    | grow n =>
      cases hp
      obtain ⟨below, e, he, taken⟩ := h
      refine ⟨below, e, ?_, taken⟩
      rw [EdictTable.grow, List.getElem?_append_left (List.getElem?_eq_some_iff.mp he).1, he]
    | alloc time =>
      obtain ⟨⟨id, t₁⟩, ha, heq⟩ := map_eq_ok hp
      cases heq
      rcases alloc_cases marked regular time with ⟨k, t₂, ha', hands⟩ | ⟨failed, -⟩
      · cases ha.symm.trans ha'
        exact hands.keeps_holds h
      · cases ha.symm.trans failed
    | write id ofs ws =>
      obtain ⟨t₁, hw, heq⟩ := map_eq_ok hp
      cases heq
      rw [write_eq_ok hw]
      exact h.modify _ fun _ => rfl
    | edit id edit =>
      obtain ⟨old, -, heq⟩ := map_eq_ok hp
      cases heq
      exact h.modify _ keeps
    | release id time => exact keeps.elim
    | reset => exact keeps.elim
    | restore saved => exact keeps.elim

theorem Marked.after {fieldWords : Nat} {config : StoreConfig} (h : t.Marked fieldWords config)
    (regular : t.Regular) (c : StoreCommand) : (t.after c).Marked fieldWords config := by
  unfold EdictTable.after
  cases hp : t.perform c with
  | error e => exact h
  | ok result => exact h.perform regular hp

end EdictTable

/-! ## 5. Stores with any history. -/

namespace EdictStore

variable {s s' : EdictStore} {fieldWords : Nat} {config : StoreConfig} {time : Single} {i : Nat}

/-- **A store in order**: it stands for a regular table whose mark is where it may be. -/
structure Ordered (fieldWords : Nat) (config : StoreConfig) (s : EdictStore) : Prop where
  tiled : s.Tiled
  regular : s.flat.Regular
  marked : s.flat.Marked fieldWords config

theorem Ordered.stands (h : s.Ordered fieldWords config) : s.Stands s.flat := ⟨h.tiled, rfl, h.regular⟩

theorem Ordered.after (h : s.Ordered fieldWords config) (c : StoreCommand) :
    (s.after c).Ordered fieldWords config ∧ (s.after c).flat = s.flat.after c := by
  obtain ⟨tiled, flat, regular⟩ := (h.stands.after c).1
  refine ⟨⟨tiled, flat ▸ regular, ?_⟩, flat⟩
  rw [flat]
  exact h.marked.after h.regular c

theorem Ordered.foldl (h : s.Ordered fieldWords config) (cs : List StoreCommand) :
    (cs.foldl EdictStore.after s).Ordered fieldWords config := by
  induction cs generalizing s with
  | nil => exact h
  | cons c cs ih => exact ih (h.after c).1

/-- No operation gives a record up. -/
theorem Ordered.count_le_foldl (h : s.Ordered fieldWords config) (cs : List StoreCommand) :
    s.count ≤ (cs.foldl EdictStore.after s).count := by
  induction cs generalizing s with
  | nil => exact Nat.le_refl _
  | cons c cs ih => exact Nat.le_trans (h.stands.after c).2 (ih (h.after c).1)

theorem Ordered.new (fieldWords : Nat) (config : StoreConfig) :
    (new fieldWords config).Ordered fieldWords config := by
  obtain ⟨tiled, flat, regular⟩ := Stands.new fieldWords config
  exact ⟨tiled, flat ▸ regular, flat ▸ .new fieldWords config⟩

/-- A record that is found. -/
theorem get?_of_get {id : EdictId} {e : Edict} (h : s.get id = .ok e) : s.get? id.toNat = some e := by
  unfold EdictStore.get at h
  split at h
  · next found => cases h; exact found
  · cases h

/-- Every record is as wide as those that the store started with. -/
theorem Ordered.width (h : s.Ordered fieldWords config) {id : EdictId} {e : Edict} (found : s.get id = .ok e) :
    e.fields.size = fieldWords := by
  have listed := get?_of_get found
  rw [h.tiled.get?_eq_records] at listed
  exact (h.regular.width e (List.mem_of_getElem? listed)).trans h.marked.width

/-- A number that is held stays held as long as no header is written. -/
theorem Ordered.holds_foldl (h : s.Ordered fieldWords config) (held : s.flat.Holds i) {cs : List StoreCommand}
    (keeps : ∀ c ∈ cs, c.KeepsFlags) : (cs.foldl EdictStore.after s).flat.Holds i := by
  induction cs generalizing s with
  | nil => exact held
  | cons c cs ih =>
    obtain ⟨keepsFirst, keepsRest⟩ := List.forall_mem_cons.mp keeps
    obtain ⟨ordered, flat⟩ := h.after c
    refine ih ordered ?_ keepsRest
    rw [flat]
    refine held.after ?_ h.regular keepsFirst
    rw [h.marked.width, h.marked.sizes]
    exact h.marked

/-- Lookups and counts of a store are those of its table. -/
structure ReadsAsTable (s : EdictStore) : Prop where
  get? : ∀ j, s.get? j = s.flat.records[j]?
  count : s.count = s.flat.records.length

theorem Tiled.readsAsTable (h : s.Tiled) : s.ReadsAsTable := ⟨h.get?_eq_records, h.length_records.symm⟩

/-- **How handing out ends**, for a store in order. -/
theorem Ordered.alloc_cases (h : s.Ordered fieldWords config) (time : Single) :
    (∃ i s', s.alloc time = .ok (i.toUInt32, s') ∧ s'.Ordered fieldWords config ∧
      s.flat.HandsOut time i s'.flat) ∨
    s.alloc time = .error (Cause.noFreeEdicts config.max) ∧ (∀ j, ¬ s.flat.Rested time j) ∧
      config.max ≤ s.inUse := by
  have same := h.tiled.flat_alloc time
  have marked : s.flat.Marked s.flat.fieldWords s.flat.config := by
    rw [h.marked.width, h.marked.sizes]
    exact h.marked
  have cases := s.flat.alloc_cases marked h.regular time
  rw [h.marked.sizes] at cases
  cases ha : s.alloc time with
  | error e =>
    rw [ha] at same
    rcases cases with ⟨i, t', hands, -⟩ | ⟨failed, none, full⟩
    · cases same.trans hands
    · cases same.trans failed
      exact .inr ⟨rfl, none, full⟩
  | ok result =>
    obtain ⟨id, s'⟩ := result
    rw [ha] at same
    have ordered : s'.Ordered fieldWords config := by
      have after := (h.after (.alloc time)).1
      simp only [EdictStore.after, perform, ha, Except.map] at after
      exact after
    rcases cases with ⟨i, t', hands, handsOut⟩ | ⟨failed, -⟩
    · cases same.trans hands
      exact .inl ⟨i, s', rfl, ordered, handsOut⟩
    · cases same.trans failed

/-- **Which number is handed out.** After any sequence of operations on a fresh store, failed ones included,
    a number that is handed out is neither reserved nor beyond the limit; it is the lowest that has rested,
    or, if none has, the first one never used, so that no record in use is given away; its record is blank
    and no other has changed; and the store has grown only where the mark had reached its end, and not
    beyond the limit. Nothing is handed out exactly when no record has rested and the mark has reached the
    limit, and then the store is as it was. A number that was handed out is not handed out again before a
    header is written. -/
theorem alloc_hands_out (fieldWords : Nat) (config : StoreConfig) (cs : List StoreCommand) (time : Single) :
    let s := cs.foldl EdictStore.after (new fieldWords config)
    (s.ReadsAsTable ∧ s.flat.config = config ∧ s.flat.fieldWords = fieldWords) ∧
    (∀ id s', s.alloc time = .ok (id, s') → s'.ReadsAsTable ∧
      ∃ i, id = i.toUInt32 ∧ (config.max ≤ 0x100000000 → id.toNat = i) ∧ s.flat.HandsOut time i s'.flat ∧
        ∀ ds : List StoreCommand, (∀ d ∈ ds, d.KeepsFlags) → ∀ time' id' s'',
          (ds.foldl EdictStore.after s').alloc time' = .ok (id', s'') →
          ∃ i', id' = i'.toUInt32 ∧ (ds.foldl EdictStore.after s').flat.HandsOut time' i' s''.flat ∧ i' ≠ i ∧
            (config.max ≤ 0x100000000 → id' ≠ id)) ∧
    (∀ e, s.alloc time = .error e → e = Cause.noFreeEdicts config.max ∧ s.after (.alloc time) = s) ∧
    ((∃ e, s.alloc time = .error e) ↔ (∀ j, ¬ s.flat.Rested time j) ∧ config.max ≤ s.inUse) := by
  intro s
  have ordered : s.Ordered fieldWords config := (Ordered.new fieldWords config).foldl cs
  have numbered : ∀ {s₁ s₂ : EdictStore} {time₁ : Single} {k : Nat}, s₁.Ordered fieldWords config →
      s₁.flat.HandsOut time₁ k s₂.flat → config.max ≤ 0x100000000 → k.toUInt32.toNat = k := by
    intro s₁ s₂ time₁ k ordered₁ hands small
    have limit := hands.limit
    rw [ordered₁.marked.sizes] at limit
    exact UInt32.toNat_ofNat_of_lt (show k < 2 ^ 32 by omega)
  refine ⟨⟨ordered.tiled.readsAsTable, ordered.marked.sizes, ordered.marked.width⟩, fun id s' ha => ?_,
    fun e he => ?_, ?_⟩
  · rcases ordered.alloc_cases time with ⟨i, s₁, ha', ordered', hands⟩ | ⟨failed, -⟩
    · cases ha.symm.trans ha'
      refine ⟨ordered'.tiled.readsAsTable, i, rfl, numbered ordered hands, hands, ?_⟩
      intro ds keeps time' id' s'' hb
      have later := ordered'.foldl ds
      have held := ordered'.holds_foldl hands.holds keeps
      rcases later.alloc_cases time' with ⟨i', s₂, hb', -, hands'⟩ | ⟨failed, -⟩
      · cases hb.symm.trans hb'
        have other := hands'.ne_of_holds held
        refine ⟨i', rfl, hands', other, fun small same => other ?_⟩
        rw [← numbered later hands' small, same, numbered ordered hands small]
      · cases hb.symm.trans failed
    · cases ha.symm.trans failed
  · rcases ordered.alloc_cases time with ⟨i, s₁, ha, -⟩ | ⟨failed, -⟩
    · cases ha.symm.trans he
    · cases failed.symm.trans he
      refine ⟨rfl, ?_⟩
      simp only [EdictStore.after, perform, failed, Except.map]
  · rcases ordered.alloc_cases time with ⟨i, s₁, ha, -, hands⟩ | ⟨failed, none, full⟩
    · constructor
      · rintro ⟨e, he⟩
        cases ha.symm.trans he
      · rintro ⟨none, full⟩
        have limit := hands.limit
        rw [ordered.marked.sizes] at limit
        rcases hands.lowest with ⟨rested, -⟩ | ⟨next, -⟩
        · exact absurd rested (none i)
        · have : i = s.inUse := next
          omega
    · exact ⟨fun _ => ⟨none, full⟩, fun _ => ⟨_, failed⟩⟩

/-- The vacant number is handed out, as far as a reference can name it. -/
theorem alloc_of_vacancy {id : EdictId} (h : s.vacancy time = .ok i) (number : i.toUInt32 = id) :
    s.alloc time = .ok (id, s.occupy i) := by
  rw [alloc, h, ← number]
  rfl

/-- Where all records of a fresh store are reserved, the number past them is vacant. -/
theorem vacancy_new (fieldWords : Nat) (config : StoreConfig) (world : 1 ≤ config.reserved)
    (few : config.initial ≤ config.reserved) (room : config.reserved < config.max) (time : Single) :
    (new fieldWords config).vacancy time = .ok config.reserved := by
  have count : startCount config = config.reserved := by
    show min (max (max config.initial config.reserved) 1) (max config.max 1) = config.reserved
    omega
  have inUse : startInUse config config.reserved = config.reserved := by
    show min (max config.reserved 1) config.reserved = config.reserved
    omega
  have first : firstFree config = config.reserved := Nat.max_eq_left world
  rw [new_eq, count, inUse, vacancy, reusable?, first, Nat.sub_self, firstOf]
  exact if_neg (Nat.not_le.mpr room)

/-- **Numbers that no reference can name**: where the 2^32 numbers that one can name are reserved, the next number
    is handed out as that of the world. -/
theorem world_handed_out :
    let config : StoreConfig := { initial := 0, batch := 1, max := 0x100000001, reserved := 0x100000000 }
    ∃ s', (new 1 config).alloc .zero = .ok (0, s') := by
  intro config
  have vacant := vacancy_new 1 config (by decide) (by decide) (by decide) .zero
  exact ⟨_, alloc_of_vacancy vacant (by decide)⟩

end EdictStore

end QuakeProgs
