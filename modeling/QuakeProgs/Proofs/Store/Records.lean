/-
  File:      QuakeProgs/Proofs/Store/Records.lean
  Subject:   THE BATCHES OF A STORE AS ONE LIST of records.

  The batches of a store follow one another without a gap (`Tiles`). Looking a number up by halving
  then finds the record at that place of the list, and the two changes a store is made of are the
  list's own:

  * `EdictStore.Tiled` -- the invariant: the batches tile the numbers and have the words of all their
    records, the world is among these and is in use;
  * `EdictStore.get?_eq_records` -- a number is a place in the list; `Tiled.rangeAt?_eq` -- sizes of 64 bits are
    enough to find it;
  * `EdictStore.records_modify`, `EdictStore.records_grow` -- a change of one record changes one
    place, a new batch is appended;
  * `EdictStore.Tiled.new`, `.occupy`, `.restore` and the rest -- every operation keeps the invariant.
-/
import QuakeProgs.Proofs.Store.Layout

namespace QuakeProgs

namespace EdictStore

/-! ## 1. Batches without a gap. -/

/-- Batches that follow one another from `lo` to `hi`, none of them empty. -/
def Tiles : Nat → Nat → List Batch → Prop
  | lo, hi, [] => lo = hi
  | lo, hi, b :: bs => b.start = lo ∧ 0 < b.headers.size ∧ Tiles (lo + b.headers.size) hi bs

/-- The records of batches, one after the other. -/
def recordsOf (width : Nat) (bs : List Batch) : List Edict := bs.flatMap (·.edicts width)

theorem tiles_append {lo hi : Nat} {xs ys : List Batch} :
    Tiles lo hi (xs ++ ys) ↔ ∃ mid, Tiles lo mid xs ∧ Tiles mid hi ys := by
  induction xs generalizing lo with
  | nil => simp [Tiles]
  | cons x xs ih =>
    simp only [List.cons_append, Tiles, ih]
    constructor
    · intro hall
      obtain ⟨h₁, h₂, mid, h₃, h₄⟩ := hall
      exact ⟨mid, ⟨h₁, h₂, h₃⟩, h₄⟩
    · intro hall
      obtain ⟨mid, ⟨h₁, h₂, h₃⟩, h₄⟩ := hall
      exact ⟨h₁, h₂, mid, h₃, h₄⟩

/-- The records of a tiling are as many as the numbers it covers. -/
theorem tiles_length {lo hi : Nat} {bs : List Batch} (h : Tiles lo hi bs) (width : Nat) :
    hi = lo + (recordsOf width bs).length := by
  induction bs generalizing lo with
  | nil => exact h.symm
  | cons b bs ih =>
    obtain ⟨_, _, h⟩ := h
    have := ih h
    simp only [recordsOf, List.flatMap_cons, List.length_append, Batch.length_edicts] at this ⊢
    omega

/-- In a tiling no batch starts before the first number. -/
theorem tiles_start_le {lo hi : Nat} {bs : List Batch} (h : Tiles lo hi bs) :
    ∀ b ∈ bs, lo ≤ b.start := by
  induction bs generalizing lo with
  | nil => intro b hb; cases hb
  | cons c bs ih =>
    obtain ⟨hc, _, h⟩ := h
    intro b hb
    rcases List.mem_cons.mp hb with rfl | hb
    · omega
    · have := ih h b hb
      omega

/-- **Every number has one place**: the batch it belongs to divides the others into those that start
    at or before the number and those that start after it. -/
theorem tiles_divide {lo hi i : Nat} {bs : List Batch} (h : Tiles lo hi bs) (hne : bs ≠ [])
    (hi : lo ≤ i) :
    ∃ pre b post, bs = pre ++ b :: post ∧ b.start ≤ i ∧ (∀ c ∈ pre, c.start ≤ i) ∧
      (∀ c ∈ post, i < c.start) ∧ (i < b.start + b.headers.size ∨ post = []) := by
  induction bs generalizing lo with
  | nil => exact absurd rfl hne
  | cons b bs ih =>
    obtain ⟨hb, _, h⟩ := h
    by_cases hin : i < lo + b.headers.size
    · refine ⟨[], b, bs, rfl, by omega, nofun, fun c hc => ?_, .inl (by omega)⟩
      have := tiles_start_le h c hc
      omega
    · rcases List.eq_nil_or_concat bs with rfl | ⟨_, _, hcons⟩
      · exact ⟨[], b, [], rfl, by omega, nofun, nofun, .inr rfl⟩
      · have hne' : bs ≠ [] := by rw [hcons]; simp
        obtain ⟨pre, c, post, rfl, h₁, h₂, h₃, h₄⟩ := ih h hne' (by omega)
        refine ⟨b :: pre, c, post, rfl, h₁, fun d hd => ?_, h₃, h₄⟩
        rcases List.mem_cons.mp hd with rfl | hd
        · omega
        · exact h₂ d hd

/-! ## 2. The store as one list. -/

/-- The records of a store by number. -/
def records (s : EdictStore) : List Edict := recordsOf s.fieldWords s.batches.toList

/-- **The invariant of a store**: the batches tile the numbers, each has the words of all its records, and the
    world is there and in use. -/
structure Tiled (s : EdictStore) : Prop where
  tiles : Tiles 0 s.count s.batches.toList
  whole : ∀ b ∈ s.batches.toList, b.Whole s.fieldWords
  inhabited : 0 < s.count
  started : 0 < s.inUse

theorem Tiled.length_records {s : EdictStore} (h : s.Tiled) : s.records.length = s.count := by
  have := tiles_length h.tiles s.fieldWords
  rw [records]
  omega

/-- Where a number lies: its batch, with the batches before and after it. -/
theorem Tiled.locate {s : EdictStore} (h : s.Tiled) (i : Nat) :
    ∃ pre b post, s.batches.toList = pre ++ b :: post ∧ b.start ≤ i ∧
      (recordsOf s.fieldWords pre).length = b.start ∧ (i < b.start + b.headers.size ∨ post = []) ∧
      s.locate? i = some (pre.length, i - b.start) := by
  have hne : s.batches.toList ≠ [] := by
    intro he
    have ht := h.tiles
    rw [he] at ht
    have hc : 0 = s.count := ht
    have := h.inhabited
    omega
  obtain ⟨pre, b, post, hsplit, hb, hpre, hpost, hin⟩ := tiles_divide h.tiles hne (Nat.zero_le i)
  have hstart : (recordsOf s.fieldWords pre).length = b.start := by
    have ht := h.tiles
    rw [hsplit, tiles_append] at ht
    obtain ⟨mid, h₁, h₂, _⟩ := ht
    have := tiles_length h₁ s.fieldWords
    omega
  have hget : ∀ k : Nat, s.batches[k]? = (pre ++ b :: post)[k]? := by
    intro k
    rw [← hsplit, Array.getElem?_toList]
  have hsize : s.batches.size = (pre ++ b :: post).length := by rw [← hsplit, Array.length_toList]
  have hfirst : firstAfter s.batches i s.batches.size 0 s.batches.size = pre.length + 1 := by
    refine firstAfter_eq _ _ (pre.length + 1) _ _ _ (by omega) (by omega) ?_ ?_ ?_
    · rw [hsize, List.length_append, List.length_cons]
      omega
    · -- the batches up to `b` start at or before `i`
      intro k hk
      rw [hget]
      by_cases hkp : k < pre.length
      · rw [List.getElem?_append_left hkp, List.getElem?_eq_getElem hkp]
        simp [hpre _ (List.getElem_mem hkp)]
      · have hkp : k = pre.length := by omega
        subst hkp
        simp [hb]
    · -- the batches after `b` do not
      intro k hk hk'
      rw [hget, List.getElem?_append_right (by omega)]
      obtain ⟨j, hj⟩ : ∃ j, k - pre.length = j + 1 := ⟨k - pre.length - 1, by omega⟩
      rw [hj, List.getElem?_cons_succ]
      cases hpj : post[j]? with
      | none => rfl
      | some c =>
        have := hpost c (List.mem_of_getElem? hpj)
        simp only [Option.any_some, decide_eq_false_iff_not]
        omega
  refine ⟨pre, b, post, hsplit, hb, hstart, hin, ?_⟩
  simp only [locate?, hfirst, Nat.add_sub_cancel, hget, List.getElem?_append_right (Nat.le_refl _),
    Nat.sub_self, List.getElem?_cons_zero, hb, if_true]

/-- **A number is a place in the list.** -/
theorem Tiled.get?_eq_records {s : EdictStore} (h : s.Tiled) (i : Nat) :
    s.get? i = s.records[i]? := by
  obtain ⟨pre, b, post, hsplit, hb, hlen, hin, hloc⟩ := h.locate i
  have hbatch : s.batches[pre.length]? = some b := by
    rw [← Array.getElem?_toList, hsplit]
    simp
  have whole : b.Whole s.fieldWords := h.whole b (by rw [hsplit]; simp)
  rw [get?, hloc]
  simp only [hbatch, Option.bind_some, whole.edict?_eq, records, hsplit, recordsOf, List.flatMap_append,
    List.flatMap_cons]
  rw [recordsOf] at hlen
  rw [List.getElem?_append_right (by omega), hlen]
  rcases hin with hin | rfl
  · rw [List.getElem?_append_left (by rw [Batch.length_edicts]; omega)]
  · rw [List.flatMap_nil, List.append_nil]

/-- The batch a number is looked up in, and the place there. -/
theorem Tiled.batch {s : EdictStore} (h : s.Tiled) (i : Nat) :
    ∃ k b, s.locate? i = some (k, i - b.start) ∧ s.batches[k]? = some b ∧ b ∈ s.batches.toList ∧
      (i < s.count → i - b.start < b.headers.size) := by
  obtain ⟨pre, b, post, hsplit, hb, hlen, hin, hloc⟩ := h.locate i
  refine ⟨pre.length, b, hloc, ?_, by rw [hsplit]; simp, fun below => ?_⟩
  · rw [← Array.getElem?_toList, hsplit]
    simp
  · rcases hin with hin | rfl
    · omega
    · have length := h.length_records
      simp only [records, hsplit, recordsOf, List.flatMap_append, List.flatMap_cons, List.flatMap_nil,
        List.length_append, Batch.length_edicts, List.length_nil] at hlen length
      omega

/-- What is noted about a record is looked up without its words. -/
theorem Tiled.headerAt?_eq {s : EdictStore} (h : s.Tiled) (i : Nat) :
    s.headerAt? i = (s.get? i).map Edict.header := by
  obtain ⟨k, b, hloc, hbatch, hmem, -⟩ := h.batch i
  rw [headerAt?, get?, hloc]
  simp only [hbatch, Option.bind_some, (h.whole b hmem).edict?_eq]
  exact b.getElem?_headers s.fieldWords _

/-- **Sizes of 64 bits are enough** for a store whose batches fit into memory: no product wraps around. -/
theorem Tiled.rangeAt?_eq {s : EdictStore} (h : s.Tiled)
    (fits : ∀ b ∈ s.batches.toList, Batch.fits s.fieldWords b.headers.size) {i : Nat} (below : i < s.count) :
    s.rangeAt? i = (s.locate? i).map fun (b, k) => (b, k * s.fieldWords, k * s.fieldWords + s.fieldWords) := by
  obtain ⟨k, b, hloc, hbatch, hmem, within⟩ := h.batch i
  rw [rangeAt?, if_pos below, hloc]
  simp only [hbatch, Option.bind_some, Batch.range?_eq (fits b hmem) (within below), Option.map_some]

/-- They find the words of every record. -/
theorem Tiled.wordsAt?_eq {s : EdictStore} (h : s.Tiled)
    (fits : ∀ b ∈ s.batches.toList, Batch.fits s.fieldWords b.headers.size) (i : Nat) :
    s.wordsAt? i = (s.get? i).map (·.fields) := by
  by_cases below : i < s.count
  · obtain ⟨k, b, hloc, hbatch, hmem, within⟩ := h.batch i
    rw [wordsAt?, h.rangeAt?_eq fits below, get?, hloc]
    simp only [Option.map_some, Option.bind_some, hbatch, (h.whole b hmem).edict?_eq, Batch.getElem?_edicts,
      Array.getElem?_eq_getElem (within below)]
  · rw [wordsAt?, rangeAt?, if_neg below, h.get?_eq_records,
      List.getElem?_eq_none (by rw [h.length_records]; omega)]
    rfl

/-- All records of a store have its width. -/
theorem Tiled.width {s : EdictStore} (h : s.Tiled) {e : Edict} (he : e ∈ s.records) :
    e.fields.size = s.fieldWords := by
  obtain ⟨b, hb, heb⟩ := List.mem_flatMap.mp he
  exact Batch.mem_edicts_width (h.whole b hb) heb

theorem modify_append_left {α : Type} {xs ys : List α} {i : Nat} (f : α → α) (h : i < xs.length) :
    (xs ++ ys).modify i f = xs.modify i f ++ ys := by
  induction xs generalizing i with
  | nil => cases h
  | cons x xs ih =>
    cases i with
    | zero => rfl
    | succ i =>
      simp only [List.cons_append, List.modify_succ_cons]
      rw [ih (Nat.lt_of_succ_lt_succ h)]

theorem modify_append_right {α : Type} {xs ys : List α} {i : Nat} (f : α → α) (h : xs.length ≤ i) :
    (xs ++ ys).modify i f = xs ++ ys.modify (i - xs.length) f := by
  induction xs generalizing i with
  | nil => rfl
  | cons x xs ih =>
    cases i with
    | zero => cases h
    | succ i =>
      simp only [List.cons_append, List.modify_succ_cons, List.length_cons, Nat.add_sub_add_right]
      rw [ih (Nat.le_of_succ_le_succ h)]

/-- Which batch a change of a record changes. -/
theorem Tiled.batches_modify {s : EdictStore} (h : s.Tiled) (i : Nat) (f : Edict → Edict) :
    ∃ pre b post, s.batches.toList = pre ++ b :: post ∧
      (s.modify i f).batches.toList = pre ++ b.modify s.fieldWords (i - b.start) f :: post ∧
      (recordsOf s.fieldWords pre).length = b.start ∧ b.start ≤ i ∧
      (i < b.start + b.headers.size ∨ post = []) := by
  obtain ⟨pre, b, post, hsplit, hb, hlen, hin, hloc⟩ := h.locate i
  refine ⟨pre, b, post, hsplit, ?_, hlen, hb, hin⟩
  rw [modify, hloc]
  simp only [Array.toList_modify, hsplit]
  rw [modify_append_right _ (Nat.le_refl _), Nat.sub_self, List.modify_zero_cons]

theorem fieldWords_modify (s : EdictStore) (i : Nat) (f : Edict → Edict) :
    (s.modify i f).fieldWords = s.fieldWords := by
  unfold modify
  split <;> rfl

/-- **Changing a record changes its place in the list** and nothing else, if the record keeps its width. -/
theorem Tiled.records_modify {s : EdictStore} (h : s.Tiled) (i : Nat) {f : Edict → Edict}
    (keeps : KeepsWidth s.fieldWords f) :
    (s.modify i f).records = s.records.modify i f := by
  obtain ⟨pre, b, post, hsplit, hmod, hlen, hb, hin⟩ := h.batches_modify i f
  have whole : b.Whole s.fieldWords := h.whole b (by rw [hsplit]; simp)
  rw [records, fieldWords_modify, hmod, records, hsplit]
  simp only [recordsOf, List.flatMap_append, List.flatMap_cons, whole.edicts_modify _ keeps] at hlen ⊢
  rw [modify_append_right f (by omega), hlen]
  rcases hin with hin | rfl
  · rw [modify_append_left f (by rw [Batch.length_edicts]; omega)]
  · rw [List.flatMap_nil, List.append_nil, List.append_nil]

/-- A tiling is a matter of where the batches start and how large they are. -/
theorem tiles_congr {lo hi : Nat} {xs ys : List Batch}
    (e : xs.map (fun b => (b.start, b.headers.size)) = ys.map fun b => (b.start, b.headers.size))
    (h : Tiles lo hi xs) : Tiles lo hi ys := by
  induction xs generalizing lo ys with
  | nil =>
    rw [List.map_nil, eq_comm, List.map_eq_nil_iff] at e
    rw [e]
    exact h
  | cons x xs ih =>
    cases ys with
    | nil => cases e
    | cons y ys =>
      obtain ⟨h₁, h₂, h₃⟩ := h
      simp only [List.map_cons, List.cons.injEq, Prod.mk.injEq] at e
      obtain ⟨⟨e₁, e₂⟩, e₃⟩ := e
      refine ⟨e₁.symm.trans h₁, e₂ ▸ h₂, ?_⟩
      rw [← e₂]
      exact ih e₃ h₃

theorem Tiled.modify {s : EdictStore} (h : s.Tiled) (i : Nat) (f : Edict → Edict) :
    (s.modify i f).Tiled := by
  obtain ⟨pre, b, post, hsplit, hmod, -, -, -⟩ := h.batches_modify i f
  have whole : ∀ c ∈ pre ++ b :: post, c.Whole s.fieldWords := hsplit ▸ h.whole
  have same : (s.modify i f).count = s.count ∧ (s.modify i f).inUse = s.inUse := by
    unfold EdictStore.modify
    split <;> exact ⟨rfl, rfl⟩
  refine ⟨?_, fun c hc => ?_, same.1 ▸ h.inhabited, same.2 ▸ h.started⟩
  · rw [same.1]
    refine tiles_congr ?_ h.tiles
    rw [hmod, hsplit]
    simp [Batch.start_modify, Batch.size_headers_modify]
  · rw [hmod, List.mem_append, List.mem_cons] at hc
    rw [fieldWords_modify]
    rcases hc with hc | rfl | hc
    · exact whole c (List.mem_append_left _ hc)
    · exact (whole b (by simp)).modify _ _
    · exact whole c (List.mem_append_right _ (List.mem_cons_of_mem _ hc))

/-- **Growing appends blank records.** -/
theorem records_grow (s : EdictStore) (n : Nat) :
    (s.grow n).records = s.records ++ List.replicate n (.blank s.fieldWords) := by
  unfold grow
  split
  · next h => rw [h, List.replicate_zero, List.append_nil]
  · simp [records, recordsOf, Batch.edicts_blank]

theorem Tiled.grow {s : EdictStore} (h : s.Tiled) (n : Nat) : (s.grow n).Tiled := by
  unfold EdictStore.grow
  split
  · exact h
  · next hn =>
    have size : (Batch.blank s.count s.fieldWords n).headers.size = n := Array.size_replicate
    refine ⟨?_, fun b hb => ?_, Nat.lt_of_lt_of_le h.inhabited (Nat.le_add_right _ _), h.started⟩
    · simp only [Array.toList_push, tiles_append]
      refine ⟨s.count, h.tiles, rfl, ?_, ?_⟩
      · rw [size]
        exact Nat.pos_of_ne_zero hn
      · rw [size]
        rfl
    · rw [Array.toList_push, List.mem_append, List.mem_singleton] at hb
      rcases hb with hb | rfl
      · exact h.whole b hb
      · exact Batch.whole_blank _ _ _

/-! ## 3. What every operation keeps. -/

/-- Where there is a record, the world is in use at the start. -/
theorem startInUse_pos (config : StoreConfig) {count : Nat} (h : 0 < count) :
    0 < startInUse config count :=
  Nat.lt_min.mpr ⟨Nat.le_max_right _ 1, h⟩

theorem startCount_pos (config : StoreConfig) : 0 < startCount config :=
  Nat.lt_min.mpr ⟨Nat.le_max_right _ 1, Nat.le_max_right _ 1⟩

/-- A fresh store has one batch. -/
theorem new_eq (fieldWords : Nat) (config : StoreConfig) :
    new fieldWords config =
      { fieldWords, batches := #[.blank 0 fieldWords (startCount config)], count := startCount config
        inUse := startInUse config (startCount config), config } := by
  have some : startCount config ≠ 0 := Nat.ne_of_gt (startCount_pos config)
  simp only [new, grow, if_neg some, Nat.zero_add, List.push_toArray, List.nil_append]

/-- The world is in the batch of a fresh store. -/
theorem Tiled.new (fieldWords : Nat) (config : StoreConfig) : (EdictStore.new fieldWords config).Tiled := by
  have hpos := startCount_pos config
  have size : (Batch.blank 0 fieldWords (startCount config)).headers.size = startCount config :=
    Array.size_replicate
  rw [new_eq]
  refine ⟨⟨rfl, size.symm ▸ hpos, ?_⟩, fun b hb => ?_, hpos, startInUse_pos _ hpos⟩
  · rw [size]
    exact Nat.zero_add _
  · rw [List.mem_singleton.mp hb]
    exact Batch.whole_blank _ _ _

theorem Tiled.withInUse {s : EdictStore} (h : s.Tiled) {n : Nat} (hn : 0 < n) :
    { s with inUse := n }.Tiled :=
  ⟨h.tiles, h.whole, h.inhabited, hn⟩

theorem Tiled.extend {s : EdictStore} (h : s.Tiled) : s.extend.Tiled := by
  unfold EdictStore.extend
  split
  · exact (h.grow _).withInUse (Nat.succ_pos _)
  · exact h.withInUse (Nat.succ_pos _)

theorem Tiled.occupy {s : EdictStore} (h : s.Tiled) (i : Nat) : (s.occupy i).Tiled := by
  unfold EdictStore.occupy
  split
  · exact h.modify _ _
  · exact h.extend.modify _ _

theorem Tiled.reset {s : EdictStore} (h : s.Tiled) : s.reset.Tiled := by
  refine ⟨tiles_congr ?_ h.tiles, fun b hb => ?_, h.inhabited, startInUse_pos _ h.inhabited⟩
  · simp [EdictStore.reset, Function.comp_def, Batch.reset]
  · rw [EdictStore.reset, Array.toList_map, List.mem_map] at hb
    obtain ⟨c, hc, rfl⟩ := hb
    exact (h.whole c hc).reset

theorem Tiled.place {s : EdictStore} (h : s.Tiled) (i : Nat) (rs : List EdictRecord) :
    (s.place i rs).Tiled := by
  induction rs generalizing s i with
  | nil => exact h
  | cons r rs ih => exact ih (h.modify _ _) _

theorem Tiled.restore {s s' : EdictStore} (h : s.Tiled) {saved : StoreSnapshot}
    (e : s.restore saved = .ok s') : s'.Tiled := by
  unfold EdictStore.restore at e
  dsimp only at e
  split at e
  · cases e
  · split at e
    · cases e
    · split at e
      · cases e
      · cases e
        have ht := (h.reset.grow (saved.edicts.length - s.count)).place 0 saved.edicts
        exact ht.withInUse (Nat.lt_of_lt_of_le ht.started (Nat.le_max_right _ _))

/-! ## 4. The world. -/

/-- The world is always there. -/
theorem Tiled.world_exists {s : EdictStore} (h : s.Tiled) : ∃ e, s.get? 0 = some e := by
  have hlen := h.length_records
  have hpos := h.inhabited
  exact ⟨s.records[0], by rw [h.get?_eq_records, List.getElem?_eq_getElem]⟩

/-- A change of another record leaves the world alone. -/
theorem Tiled.world_modify {s : EdictStore} (h : s.Tiled) {i : Nat} (hi : i ≠ 0) {f : Edict → Edict}
    (keeps : KeepsWidth s.fieldWords f) :
    (s.modify i f).get? 0 = s.get? 0 := by
  rw [(h.modify i f).get?_eq_records, h.get?_eq_records, h.records_modify i keeps,
    List.getElem?_modify_ne _ _ hi]

theorem Tiled.world_wipe {s : EdictStore} (h : s.Tiled) {i : Nat} (hi : i ≠ 0) :
    (s.wipe i).get? 0 = s.get? 0 :=
  h.world_modify hi (keepsWidth_clear _ _ _)

theorem Tiled.world_grow {s : EdictStore} (h : s.Tiled) (n : Nat) : (s.grow n).get? 0 = s.get? 0 := by
  have hlen := h.length_records
  have hpos := h.inhabited
  rw [(h.grow n).get?_eq_records, h.get?_eq_records, records_grow,
    List.getElem?_append_left (by omega)]

theorem Tiled.world_extend {s : EdictStore} (h : s.Tiled) : s.extend.get? 0 = s.get? 0 := by
  unfold EdictStore.extend
  split
  · exact h.world_grow _
  · rfl

/-- Handing out any number but zero leaves the world alone. -/
theorem Tiled.world_occupy {s : EdictStore} (h : s.Tiled) {i : Nat} (hi : i ≠ 0) :
    (s.occupy i).get? 0 = s.get? 0 := by
  unfold EdictStore.occupy
  split
  · exact h.world_wipe hi
  · exact (h.extend.world_wipe hi).trans h.world_extend

/-- **The world is never handed out.** -/
theorem Tiled.vacancy_ne_zero {s : EdictStore} (h : s.Tiled) {time : Single} {i : Nat}
    (e : s.vacancy time = .ok i) : i ≠ 0 := by
  unfold vacancy at e
  split at e
  · next j hj =>
    cases e
    rw [reusable?, firstOf_eq] at hj
    have hmem := List.mem_of_find?_eq_some hj
    rw [List.mem_range'_1] at hmem
    simp only [firstFree, Nat.max_def] at hmem
    split at hmem <;> omega
  · split at e
    · cases e
    · cases e
      have := h.started
      omega

end EdictStore

end QuakeProgs
