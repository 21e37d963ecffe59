/-
  File:      QuakeProgs/Proofs/Store/Reuse.lean
  Subject:   HOW LONG A FREED RECORD RESTS before its number is handed out again.

  A record below the mark is looked at before it is handed out. The one at the mark is not: it is taken as never
  used. Yet any number of a record can be freed, also one that was never handed out, and a record past the mark
  then carries a time that nobody asks for.

  * `Edict.HasRested` -- freed in the first two seconds of a level, or more than half a second ago;
  * `StoreCommand.SparesHeaders` -- what writes no header but by handing out and freeing;
  * `EdictStore.FreedAhead` -- a number was freed while it was not in use;
  * `EdictTable.Marked.freed_before` -- one operation: a record past the mark that is free was free before, or
    is freed now;
  * `Ordered.freedAhead_of_beyond` -- any history: a record past the mark that is free was freed ahead of it;
  * `EdictStore.handed_out_rested` -- what is handed out has rested, unless it was freed ahead of the mark;
  * `EdictStore.handed_out_unrested` -- and then it need not have.
-/
import Mathlib.Data.List.Induction
import QuakeProgs.Proofs.Store.Allocation

namespace QuakeProgs

/-! ## 1. Rest. -/

/-- **The record has rested**: it was freed in the first two seconds of a level, or more than half a second
    before `time`. -/
def Edict.HasRested (e : Edict) (time : Single) : Prop :=
  e.freeTime.lt EdictStore.levelStart = true ∨ EdictStore.restTime.lt (time - e.freeTime) = true

instance (e : Edict) (time : Single) : Decidable (e.HasRested time) := inferInstanceAs (Decidable (_ ∨ _))

theorem Edict.hasRested_of_reusable {e : Edict} {time : Single} (h : EdictStore.reusable time e = true) :
    e.HasRested time := by
  rw [EdictStore.reusable_eq, Bool.and_eq_true, Bool.or_eq_true] at h
  exact h.2

/-- **An operation that writes no header** but by handing out, freeing and resetting. -/
def StoreCommand.SparesHeaders : StoreCommand → Prop
  | .grow _ | .alloc _ | .release .. | .reset | .write .. => True
  | .edit _ revision => ∀ e, (revision.change e).free = e.free ∧ (revision.change e).freeTime = e.freeTime
  | .restore _ => False

/-! ## 2. Records past the mark. -/

namespace EdictTable

variable {t t' : EdictTable} {i k : Nat} {e : Edict}

/-- The record at `i` is free since `time`, and its number is not in use. -/
def FreeBeyond (t : EdictTable) (i : Nat) (time : Single) : Prop :=
  t.inUse ≤ i ∧ ∃ e, t.records[i]? = some e ∧ e.free = true ∧ e.freeTime = time

/-- No blank record is free. -/
theorem not_free_of_blank {n : Nat} (h : e = .blank n) : ¬ e.free = true := by
  rw [h]
  exact Bool.false_ne_true

theorem not_free_of_replicate {m n : Nat} (h : (List.replicate m (Edict.blank n))[i]? = some e) :
    ¬ e.free = true :=
  not_free_of_blank (List.eq_of_mem_replicate (List.mem_of_getElem? h))

/-- A change of one record that leaves its header alone leaves all headers alone. -/
theorem header_of_modify {change : Edict → Edict}
    (spares : ∀ e, (change e).free = e.free ∧ (change e).freeTime = e.freeTime)
    (he : (t.modify k change).records[i]? = some e) :
    ∃ old, t.records[i]? = some old ∧ old.free = e.free ∧ old.freeTime = e.freeTime := by
  rw [EdictTable.modify, List.getElem?_modify, Option.map_eq_map, Option.map_eq_some_iff] at he
  obtain ⟨old, hold, rfl⟩ := he
  refine ⟨old, hold, ?_⟩
  split
  · exact ⟨(spares old).1.symm, (spares old).2.symm⟩
  · exact ⟨rfl, rfl⟩

/-- **One operation**: a record past the mark that is free was free and past the mark before, or is freed
    now; and the operation is no reset. -/
theorem Marked.freed_before (marked : t.Marked t.fieldWords t.config) (regular : t.Regular) {c : StoreCommand}
    (spares : c.SparesHeaders) {time : Single} (h : (t.after c).FreeBeyond i time) :
    (t.FreeBeyond i time ∧ c ≠ .reset) ∨ ∃ id, c = .release id time ∧ id.toNat = i ∧ t.inUse ≤ i := by
  obtain ⟨beyond, e, he, free, rfl⟩ := h
  have goesOn : c ≠ .reset := by
    rintro rfl
    exact not_free_of_replicate he free
  unfold EdictTable.after at beyond he
  cases hp : t.perform c with
  | error err =>
    rw [hp] at beyond he
    exact .inl ⟨⟨beyond, e, he, free, rfl⟩, goesOn⟩
  | ok result =>
    obtain ⟨answer, t'⟩ := result
    simp only [hp] at beyond he
    cases c with
    | grow n =>
      cases hp
      refine .inl ⟨⟨beyond, e, ?_, free, rfl⟩, goesOn⟩
      -- what was appended is blank
      rw [EdictTable.grow, List.getElem?_append] at he
      split at he
      · exact he
      · exact absurd free (not_free_of_replicate he)
    | alloc now =>
      obtain ⟨⟨id, t₁⟩, ha, heq⟩ := map_eq_ok hp
      cases heq
      rcases alloc_cases marked regular now with ⟨k, t₂, ha', hands⟩ | ⟨failed, -⟩
      · cases ha.symm.trans ha'
        have mark := hands.mark
        refine .inl ⟨⟨by omega, e, ?_, free, rfl⟩, goesOn⟩
        by_cases old : i < t.records.length
        · rw [← hands.others i (by omega) old, he]
        · have added := hands.added i (by omega) (by omega) (List.getElem?_eq_some_iff.mp he).1
          exact absurd free (not_free_of_blank (Option.some.inj (he.symm.trans added)))
      · cases ha.symm.trans failed
    | release id now =>
      obtain ⟨t₁, hr, heq⟩ := map_eq_ok hp
      cases heq
      rw [release_eq_ok hr] at beyond he
      by_cases here : id.toNat = i
      · rw [EdictTable.modify, List.getElem?_modify, Option.map_eq_map, Option.map_eq_some_iff] at he
        obtain ⟨old, -, rfl⟩ := he
        rw [if_pos here]
        exact .inr ⟨id, rfl, here, beyond⟩
      · rw [EdictTable.modify, List.getElem?_modify_ne _ _ here] at he
        exact .inl ⟨⟨beyond, e, he, free, rfl⟩, goesOn⟩
    | reset => exact absurd rfl goesOn
    | write id ofs ws =>
      obtain ⟨t₁, hw, heq⟩ := map_eq_ok hp
      cases heq
      rw [write_eq_ok hw] at beyond he
      have same : ∀ e : Edict, (e.overwrite ofs ws).free = e.free ∧ (e.overwrite ofs ws).freeTime = e.freeTime :=
        fun _ => ⟨rfl, rfl⟩
      obtain ⟨old, hold, flag, since⟩ := header_of_modify same he
      exact .inl ⟨⟨beyond, old, hold, flag.trans free, since⟩, goesOn⟩
    | edit id revision =>
      obtain ⟨was, -, heq⟩ := map_eq_ok hp
      cases heq
      obtain ⟨old, hold, flag, since⟩ := header_of_modify spares he
      exact .inl ⟨⟨beyond, old, hold, flag.trans free, since⟩, goesOn⟩
    | restore saved => exact spares.elim

end EdictTable

/-! ## 3. Stores with any history. -/

namespace EdictStore

variable {s s' s₀ : EdictStore} {fieldWords : Nat} {config : StoreConfig} {time : Single} {i : Nat}

/-- **Freed ahead of the mark**: in the history `cs`, and since its last reset, number `i` was freed at `time`
    while it was not in use. -/
def FreedAhead (s₀ : EdictStore) (cs : List StoreCommand) (i : Nat) (time : Single) : Prop :=
  ∃ past id later, cs = past ++ .release id time :: later ∧ id.toNat = i ∧ (past.foldl after s₀).inUse ≤ i ∧
    .reset ∉ later

theorem FreedAhead.concat {cs : List StoreCommand} (h : s₀.FreedAhead cs i time) {c : StoreCommand}
    (goesOn : c ≠ .reset) : s₀.FreedAhead (cs ++ [c]) i time := by
  obtain ⟨past, id, later, rfl, here, ahead, none⟩ := h
  refine ⟨past, id, later ++ [c], by simp, here, ahead, fun mem => ?_⟩
  rcases List.mem_append.mp mem with mem | mem
  · exact none mem
  · exact goesOn (List.mem_singleton.mp mem).symm

/-- **Any history**: a record past the mark that is free was freed ahead of it. -/
theorem Ordered.freedAhead_of_beyond (h : s₀.Ordered fieldWords config)
    (clean : ∀ i time, ¬ s₀.flat.FreeBeyond i time) {cs : List StoreCommand}
    (spares : ∀ c ∈ cs, c.SparesHeaders) (beyond : (cs.foldl EdictStore.after s₀).flat.FreeBeyond i time) :
    s₀.FreedAhead cs i time := by
  induction cs using List.reverseRecOn with
  | nil => exact absurd beyond (clean i time)
  | append_singleton cs c ih =>
    have ordered := h.foldl cs
    have marked : (cs.foldl EdictStore.after s₀).flat.Marked (cs.foldl EdictStore.after s₀).flat.fieldWords
        (cs.foldl EdictStore.after s₀).flat.config := by
      rw [ordered.marked.width, ordered.marked.sizes]
      exact ordered.marked
    rw [List.foldl_append, List.foldl_cons, List.foldl_nil, (ordered.after c).2] at beyond
    rcases marked.freed_before ordered.regular (spares c (by simp)) beyond with
      ⟨before, goesOn⟩ | ⟨id, rfl, here, ahead⟩
    · exact (ih (fun c hc => spares c (by simp [hc])) before).concat goesOn
    · exact ⟨cs, id, [], rfl, here, ahead, List.not_mem_nil⟩

/-- No record of a fresh store is free. -/
theorem not_freeBeyond_new (fieldWords : Nat) (config : StoreConfig) (i : Nat) (time : Single) :
    ¬ (new fieldWords config).flat.FreeBeyond i time := by
  rintro ⟨-, e, he, free, -⟩
  rw [flat_new] at he
  exact EdictTable.not_free_of_replicate he free

/-- Handing out is finding a vacant number, which has rested or is the one at the mark. -/
theorem Ordered.alloc_eq_ok (h : s.Ordered fieldWords config) {id : EdictId} (e : s.alloc time = .ok (id, s')) :
    ∃ i, s.vacancy time = .ok i ∧ id = i.toUInt32 ∧ i < config.max ∧ (s.flat.Rested time i ∨ i = s.inUse) := by
  have sizes : s.config = config := h.marked.sizes
  have limit : s.inUse ≤ max config.max (max config.reserved 1) := h.marked.limit
  cases hv : s.vacancy time with
  | error err =>
    rw [alloc, hv] at e
    cases e
  | ok i =>
    rw [alloc, hv] at e
    cases e
    refine ⟨i, rfl, rfl, ?_⟩
    unfold vacancy at hv
    split at hv
    · next found =>
      cases hv
      rw [h.tiled.rested_flat] at found
      have rested := (EdictTable.rested?_eq_some_iff.mp found).1
      have first : max s.config.reserved 1 ≤ i := rested.1
      have last : i < s.inUse := rested.2.1
      exact ⟨by rw [sizes] at first; omega, .inl rested⟩
    · split at hv
      · cases hv
      · next room =>
        cases hv
        exact ⟨by rw [sizes] at room; omega, .inr rfl⟩

/-- **What is handed out has rested**, unless it was freed ahead of the mark. In any history of a fresh store
    that writes no header but by handing out, freeing and resetting: if the record whose number is handed out is
    free, it was freed in the first two seconds of a level or more than half a second ago, or it is the record at
    the mark and was freed while it was not in use. -/
theorem handed_out_rested (fieldWords : Nat) (config : StoreConfig) (cs : List StoreCommand)
    (spares : ∀ c ∈ cs, c.SparesHeaders) (time : Single) (id : EdictId) (s' : EdictStore)
    (handed : (cs.foldl after (new fieldWords config)).alloc time = .ok (id, s')) :
    let s := cs.foldl after (new fieldWords config)
    ∃ i, s.vacancy time = .ok i ∧ id = i.toUInt32 ∧ (config.max ≤ 0x100000000 → id.toNat = i) ∧
      ∀ e, s.get? i = some e → e.free = true →
        e.HasRested time ∨ i = s.inUse ∧ (new fieldWords config).FreedAhead cs i e.freeTime := by
  intro s
  have fresh := Ordered.new fieldWords config
  have ordered : s.Ordered fieldWords config := fresh.foldl cs
  obtain ⟨i, vacant, rfl, limit, place⟩ := ordered.alloc_eq_ok handed
  refine ⟨i, vacant, rfl, fun small => UInt32.toNat_ofNat_of_lt (show i < 2 ^ 32 by omega), fun e he free => ?_⟩
  rw [ordered.tiled.get?_eq_records] at he
  rcases place with ⟨-, -, e', he', reusable⟩ | atMark
  · cases he.symm.trans he'
    exact .inl (Edict.hasRested_of_reusable reusable)
  · have beyond : s.flat.FreeBeyond i e.freeTime := ⟨Nat.le_of_eq atMark.symm, e, he, free, rfl⟩
    exact .inr ⟨atMark, fresh.freedAhead_of_beyond (not_freeBeyond_new fieldWords config) spares beyond⟩

/-- Two records, of which one is handed out and freed ten seconds into a level: three quarters of a second later
    it has rested and is handed out again. -/
theorem handed_out_rested_later :
    let cs : List StoreCommand := [.alloc ⟨0x41200000⟩, .release 1 ⟨0x41200000⟩]
    let s := cs.foldl after (new 1 { initial := 2, batch := 1, max := 2, reserved := 1 })
    (∀ c ∈ cs, c.SparesHeaders) ∧ (∃ s', s.alloc ⟨0x412c0000⟩ = .ok (1, s')) ∧
      ∃ e, s.get? 1 = some e ∧ e.free = true ∧ e.HasRested ⟨0x412c0000⟩ := by
  intro cs s
  have spares : ∀ c ∈ cs, c.SparesHeaders := by simp [cs, StoreCommand.SparesHeaders]
  have found : s.get? 1 = some { free := true, freeTime := ⟨0x41200000⟩, fields := #[0] } := by decide
  have lowest : s.reusable? ⟨0x412c0000⟩ = some 1 := by decide
  have vacant : s.vacancy ⟨0x412c0000⟩ = .ok 1 := by rw [vacancy, lowest]
  have handed : s.alloc ⟨0x412c0000⟩ = .ok (1, s.occupy 1) := alloc_of_vacancy vacant (by decide)
  obtain ⟨i, -, -, number, rested⟩ := handed_out_rested 1 _ cs spares _ _ _ handed
  have one : i = 1 := (number (by decide)).symm
  rw [one] at rested
  refine ⟨spares, ⟨_, handed⟩, _, found, rfl, (rested _ found rfl).resolve_right ?_⟩
  rintro ⟨atMark, -⟩
  exact absurd atMark (by decide)

/-- **A record freed ahead of the mark does not rest.** Of two records, the one that was never handed out is
    freed ten seconds into a level, and handed out at once. -/
theorem handed_out_unrested :
    let s := (new 1 { initial := 2, batch := 1, max := 2, reserved := 1 }).after (.release 1 ⟨0x41200000⟩)
    (∃ s', s.alloc ⟨0x41200000⟩ = .ok (1, s')) ∧
      ∃ e, s.get? 1 = some e ∧ e.free = true ∧ ¬ e.HasRested ⟨0x41200000⟩ := by
  intro s
  have none : s.reusable? ⟨0x41200000⟩ = none := by decide
  have vacant : s.vacancy ⟨0x41200000⟩ = .ok 1 := by
    rw [vacancy, none]
    rfl
  have handed : s.alloc ⟨0x41200000⟩ = .ok (1, s.occupy 1) := alloc_of_vacancy vacant (by decide)
  have found : s.get? 1 = some { free := true, freeTime := ⟨0x41200000⟩, fields := #[0] } := by decide
  exact ⟨⟨_, handed⟩, _, found, rfl, by decide⟩

end EdictStore

end QuakeProgs
