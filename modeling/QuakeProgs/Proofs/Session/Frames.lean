/-
  File:      QuakeProgs/Proofs/Session/Frames.lean
  Subject:   FRAMES: which entities think, and when.

  The entities that are due are listed when a frame starts. One after the other has its turn, whatever the thinks
  before it have done: an entity that was freed meanwhile is passed over, for every other one the time of its next
  think is cleared, and then it thinks, if it has a function to think with. Whether it is still due nobody asks again.

  * `Machine.Due`, `Machine.mem_dueAt` -- the entities that are live and due, lowest number first;
  * `Turn`, `Plays` -- the turns of a frame: the machine each finds, and the function that is executed;
  * `Engine.runDue_plays` -- the loop gives every listed entity its turn, and only a think can stop it;
  * `Plays.rescheduled` -- an entity is still due at its turn, unless a think before it has changed that;
  * `Engine.runFrame_plays` -- so it is in every frame of every machine that can be reached;
  * `Engine.cancelled_think_runs` -- an entity thinks although the think before it has cancelled that.
-/
import Mathlib.Data.List.Nodup
import QuakeProgs.Proofs.Image.Lookups
import QuakeProgs.Proofs.Machine.Operations
import QuakeProgs.Session

namespace QuakeProgs

open Engine

/-! ## 1. Entities that are due. -/

/-- The entities that are live, one by one. -/
theorem EdictStore.mem_liveEdicts {s : EdictStore} {i : Nat} {e : Edict} :
    (i, e) ∈ s.liveEdicts ↔ i < s.inUse ∧ s.get? i = some e ∧ e.free = false := by
  unfold liveEdicts
  rw [List.mem_filterMap]
  constructor
  · rintro ⟨j, below, found⟩
    split at found
    · next record at' =>
      split at found
      · cases found
      · next live =>
        cases found
        exact ⟨List.mem_range.mp below, at', by simpa using live⟩
    · cases found
  · rintro ⟨below, at', live⟩
    exact ⟨i, List.mem_range.mpr below, by simp [at', live]⟩

namespace Machine

/-- When an entity wants to think next. -/
def nextThink? (m : Machine) (i : Nat) : Option Single :=
  m.hot.nextthink.bind fun ofs => (m.edicts.word? i ofs).map Word.toSingle

/-- **An entity is due**: the time of its next think is after zero, and not after the time that it is. -/
def Due (m : Machine) (time : Single) (i : Nat) : Prop :=
  ∃ next, m.nextThink? i = some next ∧ Single.zero.lt next = true ∧ next.le time = true

/-- An entity is live: its record is there, and is not free. -/
def Live (m : Machine) (i : Nat) : Prop := ∃ e, m.edicts.get? i = some e ∧ e.free = false

/-- The entities that have their turn in a frame. -/
def dueAt (m : Machine) (time : Single) : List Nat :=
  match m.hot.nextthink with
  | none => []
  | some ofs => (m.edicts.liveEdicts.filter fun (_, e) => isDue time ofs e).map (·.1)

variable {m : Machine} {time : Single} {i : Nat}

theorem isDue_iff {ofs : Nat} (placed : m.hot.nextthink = some ofs) {e : Edict} (found : m.edicts.get? i = some e) :
    isDue time ofs e = true ↔ m.Due time i := by
  have next : m.nextThink? i = (e.fields[ofs]?).map Word.toSingle := by
    rw [nextThink?, placed, Option.bind_some, EdictStore.word?, found, Option.bind_some]
  rw [Due, next]
  unfold isDue Edict.float Edict.word
  cases e.fields[ofs]? with
  | none => simp [Except.map]
  | some w => simp [Except.map]

/-- **The list holds the entities that are live and due.** -/
theorem mem_dueAt : i ∈ m.dueAt time ↔ i < m.edicts.inUse ∧ m.Live i ∧ m.Due time i := by
  unfold dueAt
  cases placed : m.hot.nextthink with
  | none =>
    refine iff_of_false (List.not_mem_nil) ?_
    rintro ⟨-, -, next, at', -⟩
    rw [nextThink?, placed] at at'
    cases at'
  | some ofs =>
    simp only [List.mem_map, List.mem_filter, Prod.exists, exists_and_right, exists_eq_right]
    constructor
    · rintro ⟨e, listed, due⟩
      obtain ⟨below, found, live⟩ := EdictStore.mem_liveEdicts.mp listed
      exact ⟨below, ⟨e, found, live⟩, (isDue_iff placed found).mp due⟩
    · rintro ⟨below, ⟨e, found, live⟩, due⟩
      exact ⟨e, EdictStore.mem_liveEdicts.mpr ⟨below, found, live⟩, (isDue_iff placed found).mpr due⟩

/-- **Lowest number first**, and each once. -/
theorem pairwise_dueAt (m : Machine) (time : Single) : (m.dueAt time).Pairwise (· < ·) := by
  have ordered : m.edicts.liveEdicts.Pairwise fun x y => x.1 < y.1 := by
    refine List.Pairwise.filterMap _ (fun i j below x hx y hy => ?_) List.pairwise_lt_range
    split at hx
    · split at hx
      · cases hx
      · cases hx
        split at hy
        · split at hy
          · cases hy
          · cases hy
            exact below
        · cases hy
    · cases hx
  unfold dueAt
  split
  · exact .nil
  · exact List.pairwise_map.mpr (ordered.filter _)

end Machine

/-! ## 2. The turns of a frame. -/

/-- The turn of one entity in a frame: the machine that it finds, and the function that is executed, if one is. -/
structure Turn where
  index : Nat
  before : Machine
  think : Option FuncRef

/-- The entity that has its turn. -/
def Turn.entity (t : Turn) : EdictId := t.index.toUInt32

namespace Machine

/-- The time of an entity's next think is cleared. -/
def cleared (m : Machine) (id : EdictId) : Machine :=
  match m.hot.nextthink with
  | none => m
  | some ofs => { m with edicts := m.edicts.overwrite id ofs [0] }

/-- The function that an entity thinks with. -/
def thinker? (m : Machine) (id : EdictId) : Option FuncRef :=
  m.hot.think.bind fun ofs => (m.edicts.word? id.toNat ofs).filter (· ≠ 0)

/-- The entity is `self`, and the world is `other`. -/
def asSelf (m : Machine) (id : EdictId) : Machine :=
  { m with globals := (m.globals.overwrite Global.self [id]).overwrite Global.other [0] }

/-- The clock is set. -/
def atTime (m : Machine) (time : Single) : Machine :=
  { m with globals := m.globals.overwrite Global.time [time.bits] }

end Machine

/-- **The turns of a frame**, one for each entity of the list, unless a think fails: then the frame ends with it. -/
inductive Plays (dispatch : Native → Engine Unit) : List Nat → Machine → List Turn → Option Error → Machine → Prop
  | ended {m : Machine} : Plays dispatch [] m [] none m
  /-- The entity was freed meanwhile. -/
  | freed {i : Nat} {rest : List Nat} {m m' : Machine} {turns : List Turn} {abort : Option Error} :
      ¬ m.Live i.toUInt32.toNat → Plays dispatch rest m turns abort m' →
      Plays dispatch (i :: rest) m (⟨i, m, none⟩ :: turns) abort m'
  /-- The entity has nothing to think with. -/
  | idle {i : Nat} {rest : List Nat} {m m' : Machine} {turns : List Turn} {abort : Option Error} :
      m.Live i.toUInt32.toNat → (m.cleared i.toUInt32).thinker? i.toUInt32 = none →
      Plays dispatch rest (m.cleared i.toUInt32) turns abort m' →
      Plays dispatch (i :: rest) m (⟨i, m, none⟩ :: turns) abort m'
  /-- The entity thinks. -/
  | thought {i : Nat} {rest : List Nat} {m m₁ m' : Machine} {f : FuncRef} {turns : List Turn} {abort : Option Error} :
      m.Live i.toUInt32.toNat → (m.cleared i.toUInt32).thinker? i.toUInt32 = some f →
      execute dispatch f ((m.cleared i.toUInt32).asSelf i.toUInt32) = .ok () m₁ →
      Plays dispatch rest m₁ turns abort m' → Plays dispatch (i :: rest) m (⟨i, m, some f⟩ :: turns) abort m'
  /-- The think fails. -/
  | aborted {i : Nat} {rest : List Nat} {m m' : Machine} {f : FuncRef} {e : Error} :
      m.Live i.toUInt32.toNat → (m.cleared i.toUInt32).thinker? i.toUInt32 = some f →
      execute dispatch f ((m.cleared i.toUInt32).asSelf i.toUInt32) = .error e m' →
      Plays dispatch (i :: rest) m [⟨i, m, some f⟩] (some e) m'

/-- The thinks among the turns. -/
def Turn.thinks (turns : List Turn) : Nat := turns.countP (·.think.isSome)

/-- The think of this turn changes the time of an entity's next think. -/
def Turn.Reschedules (dispatch : Native → Engine Unit) (t : Turn) (i : Nat) : Prop :=
  ∃ f m₁, t.think = some f ∧ execute dispatch f ((t.before.cleared t.entity).asSelf t.entity) = .ok () m₁ ∧
    m₁.nextThink? i ≠ t.before.nextThink? i

/-- What a frame gives: the number of its thinks, or the error of the one that failed. -/
def Turn.outcome (ran : Nat) (turns : List Turn) (abort : Option Error) (m : Machine) :
    EStateM.Result Error Machine Nat :=
  match abort with
  | none => .ok (ran + thinks turns) m
  | some e => .error e m

namespace Plays

variable {dispatch : Native → Engine Unit} {due : List Nat} {m m' : Machine} {turns : List Turn}
  {abort : Option Error}

/-- **Each entity of the list has its turn**, in order, up to a think that fails. -/
theorem indices (h : Plays dispatch due m turns abort m') :
    turns.map Turn.index <+: due ∧ (abort = none → turns.map Turn.index = due) := by
  induction h with
  | ended => exact ⟨List.nil_prefix, fun _ => rfl⟩
  | freed _ _ ih | idle _ _ _ ih | thought _ _ _ _ ih =>
    rw [List.map_cons]
    exact ⟨(List.prefix_cons_inj _).mpr ih.1, fun none => congrArg _ (ih.2 none)⟩
  | aborted => exact ⟨(List.prefix_cons_inj _).mpr List.nil_prefix, nofun⟩

/-- **Each entity of the list has one turn**, unless the think of an earlier one fails. -/
theorem once (h : Plays dispatch due m turns abort m') (ordered : due.Pairwise (· < ·)) {i : Nat} (listed : i ∈ due) :
    (∃! t, t ∈ turns ∧ t.index = i) ∨ abort.isSome ∧ ∀ t ∈ turns, t.index < i := by
  obtain ⟨⟨left, split⟩, complete⟩ := h.indices
  rw [← split] at ordered listed
  obtain ⟨played, -, before⟩ := List.pairwise_append.mp ordered
  rcases List.mem_append.mp listed with early | late
  · obtain ⟨t, ht, rfl⟩ := List.mem_map.mp early
    have distinct : (turns.map Turn.index).Nodup := played.imp Nat.ne_of_lt
    exact .inl ⟨t, ⟨ht, rfl⟩, fun t' ht' => List.inj_on_of_nodup_map distinct ht'.1 ht ht'.2⟩
  · refine .inr ⟨?_, fun t ht => before _ (List.mem_map_of_mem ht) i late⟩
    cases abort with
    | some e => rfl
    | none =>
      have nothing : left = [] := List.append_right_eq_self.mp (split.trans (complete rfl).symm)
      rw [nothing] at late
      cases late

/-- **An entity thinks at its turn exactly if it is live** and has a function to think with. -/
theorem think_iff (h : Plays dispatch due m turns abort m') {t : Turn} (ht : t ∈ turns) (f : FuncRef) :
    t.think = some f ↔
      t.before.Live t.entity.toNat ∧ (t.before.cleared t.entity).thinker? t.entity = some f := by
  induction h with
  | ended => cases ht
  | freed freed _ ih =>
    rcases List.mem_cons.mp ht with rfl | ht
    · exact iff_of_false nofun fun both => freed both.1
    · exact ih ht
  | idle live nothing _ ih =>
    rcases List.mem_cons.mp ht with rfl | ht
    · exact iff_of_false nofun fun both => by cases nothing.symm.trans both.2
    · exact ih ht
  | thought live thinker _ _ ih =>
    rcases List.mem_cons.mp ht with rfl | ht
    · exact ⟨fun same => ⟨live, thinker.trans same⟩, fun both => thinker.symm.trans both.2⟩
    · exact ih ht
  | aborted live thinker _ =>
    cases List.mem_singleton.mp ht
    exact ⟨fun same => ⟨live, thinker.trans same⟩, fun both => thinker.symm.trans both.2⟩

/-- **A frame fails with the think of its last turn**, and all turns before were played to their end. -/
theorem last_aborts {e : Error} (h : Plays dispatch due m turns (some e) m') :
    ∃ earlier last f, turns = earlier ++ [last] ∧ last.think = some f ∧
      execute dispatch f ((last.before.cleared last.entity).asSelf last.entity) = .error e m' := by
  generalize failed : some e = abort at h
  induction h with
  | ended => cases failed
  | freed _ _ ih | idle _ _ _ ih | thought _ _ _ _ ih =>
    obtain ⟨earlier, last, f, rfl, thinks⟩ := ih failed
    exact ⟨_ :: earlier, last, f, rfl, thinks⟩
  | aborted live thinker fails =>
    cases failed
    exact ⟨[], _, _, rfl, rfl, fails⟩

end Plays

/-! ## 3. The loop plays them. -/

namespace Machine

variable {m : Machine} {ofs : Nat}

theorem Furnished.nextthink_inside (h : m.Furnished) (placed : m.hot.nextthink = some ofs) :
    ofs + 1 ≤ m.edicts.fieldWords := by
  rw [h.fieldWords]
  rw [h.hot] at placed
  exact HotFields.find_inside h.fields (by decide) placed

theorem Furnished.think_inside (h : m.Furnished) (placed : m.hot.think = some ofs) :
    ofs + 1 ≤ m.edicts.fieldWords := by
  rw [h.fieldWords]
  rw [h.hot] at placed
  exact HotFields.find_inside h.fields (by decide) placed

end Machine

namespace Engine

variable {dispatch : Native → Engine Unit} {m : Machine} {id : EdictId}

/-- A global that every image has can be written to. -/
theorem setWord_eq (sound : m.Sound) {ofs : Nat} (wellKnown : ofs < Global.count) (w : Word) :
    setWord ofs w m = .ok () { m with globals := m.globals.overwrite ofs [w] } :=
  write_of_room (Nat.lt_of_lt_of_le wellKnown sound.program.wellKnown)

theorem setSelf_eq (sound : m.Sound) (id : EdictId) : setSelf id m = .ok () (m.asSelf id) := by
  have own := setWord_eq sound (by decide : Global.self < Global.count) id
  have sound' := ((Command.write Global.self [id]).perform_sound m sound).ok own
  rw [setSelf, bind_of_ok own]
  exact setWord_eq sound' (by decide) 0

/-- The time of an entity's next think can be cleared. -/
theorem writeField_cleared (sound : m.Sound) (furnished : m.Furnished) (known : id.toNat < m.edicts.count) {ofs : Nat}
    (placed : m.hot.nextthink = some ofs) : writeField id ofs [0] m = .ok () (m.cleared id) := by
  have checked := (checkWrite_ok_iff sound furnished known).mpr (furnished.nextthink_inside placed)
  rw [writeField_of_checked checked, Machine.cleared, placed]

/-- An entity without a function does not think. -/
theorem think_of_none (sound : m.Sound) (furnished : m.Furnished) (known : id.toNat < m.edicts.count)
    (nothing : m.thinker? id = none) : think dispatch id m = .ok false m := by
  rw [think, get_bind]
  cases placed : m.hot.think with
  | none => rfl
  | some ofs =>
    obtain ⟨record, found, width⟩ := record_of_known sound furnished known
    have inside : ofs < record.fields.size := width ▸ furnished.think_inside placed
    have word : record.word ofs = .ok record.fields[ofs] := by rw [Edict.word, Array.getElem?_eq_getElem inside]
    have read : reads (fun m => do (← m.edicts.get id).word ofs) m = .ok record.fields[ofs] m := by
      refine reads_of_ok ?_
      rw [found]
      exact word
    have zero : record.fields[ofs] = 0 := by
      have found := EdictStore.get?_of_get found
      simpa [Machine.thinker?, placed, EdictStore.word?, found, inside] using nothing
    dsimp only
    rw [bind_of_ok read, if_pos zero]
    rfl

/-- An entity with a function executes it. -/
theorem think_of_some (sound : m.Sound) {f : FuncRef} (thinker : m.thinker? id = some f) :
    think dispatch id m = (do execute dispatch f; return true) (m.asSelf id) := by
  obtain ⟨ofs, placed, thinks⟩ := Option.bind_eq_some_iff.mp thinker
  obtain ⟨word, nonzero⟩ := Option.filter_eq_some_iff.mp thinks
  obtain ⟨record, found, at'⟩ := Option.bind_eq_some_iff.mp word
  have read : reads (fun m => do (← m.edicts.get id).word ofs) m = .ok f m := by
    refine reads_of_ok ?_
    rw [EdictStore.get, found]
    show record.word ofs = .ok f
    rw [Edict.word, at']
  have nonzero : f ≠ 0 := by simpa using nonzero
  rw [think, get_bind, placed]
  dsimp only
  rw [bind_of_ok read, if_neg nonzero, bind_of_ok (setSelf_eq sound id)]

variable {ofs i ran : Nat} {rest : List Nat} {e : Edict}

/-- An entity that was freed is passed over. -/
theorem runDue_freed (found : m.edicts.get i.toUInt32 = .ok e) (free : e.free = true) :
    runDue dispatch ofs (i :: rest) ran m = runDue dispatch ofs rest ran m := by
  have read : edict i.toUInt32 m = .ok e m := reads_of_ok found
  rw [runDue, bind_of_ok read, if_pos free]

/-- For any other one the time of its next think is cleared, and then it may think. -/
theorem runDue_live {m₁ : Machine} (found : m.edicts.get i.toUInt32 = .ok e) (live : e.free = false)
    (clears : writeField i.toUInt32 ofs [0] m = .ok () m₁) :
    runDue dispatch ofs (i :: rest) ran m = (do
      if ← think dispatch i.toUInt32 then runDue dispatch ofs rest (ran + 1)
      else runDue dispatch ofs rest ran) m₁ := by
  have read : edict i.toUInt32 m = .ok e m := reads_of_ok found
  rw [runDue, bind_of_ok read, if_neg (by simp [live]), bind_of_ok clears]

end Engine

@[simp] theorem Turn.outcome_none {ran i : Nat} {m m' : Machine} {turns : List Turn} {abort : Option Error} :
    outcome ran (⟨i, m, none⟩ :: turns) abort m' = outcome ran turns abort m' := by
  cases abort <;> simp [outcome, thinks]

@[simp] theorem Turn.outcome_some {ran i : Nat} {m m' : Machine} {f : FuncRef} {turns : List Turn}
    {abort : Option Error} :
    outcome ran (⟨i, m, some f⟩ :: turns) abort m' = outcome (ran + 1) turns abort m' := by
  cases abort <;> simp [outcome, thinks, Nat.add_assoc, Nat.add_comm]

section Plays

variable {routines : Nat → Routine} {m₀ m : Machine} {ofs : Nat}

/-- Clearing one entity's time leaves the others theirs. -/
theorem Machine.nextThink?_cleared (sound : m.Sound) {id : EdictId} {i : Nat} (other : i ≠ id.toNat) :
    (m.cleared id).nextThink? i = m.nextThink? i := by
  unfold Machine.cleared
  cases placed : m.hot.nextthink with
  | none => rfl
  | some ofs =>
    have kept := (sound.edicts.get?_modify id.toNat (keepsWidth_overwrite _ ofs [0])).2.2 i other
    simp only [nextThink?, EdictStore.word?, EdictStore.overwrite, kept]

theorem Later.asSelf (sound : m.Sound) (later : Later routines m₀ m) (id : EdictId) :
    Later routines m₀ (m.asSelf id) := by
  have own := setWord_eq sound (by decide : Global.self < Global.count) id
  have sound' := ((Command.write Global.self [id]).perform_sound m sound).ok own
  have other := setWord_eq sound' (by decide : Global.other < Global.count) 0
  exact .command (.write Global.other [0]) rfl (.command (.write Global.self [id]) rfl later (.inl ⟨(), own⟩))
    (.inl ⟨(), other⟩)

/-- An entity that was there still is. -/
theorem Later.known (host : ∀ key, (routines key).Operates) (furnished₀ : m₀.Furnished) {i : Nat}
    (inside : i < m₀.edicts.count) (later : Later routines m₀ m) : i.toUInt32.toNat < m.edicts.count :=
  calc i.toUInt32.toNat ≤ i := Nat.mod_le _ _
    _ < m₀.edicts.count := inside
    _ ≤ m.edicts.count := (later.continues host).count_le furnished₀

theorem Later.cleared (host : ∀ key, (routines key).Operates) (sound₀ : m₀.Sound) (furnished₀ : m₀.Furnished)
    {id : EdictId} (known : id.toNat < m.edicts.count) (later : Later routines m₀ m) :
    Later routines m₀ (m.cleared id) := by
  cases placed : m.hot.nextthink with
  | none =>
    rw [Machine.cleared, placed]
    exact later
  | some ofs =>
    have furnished := (later.continues host).furnished furnished₀
    have clears := writeField_cleared (later.sound host sound₀) furnished known placed
    exact .command (.writeField id ofs [0]) rfl later (.inl ⟨(), clears⟩)

/-- **The loop plays the turns.** Nothing but a think can stop it: the entities of the list stay where they are, and
    what is read and written of them has its place in every record. -/
theorem Engine.runDue_plays (host : ∀ key, (routines key).Operates) (sound₀ : m₀.Sound) (furnished₀ : m₀.Furnished)
    (placed₀ : m₀.hot.nextthink = some ofs) (nesting : Nat) {due : List Nat}
    (inside : ∀ i ∈ due, i < m₀.edicts.count)
    (later : Later routines m₀ m) (ran : Nat) :
    ∃ turns abort m', Plays (Dispatch.link routines nesting) due m turns abort m' ∧
      runDue (Dispatch.link routines nesting) ofs due ran m = Turn.outcome ran turns abort m' := by
  induction due generalizing m ran with
  | nil => exact ⟨[], none, m, .ended, rfl⟩
  | cons i rest ih =>
    have others : ∀ j ∈ rest, j < m₀.edicts.count := fun j hj => inside j (List.mem_cons_of_mem i hj)
    have own := inside i List.mem_cons_self
    have sound := later.sound host sound₀
    have continues := later.continues host
    have furnished := continues.furnished furnished₀
    have placed : m.hot.nextthink = some ofs := continues.hot ▸ placed₀
    have known := later.known host furnished₀ own
    obtain ⟨e, found, -⟩ := record_of_known sound furnished known
    have found' := EdictStore.get?_of_get found
    cases free : e.free with
    | true =>
      have freed : ¬ m.Live i.toUInt32.toNat := by
        rintro ⟨e', at', live⟩
        cases found'.symm.trans at'
        cases free.symm.trans live
      obtain ⟨turns, abort, m', plays, runs⟩ := ih others later ran
      exact ⟨_, abort, m', .freed freed plays, by rw [runDue_freed found free, runs, Turn.outcome_none]⟩
    | false =>
      have live : m.Live i.toUInt32.toNat := ⟨e, found', free⟩
      have clears := writeField_cleared sound furnished known placed
      have later₁ := later.cleared host sound₀ furnished₀ known
      have sound₁ := later₁.sound host sound₀
      have furnished₁ := (later₁.continues host).furnished furnished₀
      rw [runDue_live found free clears]
      cases thinker : (m.cleared i.toUInt32).thinker? i.toUInt32 with
      | none =>
        have idle : think (Dispatch.link routines nesting) i.toUInt32 (m.cleared i.toUInt32) = .ok false _ :=
          think_of_none sound₁ furnished₁ (later₁.known host furnished₀ own) thinker
        obtain ⟨turns, abort, m', plays, runs⟩ := ih others later₁ ran
        refine ⟨_, abort, m', .idle live thinker plays, ?_⟩
        rw [bind_of_ok idle, if_neg Bool.false_ne_true, runs, Turn.outcome_none]
      | some f =>
        have thinks : think (Dispatch.link routines nesting) i.toUInt32 (m.cleared i.toUInt32) = _ :=
          think_of_some sound₁ thinker
        have later₂ := later₁.asSelf sound₁ i.toUInt32
        cases done : execute (Dispatch.link routines nesting) f ((m.cleared i.toUInt32).asSelf i.toUInt32) with
        | ok _ m₁ =>
          rw [bind_of_ok done] at thinks
          obtain ⟨turns, abort, m', plays, runs⟩ := ih others (.executed nesting f later₂ (.inl ⟨_, done⟩)) (ran + 1)
          refine ⟨_, abort, m', .thought live thinker done plays, ?_⟩
          rw [bind_of_ok thinks, if_pos rfl, runs, Turn.outcome_some]
        | error err m₁ =>
          rw [bind_of_error done] at thinks
          exact ⟨_, some err, m₁, .aborted live thinker done, bind_of_error thinks⟩

/-- **Only a think can reschedule another one.** The time of an entity's next think is at its turn what it was when
    the frame started, unless a think before it has changed it. -/
theorem Plays.rescheduled (host : ∀ key, (routines key).Operates) (sound₀ : m₀.Sound) (furnished₀ : m₀.Furnished)
    {nesting : Nat} {due : List Nat} {earlier after : List Turn} {t : Turn} {abort : Option Error} {m' : Machine}
    (inside : ∀ i ∈ due, i < m₀.edicts.count) (distinct : due.Pairwise fun i j => i.toUInt32.toNat ≠ j.toUInt32.toNat)
    (later : Later routines m₀ m)
    (h : Plays (Dispatch.link routines nesting) due m (earlier ++ t :: after) abort m') :
    t.before.nextThink? t.entity.toNat = m.nextThink? t.entity.toNat ∨
      ∃ s ∈ earlier, s.Reschedules (Dispatch.link routines nesting) t.entity.toNat := by
  induction earlier generalizing due m with
  | nil => cases h <;> exact .inl rfl
  | cons s earlier ih =>
    -- What holds of the turns that follow: they start from `m₁`, and none of them is the one of this entity.
    have goOn {rest : List Nat} {i : Nat} {m₁ : Machine} (split : due = i :: rest) (later₁ : Later routines m₀ m₁)
        (plays : Plays (Dispatch.link routines nesting) rest m₁ (earlier ++ t :: after) abort m') :
        t.entity.toNat ≠ i.toUInt32.toNat ∧ (t.before.nextThink? t.entity.toNat = m₁.nextThink? t.entity.toNat ∨
          ∃ s' ∈ s :: earlier, s'.Reschedules (Dispatch.link routines nesting) t.entity.toNat) := by
      subst split
      obtain ⟨others, distinct⟩ := List.pairwise_cons.mp distinct
      have listed : t.index ∈ rest := plays.indices.1.subset (List.mem_map_of_mem (by simp))
      refine ⟨(others _ listed).symm, ?_⟩
      refine (ih (fun j hj => inside j (List.mem_cons_of_mem i hj)) distinct later₁ plays).imp_right ?_
      exact fun ⟨s', hs, changed⟩ => ⟨s', List.mem_cons_of_mem s hs, changed⟩
    have sound := later.sound host sound₀
    rw [List.cons_append] at h
    generalize split : earlier ++ t :: after = turns at h goOn
    cases h with
    | aborted => simp at split
    | freed _ plays => exact (goOn rfl later plays).2
    | idle _ _ plays =>
      have known := later.known host furnished₀ (inside _ List.mem_cons_self)
      obtain ⟨other, same | changed⟩ := goOn rfl (later.cleared host sound₀ furnished₀ known) plays
      · exact .inl (same.trans (Machine.nextThink?_cleared sound other))
      · exact .inr changed
    | @thought i _ _ m₁ _ f _ _ _ _ done plays =>
      have known := later.known host furnished₀ (inside _ List.mem_cons_self)
      have later₁ := later.cleared host sound₀ furnished₀ known
      have later₂ := later₁.asSelf (later₁.sound host sound₀) i.toUInt32
      obtain ⟨-, same | changed⟩ := goOn rfl (.executed nesting f later₂ (.inl ⟨(), done⟩)) plays
      · by_cases kept : m₁.nextThink? t.entity.toNat = m.nextThink? t.entity.toNat
        · exact .inl (same.trans kept)
        · exact .inr ⟨_, List.mem_cons_self, f, m₁, rfl, done, kept⟩
      · exact .inr changed

end Plays

/-! ## 4. Programs with fields that the engine knows. -/

/-- The field with a name, found by going through the definitions. -/
def Program.listedField? (p : Program) (name : String) : Option Def :=
  ((p.fieldDefs.toList.zipIdx.filterMap fun (d, i) =>
    if d.name = "" then none else some (d.name, i)).lookup name).bind fun i => p.fieldDefs[i]?

/-- The index finds what is listed. -/
theorem Program.findField?_eq_listed {p : Program} (indexed : p.fieldNames = namesOf p.fieldDefs) (name : String) :
    p.findField? name = p.listedField? name := by
  rw [findField?, listedField?, indexed, namesOf, getElem?_firstIndex]

namespace HotFields

/-- The names and types of the fields that the engine uses. -/
def wanted : List (String × ValueType) :=
  [("classname", .string), ("model", .string), ("origin", .vector), ("angles", .vector), ("velocity", .vector),
   ("frame", .float), ("nextthink", .float), ("think", .function), ("health", .float), ("flags", .float),
   ("targetname", .string)]

/-- The fields lie where the program lists them. -/
def Listed (hot : HotFields) (p : Program) : Prop :=
  hot.toList = wanted.map fun (name, type) =>
    (name, (p.listedField? name).bind fun d => if d.type = type then some d.ofs else none)

instance Listed.decidable (hot : HotFields) (p : Program) : Decidable (hot.Listed p) :=
  inferInstanceAs (Decidable (_ = _))

theorem Listed.resolve_eq {hot : HotFields} {p : Program} (indexed : p.fieldNames = Program.namesOf p.fieldDefs)
    (h : hot.Listed p) : resolve p = hot := by
  have found (name : String) (type : ValueType) :
      find p name type = (p.listedField? name).bind fun d => if d.type = type then some d.ofs else none := by
    rw [find, Program.findField?_eq_listed indexed]
    cases p.listedField? name <;> rfl
  have same : (resolve p).toList = hot.toList := by
    rw [h]
    simp only [← found]
    rfl
  obtain ⟨_, _, _, _, _, _, _, _, _, _, _⟩ := hot
  simpa [toList, resolve] using same

end HotFields

/-- The image can be loaded, the engine finds its fields where `hot` says, and its machine satisfies `P`. -/
def Machine.LoadsKnowing (hot : HotFields) (bytes : Bytes) (options : LoadOptions) (config : Config)
    (registry : Registry) (P : Machine → Prop) : Prop :=
  Loads bytes options config registry fun m => hot.Listed m.program ∧ P { m with hot }

instance Machine.LoadsKnowing.decidable (hot : HotFields) (bytes : Bytes) (options : LoadOptions) (config : Config)
    (registry : Registry) (P : Machine → Prop) [DecidablePred P] :
    Decidable (LoadsKnowing hot bytes options config registry P) :=
  inferInstanceAs (Decidable (Loads bytes options config registry fun m => hot.Listed m.program ∧ P { m with hot }))

theorem Machine.LoadsKnowing.reachable {hot : HotFields} {bytes : Bytes} {options : LoadOptions} {config : Config}
    {registry : Registry} {P : Machine → Prop} (h : LoadsKnowing hot bytes options config registry P)
    (routines : Nat → Routine) : ∃ m, Reachable routines registry m ∧ P m := by
  obtain ⟨image, loaded, unnamed, listed, holds⟩ := h
  have known : HotFields.resolve image.program = hot :=
    listed.resolve_eq (Image.load_checked loaded).indexed.fieldNames
  refine ⟨_, .fresh config loaded, ?_⟩
  rw [← new_of_unnamed unnamed config registry]
  rw [← known] at holds
  exact holds

/-- A program for entities with two fields, the time of their next think and what they think with. Function 1 cancels
    the next think of entity 2; function 2 only returns. -/
def cancelling : ImageBuilder :=
  { strings := #[0, 110, 101, 120, 116, 116, 104, 105, 110, 107, 0, 116, 104, 105, 110, 107, 0]
    statements := #[{}, { op := 30, a := 92, b := 93, c := 94 }, { op := 37, a := 95, b := 94 }, { op := 43 }]
    functions := #[{}, { firstStatement := 1, parmStart := 92 }, { firstStatement := 3, parmStart := 92 }]
    fieldDefs := #[{ type := 2, ofs := 0, name := 1 }, { type := 6, ofs := 1, name := 11 }]
    globals := Array.replicate 92 0 ++ #[2, 0, 0, 0]
    entityFields := 2 }

/-- Where these fields lie. -/
def thinkingFields : HotFields := { nextthink := some 0, think := some 1 }

/-- Entities that want to think at one second, with the given functions. -/
def thinkers (functions : List FuncRef) : StoreSnapshot :=
  { fieldWords := 2
    edicts := { free := false, freeTime := .zero, fields := [0, 0] } ::
      functions.map fun f => { free := false, freeTime := .zero, fields := [0x3f800000, f] } }

/-- One second. -/
def oneSecond : Single := ⟨0x3f800000⟩

/-- The machine with this program and these entities satisfies `P`. -/
def Thinking (functions : List FuncRef) (P : Machine → Prop) : Prop :=
  Machine.LoadsKnowing thinkingFields cancelling.build .small { store := { initial := 4, max := 8, reserved := 1 } }
    .core fun m => Ends (Command.restoreEdicts (thinkers functions)).perform m (fun _ m => P m) fun _ _ => False

instance Thinking.decidable (functions : List FuncRef) (P : Machine → Prop) [DecidablePred P] :
    Decidable (Thinking functions P) :=
  inferInstanceAs (Decidable (Machine.LoadsKnowing _ _ _ _ _ _))

theorem Thinking.reachable {functions : List FuncRef} {P : Machine → Prop} (h : Thinking functions P) :
    ∃ m, Reachable default .core m ∧ P m := by
  obtain ⟨fresh, reachable, restores⟩ := Machine.LoadsKnowing.reachable h default
  obtain ⟨_, m, restored, holds⟩ := restores.exists_ok
  exact ⟨m, .command _ reachable (.inl ⟨_, restored⟩), holds⟩

/-- The turn of an entity that thinks. -/
theorem Plays.thought_inv {dispatch : Native → Engine Unit} {i : Nat} {rest : List Nat} {m m₁ m' : Machine}
    {f : FuncRef} {turns : List Turn} {abort : Option Error} (live : m.Live i.toUInt32.toNat)
    (thinker : (m.cleared i.toUInt32).thinker? i.toUInt32 = some f)
    (done : execute dispatch f ((m.cleared i.toUInt32).asSelf i.toUInt32) = .ok () m₁)
    (h : Plays dispatch (i :: rest) m turns abort m') :
    ∃ later, turns = ⟨i, m, some f⟩ :: later ∧ Plays dispatch rest m₁ later abort m' := by
  cases h with
  | freed freed _ => exact absurd live freed
  | idle _ nothing _ => cases nothing.symm.trans thinker
  | thought _ thinker' done' plays =>
    cases thinker.symm.trans thinker'
    cases done.symm.trans done'
    exact ⟨_, rfl, plays⟩
  | aborted _ thinker' failed =>
    cases thinker.symm.trans thinker'
    cases done.symm.trans failed

/-! ## 5. Every frame. -/

variable {routines : Nat → Routine} {registry : Registry} {m : Machine}

/-- The clock is set when a frame starts. -/
theorem Later.atTime (sound : m.Sound) (time : Single) : Later routines m (m.atTime time) :=
  .command (.write Global.time [time.bits]) rfl .now (.inl ⟨(), setWord_eq sound (by decide) time.bits⟩)

/-- Entities that are due are there. -/
theorem Machine.dueAt_inside (sound : m.Sound) (time : Single) : ∀ i ∈ m.dueAt time, i < m.edicts.count := by
  intro i listed
  obtain ⟨-, ⟨e, found, -⟩, -⟩ := mem_dueAt.mp listed
  rw [sound.edicts.get?_eq_records] at found
  rw [← sound.edicts.length_records]
  exact (List.getElem?_eq_some_iff.mp found).1

/-- Where numbers have room in a word, an entity of the list is known by its number. -/
theorem Machine.toNat_dueAt (few : m.edicts.inUse ≤ 0x100000000) {time : Single} {i : Nat}
    (listed : i ∈ m.dueAt time) :
    i.toUInt32.toNat = i :=
  Nat.mod_eq_of_lt (Nat.lt_of_lt_of_le (mem_dueAt.mp listed).1 few)

/-- **A frame plays the turns of the entities that are due when it starts.** -/
theorem Engine.runFrame_outcome (host : ∀ key, (routines key).Operates) (h : Reachable routines registry m)
    (nesting : Nat) (time : Single) :
    ∃ turns abort m', Plays (Dispatch.link routines nesting) (m.dueAt time) (m.atTime time) turns abort m' ∧
      runFrame (Dispatch.link routines nesting) time m = Turn.outcome 0 turns abort m' := by
  have sound := h.orderly host
  have clock : setFloat Global.time time m = .ok () (m.atTime time) := setWord_eq sound (by decide) time.bits
  have inside := m.dueAt_inside sound time
  have hot : (m.atTime time).hot = m.hot := rfl
  rw [runFrame, bind_of_ok clock, get_bind, hot]
  unfold Machine.dueAt at inside ⊢
  cases placed : m.hot.nextthink with
  | none => exact ⟨[], none, _, .ended, rfl⟩
  | some ofs =>
    rw [placed] at inside
    exact runDue_plays host sound (h.furnished host) placed nesting inside (.atTime sound time) 0

/-- **A frame as it is played.** -/
structure Machine.PlaysFrame (dispatch : Native → Engine Unit) (m : Machine) (time : Single) (turns : List Turn)
    (abort : Option Error) (m' : Machine) : Prop where
  /-- One turn leads to the next. -/
  plays : Plays dispatch (m.dueAt time) (m.atTime time) turns abort m'
  /-- Entities have their turns in order. -/
  inOrder : turns.map Turn.index <+: m.dueAt time
  /-- Every entity that was due has one turn, unless an earlier think fails. -/
  once : ∀ i ∈ m.dueAt time, (∃! t, t ∈ turns ∧ t.index = i) ∨ abort.isSome ∧ ∀ t ∈ turns, t.index < i
  /-- A think that fails is that of the last turn. -/
  aborted : ∀ e, abort = some e → ∃ earlier last f, turns = earlier ++ [last] ∧ last.think = some f ∧
    execute dispatch f ((last.before.cleared last.entity).asSelf last.entity) = .error e m'
  /-- At its turn, a live entity thinks if it has a function to think with. -/
  thinks : ∀ t ∈ turns, ∀ f, t.think = some f ↔
    t.before.Live t.entity.toNat ∧ (t.before.cleared t.entity).thinker? t.entity = some f
  /-- It is due then, unless a think before it has changed the time of its next think. -/
  punctual : m.edicts.inUse ≤ 0x100000000 → ∀ earlier t after, turns = earlier ++ t :: after →
    t.before.Due time t.entity.toNat ∨ ∃ s ∈ earlier, s.Reschedules dispatch t.entity.toNat

/-- **Who thinks in a frame.** Where the builtins of the host act through operations, a frame of any machine that can
    be reached lists the entities that are live and due, lowest number first, and lets each think at its turn, if it
    is live then and has a function to think with; it stops at the first think that fails, and nothing else can
    fail. -/
theorem Engine.runFrame_plays (host : ∀ key, (routines key).Operates) (h : Reachable routines registry m)
    (nesting : Nat) (time : Single) :
    (∀ i, i ∈ m.dueAt time ↔ i < m.edicts.inUse ∧ m.Live i ∧ m.Due time i) ∧ (m.dueAt time).Pairwise (· < ·) ∧
    (m.edicts.inUse ≤ 0x100000000 → ∀ i ∈ m.dueAt time, i.toUInt32.toNat = i) ∧
    ∃ turns abort m', m.PlaysFrame (Dispatch.link routines nesting) time turns abort m' ∧
      runFrame (Dispatch.link routines nesting) time m = Turn.outcome 0 turns abort m' := by
  have ordered := m.pairwise_dueAt time
  refine ⟨fun _ => Machine.mem_dueAt, ordered, fun few _ => Machine.toNat_dueAt few, ?_⟩
  obtain ⟨turns, abort, m', plays, runs⟩ := runFrame_outcome host h nesting time
  have inOrder := plays.indices.1
  refine ⟨turns, abort, m', ⟨plays, inOrder, fun _ => plays.once ordered, ?_, fun _ ht => plays.think_iff ht, ?_⟩,
    runs⟩
  · rintro e rfl
    exact plays.last_aborts
  · rintro few earlier t after rfl
    have listed : t.index ∈ m.dueAt time := inOrder.subset (List.mem_map_of_mem (by simp))
    have number : t.entity.toNat = t.index := Machine.toNat_dueAt few listed
    have distinct : (m.dueAt time).Pairwise fun i j => i.toUInt32.toNat ≠ j.toUInt32.toNat := by
      refine ordered.imp_of_mem fun hi hj below => ?_
      rw [Machine.toNat_dueAt few hi, Machine.toNat_dueAt few hj]
      exact Nat.ne_of_lt below
    have sound := h.orderly host
    have inside := m.dueAt_inside sound time
    refine (plays.rescheduled host sound (h.furnished host) inside distinct (.atTime sound time)).imp_left ?_
    intro same
    obtain ⟨next, at', due⟩ := (Machine.mem_dueAt.mp listed).2.2
    rw [← number] at at'
    exact ⟨next, same.trans at', due⟩

/-- Three entities are due. The first thinks, the second has nothing to think with, the third one's think fails. -/
theorem Engine.runFrame_plays_aborted : (∀ key, ((default : Nat → Routine) key).Operates) ∧
    ∃ m, Reachable default .core m ∧ m.dueAt oneSecond = [1, 2, 3] ∧
      ∃ turns e m', m.PlaysFrame (Dispatch.link default 0) oneSecond turns (some e) m' ∧
        runFrame (Dispatch.link default 0) oneSecond m = .error e m' ∧ e.cause = .functionOutOfRange 9 3 := by
  have thinking : Thinking [2, 0, 9] fun m => m.dueAt oneSecond = [1, 2, 3] ∧
      Ends (runFrame (Dispatch.link default 0) oneSecond) m (fun _ _ => False)
        fun e _ => e.cause = .functionOutOfRange 9 3 := by
    decide +kernel
  have host : ∀ key, ((default : Nat → Routine) key).Operates := fun _ => Engine.Operates.pure ()
  obtain ⟨m, reachable, due, fails⟩ := thinking.reachable
  obtain ⟨e, m', failed, cause⟩ := fails.exists_error
  obtain ⟨-, -, -, turns, abort, m'', plays, runs⟩ := runFrame_plays host reachable 0 oneSecond
  rw [failed] at runs
  cases abort with
  | none => cases runs
  | some e' =>
    cases runs
    exact ⟨host, m, reachable, due, turns, e, m', plays, failed, cause⟩

/-- **A think runs although it was cancelled.** Both entities are due when the frame starts. The first one thinks, and
    cancels the next think of the second; that one thinks all the same. -/
theorem Engine.cancelled_think_runs : ∃ m turns m', Reachable default .core m ∧
    Plays (Dispatch.link default 0) (m.dueAt oneSecond) (m.atTime oneSecond) turns none m' ∧
    runFrame (Dispatch.link default 0) oneSecond m = .ok 2 m' ∧
    ∃ t ∈ turns, t.think = some 2 ∧ t.before.nextThink? t.entity.toNat = some .zero ∧
      ¬ t.before.Due oneSecond t.entity.toNat := by
  have thinking : Thinking [1, 2] fun m => m.dueAt oneSecond = [1, 2] ∧
      (m.edicts.get? 1).map Edict.free = some false ∧ ((m.atTime oneSecond).cleared 1).thinker? 1 = some 1 ∧
      Ends (execute (Dispatch.link default 0) 1) (((m.atTime oneSecond).cleared 1).asSelf 1) (fun _ m₁ =>
        (m₁.edicts.get? 2).map Edict.free = some false ∧ m₁.nextThink? 2 = some .zero ∧
        (m₁.cleared 2).thinker? 2 = some 2 ∧
        Ends (execute (Dispatch.link default 0) 2) ((m₁.cleared 2).asSelf 2) (fun _ _ => True) fun _ _ => False)
        fun _ _ => False := by
    decide +kernel
  obtain ⟨m, reachable, due, live₁, thinker₁, first⟩ := thinking.reachable
  obtain ⟨_, m₁, done₁, live₂, cancelled, thinker₂, second⟩ := first.exists_ok
  obtain ⟨_, m₂, done₂, -⟩ := second.exists_ok
  have host : ∀ key, ((default : Nat → Routine) key).Operates := fun _ => Engine.Operates.pure ()
  obtain ⟨turns, abort, m', plays, runs⟩ := runFrame_outcome host reachable 0 oneSecond
  have both := plays
  rw [due] at both
  obtain ⟨_, rfl, last⟩ := both.thought_inv (Option.map_eq_some_iff.mp live₁) thinker₁ done₁
  obtain ⟨_, rfl, ended⟩ := last.thought_inv (Option.map_eq_some_iff.mp live₂) thinker₂ done₂
  cases ended
  refine ⟨m, _, m₂, reachable, plays, runs, ⟨2, m₁, some 2⟩, by simp, rfl, cancelled, ?_⟩
  rintro ⟨next, at', after, -⟩
  cases cancelled.symm.trans at'
  exact absurd after (by decide)

end QuakeProgs
