/-
  File:      QuakeProgs/Proofs/Machine/Pointers.lean
  Subject:   POINTERS TO FIELDS, kept as plain words while entities come and go.

  A pointer is a number that a program may keep in a global or in a field for as long as it likes. It names an entity
  and a field of it as long as the image stays the same: records are as wide as the program says, and no record is
  ever given up, whatever is executed, spawned, removed, grown or restored meanwhile.

  * `Machine.MakesPointer` -- a statement makes a pointer;
  * `Machine.MayWrite` -- which entities a program may write to;
  * `Machine.Stored`, `ReadsBack` -- exactly the words behind the pointer were written, and they can be read back;
  * `Later.pointer_lasts` -- a pointer means the same entity and the same field in all that comes after.
-/
import QuakeProgs.Proofs.Machine.Operations
import QuakeProgs.Proofs.Store.Packing

namespace QuakeProgs

open Engine

/-! ## 1. The statements that work on entities. -/

namespace Machine

/-- The statement that runs next. -/
def StandsAt (m : Machine) (st : Statement) : Prop := m.program.statements[m.statement]? = some st

instance StandsAt.decidable (m : Machine) (st : Statement) : Decidable (m.StandsAt st) :=
  inferInstanceAs (Decidable (m.program.statements[m.statement]? = some st))

/-- **A statement makes the pointer `p`** to field `k` of entity `e`. -/
def MakesPointer (dispatch : Native → Engine Unit) (m : Machine) (e : EdictId) (k p : Word) (m' : Machine) : Prop :=
  ∃ st, m.StandsAt st ∧ st.op = .address ∧ m.globals.words[st.ga]? = some e ∧ m.globals.words[st.gb]? = some k ∧
    cycle dispatch m.statement m = .ok .next m' ∧ m'.globals.words[st.gc]? = some p

/-- **A program may write to an entity** that is not the world; to the world while it loads, and if its image is one
    of the exceptions. -/
def MayWrite (m : Machine) (e : EdictId) : Prop :=
  e ≠ 0 ∨ m.phase = .loading ∨ m.program.digest ∈ m.config.legacy

/-- **The `n` words of the first operand were stored** in entity `e`, from field `k` on, and nothing else has become
    of any record. -/
structure Stored (m : Machine) (st : Statement) (e : EdictId) (k n : Nat) (m' : Machine) : Prop where
  source : st.ga + n ≤ m.globals.size
  words : ∀ j, j < n → m'.edicts.word? e.toNat (k + j) = m.globals.words[st.ga + j]?
  others : m.edicts.Patched (fun i l => i = e.toNat ∧ k ≤ l ∧ l < k + n) m'.edicts

end Machine

/-- **A load of `n` words from field `k` of entity `e` gives `ws`**, in all that comes after, as long as no record has
    changed. -/
def ReadsBack (routines : Nat → Routine) (m : Machine) (e : EdictId) (k : Word) (n : Nat) (ws : Nat → Option Word) :
    Prop :=
  ∀ (nesting : Nat) (m₁ : Machine) (st : Statement) (s : Slot), Later routines m m₁ → m₁.edicts = m.edicts →
    m₁.StandsAt st → st.op = .load s → s.words = n → m₁.globals.words[st.ga]? = some e →
    m₁.globals.words[st.gb]? = some k →
    ∃ m₂, cycle (Dispatch.link routines nesting) m₁.statement m₁ = .ok .next m₂ ∧
      ∀ j, j < n → m₂.globals.words[st.gc + j]? = ws j

namespace Engine

variable {dispatch : Native → Engine Unit} {m m' : Machine} {st : Statement} {act : Engine Unit}

/-- A turn that goes on with the next statement is the statement's own action. -/
theorem turn_iff (standing : m.StandsAt st) (runs : step dispatch m.statement st = (do act; return .next)) :
    cycle dispatch m.statement m = .ok .next m' ↔ act (m.fetched m.statement) = .ok () m' := by
  rw [cycle_eq standing, runs]
  cases ran : act (m.fetched m.statement) with
  | ok _ n =>
    rw [bind_of_ok ran]
    exact ⟨fun h => by cases h; rfl, fun h => by cases h; rfl⟩
  | error e n =>
    rw [bind_of_error ran]
    exact ⟨nofun, nofun⟩

theorem step_address (pc : Nat) (op : st.op = .address) :
    step dispatch pc st = (do address st.ga st.gb st.gc; return .next) := by
  obtain ⟨_, a, b, c⟩ := st
  cases op
  rfl

theorem step_storeThrough (pc : Nat) {s : Slot} (op : st.op = .storeThrough s) :
    step dispatch pc st = (do storeThrough st.ga st.gb s.words; return .next) := by
  obtain ⟨_, a, b, c⟩ := st
  cases op
  rfl

theorem step_load (pc : Nat) {s : Slot} (op : st.op = .load s) :
    step dispatch pc st = (do load st.ga st.gb st.gc s.words; return .next) := by
  obtain ⟨_, a, b, c⟩ := st
  cases op
  rfl

/-- **A pointer is made** of an entity that the store has, and of a field of it. -/
theorem address_packs {a b c : Nat} :
    Ends (address a b c) m (fun _ m' => ∃ e k p, m.globals.words[a]? = some e ∧ m.globals.words[b]? = some k ∧
      (∃ record, m.edicts.get e = .ok record) ∧
      FieldPointer.encode ⟨e, k.toNat⟩ m.edicts.fieldWords = .ok p ∧ m'.globals.words[c]? = some p)
      fun _ _ => True := by
  refine ends_bind (ends_reads (fun e named => ?_) fun _ _ => trivial)
  refine ends_bind ((checkWorldWrite_reading e m).mono ?_ fun _ _ _ => trivial)
  rintro _ _ rfl
  refine ends_bind (ends_reads (fun record found => ?_) fun _ _ => trivial)
  refine ends_bind (ends_reads (fun k placed => ?_) fun _ _ => trivial)
  refine ends_bind (ends_reads (fun p packed => ?_) fun _ _ => trivial)
  refine (write_refills m c [p]).mono (fun _ m' written => ?_) fun _ _ _ => trivial
  refine ⟨e, k, p, GlobalBlock.getElem?_of_get named, GlobalBlock.getElem?_of_get placed, ⟨record, found⟩, packed, ?_⟩
  exact written.2 0 Nat.one_pos

/-- The check of the world passes exactly where the program may write. -/
theorem checkWorldWrite_ok_iff (sound : m.Sound) {id : EdictId} :
    checkWorldWrite id m = .ok () m ↔ m.MayWrite id := by
  have legacy : m.legacy = true ↔ m.program.digest ∈ m.config.legacy := by
    rw [sound.legacy, List.contains_iff_mem]
  have loading : m.phase = .loading ↔ ¬ m.phase = .active := by cases m.phase <;> decide
  rw [Machine.MayWrite, ← legacy, loading, checkWorldWrite, get_bind]
  by_cases refused : id = 0 ∧ m.phase = .active ∧ ¬ m.legacy
  · rw [if_pos refused]
    exact ⟨nofun, fun may => by grind⟩
  · rw [if_neg refused]
    exact ⟨fun _ => by grind, fun _ => rfl⟩

theorem not_ok_of_error {e : Error} {n : Machine} (h : act m = .error e n) : ¬ ∃ m', act m = .ok () m' := by
  rintro ⟨m', ok⟩
  cases h.symm.trans ok

/-- **When a store through a pointer succeeds.** -/
theorem storeThrough_ok_iff (sound : m.Sound) (furnished : m.Furnished) {a b n : Nat} {p : Word}
    {target : FieldPointer}
    (named : m.globals.words[b]? = some p)
    (decoded : FieldPointer.decode p m.edicts.fieldWords m.edicts.count = .ok target)
    (known : target.edict.toNat < m.edicts.count) (source : a + n ≤ m.globals.size) :
    (∃ m', storeThrough a b n m = .ok () m') ↔
      m.MayWrite target.edict ∧ target.field + n ≤ m.edicts.fieldWords := by
  have unpacked : reads (fun m => FieldPointer.decode p m.edicts.fieldWords m.edicts.count) m = .ok target m :=
    reads_of_ok decoded
  have sliced : slice a n m = .ok (m.globals.words.extract a (a + n)) m :=
    reads_of_ok (GlobalBlock.slice_of_le source)
  have length : (m.globals.words.extract a (a + n)).toList.length = n := by
    rw [Array.length_toList, GlobalBlock.size_extract_of_le source]
  rw [storeThrough, bind_of_ok (word_of_getElem? named), bind_of_ok unpacked]
  by_cases may : m.MayWrite target.edict
  · rw [bind_of_ok ((checkWorldWrite_ok_iff sound).mpr may), bind_of_ok sliced,
      ← checkWrite_ok_iff sound furnished known]
    cases checked : m.edicts.checkWrite target.edict target.field n with
    | ok _ =>
      rw [← length] at checked
      exact iff_of_true ⟨_, writeField_of_checked checked⟩ ⟨may, rfl⟩
    | error e =>
      have failed :
          writeField target.edict target.field (m.globals.words.extract a (a + n)).toList m = .error e m := by
        rw [writeField, update, length, checked]
      exact iff_of_false (not_ok_of_error failed) fun both => by cases both.2
  · cases checked : checkWorldWrite target.edict m with
    | ok _ n =>
      cases (checkWorldWrite_reading target.edict m).ok checked
      exact absurd ((checkWorldWrite_ok_iff sound).mp checked) may
    | error e n => exact iff_of_false (not_ok_of_error (bind_of_error checked)) fun both => may both.1

/-- **A load succeeds** where the store has the entity and the record has the words. -/
theorem load_ok (sound : m.Sound) (furnished : m.Furnished) {a b c n : Nat} {e k : Word}
    (entity : m.globals.words[a]? = some e) (field : m.globals.words[b]? = some k) (known : e.toNat < m.edicts.count)
    (room : k.toNat + n ≤ m.edicts.fieldWords) (place : c + n ≤ m.globals.size) :
    ∃ m', load a b c n m = .ok () m' := by
  obtain ⟨record, found, width⟩ := record_of_known sound furnished known
  have words : record.words k.toNat n = .ok (record.fields.extract k.toNat (k.toNat + n)) := by
    rw [Edict.words, Block.slice?, if_pos (by omega)]
  have read : reads (fun m => do (← m.edicts.get e).words k.toNat n) m =
      .ok (record.fields.extract k.toNat (k.toNat + n)) m := by
    refine reads_of_ok ?_
    rw [found]
    exact words
  have length : (record.fields.extract k.toNat (k.toNat + n)).toList.length = n := by
    rw [Array.length_toList, Array.size_extract]
    omega
  rw [load, bind_of_ok (word_of_getElem? entity), bind_of_ok (word_of_getElem? field), bind_of_ok read]
  exact ⟨_, write_of_room (length.symm ▸ place)⟩

/-- **A store through a pointer** writes the words behind it, and no others. -/
theorem stored_of_turn (sound : m.Sound) {s : Slot} {e : EdictId} {k : Nat} {p : Word} (standing : m.StandsAt st)
    (op : st.op = .storeThrough s) (named : m.globals.words[st.gb]? = some p)
    (decoded : FieldPointer.decode p m.edicts.fieldWords m.edicts.count = .ok ⟨e, k⟩)
    (turned : cycle dispatch m.statement m = .ok .next m') : m.Stored st e k s.words m' := by
  rw [turn_iff standing (step_storeThrough _ op)] at turned
  have framed := (storeThrough_framed (m := m.fetched m.statement) sound.edicts op).ok turned
  have unique : ∀ target, (m.fetched m.statement).Addresses st target → target = ⟨e, k⟩ := by
    rintro target ⟨p', named', decoded'⟩
    cases named.symm.trans named'
    exact Except.ok.inj (decoded'.symm.trans decoded)
  have source := (sound.program.statements m.statement st standing).a
  have moves := framed.moves
  rw [op] at source
  rw [Machine.Moves, op] at moves
  obtain ⟨target, addresses, words⟩ := moves
  cases unique target addresses
  refine ⟨source, words, framed.edicts.mono fun i l stores => ?_⟩
  rw [Machine.Stores, op] at stores
  obtain ⟨target, addresses, inside⟩ := stores
  cases unique target addresses
  exact inside

end Engine

/-! ## 2. Pointers last. -/

namespace Later

variable {routines : Nat → Routine} {registry : Registry} {m₀ m₁ m m' : Machine} {nesting : Nat} {e : EdictId}
  {k p : Word} {st : Statement} {s : Slot}

/-- What a pointer is made of is there. -/
theorem packed_of_makes (made : m₀.MakesPointer (Dispatch.link routines nesting) e k p m₁) :
    (∃ record, m₀.edicts.get e = .ok record) ∧
      FieldPointer.encode ⟨e, k.toNat⟩ m₀.edicts.fieldWords = .ok p := by
  obtain ⟨st, standing, op, entity, field, turned, pointer⟩ := made
  rw [turn_iff standing (step_address _ op)] at turned
  obtain ⟨e', k', p', entity', field', known, packed, pointer'⟩ := address_packs.ok turned
  cases entity.symm.trans entity'
  cases field.symm.trans field'
  cases pointer.symm.trans pointer'
  exact ⟨known, packed⟩

theorem of_makes (made : m₀.MakesPointer (Dispatch.link routines nesting) e k p m₁) : Later routines m₀ m₁ := by
  obtain ⟨st, -, -, -, -, turned, -⟩ := made
  exact .turned nesting .now (.inl ⟨_, turned⟩)

/-- **A pointer means the same** entity and the same field in all that comes after. -/
theorem decodes (host : ∀ key, (routines key).Operates) (sound : m₀.Sound) (furnished : m₀.Furnished)
    (made : m₀.MakesPointer (Dispatch.link routines nesting) e k p m₁) (later : Later routines m₀ m) :
    e.toNat < m.edicts.count ∧
      FieldPointer.decode p m.edicts.fieldWords m.edicts.count = .ok ⟨e, k.toNat⟩ := by
  obtain ⟨known, packed⟩ := packed_of_makes made
  have continues := later.continues host
  have same : m.edicts.fieldWords = m₀.edicts.fieldWords := by
    rw [(continues.furnished furnished).fieldWords, continues.program, furnished.fieldWords]
  have kept : e.toNat < m.edicts.count :=
    Nat.lt_of_lt_of_le ((sound.edicts.get_ok_iff e).mp known) (continues.count_le furnished)
  refine ⟨kept, ?_⟩
  rw [same]
  exact FieldPointer.decode_of_encode packed kept

/-- **What was stored can be read back.** -/
theorem readsBack (host : ∀ key, (routines key).Operates) (sound : m'.Sound) (furnished : m'.Furnished)
    (known : e.toNat < m'.edicts.count) (room : k.toNat + s.words ≤ m'.edicts.fieldWords)
    (stored : m.Stored st e k.toNat s.words m') :
    ReadsBack routines m' e k s.words fun j => m.globals.words[st.ga + j]? := by
  intro nesting n at' slot later same standing op width entity field
  have sound' := later.sound host sound
  have furnished' := (later.continues host).furnished furnished
  have place := (sound'.program.statements n.statement at' standing).c
  rw [op] at place
  rw [← same] at known room
  rw [← width] at room
  let fetched := n.fetched n.statement
  have ready : fetched.Sound := { sound' with }
  have full : fetched.Furnished := ⟨furnished'.hot, furnished'.fields, furnished'.edicts⟩
  obtain ⟨n', loaded⟩ := load_ok ready full entity field known room place
  refine ⟨n', (turn_iff standing (step_load _ op)).mpr loaded, fun j hj => ?_⟩
  have moves := ((load_framed (m := fetched) op).ok loaded).moves
  rw [Machine.Moves, op] at moves
  obtain ⟨e', k', entity', field', words⟩ := moves
  cases entity.symm.trans entity'
  cases field.symm.trans field'
  rw [words j (width ▸ hj)]
  show n.edicts.word? e.toNat (k.toNat + j) = _
  rw [same]
  exact stored.words j hj

/-- **Pointers last.** Where the builtins of the host act through operations, a pointer that a statement has made
    means the same entity and the same field in all that comes after, as long as the image stays. A store through it
    succeeds exactly where the program may write to the entity and the record has the words; then these words can be
    read back, and no other word and no header of any record has changed. -/
theorem pointer_lasts (host : ∀ key, (routines key).Operates) (h : Reachable routines registry m₀)
    (made : m₀.MakesPointer (Dispatch.link routines nesting) e k p m₁) (later : Later routines m₁ m) :
    FieldPointer.decode p m.edicts.fieldWords m.edicts.count = .ok ⟨e, k.toNat⟩ ∧
    ∀ (depth : Nat) (st : Statement) (s : Slot), m.StandsAt st → st.op = .storeThrough s →
      m.globals.words[st.gb]? = some p →
      ((∃ m', cycle (Dispatch.link routines depth) m.statement m = .ok .next m') ↔
        m.MayWrite e ∧ k.toNat + s.words ≤ m.edicts.fieldWords) ∧
      ∀ m', cycle (Dispatch.link routines depth) m.statement m = .ok .next m' →
        m.Stored st e k.toNat s.words m' ∧
        ReadsBack routines m' e k s.words fun j => m.globals.words[st.ga + j]? := by
  have sound₀ := h.orderly host
  have furnished₀ := h.furnished host
  have later₀ : Later routines m₀ m := (of_makes made).trans later
  have sound := later₀.sound host sound₀
  have furnished := (later₀.continues host).furnished furnished₀
  obtain ⟨known, decoded⟩ := decodes host sound₀ furnished₀ made later₀
  refine ⟨decoded, fun depth st s standing op named => ?_⟩
  let fetched := m.fetched m.statement
  have source := (sound.program.statements m.statement st standing).a
  rw [op] at source
  have succeeds := storeThrough_ok_iff (m := fetched) { sound with }
    ⟨furnished.hot, furnished.fields, furnished.edicts⟩ named decoded known source
  have iff : (∃ m', cycle (Dispatch.link routines depth) m.statement m = .ok .next m') ↔
      m.MayWrite e ∧ k.toNat + s.words ≤ m.edicts.fieldWords :=
    (exists_congr fun m' => turn_iff standing (step_storeThrough _ op)).trans succeeds
  refine ⟨iff, fun m' turned => ?_⟩
  have after : Later routines m₀ m' := .turned depth later₀ (.inl ⟨_, turned⟩)
  have stored := stored_of_turn sound standing op named decoded turned
  refine ⟨stored, readsBack host (after.sound host sound₀) ((after.continues host).furnished furnished₀) ?_ ?_ stored⟩
  · exact (decodes host sound₀ furnished₀ made after).1
  · rw [stored.others.fieldWords]
    exact (iff.mp ⟨m', turned⟩).2

/-- The statement succeeds and control goes on after it, and then `P` holds. -/
def GoesOn (dispatch : Native → Engine Unit) (m : Machine) (P : Machine → Prop) : Prop :=
  Ends (cycle dispatch m.statement) m (fun flow m' => flow = .next ∧ P m') fun _ _ => False

instance GoesOn.decidable (dispatch : Native → Engine Unit) (m : Machine) (P : Machine → Prop) [DecidablePred P] :
    Decidable (GoesOn dispatch m P) :=
  inferInstanceAs (Decidable
    (Ends (cycle dispatch m.statement) m (fun flow m' => flow = .next ∧ P m') fun _ _ => False))

/-- A program that makes a pointer to field 1 of entity 1, stores the words 7, 8 and 9 through it and loads them
    again. -/
def pointing : ImageBuilder :=
  { statements := #[{}, { op := 30, a := 92, b := 93, c := 94 }, { op := 38, a := 95, b := 94 },
      { op := 25, a := 92, b := 93, c := 98 }, { op := 43 }]
    functions := #[{}, { firstStatement := 1, parmStart := 92 }]
    globals := Array.replicate 92 0 ++ #[1, 1, 0, 7, 8, 9, 0, 0, 0]
    entityFields := 5 }

/-- The pointer is made while there are two entities, and used when there are five. -/
theorem pointer_lasts_grown : (∀ key, ((default : Nat → Routine) key).Operates) ∧ ∃ m₀ m₁ m m',
    Reachable default .core m₀ ∧ m₀.MakesPointer (Dispatch.link default 0) 1 1 6 m₁ ∧ Later default m₁ m ∧
    m₁.edicts.count = 2 ∧ m.edicts.count = 5 ∧
    FieldPointer.decode 6 m.edicts.fieldWords m.edicts.count = .ok ⟨1, 1⟩ ∧
    cycle (Dispatch.link default 0) m.statement m = .ok .next m' ∧
    m.Stored ⟨.storeThrough .vector, 95, 94, 0⟩ 1 1 3 m' ∧
    ReadsBack default m' 1 1 3 fun j => m.globals.words[95 + j]? := by
  have loads : Machine.Loads pointing.build .small { store := { initial := 2, max := 8, reserved := 1 } } .core
      fun m =>
      Ends (enter 1) m.started (fun entry m => (m.moveTo entry).StandsAt ⟨.address, 92, 93, 94⟩ ∧
        m.globals.words[92]? = some 1 ∧ m.globals.words[93]? = some 1 ∧
        GoesOn (Dispatch.link default 0) (m.moveTo entry) fun m₁ =>
          m₁.globals.words[94]? = some 6 ∧ m₁.edicts.count = 2 ∧ (m₁.edicts.grow 3).count = 5 ∧
          (m₁.moveTo 2).StandsAt ⟨.storeThrough .vector, 95, 94, 0⟩ ∧
          GoesOn (Dispatch.link default 0) { m₁.moveTo 2 with edicts := m₁.edicts.grow 3 } fun _ => True)
        fun _ _ => False := by
    decide +kernel
  have host : ∀ key, ((default : Nat → Routine) key).Operates := fun _ => .pure ()
  obtain ⟨fresh, reachable, enters⟩ := loads.reachable default
  obtain ⟨entry, m₀, entered, standing, entity, field, makes⟩ := enters.exists_ok
  obtain ⟨_, m₁, turned, rfl, pointer, two, five, standing', stores⟩ := makes.exists_ok
  obtain ⟨_, m', turned', rfl, -⟩ := stores.exists_ok
  have within : Reachable default .core (m₀.moveTo entry) := .within 0 reachable (.entered entered)
  have made : (m₀.moveTo entry).MakesPointer (Dispatch.link default 0) 1 1 6 m₁ :=
    ⟨_, standing, rfl, entity, field, turned, pointer⟩
  have grown : Later default m₁ { m₁ with edicts := m₁.edicts.grow 3 } :=
    .command (.grow 3) rfl .now (.inl ⟨(), rfl⟩)
  have later : Later default m₁ { m₁.moveTo 2 with edicts := m₁.edicts.grow 3 } :=
    .control m₁.host m₁.calls.frames m₁.locals.words m₁.current 2 m₁.argc m₁.state m₁.profile grown
  obtain ⟨decoded, stored⟩ := pointer_lasts host within made later
  obtain ⟨-, stored⟩ := stored 0 _ .vector standing' rfl pointer
  exact ⟨host, _, m₁, _, m', within, made, later, two, five, decoded, turned', stored m' turned'⟩

end Later

end QuakeProgs
