/-
  File:      QuakeProgs/Proofs/Machine/Evolution.lean
  Subject:   WHAT RUNNING CODE LEAVES ALONE, and how it may fail.

  Said once for all statements and builtins, so that every later argument about a run reads it from
  here:

  * `Machine.Evolves` -- the program, the sizes and the switches are the same; while the world is
    closed, entity zero is the same, word for word;
  * `Machine.Stays` -- besides, both stacks and the registers are the same;
  * `Machine.Admits` -- the failures that running code can have. None of them is an access outside the
    globals, a stack that runs empty, or a fault of the image;
  * `Engine.Quiet` -- an action that stays, and fails only in an admitted way;
  * the elementary actions are quiet, each where the words it touches are there.
-/
import QuakeProgs.Proofs.Machine.Outcome
import QuakeProgs.Proofs.Store.Records

namespace QuakeProgs

/-! ## 1. The relations. -/

namespace StringTable

/-- The slot that is written next is one of the ring's. -/
def CursorFits (t : StringTable) : Prop := t.slots ≠ 0 → t.nextSlot < t.slots

/-- The same regions in the same places. -/
structure SameRegions (t t' : StringTable) : Prop where
  baseSize : t'.baseSize = t.baseSize
  slots : t'.slots = t.slots
  slotSize : t'.slotSize = t.slotSize
  capacity : t'.capacity = t.capacity

theorem SameRegions.refl (t : StringTable) : t.SameRegions t := ⟨rfl, rfl, rfl, rfl⟩

theorem SameRegions.trans {t t' t'' : StringTable} (h : t.SameRegions t') (h' : t'.SameRegions t'') :
    t.SameRegions t'' :=
  ⟨h'.baseSize.trans h.baseSize, h'.slots.trans h.slots, h'.slotSize.trans h.slotSize,
    h'.capacity.trans h.capacity⟩

theorem SameRegions.keptStart {t t' : StringTable} (h : t.SameRegions t') :
    t'.keptStart = t.keptStart := by
  rw [StringTable.keptStart, h.baseSize, h.slots, h.slotSize, StringTable.keptStart]

theorem sameRegions_addKept (t : StringTable) (s : Bytes) : t.SameRegions (t.addKept s) := by
  unfold addKept
  dsimp only
  split <;> exact ⟨rfl, rfl, rfl, rfl⟩

theorem sameRegions_addTemp (t : StringTable) (s : Bytes) : t.SameRegions (t.addTemp s) := by
  unfold addTemp
  split
  · exact sameRegions_addKept t s
  · exact ⟨rfl, rfl, rfl, rfl⟩

theorem sameRegions_putTemp (t : StringTable) (s : Bytes) : t.SameRegions (t.putTemp s) := by
  unfold putTemp
  split
  · exact sameRegions_addTemp t s
  · split
    · exact sameRegions_addKept t s
    · exact .refl t

theorem CursorFits.addKept {t : StringTable} (h : t.CursorFits) (s : Bytes) :
    (t.addKept s).CursorFits := by
  unfold StringTable.addKept
  dsimp only
  split <;> exact h

theorem CursorFits.addTemp {t : StringTable} (h : t.CursorFits) (s : Bytes) :
    (t.addTemp s).CursorFits := by
  unfold StringTable.addTemp
  split
  · exact h.addKept s
  · exact fun hs => Nat.mod_lt _ (Nat.pos_of_ne_zero hs)

theorem CursorFits.putTemp {t : StringTable} (h : t.CursorFits) (s : Bytes) :
    (t.putTemp s).CursorFits := by
  unfold StringTable.putTemp
  split
  · exact h.addTemp s
  · split
    · exact h.addKept s
    · exact h

/-- The slot that is written next lies before the kept strings. -/
theorem CursorFits.slotEnd_le {t : StringTable} (h : t.CursorFits) (ring : t.hasRing = true) :
    t.slotStart + t.slotSize ≤ t.keptStart := by
  have hslots : t.slots ≠ 0 := by
    intro h0
    simp [hasRing, h0] at ring
  have slot := Nat.mul_le_mul_right t.slotSize (Nat.succ_le_of_lt (h hslots))
  rw [Nat.succ_mul] at slot
  rw [slotStart, keptStart]
  omega

end StringTable

namespace Machine

/-- Program code may not write to entity zero. -/
def WorldClosed (m : Machine) : Prop := m.phase = .active ∧ m.legacy = false

/-- The blob and the ring end where a string reference still reaches. -/
def RingFits (m : Machine) : Prop := m.strings.keptStart < 0x80000000

/-- **What code cannot change**: `m` comes from `m₀` by running code. -/
structure Evolves (m₀ m : Machine) : Prop where
  config : m.config = m₀.config
  program : m.program = m₀.program
  registry : m.registry = m₀.registry
  builtins : m.builtins = m₀.builtins
  hot : m.hot = m₀.hot
  phase : m.phase = m₀.phase
  legacy : m.legacy = m₀.legacy
  limit : m.calls.limit = m₀.calls.limit
  capacity : m.locals.capacity = m₀.locals.capacity
  globals : m.globals.size = m₀.globals.size
  regions : m₀.strings.SameRegions m.strings
  cursor : m.strings.CursorFits
  edicts : m.edicts.Tiled
  world : m₀.WorldClosed → m.edicts.get? 0 = m₀.edicts.get? 0

/-- **What a statement without a call or return cannot change either**: the stacks and registers. -/
structure Stays (m₀ m : Machine) : Prop extends Evolves m₀ m where
  calls : m.calls = m₀.calls
  locals : m.locals = m₀.locals
  state : m.state = m₀.state
  current : m.current = m₀.current
  statement : m.statement = m₀.statement
  argc : m.argc = m₀.argc

variable {m₀ m₁ m : Machine}

theorem Evolves.closed (h : m₀.Evolves m) : m.WorldClosed ↔ m₀.WorldClosed := by
  rw [WorldClosed, h.phase, h.legacy, WorldClosed]

theorem Evolves.ringFits (h : m₀.Evolves m) : m.RingFits ↔ m₀.RingFits := by
  rw [RingFits, h.regions.keptStart, RingFits]

theorem Evolves.refl (hc : m.strings.CursorFits) (he : m.edicts.Tiled) : m.Evolves m :=
  ⟨rfl, rfl, rfl, rfl, rfl, rfl, rfl, rfl, rfl, rfl, .refl _, hc, he, fun _ => rfl⟩

theorem Evolves.trans (h : m₀.Evolves m₁) (h' : m₁.Evolves m) : m₀.Evolves m where
  config := h'.config.trans h.config
  program := h'.program.trans h.program
  registry := h'.registry.trans h.registry
  builtins := h'.builtins.trans h.builtins
  hot := h'.hot.trans h.hot
  phase := h'.phase.trans h.phase
  legacy := h'.legacy.trans h.legacy
  limit := h'.limit.trans h.limit
  capacity := h'.capacity.trans h.capacity
  globals := h'.globals.trans h.globals
  regions := h.regions.trans h'.regions
  cursor := h'.cursor
  edicts := h'.edicts
  world hc := (h'.world (h.closed.mpr hc)).trans (h.world hc)

theorem Stays.refl (hc : m.strings.CursorFits) (he : m.edicts.Tiled) : m.Stays m :=
  ⟨.refl hc he, rfl, rfl, rfl, rfl, rfl, rfl⟩

/-- **How running code may fail.** A text that does not fit into a slot number is the one internal
    error, and needs a ring beyond the reach of references. -/
def Admits (m : Machine) : Cause → Prop
  | .nullFunctionCall | .functionOutOfRange .. | .stackOverflow _ | .localStackOverflow ..
  | .badBuiltin _ | .worldWrite | .runawayLoop _ | .badField .. | .badEdict .. | .badPointer _
  | .badString _ | .stringTableFull _ | .noFreeEdicts _ | .programError _ => True
  | .internal _ => ¬ m.RingFits
  | _ => False

theorem Evolves.admits (h : m₀.Evolves m) {c : Cause} (hc : m.Admits c) : m₀.Admits c := by
  cases c with
  | internal text => exact fun fits => hc (h.ringFits.mpr fits)
  | _ => exact hc

end Machine

namespace Engine

variable {α β : Type} {m₀ : Machine}

/-- **An action that stays where it is**, from any machine that stayed with `m₀`, and fails only in an
    admitted way. -/
def Quiet (m₀ : Machine) (act : Engine α) : Prop :=
  ∀ m, m₀.Stays m →
    Ends act m (fun _ m' => m₀.Stays m') (fun e m' => m₀.Stays m' ∧ m₀.Admits e.cause)

/-! ## 2. Putting quiet actions together. -/

theorem Quiet.pure (a : α) : Quiet m₀ (Pure.pure a) := fun _ h => h

theorem Quiet.bind {x : Engine β} {f : β → Engine α} (hx : Quiet m₀ x) (hf : ∀ b, Quiet m₀ (f b)) :
    Quiet m₀ (x >>= f) :=
  fun m h => ends_bind ((hx m h).mono (fun b m' h' => hf b m' h') fun _ _ h' => h')

theorem Quiet.get : Quiet m₀ (MonadState.get : Engine Machine) := fun _ h => h

theorem Quiet.fail {c : Cause} (hc : m₀.Admits c) : Quiet m₀ (Engine.fail c : Engine α) :=
  fun _ h => ⟨h, hc⟩

theorem Quiet.modify {f : Machine → Machine} (hf : ∀ m, m₀.Stays m → m₀.Stays (f m)) :
    Quiet m₀ (modify f) :=
  fun m h => hf m h

theorem Quiet.modifyGet {f : Machine → α × Machine} (hf : ∀ m, m₀.Stays m → m₀.Stays (f m).2) :
    Quiet m₀ (modifyGet f : Engine α) :=
  fun m h => hf m h

theorem Quiet.reads {f : Machine → Except Error α}
    (hf : ∀ m, m₀.Stays m → ∀ e, f m = .error e → m₀.Admits e.cause) : Quiet m₀ (reads f) :=
  fun m h => ends_reads (fun _ _ => h) fun e he => ⟨h, hf m h e he⟩

theorem Quiet.update {check : Machine → Except Error α} {change : α → Machine → Machine}
    (hok : ∀ m, m₀.Stays m → ∀ a, check m = .ok a → m₀.Stays (change a m))
    (herr : ∀ m, m₀.Stays m → ∀ e, check m = .error e → m₀.Admits e.cause) :
    Quiet m₀ (update check change) :=
  fun m h => ends_update (fun a ha => hok m h a ha) fun e he => ⟨h, herr m h e he⟩

theorem Quiet.ite {c : Prop} [Decidable c] {x y : Engine α} (hx : c → Quiet m₀ x)
    (hy : ¬ c → Quiet m₀ y) : Quiet m₀ (if c then x else y) := by
  split
  · next h => exact hx h
  · next h => exact hy h

theorem Quiet.forIn {l : List β} {f : β → PUnit → Engine (ForInStep PUnit)}
    (hf : ∀ b u, Quiet m₀ (f b u)) (u : PUnit) : Quiet m₀ (forIn l u f) := by
  induction l generalizing u with
  | nil => exact .pure _
  | cons b l ih =>
    rw [List.forIn_cons]
    refine (hf b u).bind fun step => ?_
    cases step with
    | done u' => exact .pure _
    | yield u' => exact ih u'

end Engine

/-! ## 3. The elementary actions. -/

namespace GlobalBlock

variable {g : GlobalBlock} {ofs n : Nat} {e : Error}

theorem get_ne_error (h : ofs < g.size) : g.get ofs ≠ .error e := by
  rw [get, Array.getElem?_eq_getElem h]
  nofun

theorem float_ne_error (h : ofs < g.size) : g.float ofs ≠ .error e := by
  rw [float, get, Array.getElem?_eq_getElem h]
  nofun

/-- The words of a run that lies inside the block. -/
theorem slice_of_le (h : ofs + n ≤ g.size) : g.slice ofs n = .ok (g.words.extract ofs (ofs + n)) := by
  rw [slice, Block.slice?, if_pos (show ofs + n ≤ g.words.size from h)]

theorem size_extract_of_le (h : ofs + n ≤ g.size) : (g.words.extract ofs (ofs + n)).size = n := by
  have : ofs + n ≤ g.words.size := h
  rw [Array.size_extract]
  omega

theorem slice_ne_error (h : ofs + n ≤ g.size) : g.slice ofs n ≠ .error e := by
  rw [slice_of_le h]
  nofun

theorem vector_ne_error (h : ofs + 3 ≤ g.size) : g.vector ofs ≠ .error e := by
  rw [vector, slice_of_le h]
  nofun

theorem check_ne_error (h : ofs + n ≤ g.size) : g.check ofs n ≠ .error e := by
  rw [check, if_pos h]
  nofun

@[simp] theorem size_overwrite (ws : List Word) : (g.overwrite ofs ws).size = g.size :=
  Block.size_writeFrom _ _ _

end GlobalBlock

namespace Engine

variable {m₀ : Machine} {ofs n : Nat}

theorem word_quiet (h : ofs < m₀.globals.size) : Quiet m₀ (word ofs) :=
  .reads fun _ hm _ he => absurd he (GlobalBlock.get_ne_error (hm.globals ▸ h))

theorem float_quiet (h : ofs < m₀.globals.size) : Quiet m₀ (float ofs) :=
  .reads fun _ hm _ he => absurd he (GlobalBlock.float_ne_error (hm.globals ▸ h))

theorem vector_quiet (h : ofs + 3 ≤ m₀.globals.size) : Quiet m₀ (vector ofs) :=
  .reads fun _ hm _ he => absurd he (GlobalBlock.vector_ne_error (hm.globals ▸ h))

theorem slice_quiet (h : ofs + n ≤ m₀.globals.size) : Quiet m₀ (slice ofs n) :=
  .reads fun _ hm _ he => absurd he (GlobalBlock.slice_ne_error (hm.globals ▸ h))

theorem write_quiet {ws : List Word} (h : ofs + ws.length ≤ m₀.globals.size) :
    Quiet m₀ (write ofs ws) := by
  refine .update (fun m hm _ _ => ?_) fun m hm e he => ?_
  · exact { hm with globals := (GlobalBlock.size_overwrite ws).trans hm.globals }
  · exact absurd he (GlobalBlock.check_ne_error (hm.globals ▸ h))

theorem setWord_quiet {w : Word} (h : ofs < m₀.globals.size) : Quiet m₀ (setWord ofs w) :=
  write_quiet h

theorem setFloat_quiet {x : Single} (h : ofs < m₀.globals.size) : Quiet m₀ (setFloat ofs x) :=
  setWord_quiet h

theorem setFlag_quiet {b : Bool} (h : ofs < m₀.globals.size) : Quiet m₀ (setFlag ofs b) :=
  setWord_quiet h

theorem setVector_quiet {v : Vec3} (h : ofs + 3 ≤ m₀.globals.size) : Quiet m₀ (setVector ofs v) :=
  write_quiet h

theorem tell_quiet (ev : Event) : Quiet m₀ (tell ev) := .modify fun _ hm => { hm with }

/-! ## 4. Entities. -/

/-- A look-up fails for want of the entity only. -/
theorem get_error {s : EdictStore} {id : EdictId} {e : Error} (h : s.get id = .error e) :
    e.cause = .badEdict id.toNat s.count := by
  unfold EdictStore.get at h
  split at h
  · cases h
  · cases h; rfl

theorem edict_quiet (id : EdictId) : Quiet m₀ (edict id) :=
  .reads fun m _ e he => by rw [get_error (s := m.edicts) he]; trivial

/-- Reading words of an entity fails for want of the entity or of the field. -/
theorem words_error {s : EdictStore} {id : EdictId} {e : Error}
    (h : (do (← s.get id).words ofs n : Except Error (Array Word)) = .error e) : m₀.Admits e.cause := by
  cases hg : s.get id with
  | error e' =>
    rw [hg] at h
    cases h
    rw [get_error hg]
    trivial
  | ok rec =>
    rw [hg] at h
    simp only [bind, Except.bind, Edict.words] at h
    split at h
    · cases h
    · cases h; trivial

theorem checkWrite_error {s : EdictStore} {id : EdictId} {e : Error}
    (h : s.checkWrite id ofs n = .error e) : m₀.Admits e.cause := by
  unfold EdictStore.checkWrite at h
  cases hg : s.get id with
  | error e' =>
    rw [hg] at h
    cases h
    rw [get_error hg]
    trivial
  | ok rec =>
    rw [hg] at h
    simp only [bind, Except.bind, Edict.check] at h
    split at h
    · cases h
    · cases h; trivial

/-- Writing to a field: never of the world while that is closed. -/
theorem writeField_quiet {id : EdictId} {ws : List Word} (h : id = 0 → ¬ m₀.WorldClosed) :
    Quiet m₀ (writeField id ofs ws) := by
  refine .update (fun m hm _ _ => ?_) fun m _ e he => checkWrite_error he
  refine { hm with edicts := hm.edicts.modify _ _, world := fun hc => ?_ }
  have hid : id.toNat ≠ 0 := fun h0 => h (UInt32.toNat.inj h0) hc
  exact (hm.edicts.world_modify hid (keepsWidth_overwrite _ _ _)).trans (hm.world hc)

theorem spawn_quiet : Quiet m₀ spawn := by
  refine Quiet.bind (.update (fun m hm i hi => ?_) fun m _ e he => ?_) fun _ => .pure _
  · refine { hm with edicts := hm.edicts.occupy i, world := fun hc => ?_ }
    exact (hm.edicts.world_occupy (hm.edicts.vacancy_ne_zero hi)).trans (hm.world hc)
  · unfold EdictStore.vacancy at he
    split at he
    · cases he
    · split at he
      · cases he; trivial
      · cases he

theorem remove_quiet (id : EdictId) : Quiet m₀ (remove id) := by
  refine (edict_quiet id).bind fun _ => (tell_quiet _).bind fun _ => Quiet.get.bind fun _ => ?_
  refine .update (fun m hm _ hr => ?_) fun m _ e he => ?_
  · have hid : id.toNat ≠ 0 := by
      intro h0
      rw [EdictStore.checkRelease, if_pos (UInt32.toNat.inj h0)] at hr
      cases hr
    refine { hm with edicts := hm.edicts.modify _ _, world := fun hc => ?_ }
    exact (hm.edicts.world_modify hid (keepsWidth_clear _ _ _)).trans (hm.world hc)
  · unfold EdictStore.checkRelease at he
    split at he
    · cases he; trivial
    · cases hg : m.edicts.get id with
      | error e' =>
        rw [hg] at he
        cases he
        rw [get_error hg]
        trivial
      | ok rec => rw [hg] at he; cases he

/-- After the check, the entity may be written to. -/
theorem checkWorldWrite_quiet {α : Type} {id : EdictId} {f : PUnit → Engine α}
    (hf : (id = 0 → ¬ m₀.WorldClosed) → Quiet m₀ (f ⟨⟩)) : Quiet m₀ (checkWorldWrite id >>= f) := by
  intro m hm
  refine ends_bind (ends_bind (ends_get ?_))
  by_cases hc : id = 0 ∧ m.phase = .active ∧ ¬ m.legacy
  · rw [if_pos hc]
    exact ⟨hm, trivial⟩
  · rw [if_neg hc]
    refine hf (fun h0 hw => hc ⟨h0, ?_⟩) m hm
    rw [← hm.closed] at hw
    exact ⟨hw.1, by simp [hw.2]⟩

/-! ## 5. Strings. -/

theorem get_string_error {t : StringTable} {r : StringRef} {e : Error} (h : t.get r = .error e) :
    e.cause = .badString r.toInt := by
  unfold StringTable.get at h
  split at h
  · cases h
  · cases h; rfl

theorem string_quiet (r : StringRef) : Quiet m₀ (string r) :=
  .reads fun m _ e he => by rw [get_string_error (t := m.strings) he]; trivial

theorem keptRef_error {t : StringTable} {s : Bytes} {e : Error} (h : t.keptRef s = .error e) :
    e.cause = .stringTableFull t.capacity := by
  unfold StringTable.keptRef at h
  dsimp only at h
  split at h
  · cases h
  · split at h
    · cases h; rfl
    · cases h

theorem temp_quiet (s : Bytes) : Quiet m₀ (temp s) := by
  intro m hm
  have written : m₀.Stays { m with strings := m.strings.putTemp s } :=
    { hm with
      regions := hm.regions.trans (StringTable.sameRegions_putTemp _ s)
      cursor := hm.cursor.putTemp s }
  refine ends_bind (ends_get (ends_bind (ends_modify (ends_reads (fun _ _ => written) fun e he => ⟨written, ?_⟩))))
  unfold StringTable.tempRef at he
  split at he
  · rw [keptRef_error he]; trivial
  · split at he
    · next hring hfar =>
      -- the slot lies before the kept strings, so they too are out of reach
      cases he
      have := hm.cursor.slotEnd_le (by simpa using hring)
      intro hfits
      have hfits := hm.ringFits.mpr hfits
      rw [Machine.RingFits] at hfits
      omega
    · cases he

end Engine

end QuakeProgs
