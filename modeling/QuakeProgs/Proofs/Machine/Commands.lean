/-
  File:      QuakeProgs/Proofs/Machine/Commands.lean
  Subject:   WHAT A HOST CAN DO TO A MACHINE between executions, and from within a builtin.

  * `Command`, `Command.perform` -- one operation of the host: on the globals, the entities, the strings,
    the switches, a saved state or the program;
  * `Machine.sound_new` -- a machine with a fresh image is in order;
  * `Command.perform_ends` -- every command keeps the stacks and the program, except that a machine at
    rest may be given another image.
-/
import QuakeProgs.Proofs.Machine.Run
import QuakeProgs.Snapshot

namespace QuakeProgs

/-! ## 1. The commands. -/

/-- An operation of the host. -/
inductive Command where
  /-- Starts over with another image. -/
  | replace (bytes : Bytes) (options : LoadOptions)
  | restore (saved : Snapshot)
  | attach (host : Host)
  | setPhase (phase : Phase)
  | setTracing (on : Bool)
  | resetProfile
  | write (ofs : Nat) (ws : List Word)
  | setGlobal (name : String) (v : Value)
  | field (id : EdictId) (name : String) (type : ValueType)
  | setField (id : EdictId) (name : String) (v : Value)
  | writeField (id : EdictId) (ofs : Nat) (ws : List Word)
  | setHeader (id : EdictId) (free : Bool) (freeTime : Single)
  | spawn
  | remove (id : EdictId)
  | alloc (time : Single)
  | release (id : EdictId) (time : Single)
  | grow (n : Nat)
  | resetEdicts
  | restoreEdicts (saved : StoreSnapshot)
  | keep (s : Bytes)
  | temp (s : Bytes)
  | restoreStrings (saved : Bytes)

namespace Command

/-- What a command does. -/
def perform : Command → Engine Unit
  | .replace bytes options => discard <| Engine.update
      (fun m => do m.replaceProgram (← Image.load bytes options)) fun m' _ => m'
  | .restore saved => discard <| Engine.update saved.apply fun m' _ => m'
  | .attach host => modify fun m => { m with host }
  | .setPhase phase => modify fun m => { m with phase }
  | .setTracing on => modify fun m => { m with tracing := on }
  | .resetProfile => modify fun m => { m with profile := m.profile.reset }
  | .write ofs ws => Engine.write ofs ws
  | .setGlobal name v => Engine.setGlobal name v
  | .field id name type => discard <| Engine.field id name type
  | .setField id name v => discard <| Engine.setField id name v
  | .writeField id ofs ws => Engine.writeField id ofs ws
  | .setHeader id free freeTime => do
    let _ ← Engine.edict id
    modify fun m => { m with edicts := m.edicts.modify id.toNat fun e => { e with free, freeTime } }
  | .spawn => discard Engine.spawn
  | .remove id => Engine.remove id
  | .alloc time => discard <| Engine.update (·.edicts.vacancy time) fun i m =>
      { m with edicts := m.edicts.occupy i }
  | .release id time => Engine.update (·.edicts.checkRelease id) fun _ m =>
      { m with edicts := m.edicts.free id time }
  | .grow n => modify fun m => { m with edicts := m.edicts.grow n }
  | .resetEdicts => modify fun m => { m with edicts := m.edicts.reset }
  | .restoreEdicts saved => discard <| Engine.update (·.edicts.restore saved) fun edicts m =>
      { m with edicts }
  | .keep s => discard <| Engine.keep s
  | .temp s => discard <| Engine.temp s
  | .restoreStrings saved => discard <| Engine.update (·.strings.restoreRuntime saved) fun strings m =>
      { m with strings }

end Command

/-! ## 2. Actions that keep a machine. -/

namespace Machine

variable {m m' : Machine}

theorem Keeps.refl (h : m.Sound) : m.Keeps m :=
  (Stays.refl h.cursor h.edicts).glides.keeps

theorem Sound.keeps (h : m.Sound) (k : m.Keeps m') : m'.Sound := h.persists k.toPersists

/-- A change of the globals alone. -/
theorem Keeps.globals' (h : m.Sound) {globals : GlobalBlock} (hg : globals.size = m.globals.size) :
    m.Keeps { m with globals } := { Keeps.refl h with globals := hg }

/-- A change of the entities alone. -/
theorem Keeps.edicts' (h : m.Sound) {edicts : EdictStore} (he : edicts.Tiled) :
    m.Keeps { m with edicts } := { Keeps.refl h with edicts := he }

/-- A change of the strings alone. -/
theorem Keeps.strings' (h : m.Sound) {strings : StringTable} (hs : strings.CursorFits) :
    m.Keeps { m with strings } := { Keeps.refl h with cursor := hs }

end Machine

namespace Engine

variable {α β : Type}

/-- **An action that keeps a machine in order**, whether it succeeds or fails. -/
def Keeping (act : Engine α) : Prop :=
  ∀ m : Machine, m.Sound → Ends act m (fun _ m' => m.Keeps m') fun _ m' => m.Keeps m'

theorem Keeping.pure (a : α) : Keeping (Pure.pure a) := fun _ h => Machine.Keeps.refl h

theorem Keeping.bind {x : Engine β} {f : β → Engine α} (hx : Keeping x) (hf : ∀ b, Keeping (f b)) :
    Keeping (x >>= f) := by
  intro m h
  refine ends_bind ((hx m h).mono (fun b m₁ k => ?_) fun _ _ k => k)
  exact (hf b m₁ (h.keeps k)).mono (fun _ _ k' => k.trans k') fun _ _ k' => k.trans k'

theorem Keeping.get : Keeping (MonadState.get : Engine Machine) := fun _ h => Machine.Keeps.refl h

theorem Keeping.fail {c : Cause} : Keeping (Engine.fail c : Engine α) := fun _ h => Machine.Keeps.refl h

theorem Keeping.modify {f : Machine → Machine} (hf : ∀ m : Machine, m.Sound → m.Keeps (f m)) :
    Keeping (modify f) :=
  fun m h => hf m h

theorem Keeping.reads (f : Machine → Except Error α) : Keeping (reads f) :=
  fun _ h => ends_reads (fun _ _ => .refl h) fun _ _ => .refl h

theorem Keeping.update {check : Machine → Except Error α} {change : α → Machine → Machine}
    (hc : ∀ m, m.Sound → ∀ a, check m = .ok a → m.Keeps (change a m)) : Keeping (update check change) :=
  fun m h => ends_update (fun a ha => hc m h a ha) fun _ _ => .refl h

theorem Keeping.discard {act : Engine α} (h : Keeping act) : Keeping (discard act) :=
  h.bind fun _ => .pure _

/-- What stays for code stays for the host. -/
theorem Quiet.keeping {act : Engine α} (h : ∀ m, Quiet m act) : Keeping act := fun m hm =>
  (h m m (.refl hm.cursor hm.edicts)).mono (fun _ _ s => s.glides.keeps) fun _ _ s => s.1.glides.keeps

theorem write_keeping (ofs : Nat) (ws : List Word) : Keeping (write ofs ws) :=
  .update fun _ h _ _ => .globals' h (GlobalBlock.size_overwrite ws)

theorem writeField_keeping (id : EdictId) (ofs : Nat) (ws : List Word) : Keeping (writeField id ofs ws) :=
  .update fun _ h _ _ => .edicts' h (h.edicts.modify _ _)

theorem fieldOffset?_keeping (name : String) : Keeping (fieldOffset? name) := by
  intro m h
  exact { Machine.Keeps.refl h with }

theorem keep_keeping (s : Bytes) : Keeping (keep s) :=
  .update fun _ h _ _ => .strings' h (h.cursor.addKept s)

end Engine

/-- Restored strings leave the cursor of the ring where it is. -/
theorem StringTable.CursorFits.restoreRuntime {t t' : StringTable} (h : t.CursorFits) {saved : Bytes}
    (e : t.restoreRuntime saved = .ok t') : t'.CursorFits := by
  unfold StringTable.restoreRuntime at e
  dsimp only at e
  split at e
  · cases e
  · split at e
    · cases e
    · cases e
      exact h

/-- **What restoring does**: it takes over the entities, the strings and the globals, of which there are as
    many as in the machine. -/
theorem Snapshot.apply_eq_ok {saved : Snapshot} {m m' : Machine} (h : saved.apply m = .ok m') :
    ∃ edicts strings, m.edicts.restore saved.edicts = .ok edicts ∧
      m.strings.restoreRuntime saved.strings = .ok strings ∧ saved.globals.length = m.globals.size ∧
      m' = { m with edicts, strings, globals := ⟨saved.globals.toArray⟩ } := by
  unfold Snapshot.apply at h
  dsimp only at h
  split at h
  · cases h
  · split at h
    · cases h
    · split at h
      · cases h
      · next size =>
        cases he : m.edicts.restore saved.edicts with
        | error e => rw [he] at h; cases h
        | ok edicts =>
          rw [he] at h
          cases hs : m.strings.restoreRuntime saved.strings with
          | error e => rw [hs] at h; cases h
          | ok strings =>
            rw [hs] at h
            cases h
            exact ⟨edicts, strings, rfl, rfl, Decidable.not_not.mp size, rfl⟩

/-- A saved state has as many globals as the machine it is put into. -/
theorem Snapshot.apply_keeps {saved : Snapshot} {m m' : Machine} (h : m.Sound)
    (e : saved.apply m = .ok m') : m.Keeps m' := by
  obtain ⟨edicts, strings, he, hs, size, rfl⟩ := apply_eq_ok e
  exact { Machine.Keeps.refl h with
    globals := size ▸ List.size_toArray
    cursor := h.cursor.restoreRuntime hs
    edicts := h.edicts.restore he }

/-! ## 3. Fresh machines. -/

namespace Machine

variable {m m' : Machine}

theorem Balanced.same (h : m.Balanced) (k : m.SameStacks m') : m'.Balanced := by
  have entered : m'.entered = m.entered := by rw [Machine.entered, k.calls, k.current, Machine.entered]
  constructor
  · rw [k.calls]; exact h.depth
  · rw [k.locals]; exact h.used
  · rw [k.locals, entered, k.program]; exact h.saved

/-- Two empty stacks are balanced. -/
theorem balanced_of_empty (hc : m.calls.frames = #[]) (hl : m.locals.words = #[]) : m.Balanced := by
  have entered : m.entered = [] := by simp [Machine.entered, hc]
  constructor
  · simp [CallStack.depth, hc]
  · simp [LocalStack.used, hl]
  · simp [LocalStack.used, hl, entered]

theorem size_publish (p : Program) (t : BuiltinTable) (g : GlobalBlock) (entry : String × String) :
    (publish p t g entry).size = g.size := by
  unfold publish
  split
  · rfl
  · split
    · rfl
    · split
      · next g' hg' =>
        unfold GlobalBlock.setFloat GlobalBlock.set GlobalBlock.write at hg'
        simp only [bind, Except.bind] at hg'
        split at hg'
        · cases hg'
        · cases hg'
          exact GlobalBlock.size_overwrite _
      · rfl

/-- **A machine with a fresh image is in order**, and its stacks are empty. -/
theorem sound_new {image : Image} {options : LoadOptions} (h : image.Checked options) (config : Config)
    (registry : Registry) : (new image config registry).Sound ∧ (new image config registry).Balanced := by
  have size : (new image config registry).globals.size = image.globals.size := by
    simp only [new, install, published, List.foldl_cons, List.foldl_nil, size_publish]
  refine ⟨?_, balanced_of_empty rfl rfl⟩
  exact {
    program := by rw [size]; exact h.program
    cursor := by
      obtain ⟨blob, hs⟩ := h.strings
      intro hslots
      have : (new image config registry).strings = image.strings := rfl
      rw [this, hs] at hslots ⊢
      exact Nat.pos_of_ne_zero hslots
    edicts := .new _ _
    limit := rfl
    capacity := rfl
    legacy := rfl
    builtins := rfl }

/-- The machine was at rest and started over with another image. -/
def Replaced (m m' : Machine) : Prop :=
  m.state ≠ .running ∧ m'.registry = m.registry ∧ m'.Sound ∧ m'.Balanced

theorem replaced_of_replaceProgram {image : Image} {options : LoadOptions} (h : image.Checked options)
    (before : m.Sound) (hr : m.replaceProgram image = .ok m') : m.Replaced m' := by
  unfold replaceProgram at hr
  split at hr
  · cases hr
  · next hs =>
    cases hr
    obtain ⟨sound, -⟩ := sound_new h m.config m.registry
    exact ⟨hs, rfl, { sound with limit := before.limit, capacity := before.capacity }, balanced_of_empty rfl rfl⟩

end Machine

/-! ## 4. Every command. -/

namespace Command

open Engine in
/-- **Every command** keeps the stacks and the program, or gives a machine at rest another image; one
    that fails keeps them in any case. -/
theorem perform_ends (c : Command) {m : Machine} (h : m.Sound) :
    Ends c.perform m (fun _ m' => m.Keeps m' ∨ m.Replaced m') fun _ m' => m.Keeps m' := by
  have keeping : ∀ {act : Engine Unit}, Keeping act →
      Ends act m (fun _ m' => m.Keeps m' ∨ m.Replaced m') fun _ m' => m.Keeps m' :=
    fun ha => (ha m h).mono (fun _ _ k => .inl k) fun _ _ k => k
  cases c with
  | replace bytes options =>
    refine ends_bind (ends_update (fun m' hm' => ends_pure (.inr ?_)) fun _ _ => .refl h)
    cases hi : Image.load bytes options with
    | error e => rw [hi] at hm'; cases hm'
    | ok image =>
      rw [hi] at hm'
      exact Machine.replaced_of_replaceProgram (Image.load_checked hi) h hm'
  | restore saved => exact keeping (.discard (.update fun _ h _ hm' => Snapshot.apply_keeps h hm'))
  | attach host => exact keeping (.modify fun _ h => { Machine.Keeps.refl h with })
  | setPhase phase => exact keeping (.modify fun _ h => { Machine.Keeps.refl h with })
  | setTracing on => exact keeping (.modify fun _ h => { Machine.Keeps.refl h with })
  | resetProfile => exact keeping (.modify fun _ h => { Machine.Keeps.refl h with })
  | write ofs ws => exact keeping (write_keeping ofs ws)
  | setGlobal name v =>
    refine keeping (Keeping.get.bind fun m => ?_)
    cases m.program.findGlobal? name with
    | none => exact .fail
    | some d => exact write_keeping _ _
  | field id name type =>
    refine keeping (.discard ((fieldOffset?_keeping name).bind fun ofs => ?_))
    cases ofs with
    | none => exact .pure _
    | some ofs => exact (Keeping.reads _).bind fun _ => .pure _
  | setField id name v =>
    refine keeping (.discard ((fieldOffset?_keeping name).bind fun ofs => ?_))
    cases ofs with
    | none => exact .pure _
    | some ofs => exact (writeField_keeping _ _ _).bind fun _ => .pure _
  | writeField id ofs ws => exact keeping (writeField_keeping id ofs ws)
  | setHeader id free freeTime =>
    refine keeping ((Keeping.reads _).bind fun _ => .modify fun _ h => ?_)
    exact .edicts' h (h.edicts.modify _ _)
  | spawn => exact keeping (.discard (Quiet.keeping fun _ => spawn_quiet))
  | remove id => exact keeping (Quiet.keeping fun _ => remove_quiet id)
  | alloc time => exact keeping (.discard (.update fun _ h i _ => .edicts' h (h.edicts.occupy i)))
  | release id time => exact keeping (.update fun _ h _ _ => .edicts' h (h.edicts.modify _ _))
  | grow n => exact keeping (.modify fun _ h => .edicts' h (h.edicts.grow n))
  | resetEdicts => exact keeping (.modify fun _ h => .edicts' h h.edicts.reset)
  | restoreEdicts saved => exact keeping (.discard (.update fun _ h _ he => .edicts' h (h.edicts.restore he)))
  | keep s => exact keeping (.discard (keep_keeping s))
  | temp s => exact keeping (.discard (Quiet.keeping fun _ => temp_quiet s))
  | restoreStrings saved =>
    exact keeping (.discard (.update fun _ h _ hs => .strings' h (h.cursor.restoreRuntime hs)))

end Command

end QuakeProgs
