/-
  File:      QuakeProgs/Proofs/Machine/Safety.lean
  Subject:   RUNS ON THE ENGINE'S OWN BUILTINS: how they can fail, and that they leave the world alone.

  The checks of the loader are made once. Here it is shown that they are enough: whatever the program
  does, however long it runs, it never reads or writes outside the globals, never follows a branch out of
  the program, never finds a stack empty.

  * `Machine.Turned.evolves`, `Machine.Stopped.evolves` -- a turn, and from it `Visits.evolves`, a run;
  * `Broke.admitted` -- the causes of a run that fails;
  * `Cause.OfRun` -- the causes that the loader's checks leave;
  * `Engine.execute_fails_in_range` -- so of every execution, from every machine that can be reached;
  * `Engine.execute_keeps_world` -- while the world runs, no execution changes entity zero.
-/
import QuakeProgs.Image.Builder
import QuakeProgs.Proofs.Machine.Reachable

namespace QuakeProgs

open Engine

/-! ## 1. A turn. -/

namespace Dispatch

@[simp] theorem link_core (routines : Nat → Routine) (nesting : Nat) (b : CoreBuiltin) :
    link routines nesting (.core b) = core b := by
  cases nesting <;> rfl

end Dispatch

namespace Machine

variable {routines : Nat → Routine} {nesting : Nat} {m m₁ m' : Machine}

/-- A builtin of the engine, called by a machine whose program was checked. -/
theorem Glides.core_ends (glides : m.Glides m₁) (ready : m.Ready) (core : m.builtins.All Builtin.IsCore)
    {b : Builtin} (mem : some b ∈ m.builtins.slots) :
    Ends (Dispatch.link routines nesting b.code) m₁ (fun _ m' => m.Evolves m')
      fun e m' => m.Evolves m' ∧ m.Admits e.cause := by
  obtain ⟨c, hc⟩ := core b mem
  rw [hc, Dispatch.link_core]
  have ready₁ := ready.evolves glides.toEvolves
  refine (core_quiet ready₁.program.wellKnown c m₁ (.refl ready₁.cursor ready₁.edicts)).mono
    (fun _ _ stays => glides.toEvolves.trans stays.toEvolves) ?_
  intro e m' hres
  obtain ⟨stays, he⟩ := hres
  exact ⟨glides.toEvolves.trans stays.toEvolves, glides.admits he⟩

/-- What a turn cannot change. -/
theorem Turned.evolves (ready : m.Ready) (core : m.builtins.All Builtin.IsCore) {flow : Flow}
    (h : m.Turned (Dispatch.link routines nesting) flow m') : m.Evolves m' := by
  cases h with
  | passed _ glides => exact glides.toEvolves
  | jumped _ _ glides => exact glides.toEvolves
  | served _ mem glides hd => exact (glides.core_ends ready core mem).ok hd
  | entered _ _ enters => exact enters.evolves
  | left leaves => exact leaves.evolves

/-- What a turn cannot change even where it fails, and why it fails. -/
theorem Stopped.evolves (ready : m.Ready) (core : m.builtins.All Builtin.IsCore) {e : Error}
    (h : m.Stopped (Dispatch.link routines nesting) e m') :
    m.Evolves m' ∧ (m.Admits e.cause ∨ (∀ func, ¬ m.CanLeave func) ∨
      m.program.statements.size ≤ m.statement ∧
        e.cause = .internal s!"statement {m.statement} out of range") := by
  cases h with
  | absent behind evolves => exact ⟨evolves, .inr (.inr ⟨behind, rfl⟩)⟩
  | refused evolves admits => exact ⟨evolves, .inl admits⟩
  | unserved mem glides hd =>
    obtain ⟨evolves, admits⟩ := (glides.core_ends ready core mem).error hd
    exact ⟨evolves, .inl admits⟩
  | stuck evolves nothing => exact ⟨evolves, .inr (.inl nothing)⟩

end Machine

/-! ## 2. A run. -/

variable {routines : Nat → Routine} {nesting : Nat} {f : FuncRef} {m₀ m m' : Machine} {e : Error}

/-- **What a run cannot change**, at every machine it goes through. -/
theorem Visits.evolves (start : Starts (Dispatch.link routines nesting) m₀)
    (core : m₀.builtins.All Builtin.IsCore) {opened : List Opened}
    (h : Visits (Dispatch.link routines nesting) f m₀ opened m) : m₀.Evolves m := by
  have turn : ∀ {opened m m' flow}, Visits (Dispatch.link routines nesting) f m₀ opened m →
      cycle (Dispatch.link routines nesting) m.statement m = .ok flow m' → m₀.Evolves m →
      ∀ pc, m₀.Evolves (m'.moveTo pc) := by
    intro opened m m' flow visits hc evolves pc
    have inv := visits.inOrder start
    have ready := (start.sound.persists inv.persists).toReady
    have turned := (Visits.cycle_ends start inv).ok hc
    exact { evolves.trans (turned.evolves ready (evolves.builtins ▸ core)) with }
  induction h with
  | entered hentry =>
    obtain ⟨func, enters⟩ := (enter_ends start.sound.toReady f).ok hentry
    exact { enters.evolves with }
  | next visits hc ih => exact turn visits hc ih _
  | jumped visits hc _ ih => exact turn visits hc ih _
  | called visits hc _ ih => exact turn visits hc ih _
  | returned visits hc _ ih => exact turn visits hc ih _

theorem Ran.evolves (start : Starts (Dispatch.link routines nesting) m₀)
    (core : m₀.builtins.All Builtin.IsCore) (h : Ran (Dispatch.link routines nesting) f m₀ m') :
    m₀.Evolves m' := by
  cases h with
  | absent _ glides => exact glides.toEvolves
  | served _ mem glides hd => exact (glides.core_ends start.sound.toReady core mem).ok hd
  | returned visits leaves => exact (visits.evolves start core).trans leaves.evolves

/-- **Why a run fails**: in an admitted way, or by running past the last statement, and then it stands
    exactly one past it. -/
theorem Broke.admitted (start : Starts (Dispatch.link routines nesting) m₀)
    (core : m₀.builtins.All Builtin.IsCore) (h : Broke (Dispatch.link routines nesting) f m₀ e m') :
    m₀.Evolves m' ∧ (m₀.Admits e.cause ∨
      e.cause = .internal s!"statement {m₀.program.statements.size} out of range") := by
  cases h with
  | refused evolves admits => exact ⟨evolves, .inl admits⟩
  | unserved mem glides hd =>
    obtain ⟨evolves, admits⟩ := (glides.core_ends start.sound.toReady core mem).error hd
    exact ⟨evolves, .inl admits⟩
  | stopped visits stopped =>
    have inv := visits.inOrder start
    have evolves := visits.evolves start core
    have ready := (start.sound.persists inv.persists).toReady
    obtain ⟨evolves', why⟩ := stopped.evolves ready (evolves.builtins ▸ core)
    refine ⟨evolves.trans evolves', ?_⟩
    rcases why with admits | nothing | ⟨behind, cause⟩
    · exact .inl (evolves.admits admits)
    · -- the innermost call can be left
      obtain ⟨o, rest, -, covers⟩ := inv.stacked.top
      exact absurd covers.canLeave (nothing _)
    · have exactly := Nat.le_antisymm inv.place behind
      rw [exactly, evolves.program] at cause
      exact .inr cause
  | spent visits => exact ⟨visits.evolves start core, .inl trivial⟩

/-! ## 3. An execution. -/

/-- **The causes that the loader's checks leave** for a program with so many statements: no access outside
    the globals, no branch out of the program, no unknown opcode, no stack that runs empty. The one internal
    error is that of a program that runs past its last statement. -/
def Cause.OfRun (count : Nat) (c : Cause) : Prop :=
  c.tier = .execution ∧ match c with
    | .badGlobal .. | .badBranch .. | .badOpcode .. | .stackUnderflow | .localStackUnderflow => False
    | .internal text => text = s!"statement {count} out of range"
    | _ => True

theorem Machine.Admits.ofRun {c : Cause} (fits : m.RingFits) (h : m.Admits c) (count : Nat) :
    c.OfRun count := by
  cases c with
  | internal text => exact absurd fits h
  | _ =>
    first
    | exact ⟨rfl, trivial⟩
    | exact h.elim

namespace Reachable

variable {registry : Registry}

/-- An execution on the engine's own builtins starts from a machine in order. -/
theorem starts_core (core : registry.OnlyCore) (h : Reachable routines registry m) (nesting : Nat) :
    Starts (Dispatch.link routines nesting) m.started ∧ m.started.builtins.All Builtin.IsCore := by
  obtain ⟨sound, -, hr⟩ := h.sound (core.trusts routines)
  refine ⟨starts (core.trusts routines) sound hr nesting, ?_⟩
  have own : m.started.builtins = .build registry m.program m.config.numbering m.config.maxBuiltins := by
    rw [← hr]
    exact sound.builtins
  rw [own]
  exact BuiltinTable.all_build core _ _ _

end Reachable

namespace Engine

variable {registry : Registry}

/-- **The loader's checks are enough.** An execution on the engine's own builtins, from any machine that
    can be reached, fails only for a cause that no check could have excluded. -/
theorem execute_fails_in_range (core : registry.OnlyCore) (h : Reachable routines registry m)
    (fits : m.strings.keptStart < 0x80000000) (nesting : Nat) (f : FuncRef)
    (he : execute (Dispatch.link routines nesting) f m = .error e m') :
    e.cause.OfRun m.program.statements.size := by
  obtain ⟨start, own⟩ := h.starts_core core nesting
  obtain ⟨e₁, m₁, host, broke, cause, -⟩ := (execute_ends start f).error he
  rw [cause]
  obtain ⟨-, admits | behind⟩ := broke.admitted start own
  · exact admits.ofRun fits _
  · rw [behind]
    exact ⟨rfl, rfl⟩

/-- A program whose one function has a single statement, and no return behind it. -/
def fallingOff : ImageBuilder :=
  { statements := #[{}, { op := 31, a := 92, b := 93 }]
    functions := #[{}, { firstStatement := 1, parmStart := 92, locals := 2 }]
    globals := Array.replicate 94 7 }

theorem execute_falls_off : ∃ m e m', Reachable default .core m ∧ m.strings.keptStart < 0x80000000 ∧
    execute (Dispatch.link default 0) 1 m = .error e m' ∧
    e.cause = .internal "statement 2 out of range" ∧ e.cause.OfRun m.program.statements.size := by
  have loads : Machine.Loads fallingOff.build .small {} .core fun m =>
      m.strings.keptStart < 0x80000000 ∧
      Ends (execute (Dispatch.link default 0) 1) m (fun _ _ => False) fun e _ =>
        e.cause = .internal "statement 2 out of range" := by
    decide +kernel
  obtain ⟨m, reachable, fits, ends⟩ := loads.reachable default
  obtain ⟨e, m', he, cause⟩ := ends.exists_error
  exact ⟨m, e, m', reachable, fits, he, cause,
    execute_fails_in_range Registry.onlyCore_core reachable fits 0 1 he⟩

/-- **While the world runs it is read-only.** An execution on the engine's own builtins, from any machine
    that can be reached, leaves entity zero as it was, whether it succeeds or fails. -/
theorem execute_keeps_world (core : registry.OnlyCore) (h : Reachable routines registry m)
    (active : m.phase = .active) (modern : m.program.digest ∉ m.config.legacy) (nesting : Nat)
    (f : FuncRef) : (∃ world, m.edicts.get? 0 = some world) ∧
      ∀ m', After (execute (Dispatch.link routines nesting) f) m m' →
        m'.edicts.get? 0 = m.edicts.get? 0 := by
  obtain ⟨sound, -, -⟩ := h.sound (core.trusts routines)
  obtain ⟨start, own⟩ := h.starts_core core nesting
  have closed : m.started.WorldClosed := by
    refine ⟨active, sound.legacy.trans ?_⟩
    simpa using modern
  refine ⟨sound.edicts.world_exists, fun m' ha => ?_⟩
  refine Ends.after (P := fun m' => m'.edicts.get? 0 = m.edicts.get? 0) ((execute_ends start f).mono ?_ ?_) ha
  · intro _ _ hres
    obtain ⟨m₁, ran, rfl⟩ := hres
    exact (ran.evolves start own).world closed
  · intro _ _ hres
    obtain ⟨e₁, m₁, host, broke, -, rfl⟩ := hres
    exact (broke.admitted start own).1.world closed

/-- A program that stores a word through a pointer it was never given: the one to the first field of
    entity zero. -/
def forgingPointer : ImageBuilder :=
  { statements := #[{}, { op := 37, a := 92, b := 93 }, { op := 43 }]
    functions := #[{}, { firstStatement := 1, parmStart := 92, locals := 0 }]
    globals := Array.replicate 92 0 ++ #[7, 0]
    entityFields := 1 }

theorem execute_refuses_forged_pointer : ∃ m e m', Reachable default .core m ∧ m.phase = .active ∧
    m.program.digest ∉ m.config.legacy ∧ execute (Dispatch.link default 0) 1 m = .error e m' ∧
    e.cause = .worldWrite ∧ ∃ world, m.edicts.get? 0 = some world ∧ m'.edicts.get? 0 = some world := by
  have loads : Machine.Loads forgingPointer.build .small {} .core fun m =>
      m.program.digest ∉ m.config.legacy ∧
      Ends (execute (Dispatch.link default 0) 1) { m with phase := .active } (fun _ _ => False) fun e _ =>
        e.cause = .worldWrite := by
    decide +kernel
  obtain ⟨m, reachable, modern, ends⟩ := loads.reachable default
  obtain ⟨e, m', he, cause⟩ := ends.exists_error
  have active : Reachable default .core { m with phase := .active } :=
    .command (.setPhase .active) reachable (.inl ⟨(), rfl⟩)
  obtain ⟨⟨world, hworld⟩, kept⟩ := execute_keeps_world Registry.onlyCore_core active rfl modern 0 1
  exact ⟨_, e, m', active, rfl, modern, he, cause, world, hworld, (kept m' (.inr ⟨e, he⟩)).trans hworld⟩

end Engine

end QuakeProgs
