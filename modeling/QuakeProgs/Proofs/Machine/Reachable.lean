/-
  File:      QuakeProgs/Proofs/Machine/Reachable.lean
  Subject:   THE MACHINES THAT CAN BE REACHED, and that all of them are in order.

  A machine starts with an image. From then on its host gives commands and executes functions, and so do
  the builtins of the host from within a run. Machines in the middle of a run are reached as well.

  * `Routine.Lawful` -- what is asked of a builtin of the host: it acts through commands, and does not
    survive a failed execution;
  * `Dispatch.link_serves` -- lawful builtins serve, executions being nested to any depth;
  * `Reachable` -- the machines;
  * `Reachable.sound` -- the invariant of all of them.
-/
import QuakeProgs.Proofs.Machine.Commands

namespace QuakeProgs

/-! ## 1. Lawful builtins. -/

open Engine

/-- An action that leaves a machine in order, whatever it was doing. -/
def Engine.Settles {α : Type} (registry : Registry) (act : Engine α) : Prop :=
  ∀ m : Machine, m.Sound → m.registry = registry →
    Ends act m (fun _ m' => m'.Sound ∧ m'.registry = registry) fun _ m' => m'.Sound ∧ m'.registry = registry

/-- A rest of a builtin that fails in the end, whatever it does before. -/
def Routine.Fails (registry : Registry) : Routine → Prop
  | .finish act => Settles registry act ∧ ∀ m a m', act m ≠ .ok a m'
  | .exec target next => Settles registry target ∧ ∀ result, (next result).Fails registry
  | .look next => ∀ m, (next m).Fails registry

/-- **A lawful builtin of the host**: it obeys between its executions, and once one of them has failed,
    it fails too. -/
def Routine.Lawful (registry : Registry) : Routine → Prop
  | .finish act => Obeys registry act
  | .exec target next => Obeys registry target ∧ (next (.ok ())).Lawful registry ∧
      ∀ e, (next (.error e)).Fails registry
  | .look next => ∀ m, (next m).Lawful registry

/-- Every registered builtin of the host is lawful. -/
def Registry.Trusts (registry : Registry) (routines : Nat → Routine) : Prop :=
  registry.All fun b => ∀ key, b.code = .hosted key → (routines key).Lawful registry

/-- Where no builtin of the host is registered, nothing is asked of any. -/
theorem Registry.OnlyCore.hosted {registry : Registry} (h : registry.OnlyCore) (P : Nat → Prop) :
    registry.All fun b => ∀ key, b.code = .hosted key → P key := by
  intro b hb key hkey
  obtain ⟨c, hc⟩ := h b hb
  rw [hc] at hkey
  cases hkey

/-- Where no builtin of the host is registered, none has to be lawful. -/
theorem Registry.OnlyCore.trusts {registry : Registry} (h : registry.OnlyCore) (routines : Nat → Routine) :
    registry.Trusts routines :=
  h.hosted fun key => (routines key).Lawful registry

/-- A command within a run is lawful. -/
theorem Command.perform_obeys (registry : Registry) (c : Command) : Obeys registry c.perform := by
  intro m sound hr running
  refine (c.perform_ends sound).mono ?_ fun _ m' k => ⟨sound.keeps k, k.registry.trans hr⟩
  intro _ m' hres
  rcases hres with k | ⟨atRest, -⟩
  · exact k
  · exact absurd running atRest

theorem Engine.core_obeys (registry : Registry) (b : CoreBuiltin) : Obeys registry (core b) := by
  intro m sound hr _
  have quiet := core_quiet sound.program.wellKnown b m (.refl sound.cursor sound.edicts)
  refine quiet.mono (fun _ _ stays => stays.glides.keeps) fun _ m' ⟨stays, _⟩ => ?_
  exact ⟨sound.persists stays.toEvolves.persists, stays.registry.trans hr⟩

/-- What an execution needs: a machine in order whose builtins serve. -/
theorem Starts.of_sound {dispatch : Native → Engine Unit} {m : Machine} (h : m.Sound)
    (serves : m.registry.All (Serves m.registry dispatch)) : Starts dispatch m.started where
  sound := { h with }
  state := rfl
  serves := by
    show m.builtins.All _
    rw [h.builtins]
    exact BuiltinTable.all_build serves _ _ _

/-- **What an execution does to a machine in order**: if it succeeds, it keeps the stacks and the program,
    and if it fails, the stacks are empty. -/
theorem Engine.execute_keeps {dispatch : Native → Engine Unit} {m : Machine} (sound : m.Sound)
    (serves : m.registry.All (Serves m.registry dispatch)) (f : FuncRef) :
    Ends (execute dispatch f) m
      (fun _ m' => m.Keeps { m' with state := m.state } ∧ (m.state = .running → m'.state = .running))
      fun _ m' => m'.Sound ∧ m'.Balanced ∧ m'.registry = m.registry := by
  have start : Starts dispatch m.started := .of_sound sound serves
  refine (execute_ends start f).mono ?_ ?_
  · intro _ _ hres
    obtain ⟨m₁, ran, rfl⟩ := hres
    have k := ran.keeps start
    exact ⟨{ k with state := rfl }, fun running => by rw [if_pos running]⟩
  · intro _ _ hres
    obtain ⟨e₁, m₁, host, broke, -, rfl⟩ := hres
    obtain ⟨sound₁, registry₁⟩ := broke.sound start
    exact ⟨{ sound₁ with }, Machine.balanced_of_empty rfl rfl, registry₁⟩

/-- An execution within a run obeys. -/
theorem Engine.execute_obeys {dispatch : Native → Engine Unit} {registry : Registry}
    (serves : registry.All (Serves registry dispatch)) (f : FuncRef) :
    Obeys registry (execute dispatch f) := by
  intro m sound hr running
  subst hr
  refine (execute_keeps sound serves f).mono ?_ fun _ m' ⟨sound', _, registry'⟩ => ⟨sound', registry'⟩
  intro _ m' hres
  obtain ⟨k, still⟩ := hres
  exact { k with state := (still running).trans running.symm }

/-- An execution leaves a machine in order, whatever the machine was doing. -/
theorem Engine.execute_settles {dispatch : Native → Engine Unit} {registry : Registry}
    (serves : registry.All (Serves registry dispatch)) (f : FuncRef) :
    Settles registry (execute dispatch f) := by
  intro m sound hr
  subst hr
  refine (execute_keeps sound serves f).mono ?_ fun _ m' ⟨sound', _, registry'⟩ => ⟨sound', registry'⟩
  intro _ m' hres
  obtain ⟨k, -⟩ := hres
  exact ⟨{ sound.keeps k with }, k.registry⟩

/-- A builtin that has seen an execution fail does not return. -/
theorem Routine.Fails.ends {registry : Registry} {exec : FuncRef → Engine Unit}
    (hexec : ∀ f, Settles registry (exec f)) (r : Routine) (h : r.Fails registry) {m : Machine}
    (sound : m.Sound) (hr : m.registry = registry) :
    Ends (r.run exec) m (fun _ _ => False) fun _ m' => m'.Sound ∧ m'.registry = registry := by
  induction r generalizing m with
  | finish act =>
    obtain ⟨settles, never⟩ := h
    exact ends_iff.mpr ⟨fun a m' ha => never m a m' ha, fun e m' he => (settles m sound hr).error he⟩
  | exec target next ih =>
    obtain ⟨htarget, hnext⟩ := h
    refine ends_bind ((htarget m sound hr).mono (fun f m₁ settled₁ => ?_) fun _ _ he => he)
    have settled := hexec f m₁ settled₁.1 settled₁.2
    exact ends_bind (ends_attempt (settled.mono
      (fun _ _ settled₂ => ih _ (hnext _) settled₂.1 settled₂.2)
      fun _ _ settled₂ => ih _ (hnext _) settled₂.1 settled₂.2))
  | look next ih => exact ih m (h m) sound hr

/-- A lawful routine on top of executions that obey. -/
theorem Routine.Lawful.obeys {registry : Registry} {exec : FuncRef → Engine Unit}
    (hexec : ∀ f, Obeys registry (exec f)) (settles : ∀ f, Settles registry (exec f)) (r : Routine)
    (h : r.Lawful registry) : Obeys registry (r.run exec) := by
  induction r with
  | finish act => exact h
  | exec target next ih =>
    obtain ⟨htarget, hok, herr⟩ := h
    intro m sound hr running
    refine ends_bind ((htarget m sound hr running).mono (fun f m₁ k₁ => ?_) fun _ _ he => he)
    have sound₁ := sound.keeps k₁
    have registry₁ := k₁.registry.trans hr
    have running₁ := k₁.state.trans running
    refine ends_bind (ends_attempt ((hexec f m₁ sound₁ registry₁ running₁).mono ?_ ?_))
    · intro _ m₂ k₂
      have rest := ih (.ok ()) hok m₂ (sound₁.keeps k₂) (k₂.registry.trans registry₁)
        (k₂.state.trans running₁)
      exact rest.mono (fun _ _ k₃ => (k₁.trans k₂).trans k₃) fun _ _ he => he
    · intro e m₂ ⟨sound₂, registry₂⟩
      exact ((herr e).ends settles _ sound₂ registry₂).mono (fun _ _ never => never.elim) fun _ _ he => he
  | look next ih => exact fun m sound hr running => ih m (h m) m sound hr running

/-- **Trusted builtins serve**, however deep executions are nested. -/
theorem Dispatch.link_serves {registry : Registry} {routines : Nat → Routine}
    (trusts : registry.Trusts routines) (nesting : Nat) :
    registry.All (Serves registry (link routines nesting)) := by
  induction nesting with
  | zero =>
    intro b hb
    unfold Serves
    cases hc : b.code with
    | core c => exact core_obeys registry c
    | hosted key => exact fun m sound hr _ => ⟨sound, hr⟩
  | succ nesting ih =>
    intro b hb
    unfold Serves
    cases hc : b.code with
    | core c => exact core_obeys registry c
    | hosted key => exact (trusts b hb key hc).obeys (execute_obeys ih) (execute_settles ih) _

/-! ## 2. The machines that can be reached. -/

/-- The machine after an action, whether it succeeded or failed. -/
def Engine.After {α : Type} (act : Engine α) (m m' : Machine) : Prop :=
  (∃ a, act m = .ok a m') ∨ ∃ e, act m = .error e m'

theorem Engine.Ends.after {α : Type} {act : Engine α} {m m' : Machine} {P : Machine → Prop}
    (h : Ends act m (fun _ => P) fun _ => P) (ha : After act m m') : P m' := by
  rcases ha with ⟨a, ha⟩ | ⟨e, he⟩
  · exact h.ok ha
  · exact h.error he

/-- **The machines that can be reached** with the given builtins. Each is one that a host, or a builtin
    of the host from within a run, can come upon. -/
inductive Reachable (routines : Nat → Routine) (registry : Registry) : Machine → Prop
  /-- An image was loaded. -/
  | fresh {bytes : Bytes} {options : LoadOptions} {image : Image} (config : Config) :
      Image.load bytes options = .ok image → Reachable routines registry (.new image config registry)
  /-- The host gave a command. -/
  | command {m m' : Machine} (c : Command) : Reachable routines registry m → After c.perform m m' →
      Reachable routines registry m'
  /-- A function was executed. -/
  | executed {m m' : Machine} (nesting : Nat) (f : FuncRef) : Reachable routines registry m →
      After (execute (Dispatch.link routines nesting) f) m m' → Reachable routines registry m'
  /-- An execution has begun. -/
  | begun {m : Machine} : Reachable routines registry m → Reachable routines registry m.started
  /-- A function is being executed. -/
  | within {m m' : Machine} (nesting : Nat) {f : FuncRef} {opened : List Opened} :
      Reachable routines registry m →
      Visits (Dispatch.link routines nesting) f m.started opened m' → Reachable routines registry m'
  /-- A statement is under way: what is counted, told and held in registers has changed. -/
  | underway {m : Machine} (statement argc : Nat) (profile : Profile) (host : Host) :
      Reachable routines registry m → Reachable routines registry { m with statement, argc, profile, host }

namespace Reachable

variable {routines : Nat → Routine} {registry : Registry} {m m' : Machine}

/-- What an execution starts from. -/
theorem starts (trusts : registry.Trusts routines) (sound : m.Sound) (hr : m.registry = registry)
    (nesting : Nat) : Starts (Dispatch.link routines nesting) m.started := by
  subst hr
  exact .of_sound sound (Dispatch.link_serves trusts nesting)

/-- After an execution the machine is in order and its stacks are balanced: they are as before, or
    empty. -/
theorem execute_after (trusts : registry.Trusts routines) (sound : m.Sound) (balanced : m.Balanced)
    (hr : m.registry = registry) {nesting : Nat} {f : FuncRef}
    (ha : After (execute (Dispatch.link routines nesting) f) m m') :
    m'.Sound ∧ m'.Balanced ∧ m'.registry = registry := by
  subst hr
  have ends := execute_keeps sound (Dispatch.link_serves trusts nesting) f
  refine Ends.after (P := fun m' => m'.Sound ∧ m'.Balanced ∧ m'.registry = m.registry)
    (ends.mono ?_ fun _ _ h => h) ha
  intro _ m' hres
  obtain ⟨k, -⟩ := hres
  exact ⟨{ sound.keeps k with }, { balanced.same k.toSameStacks with }, k.registry⟩

/-- **Every machine that can be reached is in order, and its stacks are balanced.** -/
theorem sound (trusts : registry.Trusts routines) (h : Reachable routines registry m) :
    m.Sound ∧ m.Balanced ∧ m.registry = registry := by
  induction h with
  | fresh config hload =>
    obtain ⟨sound, balanced⟩ := Machine.sound_new (Image.load_checked hload) config registry
    exact ⟨sound, balanced, rfl⟩
  | command c _ ha ih =>
    obtain ⟨sound, balanced, hr⟩ := ih
    have kept : ∀ {m₁ : Machine}, Machine.Keeps _ m₁ → m₁.Sound ∧ m₁.Balanced ∧ m₁.registry = registry :=
      fun k => ⟨sound.keeps k, balanced.same k.toSameStacks, k.registry.trans hr⟩
    refine Ends.after (P := fun m' => m'.Sound ∧ m'.Balanced ∧ m'.registry = registry)
      ((c.perform_ends sound).mono ?_ fun _ _ k => kept k) ha
    intro _ m₁ hres
    rcases hres with k | ⟨-, registry₁, sound₁, balanced₁⟩
    · exact kept k
    · exact ⟨sound₁, balanced₁, registry₁.trans hr⟩
  | executed nesting f _ ha ih => exact execute_after trusts ih.1 ih.2.1 ih.2.2 ha
  | begun _ ih => exact ⟨{ ih.1 with }, { ih.2.1 with }, ih.2.2⟩
  | within nesting _ visits ih =>
    obtain ⟨sound, balanced, hr⟩ := ih
    have start := starts trusts sound hr nesting
    have inv := visits.inOrder start
    exact ⟨start.sound.persists inv.persists, inv.stacked.balanced { balanced with },
      inv.persists.registry.trans hr⟩
  | underway _ _ _ _ _ ih => exact ⟨{ ih.1 with }, { ih.2.1 with }, ih.2.2⟩

end Reachable

/-! ## 3. Fresh machines that can be run. -/

/-- The smallest ring of strings. -/
def LoadOptions.small : LoadOptions := { tempSlots := 1, tempSize := 4 }

/-- An image without names has nothing to publish. -/
theorem Machine.new_of_unnamed {image : Image} (h : image.program.globalNames.isEmpty = true)
    (config : Config) (registry : Registry) :
    { new image config registry with globals := image.globals } = new image config registry := by
  have unnamed : ∀ name, image.program.findGlobal? name = none := fun name => by
    rw [Program.findGlobal?, Std.HashMap.getElem?_of_isEmpty h, Option.bind_none]
  simp only [new, install, published, publish, unnamed, List.foldl_cons, List.foldl_nil]

/-- The image can be loaded, names no globals, and its machine satisfies `P`. -/
def Machine.Loads (bytes : Bytes) (options : LoadOptions) (config : Config) (registry : Registry)
    (P : Machine → Prop) : Prop :=
  ∃ image, Image.load bytes options = .ok image ∧ image.program.globalNames.isEmpty = true ∧
    P { new image config registry with globals := image.globals }

instance Machine.Loads.decidable (bytes : Bytes) (options : LoadOptions) (config : Config)
    (registry : Registry) (P : Machine → Prop) [DecidablePred P] :
    Decidable (Loads bytes options config registry P) :=
  match h : Image.load bytes options with
  | .ok image => decidable_of_iff (image.program.globalNames.isEmpty = true ∧
      P { new image config registry with globals := image.globals }) (by simp [Loads, h])
  | .error _ => isFalse (by simp [Loads, h])

/-- A machine that holds a loaded program. -/
theorem Machine.Loads.holding {bytes : Bytes} {options : LoadOptions} {config : Config} {registry : Registry}
    {P : Machine → Prop} (h : Loads bytes options config registry P) :
    ∃ image m, Image.load bytes options = .ok image ∧ m.program = image.program ∧ P m := by
  obtain ⟨image, hload, -, holds⟩ := h
  exact ⟨image, _, hload, rfl, holds⟩

/-- **A machine that can be reached**, found by loading an image. -/
theorem Machine.Loads.reachable {bytes : Bytes} {options : LoadOptions} {config : Config}
    {registry : Registry} {P : Machine → Prop} (h : Loads bytes options config registry P)
    (routines : Nat → Routine) : ∃ m, Reachable routines registry m ∧ P m := by
  obtain ⟨image, hload, unnamed, holds⟩ := h
  rw [new_of_unnamed unnamed] at holds
  exact ⟨_, .fresh config hload, holds⟩

end QuakeProgs
