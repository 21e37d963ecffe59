/-
  File:      QuakeProgs/Proofs/Machine/Run.lean
  Subject:   WHOLE RUNS: the machines a run goes through, and how it ends.

  * `Visits` -- the machines that a run of bytecode goes through, each with the calls that are open;
  * `Engine.loop_ends` -- the loop goes through these and no others: it ends at one of them;
  * `Engine.Obeys`, `Engine.Serves` -- what is asked of a builtin: it gives the stacks back as it found
    them, or fails;
  * `Visits.inOrder` -- the invariant of a run, by induction over the machines it goes through;
  * `Visits.restores` -- every return gives back what its call found;
  * `Engine.run_ends`, `Engine.execute_ends` -- how an execution ends.
-/
import QuakeProgs.Proofs.Machine.Calls

namespace QuakeProgs

/-! ## 1. The machines of a run. -/

namespace Machine

/-- The machine about to run a statement. -/
def moveTo (m : Machine) (pc : Nat) : Machine := { m with statement := pc }

/-- The machine as an execution begins. -/
def started (m : Machine) : Machine := { m with state := .running }

end Machine

/-- **The machines of a run** of the function `f` from `m₀` on, each standing at the statement it runs
    next, with the open calls, innermost first. A call is opened where bytecode is entered, and closed
    where the function returns. -/
inductive Visits (dispatch : Native → Engine Unit) (f : FuncRef) (m₀ : Machine) :
    List Opened → Machine → Prop
  | entered {entry : Nat} {m : Machine} : Engine.enter f m₀ = .ok entry m →
      Visits dispatch f m₀ [⟨f, m₀⟩] (m.moveTo entry)
  | next {opened : List Opened} {m m' : Machine} : Visits dispatch f m₀ opened m →
      Engine.cycle dispatch m.statement m = .ok .next m' →
      Visits dispatch f m₀ opened (m'.moveTo (m.statement + 1))
  | jumped {opened : List Opened} {m m' : Machine} {target : Nat} : Visits dispatch f m₀ opened m →
      Engine.cycle dispatch m.statement m = .ok (.jump target) m' → m.callee? = none →
      Visits dispatch f m₀ opened (m'.moveTo target)
  | called {opened : List Opened} {m m' : Machine} {g : FuncRef} {entry : Nat} :
      Visits dispatch f m₀ opened m → Engine.cycle dispatch m.statement m = .ok (.jump entry) m' →
      m.callee? = some g → Visits dispatch f m₀ (⟨g, m⟩ :: opened) (m'.moveTo entry)
  | returned {opened : List Opened} {m m' : Machine} {caller : Nat} : Visits dispatch f m₀ opened m →
      Engine.cycle dispatch m.statement m = .ok (.returned caller) m' →
      m'.calls.depth ≠ m₀.calls.depth → Visits dispatch f m₀ opened.tail (m'.moveTo (caller + 1))

namespace Engine

variable {dispatch : Native → Engine Unit} {f : FuncRef} {m₀ m : Machine}

/-- **The loop goes through the machines of the run**: it ends where one of them returns to the depth of
    the start, where one of them fails, or where the budget is spent. -/
theorem loop_ends {budget remaining pc : Nat} {opened : List Opened}
    (h : Visits dispatch f m₀ opened (m.moveTo pc)) :
    Ends (loop dispatch budget m₀.calls.depth remaining pc) m
      (fun _ m' => ∃ opened m₁ caller, Visits dispatch f m₀ opened m₁ ∧
        cycle dispatch m₁.statement m₁ = .ok (.returned caller) m' ∧ m'.calls.depth = m₀.calls.depth)
      fun e m' => ∃ opened m₁, Visits dispatch f m₀ opened m₁ ∧
        (cycle dispatch m₁.statement m₁ = .error e m' ∨
          e = { cause := .runawayLoop budget } ∧ m' = m₁) := by
  induction remaining generalizing opened pc m with
  | zero => exact ends_bind (ends_modify ⟨opened, m.moveTo pc, h, .inr ⟨rfl, rfl⟩⟩)
  | succ remaining ih =>
    refine ends_bind (ends_modify (ends_bind (ends_iff.mpr ⟨fun flow m' hc => ?_, fun e m' hc => ?_⟩)))
    · cases flow with
      | next => exact ih (.next h hc)
      | jump target =>
        cases hg : (m.moveTo pc).callee? with
        | none => exact ih (.jumped h hc hg)
        | some g => exact ih (.called h hc hg)
      | returned caller =>
        refine ends_bind (ends_get ?_)
        by_cases hd : m'.calls.depth = m₀.calls.depth
        · rw [if_pos hd]
          exact ⟨opened, m.moveTo pc, caller, h, hc, hd⟩
        · rw [if_neg hd]
          exact ih (.returned h hc hd)
    · exact ⟨opened, m.moveTo pc, h, .inl hc⟩

/-! ## 2. The invariant. -/

/-- **What is asked of an action within a run**: on a machine in order, it keeps the stacks and the
    program, or fails and leaves a machine in order. -/
def Obeys {α : Type} (registry : Registry) (act : Engine α) : Prop :=
  ∀ m : Machine, m.Sound → m.registry = registry → m.state = .running →
    Ends act m (fun _ m' => m.Keeps m') fun _ m' => m'.Sound ∧ m'.registry = registry

/-- The same asked of a builtin. -/
def Serves (registry : Registry) (dispatch : Native → Engine Unit) (b : Builtin) : Prop :=
  Obeys registry (dispatch b.code)

end Engine

/-- The invariant of a run. -/
structure InOrder (m₀ : Machine) (first : Opened) (opened : List Opened) (m : Machine) : Prop where
  stacked : Stacked first opened m
  persists : m₀.Persists m
  state : m.state = .running
  place : m.statement ≤ m.program.statements.size

/-- What a run starts from: a machine in order, with builtins that serve. -/
structure Starts (dispatch : Native → Engine Unit) (m₀ : Machine) : Prop where
  sound : m₀.Sound
  state : m₀.state = .running
  serves : m₀.builtins.All (Engine.Serves m₀.registry dispatch)

/-- A machine with the same stacks goes on with the same open calls. -/
theorem InOrder.keeps {m₀ m m' : Machine} {first : Opened} {opened : List Opened}
    (h : InOrder m₀ first opened m) (k : m.Keeps m') {pc : Nat}
    (hpc : pc ≤ m.program.statements.size) : InOrder m₀ first opened (m'.moveTo pc) where
  stacked := h.stacked.same { k.toSameStacks with }
  persists := { h.persists.trans k.toPersists with }
  state := k.state.trans h.state
  place := k.program ▸ hpc

namespace Visits

variable {dispatch : Native → Engine Unit} {f : FuncRef} {m₀ m m' : Machine} {opened : List Opened}

/-- A builtin that is called at a point of the run keeps the stacks. -/
theorem served (start : Starts dispatch m₀) {first : Opened} (h : InOrder m₀ first opened m)
    {b : Builtin} {m₁ : Machine} (mem : some b ∈ m.builtins.slots) (glides : m.Glides m₁) :
    Engine.Ends (dispatch b.code) m₁ (fun _ m' => m.Keeps m')
      fun _ m' => m'.Sound ∧ m'.registry = m₀.registry := by
  have persists := h.persists.trans glides.toEvolves.persists
  have serves := start.serves b (h.persists.builtins ▸ mem) m₁ (start.sound.persists persists)
    persists.registry (glides.state.trans h.state)
  exact serves.mono (fun _ m' k => glides.keeps.trans k) fun _ _ he => he

/-- A turn at a point of the run is one of the known cases. -/
theorem cycle_ends (start : Starts dispatch m₀) {first : Opened} (h : InOrder m₀ first opened m) :
    Engine.Ends (Engine.cycle dispatch m.statement) m (m.Turned dispatch) (m.Stopped dispatch) :=
  Engine.cycle_ends (start.sound.persists h.persists).toReady

/-- **The invariant holds of every machine of the run.** -/
theorem inOrder (start : Starts dispatch m₀) (h : Visits dispatch f m₀ opened m) :
    InOrder m₀ ⟨f, m₀⟩ opened m := by
  induction h with
  | entered hentry =>
    obtain ⟨func, enters⟩ := (Engine.enter_ends start.sound.toReady f).ok hentry
    have covers := Opened.covers_of_enters enters
    exact {
      stacked := .base { covers with }
      persists := { enters.evolves.persists with }
      state := enters.state.trans start.state
      place := by
        have inside := Nat.le_of_lt enters.inside
        rw [← enters.evolves.program] at inside
        exact inside }
  | next h hc ih =>
    cases (cycle_ends start ih).ok hc with
    | passed inside glides => exact ih.keeps glides.keeps inside
    | served inside mem glides hd => exact ih.keeps ((served start ih mem glides).ok hd) inside
  | jumped h hc hg ih =>
    cases (cycle_ends start ih).ok hc with
    | jumped inside _ glides => exact ih.keeps glides.keeps (Nat.le_of_lt inside)
    | entered _ hg' _ => rw [hg] at hg'; cases hg'
  | called h hc hg ih =>
    cases (cycle_ends start ih).ok hc with
    | jumped _ hg' _ => rw [hg] at hg'; cases hg'
    | entered inside hg' enters =>
      cases hg.symm.trans hg'
      have covers := Opened.covers_of_enters enters
      exact {
        stacked := .call { covers with } inside ih.stacked
        persists := { ih.persists.trans enters.evolves.persists with }
        state := enters.state.trans ih.state
        place := by
          have inside := Nat.le_of_lt enters.inside
          rw [← enters.evolves.program] at inside
          exact inside }
  | returned h hc hd ih =>
    cases (cycle_ends start ih).ok hc with
    | left leaves =>
      have program := leaves.evolves.program
      have persists := ih.persists.trans leaves.evolves.persists
      have state := leaves.state.trans ih.state
      cases ih.stacked with
      | base covers =>
        -- the first call has returned, so the depth is that of the start
        exact absurd (by rw [(covers.left leaves).1.calls]) hd
      | call covers inside rest =>
        obtain ⟨restored, waits⟩ := covers.left leaves
        have same := program.trans covers.program
        exact {
          stacked := rest.same ⟨same, restored.calls, restored.locals, restored.current⟩
          persists := { persists with }
          state
          place := by
            rw [← waits, ← same] at inside
            exact inside }

/-- **Every return gives back what its call found.** -/
theorem restores (start : Starts dispatch m₀) (h : Visits dispatch f m₀ opened m) {caller : Nat}
    (hc : Engine.cycle dispatch m.statement m = .ok (.returned caller) m') :
    ∃ o rest, opened = o :: rest ∧ o.Restored m' := by
  have inv := h.inOrder start
  obtain ⟨o, rest, rfl, covers⟩ := inv.stacked.top
  cases (cycle_ends start inv).ok hc with
  | left leaves => exact ⟨o, rest, rfl, (covers.left leaves).1⟩

end Visits

/-! ## 3. How a run ends. -/

namespace Machine

/-- The function is there and is bytecode. -/
def HasCode (m : Machine) (f : FuncRef) : Prop :=
  ∃ func, m.program.function? f = some func ∧ func.codeStart?.isSome

/-- What is left of an aborted run: the stacks are empty, and the host may have been told. -/
def unwound (m : Machine) (host : Host) : Machine :=
  { m with host, calls := m.calls.clear, locals := m.locals.clear, current := 0, state := .aborted }

end Machine

/-- **How a run succeeds.** -/
inductive Ran (dispatch : Native → Engine Unit) (f : FuncRef) (m₀ : Machine) : Machine → Prop
  /-- The function is a builtin that nobody supplies. -/
  | absent {m' : Machine} : ¬ m₀.HasCode f → m₀.Glides m' → Ran dispatch f m₀ m'
  /-- The function is a builtin. -/
  | served {b : Builtin} {m₁ m' : Machine} : ¬ m₀.HasCode f → some b ∈ m₀.builtins.slots →
      m₀.Glides m₁ → dispatch b.code m₁ = .ok () m' → Ran dispatch f m₀ m'
  /-- The function is bytecode: the first call returned, and no other is open. -/
  | returned {m₁ m' : Machine} {func : Function} {frame : Frame} : Visits dispatch f m₀ [⟨f, m₀⟩] m₁ →
      m₁.Leaves func frame m' → Ran dispatch f m₀ m'

/-- **How a run fails.** -/
inductive Broke (dispatch : Native → Engine Unit) (f : FuncRef) (m₀ : Machine) : Error → Machine → Prop
  /-- There is no function to run, or no room for it. -/
  | refused {e : Error} {m' : Machine} : m₀.Evolves m' → m₀.Admits e.cause → Broke dispatch f m₀ e m'
  /-- The function is a builtin, and failed. -/
  | unserved {b : Builtin} {e : Error} {m₁ m' : Machine} : some b ∈ m₀.builtins.slots → m₀.Glides m₁ →
      dispatch b.code m₁ = .error e m' → Broke dispatch f m₀ e m'
  /-- A turn failed. -/
  | stopped {opened : List Opened} {e : Error} {m₁ m' : Machine} : Visits dispatch f m₀ opened m₁ →
      m₁.Stopped dispatch e m' → Broke dispatch f m₀ e m'
  /-- The budget was spent. -/
  | spent {opened : List Opened} {budget : Nat} {m₁ : Machine} : Visits dispatch f m₀ opened m₁ →
      Broke dispatch f m₀ { cause := .runawayLoop budget } m₁

namespace Engine

variable {dispatch : Native → Engine Unit} {f : FuncRef} {m₀ m : Machine}

/-- The run of bytecode. -/
theorem bytecode_ends (start : Starts dispatch m₀) {entry budget : Nat} (hentry : enter f m₀ = .ok entry m) :
    Ends (loop dispatch budget m₀.calls.depth budget entry) m (fun _ => Ran dispatch f m₀)
      (Broke dispatch f m₀) := by
  refine (loop_ends (.entered hentry)).mono ?_ ?_
  · intro _ m' hres
    obtain ⟨opened, m₁, caller, visits, hc, hd⟩ := hres
    have inv := visits.inOrder start
    cases (Visits.cycle_ends start inv).ok hc with
    | left leaves =>
      cases inv.stacked with
      | base covers => exact .returned visits leaves
      | call covers _ rest =>
        -- an outer call is open still, so the depth is more than that of the start
        rw [(covers.left leaves).1.calls, rest.depth] at hd
        obtain ⟨o, more, hne, -⟩ := rest.top
        rw [hne, List.length_cons] at hd
        simp only at hd
        omega
  · intro e m' hres
    rcases hres with ⟨opened, m₁, visits, hc | ⟨rfl, rfl⟩⟩
    · exact .stopped visits ((Visits.cycle_ends start (visits.inOrder start)).error hc)
    · exact .spent visits

/-- **Every run ends in one of the known ways.** -/
theorem run_ends (start : Starts dispatch m₀) (f : FuncRef) :
    Ends (run dispatch f) m₀ (fun _ => Ran dispatch f m₀) (Broke dispatch f m₀) := by
  have ready := start.sound.toReady
  have evolves := Machine.Evolves.refl ready.cursor ready.edicts
  have glides := (Machine.Stays.refl ready.cursor ready.edicts).glides
  refine ends_bind ((function_ends m₀ f).mono ?_ fun e m' ⟨hm, he⟩ => .refused (hm ▸ evolves) he)
  intro func _ hres
  obtain ⟨rfl, -, hf⟩ := hres
  cases hn : func.builtinNumber? with
  | some number =>
    have native : ¬ m₀.HasCode f := by
      intro hres
      obtain ⟨func', hf', code⟩ := hres
      cases hf.symm.trans hf'
      exact absurd code (not_isSome_codeStart? hn)
    refine (callBuiltin_ends ready glides number f).mono ?_ ?_
    · intro _ m' hres
      rcases hres with glides | ⟨b, m₁, mem, glides, hd⟩
      · exact .absent native glides
      · exact .served native mem glides hd
    · intro e m' hres
      rcases hres with ⟨evolves, he⟩ | ⟨b, m₁, mem, glides, hd⟩
      · exact .refused evolves he
      · exact .unserved mem glides hd
  | none =>
    refine ends_bind (ends_get (ends_bind ?_))
    refine ends_iff.mpr ⟨fun entry m hentry => bytecode_ends start hentry, fun e m' he => ?_⟩
    obtain ⟨evolves, admits⟩ := (enter_ends ready f).error he
    refine .refused evolves (admits fun func' hf' => ?_)
    cases hf.symm.trans hf'
    exact isSome_codeStart? hn

end Engine

namespace Ran

variable {dispatch : Native → Engine Unit} {f : FuncRef} {m₀ m' : Machine}

/-- A run of bytecode that succeeds gives back what it found. -/
theorem restored (start : Starts dispatch m₀) (code : m₀.HasCode f) (h : Ran dispatch f m₀ m') :
    (⟨f, m₀⟩ : Opened).Restored m' := by
  cases h with
  | absent native _ => exact absurd code native
  | served native _ _ _ => exact absurd code native
  | returned visits leaves =>
    cases (visits.inOrder start).stacked with
    | base covers => exact (covers.left leaves).1
    | call _ _ rest => cases rest

/-- **A run that succeeds keeps the stacks and the program.** -/
theorem keeps (start : Starts dispatch m₀) (h : Ran dispatch f m₀ m') : m₀.Keeps m' := by
  cases h with
  | absent _ glides => exact glides.keeps
  | served _ mem glides hd =>
    have sound := start.sound.persists glides.toEvolves.persists
    have serves := start.serves _ mem _ sound glides.registry (glides.state.trans start.state)
    exact glides.keeps.trans (serves.ok hd)
  | returned visits leaves =>
    have inv := visits.inOrder start
    cases inv.stacked with
    | base covers =>
      have restored := (covers.left leaves).1
      have persists := inv.persists.trans leaves.evolves.persists
      exact { persists with
        calls := restored.calls
        locals := restored.locals
        current := restored.current
        state := (leaves.state.trans inv.state).trans start.state.symm }
    | call _ _ rest => cases rest

end Ran

namespace Broke

variable {dispatch : Native → Engine Unit} {f : FuncRef} {m₀ m' : Machine} {e : Error}

/-- **A run that fails leaves a machine in order.** -/
theorem sound (start : Starts dispatch m₀) (h : Broke dispatch f m₀ e m') :
    m'.Sound ∧ m'.registry = m₀.registry := by
  have evolved : ∀ {m₁}, m₀.Persists m₁ → m₁.Sound ∧ m₁.registry = m₀.registry := fun persists =>
    ⟨start.sound.persists persists, persists.registry⟩
  cases h with
  | refused evolves _ => exact evolved evolves.persists
  | unserved mem glides hd =>
    have sound := start.sound.persists glides.toEvolves.persists
    exact (start.serves _ mem _ sound glides.registry (glides.state.trans start.state)).error hd
  | stopped visits stopped =>
    have inv := visits.inOrder start
    cases stopped with
    | absent _ evolves => exact evolved (inv.persists.trans evolves.persists)
    | refused evolves _ => exact evolved (inv.persists.trans evolves.persists)
    | unserved mem glides hd => exact (Visits.served start inv mem glides).error hd
    | stuck evolves _ => exact evolved (inv.persists.trans evolves.persists)
  | spent visits => exact evolved (visits.inOrder start).persists

end Broke

/-! ## 4. How an execution ends. -/

namespace Engine

variable {dispatch : Native → Engine Unit} {f : FuncRef} {m : Machine}

/-- A report changes what the host was told, and adds a context to the error. -/
theorem report_ends (e : Error) (m : Machine) :
    Ends (report e) m (fun e' m' => e'.cause = e.cause ∧ ∃ host, { m with host } = m') fun _ _ => False := by
  unfold report
  split
  · exact ⟨rfl, m.host, rfl⟩
  · refine ends_bind (ends_get (ends_bind (ends_modify (ends_pure ⟨rfl, _, rfl⟩))))

/-- **An execution** is a run, after which the machine rests, or runs on in the execution around it; a
    run that failed is unwound, and the error is the same up to its context. -/
theorem execute_ends (start : Starts dispatch m.started) (f : FuncRef) :
    Ends (execute dispatch f) m
      (fun _ m' => ∃ m₁, Ran dispatch f m.started m₁ ∧
        m' = { m₁ with state := if m.state = .running then .running else .idle })
      fun e m' => ∃ e₁ m₁ host, Broke dispatch f m.started e₁ m₁ ∧ e.cause = e₁.cause ∧
        m' = m₁.unwound host := by
  refine ends_bind (ends_get (ends_bind (ends_modify (ends_bind (ends_attempt ?_)))))
  refine (run_ends start f).mono ?_ ?_
  · intro _ m₁ ran
    exact ends_modify ⟨m₁, ran, rfl⟩
  · intro e₁ m₁ broke
    refine ends_bind ((report_ends e₁ m₁).mono ?_ fun _ _ h => h.elim)
    intro e _ hres
    obtain ⟨cause, host, rfl⟩ := hres
    exact ends_bind (ends_modify ⟨e₁, m₁, host, broke, cause, rfl⟩)

end Engine

end QuakeProgs
