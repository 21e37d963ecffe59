/-
  File:      QuakeProgs/Proofs/Machine/Balance.lean
  Subject:   CALLS AND RETURNS BALANCE, over runs of any length and executions nested to any depth.

  All functions keep their locals in one block of globals, and their ranges may overlap. What a call
  overwrites is therefore saved on one stack, and where it came from on another. Here it is shown that
  the two stay in step.

  * `Routine.lawful_propagate` -- a builtin that executes a function and hands the outcome on is lawful;
  * `Machine.Counted` -- the stacks at a point of a run, counted from where it started;
  * `Engine.execute_restores` -- every return gives back what its call found, and so does an execution;
  * `Engine.execute_unbalanced` -- a builtin that survives a failed execution can break this.
-/
import QuakeProgs.Image.Builder
import QuakeProgs.Proofs.Machine.Reachable

namespace QuakeProgs

open Engine

/-! ## 1. Lawful builtins. -/

theorem Engine.Keeping.obeys {α : Type} {registry : Registry} {act : Engine α} (h : Keeping act) :
    Obeys registry act := by
  intro m sound hr _
  exact (h m sound).mono (fun _ _ k => k) fun _ _ k => ⟨sound.keeps k, k.registry.trans hr⟩

theorem Engine.argWord_keeping (n : Nat) : Keeping (argWord n) := by
  refine Keeping.bind ?_ fun _ => .reads _
  unfold argOffset
  split
  · exact .fail
  · exact .pure _

/-- **A builtin that executes a function and hands the outcome on is lawful.** -/
theorem Routine.lawful_propagate (registry : Registry) {target : Engine FuncRef} (h : Keeping target) :
    (exec target propagate).Lawful registry := by
  refine ⟨h.obeys, (Keeping.pure ()).obeys, fun e => ⟨?_, fun m a m' => nofun⟩⟩
  intro m sound hr
  exact ⟨sound, hr⟩

/-! ## 2. Every return gives back what its call found. -/

/-- **The stacks at a point of a run** that started from `m`, the open calls being `opened`: both within
    their bounds, and as many words saved as the functions entered and not yet left have in their
    ranges. -/
structure Machine.Counted (m : Machine) (opened : List Opened) (m₁ : Machine) : Prop where
  depth : m₁.calls.depth ≤ m.config.maxDepth
  used : m₁.locals.used ≤ m.config.localWords
  entered : m₁.entered = m.entered ++ (opened.map Opened.ref).reverse
  saved : m₁.locals.used = (m₁.entered.map m.program.savedWords).sum

variable {routines : Nat → Routine} {registry : Registry} {nesting : Nat} {f : FuncRef} {m m₁ : Machine}

/-- The invariant of a run, counted from the machine that was reached. -/
theorem InOrder.counted {opened : List Opened} (sound : m.Sound) (balanced : m.Balanced)
    (h : InOrder m.started ⟨f, m.started⟩ opened m₁) : m.Counted opened m₁ := by
  obtain ⟨depth, used, saved⟩ := h.stacked.balanced { balanced with }
  constructor
  · rw [h.persists.limit] at depth
    exact Nat.le_trans depth (Nat.le_of_eq sound.limit)
  · rw [h.persists.capacity] at used
    exact Nat.le_trans used (Nat.le_of_eq sound.capacity)
  · exact h.stacked.entered
  · rw [h.persists.program] at saved
    exact saved

/-- **Calls and returns balance.** Where no builtin of the host survives a failed execution, an execution
    of bytecode that succeeds gives back both stacks, the running function and the words of its range as
    it found them. At every point on the way the stacks are counted, and every return on the way gives
    back what the innermost open call found. -/
theorem Engine.execute_restores (trusts : registry.Trusts routines) (h : Reachable routines registry m)
    (code : m.HasCode f) (nesting : Nat) :
    (∀ m', execute (Dispatch.link routines nesting) f m = .ok () m' → (⟨f, m⟩ : Opened).Restored m') ∧
    ∀ opened m₁, Visits (Dispatch.link routines nesting) f m.started opened m₁ →
      m.Counted opened m₁ ∧
      ∀ caller m', cycle (Dispatch.link routines nesting) m₁.statement m₁ = .ok (.returned caller) m' →
        ∃ o rest, opened = o :: rest ∧ o.Restored m' := by
  obtain ⟨sound, balanced, hr⟩ := h.sound trusts
  have start := Reachable.starts trusts sound hr nesting
  refine ⟨fun m' hm' => ?_, fun opened m₁ visits => ⟨?_, fun caller m' hc => visits.restores start hc⟩⟩
  · obtain ⟨m₁, ran, rfl⟩ := (execute_ends start f).ok hm'
    obtain ⟨calls, locals, current, range⟩ := ran.restored start code
    exact ⟨calls, locals, current, range⟩
  · exact (visits.inOrder start).counted sound balanced

/-! ## 3. With a builtin of the host. -/

namespace Engine

/-- A program for one builtin of the host. Function 1 sets its local, word 92, hands the function in word 94
    to the builtin, calls function 2, and returns. Function 2 has the same word in its range, and the next
    one, and sets both. -/
def reentering (handed : Word) : ImageBuilder :=
  { statements := #[{}, { op := 31, a := 97, b := 92 }, { op := 31, a := 94, b := 4 }, { op := 52, a := 96 },
      { op := 51, a := 95 }, { op := 43 },
      { op := 31, a := 97, b := 92 }, { op := 31, a := 97, b := 93 }, { op := 43 }]
    functions := #[{}, { firstStatement := 1, parmStart := 92, locals := 1 },
      { firstStatement := 6, parmStart := 92, locals := 2 }, { firstStatement := -1 }]
    globals := Array.replicate 92 0 ++ #[5, 6, handed, 2, 3, 7] }

/-- A builtin of the host, and no other. -/
def hosting : Registry := { builtins := #[{ name := "exec", number := 1, code := .hosted 0 }] }

/-- The builtin executes its argument and hands the outcome on. -/
def handingOn : Nat → Routine := fun _ => .exec (argWord 0) .propagate

theorem execute_restores_reentered : hosting.Trusts handingOn ∧ ∃ m m', Reachable handingOn hosting m ∧
    m.HasCode 1 ∧ execute (Dispatch.link handingOn 1) 1 m = .ok () m' ∧ (⟨1, m⟩ : Opened).Restored m' := by
  have loads : Machine.Loads (reentering 2).build .small { numbering := .own } hosting fun m =>
      ((m.program.function? 1).any fun func => func.codeStart?.isSome) = true ∧
      Ends (execute (Dispatch.link handingOn 1) 1) m (fun _ _ => True) fun _ _ => False := by
    decide +kernel
  have trusts : hosting.Trusts handingOn := fun _ _ _ _ => Routine.lawful_propagate _ (argWord_keeping 0)
  obtain ⟨m, reachable, code, ends⟩ := loads.reachable handingOn
  obtain ⟨_, m', he, -⟩ := ends.exists_ok
  have code := (Option.any_eq_true _ _).mp code
  exact ⟨trusts, m, m', reachable, code, he, (execute_restores trusts reachable code 1).1 m' he⟩

/-- The builtin executes its argument and goes on, whatever the outcome. -/
def goingOn : Nat → Routine := fun _ => .exec (argWord 0) fun _ => .finish (pure ())

/-- **A builtin that survives a failed execution breaks the balance.** The failure empties both stacks under
    the function that called the builtin. When that one calls another, the return of the other ends the
    execution, and what the first had saved is lost. -/
theorem execute_unbalanced : ∃ m m', Reachable goingOn hosting m ∧ m.HasCode 1 ∧
    execute (Dispatch.link goingOn 1) 1 m = .ok () m' ∧ ¬ (⟨1, m⟩ : Opened).Restored m' := by
  have loads : Machine.Loads (reentering 0).build .small { numbering := .own } hosting fun m =>
      ((m.program.function? 1).any fun func =>
        func.codeStart?.isSome && func.parmStart == 92 && func.locals == 1) = true ∧
      m.globals.words[92]? = some 5 ∧
      Ends (execute (Dispatch.link goingOn 1) 1) m (fun _ m' => m'.globals.words[92]? = some 7)
        fun _ _ => False := by
    decide +kernel
  obtain ⟨m, reachable, code, before, ends⟩ := loads.reachable goingOn
  obtain ⟨_, m', he, after⟩ := ends.exists_ok
  obtain ⟨func, found, code⟩ := (Option.any_eq_true _ _).mp code
  simp only [Bool.and_eq_true, beq_iff_eq] at code
  refine ⟨m, m', reachable, ⟨func, found, code.1.1⟩, he, fun restored => ?_⟩
  have range := restored.range 0
  rw [Opened.func_eq found, code.2, code.1.2, before, after] at range
  exact absurd (range Nat.zero_lt_one) (by decide)

end Engine

end QuakeProgs
