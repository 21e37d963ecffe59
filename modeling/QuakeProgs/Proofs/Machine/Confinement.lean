/-
  File:      QuakeProgs/Proofs/Machine/Confinement.lean
  Subject:   EXECUTION STAYS IN THE CODE OF THE FUNCTION THAT RUNS, if that code is closed.

  What the control successors of a statement are is read off the statement; here it is shown that the interpreter
  goes to no other place, but for calls and returns, and that a return comes back behind a call.

  * `Engine.cycle_follows` -- a turn goes on to a control successor, or calls, or returns;
  * `Program.Encloses` -- a closed block that holds the entry of a function;
  * `Visits.confined` -- at every statement of a run, every open call of the function stands in its block;
  * `ImageBuilder.defineBy_confines` -- functions from the assembler: the block is closed, and execution stays in it,
    exactly if the end of the body is not exposed;
  * `ImageBuilder.defineBy_leaks` -- a function that runs on into the next one.
-/
import QuakeProgs.Proofs.Image.Closure
import QuakeProgs.Proofs.Machine.Traces

namespace QuakeProgs

open Engine

/-! ## 1. The interpreter follows the statements. -/

/-- **Where a statement at `pc` lets control go**: on only if it passes, to a statement only if it is a branch to
    there or a call, back to a caller only if it returns. -/
def Statement.Allows (s : Statement) (pc : Nat) : Flow → Prop
  | .next => s.passes = true
  | .jump target => s.target? pc = some (target : Int) ∨ ∃ argc, s.op = .call argc
  | .returned _ => s.op.isReturn = true

namespace Engine

variable {dispatch : Native → Engine Unit} {m m' : Machine} {pc : Nat} {s : Statement} {flow : Flow}

/-- Whatever the action finds, what it gives is allowed. -/
def Allowed (s : Statement) (pc : Nat) (act : Engine Flow) : Prop :=
  ∀ m flow m', act m = .ok flow m' → s.Allows pc flow

theorem Allowed.pure {flow : Flow} (h : s.Allows pc flow) : Allowed s pc (pure flow) := by
  intro m _ _ e
  cases e
  exact h

theorem Allowed.bind {β : Type} {x : Engine β} {f : β → Engine Flow} (h : ∀ b, Allowed s pc (f b)) :
    Allowed s pc (x >>= f) := by
  intro m flow m' e
  cases hx : x m with
  | ok b n => exact h b n flow m' ((bind_of_ok hx).symm.trans e)
  | error err n =>
    rw [bind_of_error hx] at e
    cases e

/-- A branch is followed to its target. -/
theorem jump_allowed : Allowed s pc (jump pc s) := by
  refine .bind fun m => ?_
  dsimp only
  split
  · next inside =>
    refine .pure (.inl ?_)
    cases target : s.target? pc with
    | none =>
      rw [target] at inside
      exact absurd inside.1 (by decide)
    | some t =>
      rw [target] at inside
      exact congrArg some (Int.toNat_of_nonneg inside.1).symm
  · intro m _ _ e
    cases e

/-- A call goes to the entry of a function, or on behind a builtin. -/
theorem call_allowed {argc : Fin 9} (op : s.op = .call argc) (f : FuncRef) : Allowed s pc (call dispatch f) := by
  have passes : s.passes = true := by rw [Statement.passes, op]; rfl
  refine .bind fun func => ?_
  split
  · exact .bind fun _ => .pure passes
  · exact .bind fun _ => .pure (.inr ⟨argc, op⟩)

theorem step_allowed (dispatch : Native → Engine Unit) (pc : Nat) (s : Statement) :
    Allowed s pc (step dispatch pc s) := by
  obtain ⟨op, a, b, c⟩ := s
  cases op with
  | done | ret => exact .bind fun _ => .bind fun _ => .pure rfl
  | branchIf | branchIfNot =>
    refine .bind fun w => ?_
    split
    · exact jump_allowed
    · exact .pure rfl
  | goto => exact jump_allowed
  | call argc => exact .bind fun _ => .bind fun f => call_allowed rfl f
  | _ => exact .bind fun _ => .pure rfl

/-- **A turn goes where its statement lets it.** -/
theorem cycle_follows (e : cycle dispatch pc m = .ok flow m') :
    ∃ s, m.program.code pc = some s ∧ s.Allows pc flow := by
  cases found : m.program.statements[pc]? with
  | none =>
    rw [cycle_eq_of_none found] at e
    cases e
  | some s =>
    rw [cycle_eq found] at e
    exact ⟨s, found, step_allowed dispatch pc s _ _ _ e⟩

/-- A turn that calls knows whom. -/
theorem callee?_of_call {argc : Fin 9} (found : m.program.code m.statement = some s) (op : s.op = .call argc)
    (e : cycle dispatch m.statement m = .ok flow m') : m.callee? ≠ none := by
  intro unknown
  rw [Machine.callee?_eq found op] at unknown
  rw [cycle_eq found, step, op] at e
  dsimp only at e
  have missing : word s.ga { m.fetched m.statement with argc := argc.val } =
      .error (m.globals.bad s.ga) { m.fetched m.statement with argc := argc.val } := by
    rw [word, reads, GlobalBlock.get, show (m.fetched m.statement).globals = m.globals from rfl, unknown]
  rw [modify_bind, bind_of_error missing] at e
  cases e

end Engine

/-! ## 2. Runs. -/

/-- **The code of function `g` lies in a closed block** from `first` up to `stop`. -/
structure Program.Encloses (p : Program) (g : FuncRef) (first stop : Nat) : Prop where
  entry : ∀ func entry, p.function? g = some func → func.codeStart? = some entry → first ≤ entry ∧ entry < stop
  closed : Closed p.code first stop

/-- All levels of function `g` in a call chain stand in the block. -/
def InBlock (g : FuncRef) (first stop : Nat) (levels : List StackFrame) : Prop :=
  ∀ level ∈ levels, level.function = g → first ≤ level.statement ∧ level.statement < stop

namespace InBlock

variable {g : FuncRef} {first stop pc pc' : Nat} {o : Opened} {opened : List Opened}

/-- The innermost level moves, the others wait. -/
theorem moved (h : InBlock g first stop (Opened.levels opened pc))
    (moves : ∀ o rest, opened = o :: rest → o.ref = g → first ≤ pc ∧ pc < stop → first ≤ pc' ∧ pc' < stop) :
    InBlock g first stop (Opened.levels opened pc') := by
  cases opened with
  | nil => exact h
  | cons o rest =>
    intro level mem named
    rcases List.mem_cons.mp mem with rfl | waits
    · exact moves o rest rfl named (h ⟨o.ref, pc⟩ List.mem_cons_self named)
    · exact h level (List.mem_cons_of_mem _ waits) named

/-- A new level, at the entry of its function. -/
theorem called (h : InBlock g first stop (Opened.levels opened o.before.statement))
    (entered : o.ref = g → first ≤ pc ∧ pc < stop) : InBlock g first stop (Opened.levels (o :: opened) pc) := by
  intro level mem named
  rcases List.mem_cons.mp mem with rfl | waits
  · exact entered named
  · exact h level waits named

end InBlock

/-- A call is a statement that control goes on behind. -/
theorem Machine.passes_of_callee? {m : Machine} {f : FuncRef} (h : m.callee? = some f) :
    ∃ s, m.program.code m.statement = some s ∧ s.passes = true := by
  unfold callee? at h
  split at h
  · next argc a b c found => exact ⟨_, found, rfl⟩
  · cases h

/-- From a statement in a closed block, control goes on within it. -/
theorem Program.Encloses.goes {p : Program} {g : FuncRef} {first stop pc next : Nat} {s : Statement}
    (h : p.Encloses g first stop) (found : p.code pc = some s) (leads : (next : Int) ∈ s.successors pc)
    (inside : first ≤ pc ∧ pc < stop) : first ≤ next ∧ next < stop := by
  obtain ⟨low, high⟩ := closed_iff.mp h.closed pc s next inside.1 inside.2 found leads
  omega

namespace Visits

variable {dispatch : Native → Engine Unit} {f g : FuncRef} {m₀ m : Machine} {opened : List Opened} {first stop : Nat}

/-- **Execution stays in the block**: at every statement of a run, the open calls of the function stand in it, the
    innermost at the statement that runs, the others at the calls they wait for. -/
theorem confined (start : Starts dispatch m₀) (encloses : m₀.program.Encloses g first stop)
    (h : Visits dispatch f m₀ opened m) : InBlock g first stop (Opened.levels opened m.statement) := by
  induction h with
  | entered entered =>
    obtain ⟨func, enters⟩ := (enter_ends start.sound.toReady f).ok entered
    intro level mem named
    rw [List.mem_singleton.mp mem] at named ⊢
    cases named
    exact encloses.entry func _ enters.found enters.code
  | next h turned ih =>
    obtain ⟨s, found, passes⟩ := cycle_follows turned
    rw [(h.inOrder start).persists.program] at found
    refine ih.moved fun _ _ _ _ inside => encloses.goes found ?_ inside
    exact Statement.mem_successors.mpr (.inr ⟨passes, rfl⟩)
  | jumped h turned uncalled ih =>
    obtain ⟨s, found, branch | ⟨argc, op⟩⟩ := cycle_follows turned
    · rw [(h.inOrder start).persists.program] at found
      exact ih.moved fun _ _ _ _ inside =>
        encloses.goes found (Statement.mem_successors.mpr (.inl branch)) inside
    · exact absurd uncalled (callee?_of_call found op turned)
  | called h turned callee ih =>
    have program := (h.inOrder start).persists.program
    refine InBlock.called ih ?_
    rintro rfl
    cases (cycle_ends start (h.inOrder start)).ok turned with
    | jumped _ uncalled _ =>
      rw [callee] at uncalled
      cases uncalled
    | entered _ callee' enters =>
      cases callee.symm.trans callee'
      exact encloses.entry _ _ (program ▸ enters.found) enters.code
  | returned h turned deep ih =>
    have inv := h.inOrder start
    cases (cycle_ends start inv).ok turned with
    | left leaves =>
      have waits := h.waits start
      cases inv.stacked with
      | base covers => exact absurd (by rw [(covers.left leaves).1.calls]) deep
      | @call o opened _ covers _ rest =>
        -- The caller waits at a call, behind which control goes on.
        obtain ⟨o', rest', rfl, -⟩ := rest.top
        obtain ⟨s, found, passes⟩ := Machine.passes_of_callee? (waits o List.mem_cons_self)
        rw [← covers.program, inv.persists.program] at found
        have others : InBlock g first stop (Opened.levels (o' :: rest') o.before.statement) :=
          fun level mem => ih level (List.mem_cons_of_mem _ mem)
        rw [(covers.left leaves).2]
        exact others.moved fun _ _ _ _ inside =>
          encloses.goes found (Statement.mem_successors.mpr (.inr ⟨passes, rfl⟩)) inside

end Visits

/-! ## 3. Functions from the assembler. -/

/-- **No run leaves the block while function `g` runs**, on whatever machine the program is loaded, with builtins of
    the host that do not survive a failed execution. -/
def Program.Confines (p : Program) (g : FuncRef) (first stop : Nat) : Prop :=
  ∀ (routines : Nat → Routine) (registry : Registry) (m : Machine), registry.Trusts routines →
    Reachable routines registry m → m.program = p → ∀ nesting f opened m₁,
      Visits (Dispatch.link routines nesting) f m.started opened m₁ →
      InBlock g first stop (Opened.levels opened m₁.statement)

theorem Program.Encloses.confines {p : Program} {g : FuncRef} {first stop : Nat} (h : p.Encloses g first stop) :
    p.Confines g first stop := by
  intro routines registry m trusts reachable program nesting f opened m₁ visits
  subst program
  obtain ⟨sound, -, hr⟩ := reachable.sound trusts
  exact visits.confined (Reachable.starts trusts sound hr nesting) h

namespace ImageBuilder

variable {b : ImageBuilder} {f : FuncRef} {sizes : List UInt8} {cs : List BodyCommand}

/-- **Functions from the assembler.** Let every branch of a body end up aimed into the body or at its end. Control
    from the statements of the function goes to these statements, or just past them, the latter only if the end of
    the body is exposed. Their block is closed exactly if it is not; and then no run of any image that the function
    is carried over into leaves the block while the function runs. -/
theorem defineBy_confines (declared : f.toNat < b.functions.size)
    (aimed : ((FunctionBuilder.start b f sizes).performAll cs).Aimed) :
    let body := (FunctionBuilder.start b f sizes).performAll cs
    let done := b.defineBy f sizes cs
    (∀ i s t, b.statements.size ≤ i → i < done.statements.size → done.code i = some s → t ∈ s.successors i →
      b.statements.size ≤ t ∧ (t < done.statements.size ∨ t = done.statements.size ∧ body.Exposed)) ∧
    (Closed done.code b.statements.size done.statements.size ↔ ¬ body.Exposed) ∧
    (¬ body.Exposed → ∀ (later : ImageBuilder) options image, later.Carries done f b.statements.size →
      later.build.length < 2 ^ 31 → Image.load later.build options = .ok image →
      image.program.Confines f b.statements.size done.statements.size) := by
  intro body done
  have first : body.firstStatement = b.statements.size := (FunctionBuilder.shapes_performAll cs).first
  have closed_iff := FunctionBuilder.finish_closed_iff aimed
  rw [first] at closed_iff
  refine ⟨fun i s t low high found leads => ?_, closed_iff, ?_⟩
  · rw [← first] at low ⊢
    exact FunctionBuilder.finish_reaches aimed low high found leads
  · intro hidden later options image carries small loaded
    have counted : later.statements.size < 2 ^ 31 := by
      have length := later.raw.length_encode
      have rows : later.raw.statements.length = later.statements.size := Array.length_toList
      rw [ImageBuilder.build] at small
      omega
    have before : b.statements.size < done.statements.size := b.defineBy_nonempty f sizes cs
    have inside : b.statements.size < 2 ^ 31 := by
      have := carries.size
      omega
    have shows := ((Image.load_encode_decides later.described_raw small options).passed image loaded).2
    refine Program.Encloses.confines ⟨fun func entry found code => ?_, ?_⟩
    · cases code.symm.trans (defineBy_entry declared carries inside shows found)
      exact ⟨Nat.le_refl _, before⟩
    · refine (closed_iff.mpr hidden).congr fun i low high => ?_
      rw [shows.code, ImageBuilder.code, carries.block i low high]
      rfl

/-- Two functions without names, neither of them defined. -/
def nameless : ImageBuilder := { functions := #[{}, {}, {}] }

/-- A branch to the end of the body, and a last statement. -/
def skipping (last : BodyCommand) : List BodyCommand := [.branchIfNot 4 1, last, .patchBranch 1 3]

/-- The function with the branch. -/
def skipper (last : BodyCommand) : ImageBuilder := nameless.defineBy 1 [] (skipping last)

/-- Behind it a function that returns at once. -/
def skipperAndNext (last : BodyCommand) : ImageBuilder := (skipper last).defineBy 2 [] []

/-- Where control goes on from the last statement, a `DONE` stands where the branch leads. -/
theorem defineBy_confines_skipping : 1 < nameless.functions.size ∧
    ((FunctionBuilder.start nameless 1 []).performAll (skipping (.emit .notFloat 4 0 4))).Aimed ∧
    ∃ image, Image.load (skipperAndNext (.emit .notFloat 4 0 4)).build .small = .ok image ∧
      image.program.Confines 1 1 4 := by
  have aimed : ((FunctionBuilder.start nameless 1 []).performAll (skipping (.emit .notFloat 4 0 4))).Aimed := by
    decide +kernel
  have loads : (Image.load (skipperAndNext (.emit .notFloat 4 0 4)).build .small).toOption.isSome = true := by
    decide +kernel
  obtain ⟨image, found⟩ := Option.isSome_iff_exists.mp loads
  have loaded := eq_ok_of_toOption found
  have carries : (skipperAndNext (.emit .notFloat 4 0 4)).Carries (skipper (.emit .notFloat 4 0 4)) 1 1 :=
    (Carries.refl _ 1 1).defineBy (by decide) [] [] nofun
  obtain ⟨-, -, confines⟩ := @defineBy_confines nameless 1 _ _ (by decide) aimed
  refine ⟨by decide, aimed, image, loaded, ?_⟩
  exact confines (by decide +kernel) _ _ image carries (by decide +kernel) loaded

/-- **A function that runs on into the next one.** The body ends in a `RETURN`, so nothing is appended, and its first
    statement is a branch to the end. There the next function starts. -/
theorem defineBy_leaks :
    ((FunctionBuilder.start nameless 1 []).performAll (skipping (.ret 1))).Aimed ∧
    ¬ Closed (skipper (.ret 1)).code 1 3 ∧
    ∃ m opened m₁, Reachable default .core m ∧ Visits (Dispatch.link default 0) 1 m.started opened m₁ ∧
      (m.program.function? 2).bind Function.codeStart? = some 3 ∧ Opened.levels opened m₁.statement = [⟨1, 3⟩] := by
  have aimed : ((FunctionBuilder.start nameless 1 []).performAll (skipping (.ret 1))).Aimed := by decide +kernel
  have open' : ¬ Closed (skipper (.ret 1)).code 1 3 := by decide +kernel
  have loads : Machine.Loads (skipperAndNext (.ret 1)).build .small {} .core fun m =>
      (m.program.function? 2).bind Function.codeStart? = some 3 ∧
      Ends (enter 1) m.started (fun entry m₁ => (m₁.moveTo entry).callee? = none ∧
        Ends (cycle (Dispatch.link default 0) entry) (m₁.moveTo entry) (fun flow _ => flow = .jump 3)
          fun _ _ => False) fun _ _ => False := by
    decide +kernel
  obtain ⟨m, reachable, next, entering⟩ := loads.reachable default
  obtain ⟨entry, m₁, entered, uncalled, turning⟩ := entering.exists_ok
  obtain ⟨_, m₂, turned, rfl⟩ := turning.exists_ok
  exact ⟨aimed, open', m, _, _, reachable, .jumped (.entered entered) turned uncalled, next, rfl⟩

end ImageBuilder

end QuakeProgs
