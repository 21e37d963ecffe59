/-
  File:      QuakeProgs/Proofs/Machine/Traces.lean
  Subject:   THE CALL CHAIN THAT AN ABORT SHOWS.

  The innermost level of the chain lies in two registers, the others in the return points. A call changes the two in
  several steps, of which each may fail. The chain that is shown is compared with the calls that are open, which are
  known from the course of the run and not from the stacks.

  * `Opened.levels` -- the chain as it should be shown: every open call once, the innermost at the statement that
    runs, the others at the calls they wait for;
  * `Visits.stackFrames` -- so it is at every statement of a run;
  * `Machine.Halts` -- what a failure leaves of the chain: all of it, and the innermost level once more where there
    was no room for the words that a call saves;
  * `Fails` -- where a run fails, and with which calls open;
  * `Engine.execute_traces` -- the chain that every failed execution shows;
  * `Engine.trace_repeats` -- a chain that shows a level twice.
-/
import QuakeProgs.Proofs.Machine.Framing

namespace QuakeProgs

open Engine

/-! ## 1. The chain of the open calls. -/

/-- **The levels of the call chain**, innermost first: the function that was called last stands at `pc`, every other
    one at the call that it waits for. -/
def Opened.levels : List Opened → (pc : Nat) → List StackFrame
  | [], _ => []
  | o :: rest, pc => { function := o.ref, statement := pc } :: levels rest o.before.statement

/-- A call adds one level, that of the function it called. -/
theorem Opened.Covers.stackFrames {o : Opened} {m : Machine} (h : o.Covers m) (known : o.ref ≠ 0) :
    m.stackFrames = { function := o.ref, statement := m.statement } :: o.before.stackFrames := by
  simp only [Machine.stackFrames, h.calls, h.current, CallStack.add, Array.toList_push, List.reverse_append,
    List.reverse_singleton, List.singleton_append, List.map_cons]
  rw [List.filter_cons_of_pos (by simpa using known)]

/-- From the start of a run on which no level lies, there is a level for every open call. -/
theorem Stacked.stackFrames {first : Opened} {opened : List Opened} {m : Machine} (h : Stacked first opened m)
    (known : ∀ o ∈ opened, o.ref ≠ 0) (empty : first.before.stackFrames = []) :
    m.stackFrames = Opened.levels opened m.statement := by
  induction h with
  | base covers => rw [covers.stackFrames (known _ List.mem_cons_self), empty, Opened.levels, Opened.levels]
  | call covers _ _ ih =>
    rw [covers.stackFrames (known _ List.mem_cons_self), ih fun o mem => known o (List.mem_cons_of_mem _ mem),
      ← Opened.levels]

namespace Visits

variable {dispatch : Native → Engine Unit} {f : FuncRef} {m₀ m : Machine} {opened : List Opened}

/-- Function zero is never entered. -/
theorem known (h : Visits dispatch f m₀ opened m) : ∀ o ∈ opened, o.ref ≠ 0 := by
  have entering : ∀ {g : FuncRef} {m m' : Machine} {entry : Nat}, enter g m = .ok entry m' → g ≠ 0 := by
    rintro g m m' entry entered rfl
    have refused : enter 0 m = .error { cause := .nullFunctionCall } m := rfl
    cases refused.symm.trans entered
  induction h with
  | entered entered =>
    intro o mem
    rw [List.mem_singleton.mp mem]
    exact entering entered
  | next _ _ ih => exact ih
  | jumped _ _ _ ih => exact ih
  | called _ turned callee ih =>
    intro o mem
    rcases List.mem_cons.mp mem with rfl | mem
    · obtain ⟨_, _, -, -, entered⟩ := (Machine.EntersBy.call callee turned).enters
      exact entering entered
    · exact ih o mem
  | returned _ _ _ ih => exact fun o mem => ih o (List.mem_of_mem_tail mem)

/-- **Every open call but the first was made by the statement at which its caller waits.** -/
theorem waits (start : Starts dispatch m₀) (h : Visits dispatch f m₀ opened m) :
    ∀ o ∈ opened.dropLast, o.before.callee? = some o.ref := by
  induction h with
  | entered _ => exact fun o mem => absurd mem List.not_mem_nil
  | next _ _ ih => exact ih
  | jumped _ _ _ ih => exact ih
  | called h _ callee ih =>
    intro o mem
    obtain ⟨_, _, rfl, -⟩ := (h.inOrder start).stacked.top
    rw [List.dropLast_cons_of_ne_nil (List.cons_ne_nil _ _)] at mem
    rcases List.mem_cons.mp mem with rfl | mem
    · exact callee
    · exact ih o mem
  | returned _ _ _ ih => exact fun o mem => ih o (List.mem_of_mem_tail (List.tail_dropLast ▸ mem))

/-- **At every statement of a run the chain is that of the open calls.** -/
theorem stackFrames (start : Starts dispatch m₀) (empty : m₀.stackFrames = [])
    (h : Visits dispatch f m₀ opened m) : m.stackFrames = Opened.levels opened m.statement :=
  (h.inOrder start).stacked.stackFrames h.known empty

end Visits

/-! ## 2. What a failure leaves of the chain. -/

/-- There was no room for the words that a call saves. -/
def Cause.isCrowded : Cause → Bool
  | .localStackOverflow .. => true
  | _ => false

/-- The innermost level, shown once more. -/
def repeatFirst (levels : List StackFrame) : List StackFrame := levels.take 1 ++ levels

/-- **A failure that nobody has reported**, and the chain it leaves. A return point is added before the words of a
    call are saved, so without room for the words the caller is shown once more. -/
structure Machine.Halts (m : Machine) (e : Error) (m' : Machine) : Prop where
  context : e.context = none
  frames : m'.stackFrames = if e.cause.isCrowded then repeatFirst m.stackFrames else m.stackFrames

namespace Machine

variable {m m' : Machine} {e : Error}

/-- Only the return points and the two registers are shown. -/
theorem stackFrames_congr (calls : m'.calls = m.calls) (current : m'.current = m.current)
    (statement : m'.statement = m.statement) : m'.stackFrames = m.stackFrames := by
  rw [stackFrames, calls, current, statement, stackFrames]

/-- Before a call changes the registers, its return point shows the caller once more. -/
theorem stackFrames_pushed (named : m.current = 0 → m.stackFrames = []) :
    { m with calls := m.calls.add { statement := m.statement, function := m.current } }.stackFrames =
      repeatFirst m.stackFrames := by
  have pushed : { m with calls := m.calls.add { statement := m.statement, function := m.current } }.stackFrames =
      [StackFrame.mk m.current m.statement].filter (·.function ≠ 0) ++ m.stackFrames := by
    simp only [stackFrames, CallStack.add, Array.toList_push, List.reverse_append, List.reverse_singleton,
      List.singleton_append, List.map_cons]
    rw [← List.filter_append, List.singleton_append]
  rw [pushed, repeatFirst]
  by_cases idle : m.current = 0
  · rw [named idle, List.filter_cons_of_neg (by simpa using idle)]
    rfl
  · have first : m.stackFrames = StackFrame.mk m.current m.statement :: m.stackFrames.tail := by
      rw [stackFrames, List.filter_cons_of_pos (by simpa using idle), List.tail_cons]
    rw [first, List.filter_cons_of_pos (by simpa using idle)]
    rfl

/-- A failure that has nothing to do with limits leaves the chain alone. -/
theorem Halts.of_plain (plain : e.Plain) (frames : m'.stackFrames = m.stackFrames) : m.Halts e m' := by
  have other : e.cause.isCrowded = false := by
    have limit := plain.cause
    cases cause : e.cause <;> simp_all [Cause.isLimit, Cause.isCrowded]
  exact ⟨plain.context, by rw [other]; exact frames⟩

/-- The same failure of a machine that shows the same chain. -/
theorem Halts.of_same {n : Machine} (h : n.Halts e m') (same : n.stackFrames = m.stackFrames) : m.Halts e m' :=
  ⟨h.context, same ▸ h.frames⟩

end Machine

namespace Engine

variable {α β : Type} {m : Machine} {routines : Nat → Routine} {nesting : Nat}

/-- **An action that shows in no chain**, and whose failure has nothing to do with limits. -/
def Unshown (act : Engine α) : Prop :=
  ∀ m, Ends act m (fun _ m' => m'.stackFrames = m.stackFrames) fun e m' => e.Plain ∧ m'.stackFrames = m.stackFrames

/-- Steady code shows in no chain. -/
theorem Unshown.of_steady {act : Engine α}
    (steady : ∀ {R : Machine → Machine → Prop}, KeptAlike R →
      (∀ m₁ m₂, R m₁ m₂ → m₁.argc = m₂.argc) →
      (∀ m₁ m₂, R m₁ m₂ → m₁.random = m₂.random) → Steady R act) : Unshown act :=
  fun m => (onlyData_of_steady steady m).mono
    (fun _ _ h => Machine.stackFrames_congr h.calls h.current h.statement)
    fun _ _ h => ⟨h.1, Machine.stackFrames_congr h.2.calls h.2.current h.2.statement⟩

theorem Unshown.halts {act : Engine α} (h : Unshown act) (m : Machine) :
    Ends act m (fun _ m' => m'.stackFrames = m.stackFrames) m.Halts :=
  (h m).mono (fun _ _ same => same) fun _ _ failed => .of_plain failed.1 failed.2

theorem Unshown.pure (a : α) : Unshown (Pure.pure a) := fun _ => rfl

theorem Unshown.bind {x : Engine β} {f : β → Engine α} (hx : Unshown x) (hf : ∀ b, Unshown (f b)) :
    Unshown (x >>= f) := by
  intro m
  refine ends_bind ((hx m).mono (fun b m₁ same => ?_) fun _ _ h => h)
  exact (hf b m₁).mono (fun _ _ h => h.trans same) fun _ _ h => ⟨h.1, h.2.trans same⟩

/-- A builtin of the engine shows in no chain. -/
theorem callBuiltin_halts (core : m.builtins.All Builtin.IsCore) (number : Nat) (f : FuncRef) :
    Ends (callBuiltin (Dispatch.link routines nesting) number f) m (fun _ _ => True) m.Halts := by
  refine ends_bind (ends_modify (ends_bind (ends_reads (fun slot found => ?_) fun e failed => ?_)))
  · cases slot with
    | none =>
      have zero : Unshown (returnVector .zero) := .of_steady fun kept _ _ => returnVector_steady kept .zero
      exact (zero.halts _).mono (fun _ _ _ => trivial) fun _ _ h => h.of_same rfl
    | some b =>
      obtain ⟨c, code⟩ := core b (BuiltinTable.mem_of_lookup found)
      dsimp only
      rw [code, Dispatch.link_core]
      have own : Unshown (Engine.core c) :=
        .of_steady fun kept counted drawn => core_steady kept counted c (.inl drawn)
      exact (own.halts _).mono (fun _ _ _ => trivial) fun _ _ h => h.of_same rfl
  · exact .of_plain (BuiltinTable.lookup_plain _ _ e failed) rfl

/-- **Entering** fails before the chain is touched, or between its two steps. -/
theorem enter_halts (ready : m.Ready) (named : m.current = 0 → m.stackFrames = []) (g : FuncRef) :
    Ends (enter g) m (fun _ _ => True) m.Halts := by
  have found : Unshown (function g) := .of_steady fun kept _ _ => function_steady kept g
  refine ends_bind (ends_iff.mpr ⟨fun func m₁ ok => ?_, fun e m' failed => (found.halts m).error failed⟩)
  obtain ⟨rfl, -, known⟩ := (function_ends m g).ok ok
  cases entry : func.codeStart? with
  | none => exact .of_plain ⟨rfl, rfl⟩ rfl
  | some entry' =>
    have fits := fits_of_function? ready known
    have code : func.codeStart?.isSome := Option.isSome_of_eq_some entry
    refine ends_bind (ends_update (fun _ _ => ?_) fun e full => ?_)
    · refine ends_bind ((slice_ends _ (by exact fits.locals code)).mono ?_ fun _ _ never => never)
      rintro region _ ⟨rfl, -⟩
      refine ends_bind (ends_update (fun _ _ => ?_) fun e full => ?_)
      · refine ends_bind ((copyArgs_total (by exact ready.program.wellKnown) ?_ (fits.widths code)
          (by exact fits.parms code)).mono (fun _ _ _ => trivial) fun _ _ never => never.elim)
        rw [Nat.zero_add]
        exact length_passedSizes func
      · refine ⟨LocalStack.checkRoom_unreported _ _ e full, ?_⟩
        rw [LocalStack.checkRoom_error full]
        exact m.stackFrames_pushed named
    · refine ⟨CallStack.checkRoom_unreported _ e full, ?_⟩
      rw [CallStack.checkRoom_error full]
      rfl

/-- **A call** of a builtin of the engine or of bytecode. -/
theorem call_halts (ready : m.Ready) (core : m.builtins.All Builtin.IsCore)
    (named : m.current = 0 → m.stackFrames = []) (g : FuncRef) :
    Ends (call (Dispatch.link routines nesting) g) m (fun _ _ => True) m.Halts := by
  have found : Unshown (function g) := .of_steady fun kept _ _ => function_steady kept g
  refine ends_bind (ends_iff.mpr ⟨fun func m₁ ok => ?_, fun e m' failed => (found.halts m).error failed⟩)
  obtain ⟨rfl, -, known⟩ := (function_ends m g).ok ok
  cases func.builtinNumber? with
  | some number =>
    refine ends_bind ((callBuiltin_halts core number g).mono (fun _ _ _ => trivial) fun _ _ h => h)
  | none => exact ends_bind ((enter_halts ready named g).mono (fun _ _ _ => trivial) fun _ _ h => h)

/-- **A return from a function that can be left** succeeds. -/
theorem return_total (ready : m.Ready) {func : Function} (can : m.CanLeave func) (a : Nat) :
    Ends (do returnWords a; return Flow.returned (← leave)) m (fun _ _ => True) fun _ _ => False := by
  have place : Global.returned + 3 ≤ m.globals.size := returned_lt ready.program.wellKnown
  have ready₁ (ws : List Word) : Machine.Ready { m with globals := m.globals.overwrite Global.returned ws } :=
    ⟨by rw [GlobalBlock.size_overwrite]; exact ready.program, ready.cursor, ready.edicts⟩
  refine ends_bind (ends_bind (ends_get ((write_ends m (by exact place)).mono ?_ fun _ _ never => never)))
  rintro _ _ rfl
  refine ends_bind ((leave_ends (ready₁ _)).mono (fun _ _ _ => trivial) fun _ _ stuck => ?_)
  exact stuck.2 func { can with }

/-- A statement that neither calls nor returns shows in no chain. -/
theorem step_unshown (dispatch : Native → Engine Unit) (pc : Nat) {st : Statement} (inner : st.op.isReturn = false)
    (other : ∀ argc, st.op ≠ .call argc) : Unshown (step dispatch pc st) := by
  have read (ofs : Nat) : Unshown (word ofs) := .of_steady fun kept _ _ => word_steady kept ofs
  have jumped : Unshown (jump pc st) := .of_steady fun kept _ _ => jump_steady kept pc st
  have computed : Unshown (do compute st; return Flow.next) :=
    Unshown.bind (.of_steady fun kept _ _ => compute_steady kept st) fun _ => .pure _
  obtain ⟨op, a, b, c⟩ := st
  cases op with
  | done => cases inner
  | ret => cases inner
  | branchIf =>
    refine (read _).bind fun w => ?_
    split
    · exact jumped
    · exact .pure _
  | branchIfNot =>
    refine (read _).bind fun w => ?_
    split
    · exact jumped
    · exact .pure _
  | goto => exact jumped
  | call argc => exact absurd rfl (other argc)
  | _ => exact computed

/-- **A turn that fails**, where the running function can be left. -/
theorem cycle_halts (ready : m.Ready) (core : m.builtins.All Builtin.IsCore) (named : m.current ≠ 0) {func : Function}
    (can : m.CanLeave func) :
    Ends (cycle (Dispatch.link routines nesting) m.statement) m (fun _ _ => True) m.Halts := by
  cases hst : m.program.statements[m.statement]? with
  | none =>
    rw [Ends, cycle_eq_of_none hst]
    exact .of_plain ⟨rfl, rfl⟩ rfl
  | some st =>
    by_cases calls : ∃ argc, st.op = .call argc
    · obtain ⟨argc, op⟩ := calls
      -- the word that names the function is there
      have operand := (ready.program.statements m.statement st hst).a
      rw [op] at operand
      obtain ⟨g, named'⟩ : ∃ g, m.globals.words[st.ga]? = some g := ⟨_, Array.getElem?_eq_getElem operand⟩
      have callee : m.callee? = some g := (Machine.callee?_eq hst op).trans named'
      obtain ⟨n, eq⟩ := @cycle_of_callee m g (Dispatch.link routines nesting) callee
      have ready' : (m.calling n).Ready := ⟨ready.program, ready.cursor, ready.edicts⟩
      rw [Ends, eq]
      exact (call_halts ready' core (fun idle => absurd idle named) _).mono (fun _ _ h => h)
        fun _ _ h => h.of_same rfl
    · rw [Ends, cycle_eq hst]
      cases returns : st.op.isReturn with
      | false =>
        have unshown := step_unshown (Dispatch.link routines nesting) m.statement returns
          fun argc op => calls ⟨argc, op⟩
        exact (unshown.halts _).mono (fun _ _ _ => trivial) fun _ _ h => h.of_same rfl
      | true =>
        have ready' : (m.fetched m.statement).Ready := ⟨ready.program, ready.cursor, ready.edicts⟩
        have can' : (m.fetched m.statement).CanLeave func := ⟨can.found, can.code, can.depth, can.held⟩
        have returned := return_total ready' can' st.ga
        obtain ⟨op, a, b, c⟩ := st
        cases op with
        | done | ret => exact returned.mono (fun _ _ h => h) fun _ _ never => never.elim
        | _ => cases returns

end Engine

/-! ## 3. Where a run fails. -/

/-- **Where a run fails**, with the calls that are open and the statement that runs. -/
inductive Fails (dispatch : Native → Engine Unit) (f : FuncRef) (m₀ : Machine) :
    List Opened → Nat → Error → Machine → Prop
  /-- No bytecode was entered. -/
  | outside {e : Error} {m : Machine} :
      run dispatch f m₀ = .error e m → (∀ entry m₁, enter f m₀ ≠ .ok entry m₁) →
      Fails dispatch f m₀ [] m₀.statement e m
  /-- A statement failed. -/
  | turning {opened : List Opened} {m m' : Machine} {e : Error} : Visits dispatch f m₀ opened m →
      cycle dispatch m.statement m = .error e m' → Fails dispatch f m₀ opened m.statement e m'
  /-- The budget was spent before a statement. -/
  | spent {opened : List Opened} {m : Machine} : Visits dispatch f m₀ opened m →
      Fails dispatch f m₀ opened m.statement { cause := .runawayLoop m₀.config.budget } m

namespace Engine

variable {dispatch : Native → Engine Unit} {f : FuncRef} {m₀ : Machine} {routines : Nat → Routine} {nesting : Nat}

/-- Only bytecode is entered. -/
theorem hasCode_of_enter {entry : Nat} {m₁ : Machine} (entered : enter f m₀ = .ok entry m₁) : m₀.HasCode f := by
  obtain ⟨func, _, found, code, -⟩ := (enter_copies m₀ f).ok entered
  exact ⟨func, found, Option.isSome_of_eq_some code⟩

/-- A run whose first statement fails. -/
theorem run_of_first {entry : Nat} {m₁ m' : Machine} {e : Error} (affords : m₀.config.budget ≠ 0)
    (entered : enter f m₀ = .ok entry m₁) (failed : cycle dispatch entry (m₁.moveTo entry) = .error e m') :
    run dispatch f m₀ = .error e m' := by
  obtain ⟨left, budget⟩ := Nat.exists_eq_succ_of_ne_zero affords
  rw [run_of_code (hasCode_of_enter entered), bind_of_ok entered, budget, loop, modify_bind]
  exact bind_of_error failed

/-- A run that fails, fails somewhere. -/
theorem run_fails (dispatch : Native → Engine Unit) (f : FuncRef) (m₀ : Machine) :
    Ends (run dispatch f) m₀ (fun _ _ => True)
      fun e m' => ∃ opened pc, Fails dispatch f m₀ opened pc e m' := by
  refine ends_iff.mpr ⟨fun _ _ _ => trivial, fun e m' failed => ?_⟩
  by_cases entering : ∃ entry m₁, enter f m₀ = .ok entry m₁
  · obtain ⟨entry, m₁, entered⟩ := entering
    rw [run_of_code (hasCode_of_enter entered), bind_of_ok entered] at failed
    obtain ⟨opened, m, visits, turned | ⟨rfl, rfl⟩⟩ := (loop_ends (.entered entered)).error failed
    · exact ⟨opened, _, .turning visits turned⟩
    · exact ⟨opened, _, .spent visits⟩
  · exact ⟨[], _, .outside failed fun entry m₁ entered => entering ⟨entry, m₁, entered⟩⟩

/-- **A run that enters nothing** shows in no chain, unless there was no room. -/
theorem run_halts (ready : m₀.Ready) (core : m₀.builtins.All Builtin.IsCore)
    (named : m₀.current = 0 → m₀.stackFrames = []) (refused : ∀ entry m₁, enter f m₀ ≠ .ok entry m₁) :
    Ends (run (Dispatch.link routines nesting) f) m₀ (fun _ _ => True) m₀.Halts := by
  have found : Unshown (function f) := .of_steady fun kept _ _ => function_steady kept f
  refine ends_bind (ends_iff.mpr ⟨fun func m₁ ok => ?_, fun e m' failed => (found.halts m₀).error failed⟩)
  obtain ⟨rfl, -, known⟩ := (function_ends m₀ f).ok ok
  cases func.builtinNumber? with
  | some number => exact callBuiltin_halts core number f
  | none =>
    refine ends_bind (ends_get (ends_bind (ends_iff.mpr ⟨fun entry m₁ entered => ?_, fun e m' failed => ?_⟩)))
    · exact absurd entered (refused entry m₁)
    · exact (enter_halts ready named f).error failed

end Engine

namespace Fails

variable {f : FuncRef} {m₀ m : Machine} {routines : Nat → Routine} {nesting : Nat} {opened : List Opened} {pc : Nat}
  {e : Error}

/-- **The chain where a run fails** on the engine's own builtins. -/
theorem frames (start : Starts (Dispatch.link routines nesting) m₀) (own : m₀.builtins.All Builtin.IsCore)
    (empty : m₀.stackFrames = []) (h : Fails (Dispatch.link routines nesting) f m₀ opened pc e m) :
    e.context = none ∧ m.stackFrames =
      if e.cause.isCrowded then repeatFirst (Opened.levels opened pc) else Opened.levels opened pc := by
  cases h with
  | outside failed refused =>
    have halts := (run_halts start.sound.toReady own (fun _ => empty) refused).error failed
    exact ⟨halts.context, by rw [halts.frames, empty, Opened.levels]⟩
  | @turning _ m₁ _ _ visits failed =>
    have inv := visits.inOrder start
    obtain ⟨o, rest, rfl, covers⟩ := inv.stacked.top
    have named : m₁.current ≠ 0 := covers.current ▸ visits.known o List.mem_cons_self
    have core : m₁.builtins.All Builtin.IsCore := (visits.evolves start own).builtins ▸ own
    have halts := (cycle_halts (start.sound.persists inv.persists).toReady core named covers.canLeave).error failed
    exact ⟨halts.context, by rw [halts.frames, visits.stackFrames start empty]⟩
  | spent visits => exact ⟨rfl, visits.stackFrames start empty⟩

/-- Every level but the outermost of those that are shown was entered by a call of the next. -/
theorem waits (start : Starts (Dispatch.link routines nesting) m₀)
    (h : Fails (Dispatch.link routines nesting) f m₀ opened pc e m) :
    ∀ o ∈ opened.dropLast, o.before.callee? = some o.ref := by
  cases h with
  | outside _ _ => exact fun o mem => absurd mem List.not_mem_nil
  | turning visits _ => exact visits.waits start
  | spent visits => exact visits.waits start

end Fails

/-! ## 4. Executions. -/

/-- **Between the calls of the host no level is shown**, on the engine's own builtins. -/
theorem Resting.levels_empty {routines : Nat → Routine} {registry : Registry} {m : Machine} (core : registry.OnlyCore)
    (h : Resting routines registry m) : m.stackFrames = [] := by
  suffices idle : m.calls.frames = #[] ∧ m.current = 0 by
    rw [Machine.stackFrames, idle.1, idle.2]
    rfl
  induction h with
  | fresh config _ => exact ⟨rfl, rfl⟩
  | @command m m' c _ after ih =>
    have serviced : ∀ m' : Machine, m.Serviced m' → m'.calls.frames = #[] ∧ m'.current = 0 :=
      fun m' s => ⟨s.calls ▸ ih.1, s.current ▸ ih.2⟩
    refine Ends.after (P := fun m' => m'.calls.frames = #[] ∧ m'.current = 0)
      ((c.perform_serves m).mono ?_ fun _ m' s => serviced m' s) after
    rintro _ m' (s | ⟨-, _, _, image, -, rfl⟩)
    · exact serviced m' s
    · exact ⟨rfl, rfl⟩
  | @executed m m' nesting f rest after ih =>
    obtain ⟨start, -⟩ := rest.reachable.starts_core core nesting
    rcases after with ⟨_, ok⟩ | ⟨e, failed⟩
    · obtain ⟨m₁, ran, rfl⟩ := (execute_ends start f).ok ok
      have kept := ran.keeps start
      exact ⟨(congrArg CallStack.frames kept.calls).trans ih.1, kept.current.trans ih.2⟩
    · have cleared := (execute_cleared failed).1
      exact ⟨cleared.frames, cleared.current⟩

namespace Engine

variable {routines : Nat → Routine} {registry : Registry} {m : Machine}

/-- The context of a report shows the call chain, as it is when the failure gets to it. -/
theorem report_shows {e e' : Error} {m' : Machine} (unreported : e.context = none) (h : report e m = .ok e' m') :
    ∃ statement edict, e'.cause = e.cause ∧
      e'.context = some (m.view.capture m.config.diagnostics statement m.stackFrames m.edicts edict) := by
  have unreported : ¬ e.isReported := by simp [Error.isReported, unreported]
  rw [report, if_neg unreported] at h
  cases h
  exact ⟨_, _, rfl, rfl⟩

/-- **The chain that an abort shows.** An execution on the engine's own builtins fails at some statement of its run,
    with some calls open; each but the first of these was made by the statement at which its caller waits. The chain
    in the context of the error is that of the open calls, innermost first, each once: the innermost with the
    statement that failed, each other with the call it waits for. Only where a call found no room for the words it
    saves, its caller is shown once more. -/
theorem execute_traces (core : registry.OnlyCore) (h : Resting routines registry m) (nesting : Nat) (f : FuncRef)
    {e : Error} {m' : Machine} (failed : execute (Dispatch.link routines nesting) f m = .error e m') :
    ∃ opened pc e₁ m₁, run (Dispatch.link routines nesting) f m.started = .error e₁ m₁ ∧
      Fails (Dispatch.link routines nesting) f m.started opened pc e₁ m₁ ∧
      (∀ o ∈ opened.dropLast, o.before.callee? = some o.ref) ∧
      (m₁.stackFrames =
        if e.cause.isCrowded then repeatFirst (Opened.levels opened pc) else Opened.levels opened pc) ∧
      ∃ statement edict, e.cause = e₁.cause ∧
        e.context = some (m₁.view.capture m₁.config.diagnostics statement m₁.stackFrames m₁.edicts edict) := by
  obtain ⟨start, own⟩ := h.reachable.starts_core core nesting
  obtain ⟨e₁, m₁, m₂, broke, reported, -⟩ := (execute_outcome _ f m).error failed
  obtain ⟨opened, pc, fails⟩ := (run_fails _ f m.started).error broke
  have empty : m.started.stackFrames = [] := show m.stackFrames = [] from h.levels_empty core
  obtain ⟨unreported, frames⟩ := fails.frames start own empty
  obtain ⟨statement, edict, cause, context⟩ := report_shows unreported reported
  rw [← cause] at frames
  exact ⟨opened, pc, e₁, m₁, broke, fails, fails.waits start, frames, statement, edict, cause, context⟩

/-- A function that calls a second one, which calls none. Each saves a word. -/
def descending : ImageBuilder :=
  { statements := #[{}, { op := 51, a := 92 }, { op := 43 }, { op := 51, a := 93 }]
    functions := #[{}, { firstStatement := 1, parmStart := 94, locals := 1 },
      { firstStatement := 3, parmStart := 94, locals := 1 }]
    globals := (Array.replicate 95 0).set! 92 2 }

/-- The second function fails at its first statement, while the first waits at its own. -/
theorem execute_traces_nested : ∃ m e m', Resting default .core m ∧
    execute (Dispatch.link default 0) 1 m = .error e m' ∧ e.cause = .nullFunctionCall ∧
    ∃ opened pc e₁ m₁, run (Dispatch.link default 0) 1 m.started = .error e₁ m₁ ∧
      Fails (Dispatch.link default 0) 1 m.started opened pc e₁ m₁ ∧
      m₁.stackFrames = Opened.levels opened pc ∧ m₁.stackFrames = [⟨2, 3⟩, ⟨1, 1⟩] := by
  have loads : Machine.Loads descending.build .small {} .core fun m =>
      Ends (execute (Dispatch.link default 0) 1) m (fun _ _ => False) (fun e _ => e.cause = .nullFunctionCall) ∧
      Ends (run (Dispatch.link default 0) 1) m.started (fun _ _ => False)
        fun _ m₁ => m₁.stackFrames = [⟨2, 3⟩, ⟨1, 1⟩] := by
    decide +kernel
  obtain ⟨image, loaded, unnamed, holds⟩ := loads
  rw [Machine.new_of_unnamed unnamed] at holds
  obtain ⟨execution, shown⟩ := holds
  obtain ⟨e, m', failed, cause⟩ := execution.exists_error
  have rest : Resting default .core (.new image {} .core) := .fresh _ loaded
  obtain ⟨opened, pc, e₁, m₁, broke, fails, -, frames, -⟩ := execute_traces Registry.onlyCore_core rest 0 1 failed
  rw [cause] at frames
  exact ⟨_, e, m', rest, failed, cause, opened, pc, e₁, m₁, broke, fails, frames, shown.error broke⟩

/-- **A chain that shows a level twice.** With room for a single word, the first function is the only one that is
    entered, and fails at its first statement. -/
theorem trace_repeats : ∃ m e m₁, Resting default .core m ∧
    run (Dispatch.link default 0) 1 m.started = .error e m₁ ∧
    Fails (Dispatch.link default 0) 1 m.started [⟨1, m.started⟩] 1 e m₁ ∧
    m₁.stackFrames = [⟨1, 1⟩, ⟨1, 1⟩] ∧ Opened.levels [⟨1, m.started⟩] 1 = [⟨1, 1⟩] := by
  have loads : Machine.Loads descending.build .small { localWords := 1 } .core fun m => m.started.config.budget ≠ 0 ∧
      Ends (enter 1) m.started (fun entry m₁ => entry = 1 ∧
        Ends (cycle (Dispatch.link default 0) 1) (m₁.moveTo 1) (fun _ _ => False)
          fun _ m₁ => m₁.stackFrames = [⟨1, 1⟩, ⟨1, 1⟩]) fun _ _ => False := by
    decide +kernel
  obtain ⟨image, loaded, unnamed, holds⟩ := loads
  rw [Machine.new_of_unnamed unnamed] at holds
  obtain ⟨affords, entering⟩ := holds
  obtain ⟨_, m₁, entered, rfl, turning⟩ := entering.exists_ok
  obtain ⟨e, m₂, failed, frames⟩ := turning.exists_error
  have rest : Resting default .core (.new image { localWords := 1 } .core) := .fresh _ loaded
  exact ⟨_, e, m₂, rest, run_of_first affords entered failed, .turning (.entered entered) failed, frames, rfl⟩

end Engine

end QuakeProgs
