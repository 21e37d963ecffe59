/-
  File:      QuakeProgs/Proofs/Machine/Metering.lean
  Subject:   THE BUDGET AND THE COUNTERS: what an execution is charged for.

  Code may branch backwards and call itself without end; only the budget stops it. A history is kept beside
  the run, of the statements that were dispatched and the functions that were called. It knows of no budget
  and reads no counter.

  * `Log`, `History` -- the statements that a run has dispatched so far, each with the innermost function that
    was entered and has not returned, and the functions that were entered or dispatched as builtins;
  * `Ended` -- a run that has come to its end by itself;
  * `Profile.Grows` -- the counters agree with the log;
  * `History.loopsTo` -- what the loop does after a history, it does with as much less of its budget;
  * `Engine.execute_meters` -- an execution dispatches no more statements than its budget, runs away exactly
    where so many were dispatched and the run stands, and counts what it dispatched.
-/
import QuakeProgs.Image.Builder
import QuakeProgs.Proofs.Machine.Passing
import QuakeProgs.Proofs.Machine.Resting
import QuakeProgs.Proofs.Machine.Safety
import QuakeProgs.Proofs.Machine.Uniformity

namespace QuakeProgs

/-! ## 1. The counters. -/

/-- **What was dispatched and called**, latest first. -/
structure Log where
  /-- For every statement that was dispatched, the function it is charged to. -/
  charges : List FuncRef := []
  /-- The functions that were entered, and the builtins that were dispatched. -/
  engaged : List FuncRef := []

/-- One more statement, and what it called. -/
def Log.add (log : Log) (charged : FuncRef) (called : Option FuncRef) : Log where
  charges := charged :: log.charges
  engaged := called.toList ++ log.engaged

namespace Profile

/-- A statement is counted, and what it called. -/
def counting (p : Profile) (charged : FuncRef) : (called : Option FuncRef) → Profile
  | none => p.statement charged
  | some g => (p.statement charged).call g

/-- **The counters have grown as the log says.** -/
structure Grows (p : Profile) (log : Log) (p' : Profile) : Prop where
  statements : ∀ g : FuncRef, p'.statements.getD g.toNat 0 = p.statements.getD g.toNat 0 + log.charges.count g
  calls : ∀ g : FuncRef, p'.calls.getD g.toNat 0 = p.calls.getD g.toNat 0 + log.engaged.count g
  total : p'.total = p.total + log.charges.length
  counts : ∀ n, p.Counts n → p'.Counts n

theorem Grows.refl (p : Profile) : p.Grows {} p := ⟨fun _ => rfl, fun _ => rfl, rfl, fun _ => id⟩

/-- A counter goes up, and no other. -/
theorem getD_modify {counters : Array Nat} {f : FuncRef} (inside : f.toNat < counters.size) (g : FuncRef) :
    (counters.modify f.toNat (· + 1)).getD g.toNat 0 = counters.getD g.toNat 0 + if f = g then 1 else 0 := by
  rw [Array.getD_eq_getD_getElem?, Array.getD_eq_getD_getElem?, Array.getElem?_modify]
  by_cases same : f = g
  · subst same
    rw [if_pos rfl, if_pos rfl, Array.getElem?_eq_getElem inside]
    rfl
  · rw [if_neg fun eq => same (UInt32.toNat.inj eq), if_neg same]
    rfl

theorem sum_modify {counters : List Nat} {i : Nat} (inside : i < counters.length) :
    (counters.modify i (· + 1)).sum = counters.sum + 1 := by
  induction counters generalizing i with
  | nil => cases inside
  | cons n rest ih =>
    cases i with
    | zero => simp only [List.modify_zero_cons, List.sum_cons]; omega
    | succ i => simp only [List.modify_succ_cons, List.sum_cons, ih (Nat.lt_of_succ_lt_succ inside)]; omega

theorem total_statement {p : Profile} {f : FuncRef} (inside : f.toNat < p.statements.size) :
    (p.statement f).total = p.total + 1 := by
  simp only [total, statement, ← Array.foldl_toList, ← List.sum_eq_foldl_nat, Array.toList_modify]
  exact sum_modify inside

theorem Counts.statement {p : Profile} {n : Nat} (h : p.Counts n) (f : FuncRef) : (p.statement f).Counts n :=
  ⟨by rw [Profile.statement, Array.size_modify, h.statements], h.calls⟩

theorem Counts.call {p : Profile} {n : Nat} (h : p.Counts n) (f : FuncRef) : (p.call f).Counts n :=
  ⟨h.statements, by rw [Profile.call, Array.size_modify, h.calls]⟩

variable {p p' : Profile} {log : Log} {n : Nat}

theorem Grows.charge (h : p.Grows log p') (counts : p'.Counts n) {f : FuncRef} (inside : f.toNat < n) :
    p.Grows (log.add f none) (p'.statement f) where
  statements g := by
    rw [Profile.statement, getD_modify (by rw [counts.statements]; exact inside), h.statements, Log.add,
      List.count_cons, Nat.add_assoc]
    simp only [beq_iff_eq]
  calls := h.calls
  total := by
    rw [total_statement (by rw [counts.statements]; exact inside), h.total]
    rfl
  counts k hk := (h.counts k hk).statement f

theorem Grows.engage (h : p.Grows log p') (counts : p'.Counts n) {f : FuncRef} (inside : f.toNat < n) :
    p.Grows { log with engaged := f :: log.engaged } (p'.call f) where
  statements := h.statements
  calls g := by
    rw [Profile.call, getD_modify (by rw [counts.calls]; exact inside), h.calls, List.count_cons, Nat.add_assoc]
    simp only [beq_iff_eq]
  total := h.total
  counts k hk := (h.counts k hk).call f

/-- **A statement that was counted, and what it called**, are in the log. -/
theorem Grows.add (h : p.Grows log p') (counts : p.Counts n) {f : FuncRef} {called : Option FuncRef}
    (charged : f.toNat < n) (found : ∀ g, called = some g → g.toNat < n) :
    p.Grows (log.add f called) (p'.counting f called) := by
  have grown := h.charge (h.counts n counts) charged
  cases called with
  | none => exact grown
  | some g => exact grown.engage ((h.counts n counts).statement f) (found g rfl)

end Profile

/-! ## 2. What a turn counts. -/

/-- A builtin that can be called; number zero stands for none. -/
def Program.isNative (p : Program) (g : FuncRef) : Bool :=
  g ≠ 0 && ((p.function? g).bind Function.builtinNumber?).isSome

theorem Machine.profile_moveTo (m : Machine) (pc : Nat) : (m.moveTo pc).profile = m.profile := rfl

/-- The builtin that the statement dispatches, if it calls one. -/
def Machine.native? (m : Machine) : Option FuncRef := m.callee?.filter m.program.isNative

/-- The function is one of the program's. -/
theorem Program.lt_of_function? {p : Program} {g : FuncRef} {func : Function} (h : p.function? g = some func) :
    g.toNat < p.functions.size := (Array.getElem?_eq_some_iff.mp h).1

theorem Machine.native?_found {m : Machine} {g : FuncRef} (h : m.native? = some g) :
    g.toNat < m.program.functions.size := by
  have native := (Option.filter_eq_some_iff.mp h).2
  simp only [Program.isNative, Bool.and_eq_true, Option.isSome_bind] at native
  cases found : m.program.function? g with
  | none => simp [found] at native
  | some func => exact Program.lt_of_function? found

/-- An error that does not say that a budget is spent. -/
def Error.Timely (e : Error) : Prop := ∀ budget, e.cause ≠ .runawayLoop budget

theorem Error.Plain.timely {e : Error} (h : e.Plain) : e.Timely := by
  intro budget spent
  have other := h.cause
  rw [spent] at other
  cases other

namespace Engine

variable {α β : Type} {m : Machine} {f : FuncRef} {routines : Nat → Routine} {nesting : Nat}

/-- **An action that counts nothing**, and whose failure has nothing to do with the budget. -/
def Unmetered (act : Engine α) : Prop :=
  ∀ m, Ends act m (fun _ m' => m'.profile = m.profile) fun e m' => e.Timely ∧ m'.profile = m.profile

/-- What follows an unmetered action finds the counters as they were. -/
theorem Unmetered.then {x : Engine β} {f : β → Engine α} {Q : α → Machine → Prop} {p : Profile} (hx : Unmetered x)
    (same : m.profile = p)
    (hf : ∀ b m₁, m₁.profile = p → Ends (f b) m₁ Q fun e m' => e.Timely ∧ m'.profile = p) :
    Ends (x >>= f) m Q fun e m' => e.Timely ∧ m'.profile = p :=
  ends_bind ((hx m).mono (fun b m₁ h => hf b m₁ (h.trans same)) fun _ _ h => ⟨h.1, h.2.trans same⟩)

theorem Unmetered.bind {x : Engine β} {f : β → Engine α} (hx : Unmetered x) (hf : ∀ b, Unmetered (f b)) :
    Unmetered (x >>= f) := by
  intro m
  refine hx.then rfl fun b m₁ same => ?_
  exact (hf b m₁).mono (fun _ _ h => h.trans same) fun _ _ h => ⟨h.1, h.2.trans same⟩

theorem Unmetered.pure (a : α) : Unmetered (Pure.pure a) := fun _ => rfl

theorem Unmetered.fail {c : Cause} (h : c.isLimit = false) : Unmetered (Engine.fail c : Engine α) :=
  fun _ => ⟨Error.Plain.timely ⟨rfl, h⟩, rfl⟩

theorem Unmetered.update {check : Machine → Except Error α} {change : α → Machine → Machine}
    (same : ∀ a m, (change a m).profile = m.profile) (timely : ∀ m e, check m = .error e → e.Timely) :
    Unmetered (update check change) :=
  fun m => ends_update (fun a _ => same a m) fun e he => ⟨timely m e he, rfl⟩

/-- Steady code counts nothing. -/
theorem Unmetered.of_steady {act : Engine α}
    (steady : ∀ {R : Machine → Machine → Prop}, KeptAlike R →
      (∀ m₁ m₂, R m₁ m₂ → m₁.argc = m₂.argc) →
      (∀ m₁ m₂, R m₁ m₂ → m₁.random = m₂.random) → Steady R act) : Unmetered act :=
  fun m => (onlyData_of_steady steady m).mono (fun _ _ h => h.profile) fun _ _ h => ⟨h.1.timely, h.2.profile⟩

theorem pushFrame_unmetered : Unmetered pushFrame := by
  refine .update (fun _ _ => rfl) fun m e full budget spent => ?_
  rw [CallStack.checkRoom_error full] at spent
  cases spent

theorem saveLocals_unmetered (region : Array Word) : Unmetered (saveLocals region) := by
  refine .update (fun _ _ => rfl) fun m e full budget spent => ?_
  rw [LocalStack.checkRoom_error full] at spent
  cases spent

theorem leave_unmetered : Unmetered leave := by
  intro m
  refine ends_bind (ends_get ?_)
  cases m.program.function? m.current with
  | none => exact Unmetered.fail rfl m
  | some func =>
    dsimp only
    split
    · exact Unmetered.fail rfl m
    · have checked : Unmetered (reads fun m => m.globals.check func.parmStart func.locals) :=
        fun m => ends_reads (fun _ _ => rfl) fun e he => ⟨(m.globals.check_plain _ _ e he).timely, rfl⟩
      have loaded : Unmetered (loadLocals func.locals) :=
        .update (fun _ _ => rfl) fun m e he => (m.locals.last_plain _ e he).timely
      have popped : Unmetered popFrame := .update (fun _ _ => rfl) fun m e he => (m.calls.last_plain e he).timely
      refine (checked.bind fun _ => loaded.bind fun _ => Unmetered.bind ?_ fun _ => popped.bind fun _ => .pure _) m
      exact .of_steady fun kept _ _ => write_steady kept _ _

/-- **Entering** counts the function, if it succeeds. -/
theorem enter_counts (m : Machine) (f : FuncRef) :
    Ends (enter f) m (fun _ m' => m'.profile = m.profile.call f) fun e m' => e.Timely ∧ m'.profile = m.profile := by
  have found : Unmetered (function f) := .of_steady fun kept _ _ => function_steady kept f
  refine found.then rfl fun func m₁ same => ?_
  cases func.codeStart? with
  | none => exact ⟨Error.Plain.timely ⟨rfl, rfl⟩, same⟩
  | some entry =>
    have sliced : Unmetered (slice func.parmStart func.locals) := .of_steady fun kept _ _ => slice_steady kept _ _
    have copied : Unmetered (copyArgs 0 func.parmStart func.passedSizes) :=
      .of_steady fun kept _ _ => copyArgs_steady kept _ _ _
    refine pushFrame_unmetered.then same fun _ m₂ same => sliced.then same fun region m₃ same => ?_
    refine (saveLocals_unmetered region).then same fun _ m₄ same => copied.then same fun _ m₅ same => ?_
    exact ends_bind (ends_modify (ends_pure (congrArg (·.call f) same)))

/-- A statement that calls nothing counts nothing more than itself. -/
theorem step_unmetered (dispatch : Native → Engine Unit) (pc : Nat) {st : Statement}
    (other : ∀ argc, st.op ≠ .call argc) : Unmetered (step dispatch pc st) := by
  have read (ofs : Nat) : Unmetered (word ofs) := .of_steady fun kept _ _ => word_steady kept ofs
  have jumped : Unmetered (jump pc st) := .of_steady fun kept _ _ => jump_steady kept pc st
  have returned : Unmetered (do returnWords st.ga; return Flow.returned (← leave)) := by
    refine Unmetered.bind ?_ fun _ => leave_unmetered.bind fun _ => .pure _
    exact .of_steady fun kept _ _ => returnWords_steady kept st.ga
  have computed : Unmetered (do compute st; return Flow.next) := by
    refine Unmetered.bind ?_ fun _ => .pure _
    exact .of_steady fun kept _ _ => compute_steady kept st
  obtain ⟨op, a, b, c⟩ := st
  cases op with
  | done => exact returned
  | ret => exact returned
  | branchIf =>
    refine (read _).bind fun w => ?_
    split
    · exact jumped
    · exact .pure _
  | branchIfNot =>
    refine (read _).bind fun w => ?_
    split
    · exact jumped
    · exact .pure _
  | goto => exact jumped
  | call argc => exact absurd rfl (other argc)
  | _ => exact computed

/-- **A builtin** is counted before it is looked up. -/
theorem callBuiltin_counts (core : m.builtins.All Builtin.IsCore) (number : Nat) (f : FuncRef) :
    Ends (callBuiltin (Dispatch.link routines nesting) number f) m (fun _ m' => m'.profile = m.profile.call f)
      fun e m' => e.Timely ∧ m'.profile = m.profile.call f := by
  refine ends_bind (ends_modify (ends_bind (ends_reads (fun slot found => ?_) fun e failed => ?_)))
  · cases slot with
    | none => exact Unmetered.of_steady (fun kept _ _ => returnVector_steady kept .zero) _
    | some b =>
      obtain ⟨c, code⟩ := core b (BuiltinTable.mem_of_lookup found)
      dsimp only
      rw [code, Dispatch.link_core]
      exact Unmetered.of_steady (fun kept counted drawn => core_steady kept counted c (.inl drawn)) _
  · exact ⟨(BuiltinTable.lookup_plain _ _ e failed).timely, rfl⟩

/-- A builtin that can be called is found. -/
theorem function_of_isNative {g : FuncRef} (native : m.program.isNative g = true) :
    ∃ func, function g m = .ok func m := by
  simp only [Program.isNative, Bool.and_eq_true, decide_eq_true_eq] at native
  obtain ⟨known, native⟩ := native
  cases found : m.program.function? g with
  | none => simp [found] at native
  | some func =>
    exact ⟨func, function_of_found known found⟩

/-- **A call** counts what was entered, and a builtin whether it succeeds or fails. -/
theorem call_counts (core : m.builtins.All Builtin.IsCore) (g : FuncRef) :
    Ends (call (Dispatch.link routines nesting) g) m
      (fun flow m' => m'.profile = m.profile.call g ∧
        (flow = .next ∧ m.program.isNative g = true ∨ ∃ entry, flow = .jump entry))
      fun e m' => e.Timely ∧ m'.profile = if m.program.isNative g then m.profile.call g else m.profile := by
  refine ends_bind (ends_iff.mpr ⟨fun func m₁ found => ?_, fun e m' failed => ?_⟩)
  · obtain ⟨rfl, known, found⟩ := (function_ends m g).ok found
    cases builtin : func.builtinNumber? with
    | some number =>
      have native : m.program.isNative g = true := by simp [Program.isNative, known, found, builtin]
      rw [if_pos native]
      exact ends_bind ((callBuiltin_counts core number g).mono (fun _ _ h => ends_pure ⟨h, .inl ⟨rfl, native⟩⟩)
        fun _ _ h => h)
    | none =>
      have code : ¬ m.program.isNative g = true := by simp [Program.isNative, found, builtin]
      rw [if_neg code]
      exact ends_bind ((enter_counts m g).mono (fun entry _ h => ends_pure ⟨h, .inr ⟨entry, rfl⟩⟩) fun _ _ h => h)
  · have missing : ¬ m.program.isNative g = true := fun native => by
      obtain ⟨func, found⟩ := function_of_isNative native
      cases failed.symm.trans found
    have unmetered : Unmetered (function g) := .of_steady fun kept _ _ => function_steady kept g
    rw [if_neg missing]
    exact (unmetered m).error failed

end Engine

/-- What a turn has called, by where control went. -/
def Machine.engages (m : Machine) : Flow → Option FuncRef
  | .next => m.native?
  | .jump _ => m.callee?
  | .returned _ => none

namespace Engine

/-- The turn at a call. -/
theorem cycle_counts_call (core : m.builtins.All Builtin.IsCore) {g : FuncRef} (called : m.callee? = some g) :
    Ends (cycle (Dispatch.link routines nesting) m.statement) m
      (fun flow m' => m'.profile = m.profile.counting m.current (m.engages flow))
      fun e m' => e.Timely ∧ m'.profile = m.profile.counting m.current m.native? := by
  obtain ⟨argc, eq⟩ := @cycle_of_callee m g (Dispatch.link routines nesting) called
  rw [Ends, eq]
  refine (call_counts (m := m.calling argc) core g).mono ?_ ?_
  · rintro flow m' ⟨counted, ⟨rfl, native⟩ | ⟨entry, rfl⟩⟩
    · have native? : m.native? = some g := by rw [Machine.native?, called]; exact Option.filter_some_pos native
      rw [Machine.engages, native?]
      exact counted
    · rw [Machine.engages, called]
      exact counted
  · rintro e m' ⟨timely, counted⟩
    refine ⟨timely, counted.trans ?_⟩
    rw [Machine.native?, called, Option.filter_some]
    change (if m.program.isNative g = true then _ else _) = _
    cases m.program.isNative g <;> rfl

/-- The turn at any other statement. -/
theorem cycle_counts_other {st : Statement} (hst : m.program.statements[m.statement]? = some st)
    (nothing : m.callee? = none) (dispatch : Native → Engine Unit) :
    Ends (cycle dispatch m.statement) m (fun _ m' => m'.profile = m.profile.statement m.current)
      fun e m' => e.Timely ∧ m'.profile = m.profile.statement m.current := by
  rw [Ends, cycle_eq hst]
  by_cases calls : ∃ argc, st.op = .call argc
  · -- the word that names the function is not there
    obtain ⟨argc, op⟩ := calls
    rw [Machine.callee?_eq hst op] at nothing
    have missing : m.globals.get st.ga = .error (m.globals.bad st.ga) := by rw [GlobalBlock.get, nothing]
    obtain ⟨_, a, b, c⟩ := st
    cases op
    refine ends_bind (ends_modify (ends_bind (ends_reads (fun w read => ?_) fun e he => ?_)))
    · cases missing.symm.trans read
    · exact ⟨(GlobalBlock.get_plain _ _ e he).timely, rfl⟩
  · exact step_unmetered dispatch m.statement (fun argc op => calls ⟨argc, op⟩) _

/-- **A turn** counts one statement for the function that runs, and what it called. Where there is no statement,
    nothing is counted. -/
theorem cycle_counts (core : m.builtins.All Builtin.IsCore) :
    Ends (cycle (Dispatch.link routines nesting) m.statement) m
      (fun flow m' => m'.profile = m.profile.counting m.current (m.engages flow))
      fun e m' => e.Timely ∧ m'.profile =
        if m.statement < m.program.statements.size then m.profile.counting m.current m.native? else m.profile := by
  cases hst : m.program.statements[m.statement]? with
  | none =>
    rw [if_neg (Nat.not_lt.mpr (Array.getElem?_eq_none_iff.mp hst)), Ends, cycle_eq_of_none hst]
    exact ⟨fun _ => nofun, rfl⟩
  | some st =>
    rw [if_pos (Array.getElem?_eq_some_iff.mp hst).1]
    cases called : m.callee? with
    | some g => exact cycle_counts_call core called
    | none =>
      have none_native : m.native? = none := by rw [Machine.native?, called, Option.filter_none]
      have none_engaged (flow : Flow) : m.engages flow = none := by
        cases flow with
        | next => exact none_native
        | jump => exact called
        | returned => rfl
      rw [none_native]
      refine (cycle_counts_other hst called _).mono (fun flow m' counted => ?_) fun _ _ h => h
      rw [none_engaged]
      exact counted

end Engine

/-! ## 3. Histories. -/

/-- **What a run has done so far**, and with which calls open. Every statement that was dispatched is charged to
    the innermost call that has not returned. -/
inductive History (dispatch : Native → Engine Unit) (f : FuncRef) (m₀ : Machine) :
    Log → List Opened → Machine → Prop
  | entered {entry : Nat} {m : Machine} : Engine.enter f m₀ = .ok entry m →
      History dispatch f m₀ { engaged := [f] } [⟨f, m₀⟩] (m.moveTo entry)
  /-- The statement passed; if it called a builtin, that succeeded. -/
  | next {log : Log} {o : Opened} {rest : List Opened} {m m' : Machine} : History dispatch f m₀ log (o :: rest) m →
      Engine.cycle dispatch m.statement m = .ok .next m' →
      History dispatch f m₀ (log.add o.ref m.native?) (o :: rest) (m'.moveTo (m.statement + 1))
  /-- A branch was taken. -/
  | jumped {log : Log} {o : Opened} {rest : List Opened} {m m' : Machine} {target : Nat} :
      History dispatch f m₀ log (o :: rest) m → Engine.cycle dispatch m.statement m = .ok (.jump target) m' →
      m.callee? = none → History dispatch f m₀ (log.add o.ref none) (o :: rest) (m'.moveTo target)
  /-- Bytecode was called. -/
  | called {log : Log} {o : Opened} {rest : List Opened} {m m' : Machine} {g : FuncRef} {entry : Nat} :
      History dispatch f m₀ log (o :: rest) m → Engine.cycle dispatch m.statement m = .ok (.jump entry) m' →
      m.callee? = some g → History dispatch f m₀ (log.add o.ref (some g)) (⟨g, m⟩ :: o :: rest) (m'.moveTo entry)
  /-- The innermost call returned, to another of the run. -/
  | returned {log : Log} {o : Opened} {rest : List Opened} {m m' : Machine} {caller : Nat} :
      History dispatch f m₀ log (o :: rest) m → Engine.cycle dispatch m.statement m = .ok (.returned caller) m' →
      m'.calls.depth ≠ m₀.calls.depth → History dispatch f m₀ (log.add o.ref none) rest (m'.moveTo (caller + 1))

/-- **How a run has come to its end by itself.** -/
inductive Ended (dispatch : Native → Engine Unit) (f : FuncRef) (m₀ : Machine) :
    Log → Except Error Unit → Machine → Prop
  /-- The function was not entered. -/
  | refused {e : Error} {m : Machine} : Engine.enter f m₀ = .error e m → Ended dispatch f m₀ {} (.error e) m
  /-- The first call returned. -/
  | returned {log : Log} {o : Opened} {rest : List Opened} {m m' : Machine} {caller : Nat} :
      History dispatch f m₀ log (o :: rest) m → Engine.cycle dispatch m.statement m = .ok (.returned caller) m' →
      m'.calls.depth = m₀.calls.depth → Ended dispatch f m₀ (log.add o.ref none) (.ok ()) m'
  /-- A statement failed; it may have called a builtin. -/
  | failed {log : Log} {o : Opened} {rest : List Opened} {e : Error} {m m' : Machine} :
      History dispatch f m₀ log (o :: rest) m → m.statement < m.program.statements.size →
      Engine.cycle dispatch m.statement m = .error e m' →
      Ended dispatch f m₀ (log.add o.ref m.native?) (.error e) m'
  /-- There was no statement to dispatch. -/
  | strayed {log : Log} {opened : List Opened} {e : Error} {m m' : Machine} :
      History dispatch f m₀ log opened m → m.program.statements.size ≤ m.statement →
      Engine.cycle dispatch m.statement m = .error e m' → Ended dispatch f m₀ log (.error e) m'

namespace History

variable {dispatch : Native → Engine Unit} {f : FuncRef} {m₀ m : Machine} {log : Log} {opened : List Opened}

/-- A history goes through the machines of the run. -/
theorem visits (h : History dispatch f m₀ log opened m) : Visits dispatch f m₀ opened m := by
  induction h with
  | entered entered => exact .entered entered
  | next _ turned ih => exact .next ih turned
  | jumped _ turned other ih => exact .jumped ih turned other
  | called _ turned callee ih => exact .called ih turned callee
  | returned _ turned deep ih => exact .returned ih turned deep

/-- Some call is open, and the innermost one covers the machine. -/
theorem top (h : History dispatch f m₀ log opened m) (start : Starts dispatch m₀) :
    ∃ o rest, opened = o :: rest ∧ o.Covers m := (h.visits.inOrder start).stacked.top

end History

namespace Engine

variable {dispatch : Native → Engine Unit} {m₀ : Machine} {log : Log} {opened : List Opened}

theorem loop_moveTo (dispatch : Native → Engine Unit) (budget exit remaining pc : Nat) (m : Machine) :
    loop dispatch budget exit remaining pc (m.moveTo pc) = loop dispatch budget exit remaining pc m := by
  cases remaining <;> rfl

/-- The loop turns. -/
theorem loop_turns {flow : Flow} {m' : Machine} (budget exit remaining : Nat) :
    cycle dispatch m.statement m = .ok flow m' → loop dispatch budget exit (remaining + 1) m.statement m =
      match flow with
      | .next => loop dispatch budget exit remaining (m.statement + 1) m'
      | .jump target => loop dispatch budget exit remaining target m'
      | .returned caller =>
        if m'.calls.depth = exit then .ok () m' else loop dispatch budget exit remaining (caller + 1) m' := by
  intro turned
  rw [loop, modify_bind]
  refine (bind_of_ok turned).trans ?_
  cases flow with
  | next => rfl
  | jump target => rfl
  | returned caller =>
    dsimp only
    rw [get_bind]
    split <;> rfl

/-- **The loop, written down**: with `remaining` of the budget left, it ends by itself, having dispatched no more than
    the budget, or it has dispatched as many and the run stands. -/
theorem loop_logs (start : Starts dispatch m₀) {budget remaining pc : Nat}
    (h : History dispatch f m₀ log opened (m.moveTo pc)) (left : log.charges.length + remaining = budget) :
    Ends (loop dispatch budget m₀.calls.depth remaining pc) m
      (fun _ m' => ∃ log, Ended dispatch f m₀ log (.ok ()) m' ∧ log.charges.length ≤ budget)
      fun e m' => (∃ log opened, History dispatch f m₀ log opened m' ∧ log.charges.length = budget ∧
          e = { cause := .runawayLoop budget }) ∨
        ∃ log, Ended dispatch f m₀ log (.error e) m' ∧ log.charges.length ≤ budget := by
  induction remaining generalizing log opened pc m with
  | zero => exact ends_bind (ends_modify (.inl ⟨log, opened, h, left, rfl⟩))
  | succ remaining ih =>
    obtain ⟨o, rest, rfl, -⟩ := h.top start
    have more (called : Option FuncRef) : (log.add o.ref called).charges.length + remaining = budget := by
      rw [Log.add, List.length_cons]
      omega
    have within (called : Option FuncRef) : (log.add o.ref called).charges.length ≤ budget := by
      have := more called
      omega
    refine ends_bind (ends_modify (ends_bind (ends_iff.mpr ⟨fun flow m' turned => ?_, fun e m' failed => ?_⟩)))
    · cases flow with
      | next => exact ih (.next h turned) (more _)
      | jump target =>
        cases callee : (m.moveTo pc).callee? with
        | none => exact ih (.jumped h turned callee) (more _)
        | some g => exact ih (.called h turned callee) (more _)
      | returned caller =>
        refine ends_bind (ends_get ?_)
        by_cases done : m'.calls.depth = m₀.calls.depth
        · rw [if_pos done]
          exact ⟨_, .returned h turned done, within _⟩
        · rw [if_neg done]
          exact ih (.returned h turned done) (more _)
    · by_cases inside : pc < m.program.statements.size
      · exact .inr ⟨_, .failed h inside failed, within _⟩
      · exact .inr ⟨_, .strayed h (Nat.le_of_not_lt inside) failed, by omega⟩

end Engine

section LoopsTo

open Engine

variable {dispatch : Native → Engine Unit} {budget : Nat} {f : FuncRef} {m₀ m n : Machine} {spent : Nat}

/-- From the entry of the function on, the loop gets to the machine after so many turns. -/
def LoopsTo (dispatch : Native → Engine Unit) (budget : Nat) (f : FuncRef) (m₀ : Machine) (spent : Nat)
    (m : Machine) : Prop :=
  ∀ remaining, ∃ entry m₁, enter f m₀ = .ok entry m₁ ∧
    loop dispatch budget m₀.calls.depth (spent + remaining) entry m₁ =
      loop dispatch budget m₀.calls.depth remaining m.statement m

/-- One more turn, which leads from one machine to the next. -/
theorem LoopsTo.turn (h : LoopsTo dispatch budget f m₀ spent m)
    (turn : ∀ remaining, loop dispatch budget m₀.calls.depth (remaining + 1) m.statement m =
      loop dispatch budget m₀.calls.depth remaining n.statement n) :
    LoopsTo dispatch budget f m₀ (spent + 1) n := by
  intro remaining
  obtain ⟨entry, m₁, entered, eq⟩ := h (remaining + 1)
  refine ⟨entry, m₁, entered, ?_⟩
  rw [Nat.add_right_comm, Nat.add_assoc, eq, turn]

/-- **What the loop does after a history, it does with as much less of its budget**: the loop has no memory. -/
theorem History.loopsTo {log : Log} {opened : List Opened} (h : History dispatch f m₀ log opened m) (budget : Nat) :
    LoopsTo dispatch budget f m₀ log.charges.length m := by
  induction h with
  | @entered entry m₁ entered =>
    intro remaining
    refine ⟨entry, m₁, entered, ?_⟩
    rw [List.length_nil, Nat.zero_add]
    exact (loop_moveTo ..).symm
  | next _ turned ih => exact ih.turn fun _ => (loop_turns budget _ _ turned).trans (loop_moveTo ..).symm
  | jumped _ turned _ ih => exact ih.turn fun _ => (loop_turns budget _ _ turned).trans (loop_moveTo ..).symm
  | called _ turned _ ih => exact ih.turn fun _ => (loop_turns budget _ _ turned).trans (loop_moveTo ..).symm
  | returned _ turned deep ih =>
    refine ih.turn fun _ => (loop_turns budget _ _ turned).trans ?_
    dsimp only
    rw [if_neg deep]
    exact (loop_moveTo ..).symm

end LoopsTo

/-! ## 4. What a run has counted. -/

section Counted

variable {routines : Nat → Routine} {nesting : Nat} {f : FuncRef} {m₀ m : Machine} {log : Log} {opened : List Opened}
  (start : Starts (Dispatch.link routines nesting) m₀) (own : m₀.builtins.All Builtin.IsCore)

include start own

theorem History.isCore (h : History (Dispatch.link routines nesting) f m₀ log opened m) :
    m.builtins.All Builtin.IsCore := (h.visits.evolves start own).builtins ▸ own

variable (counts : m₀.profile.Counts m₀.program.functions.size)

include counts

/-- A statement of the innermost call is counted for it. -/
theorem History.charge {o : Opened} {rest : List Opened}
    (h : History (Dispatch.link routines nesting) f m₀ log (o :: rest) m) (grown : m₀.profile.Grows log m.profile)
    {called : Option FuncRef} (found : ∀ g, called = some g → g.toNat < m.program.functions.size) :
    m₀.profile.Grows (log.add o.ref called) (m.profile.counting m.current called) := by
  obtain ⟨_, _, same, covers⟩ := h.top start
  cases same
  have program := (h.visits.evolves start own).program
  rw [covers.current]
  refine grown.add counts ?_ fun g hg => program ▸ found g hg
  exact program ▸ Program.lt_of_function? covers.found

open Engine in
/-- **The counters agree with the history.** -/
theorem History.grows (h : History (Dispatch.link routines nesting) f m₀ log opened m) :
    m₀.profile.Grows log m.profile := by
  induction h with
  | @entered entry m entered =>
    obtain ⟨func, enters⟩ := (enter_ends start.sound.toReady f).ok entered
    rw [Machine.profile_moveTo, (enter_counts m₀ f).ok entered]
    exact (Profile.Grows.refl _).engage counts (Program.lt_of_function? enters.found)
  | @next log o rest m m' h turned ih =>
    have counted := (cycle_counts (h.isCore start own)).ok turned
    rw [Machine.profile_moveTo, counted]
    exact h.charge start own counts ih fun g => Machine.native?_found
  | @jumped log o rest m m' target h turned other ih =>
    have counted := (cycle_counts (h.isCore start own)).ok turned
    rw [Machine.profile_moveTo, counted, Machine.engages, other]
    exact h.charge start own counts ih nofun
  | @called log o rest m m' g entry h turned callee ih =>
    have counted := (cycle_counts (h.isCore start own)).ok turned
    rw [Machine.profile_moveTo, counted, Machine.engages, callee]
    refine h.charge start own counts ih fun _ same => ?_
    cases same
    obtain ⟨_, _, same, covers⟩ := (History.called h turned callee).top start
    cases same
    exact covers.program ▸ Program.lt_of_function? covers.found
  | @returned log o rest m m' caller h turned deep ih =>
    have counted := (cycle_counts (h.isCore start own)).ok turned
    rw [Machine.profile_moveTo, counted]
    exact h.charge start own counts ih nofun

open Engine in
/-- **The counters agree with the end**, and no run fails by itself with a spent budget. -/
theorem Ended.grows {result : Except Error Unit}
    (h : Ended (Dispatch.link routines nesting) f m₀ log result m) :
    m₀.profile.Grows log m.profile ∧ ∀ e, result = .error e → e.Timely := by
  cases h with
  | refused refused =>
    obtain ⟨timely, same⟩ := (enter_counts m₀ f).error refused
    rw [same]
    exact ⟨.refl _, fun _ eq => by cases eq; exact timely⟩
  | returned h turned _ =>
    have counted := (cycle_counts (h.isCore start own)).ok turned
    rw [counted]
    exact ⟨h.charge start own counts (h.grows start own counts) nofun, nofun⟩
  | failed h inside failed =>
    obtain ⟨timely, counted⟩ := (cycle_counts (h.isCore start own)).error failed
    rw [counted, if_pos inside]
    refine ⟨h.charge start own counts (h.grows start own counts) fun g => Machine.native?_found, ?_⟩
    exact fun _ eq => by cases eq; exact timely
  | strayed h outside failed =>
    obtain ⟨timely, same⟩ := (cycle_counts (h.isCore start own)).error failed
    rw [same, if_neg (Nat.not_lt.mpr outside)]
    exact ⟨h.grows start own counts, fun _ eq => by cases eq; exact timely⟩

end Counted

/-! ## 5. Executions. -/

namespace Engine

variable {dispatch : Native → Engine Unit} {m₀ : Machine}

/-- Bytecode runs by being entered. Function zero is none, and then there is nothing to enter either. -/
theorem run_of_code (code : m₀.HasCode f) (dispatch : Native → Engine Unit) :
    run dispatch f m₀ =
      (enter f >>= loop dispatch m₀.config.budget m₀.calls.depth m₀.config.budget) m₀ := by
  obtain ⟨func, found, code⟩ := code
  by_cases zero : f = 0
  · have refused : function f m₀ = .error { cause := .nullFunctionCall } m₀ := by
      rw [function, if_pos zero]
      rfl
    have stuck : enter f m₀ = .error { cause := .nullFunctionCall } m₀ := bind_of_error refused
    rw [run, bind_of_error refused, bind_of_error stuck]
  · have native : func.builtinNumber? = none := by
      cases builtin : func.builtinNumber? with
      | none => rfl
      | some number => exact absurd code (not_isSome_codeStart? builtin)
    rw [run, bind_of_ok (function_of_found zero found), native]
    rfl

/-- **A run of bytecode, written down.** -/
theorem run_logs (start : Starts dispatch m₀) (code : m₀.HasCode f) :
    Ends (run dispatch f) m₀
      (fun _ m' => ∃ log, Ended dispatch f m₀ log (.ok ()) m' ∧ log.charges.length ≤ m₀.config.budget)
      fun e m' => (∃ log opened, History dispatch f m₀ log opened m' ∧ log.charges.length = m₀.config.budget ∧
          e = { cause := .runawayLoop m₀.config.budget }) ∨
        ∃ log, Ended dispatch f m₀ log (.error e) m' ∧ log.charges.length ≤ m₀.config.budget := by
  rw [Ends, run_of_code code]
  refine ends_bind (ends_iff.mpr ⟨fun entry m₁ entered => ?_, fun e m₁ refused => ?_⟩)
  · exact loop_logs start (.entered entered) (Nat.zero_add _)
  · exact .inr ⟨_, .refused refused, Nat.zero_le _⟩

/-- A history as long as the budget is that of a run that runs away. -/
theorem run_of_spent (code : m₀.HasCode f) {log : Log} {opened : List Opened}
    (h : History dispatch f m₀ log opened m) (spent : log.charges.length = m₀.config.budget) :
    run dispatch f m₀ = .error { cause := .runawayLoop m₀.config.budget } m := by
  obtain ⟨entry, m₁, entered, eq⟩ := h.loopsTo m₀.config.budget 0
  rw [Nat.add_zero, spent] at eq
  rw [run_of_code code]
  exact (bind_of_ok entered).trans eq

/-- Every run keeps a counter for every function. -/
theorem run_counters (start : Starts (Dispatch.link routines nesting) m₀) (own : m₀.builtins.All Builtin.IsCore)
    (counts : m₀.profile.Counts m₀.program.functions.size) (f : FuncRef) :
    Ends (run (Dispatch.link routines nesting) f) m₀ (fun _ m' => m'.profile.Counts m₀.program.functions.size)
      fun _ m' => m'.profile.Counts m₀.program.functions.size := by
  by_cases code : m₀.HasCode f
  · refine (run_logs start code).mono ?_ ?_
    · rintro _ m' ⟨log, ended, -⟩
      exact (ended.grows start own counts).1.counts _ counts
    · rintro e m' (⟨log, opened, h, -⟩ | ⟨log, ended, -⟩)
      · exact (h.grows start own counts).counts _ counts
      · exact (ended.grows start own counts).1.counts _ counts
  · refine ends_bind ((function_ends m₀ f).mono ?_ fun e m' h => h.1 ▸ counts)
    rintro func _ ⟨rfl, -, found⟩
    cases builtin : func.builtinNumber? with
    | none => exact absurd ⟨func, found, isSome_codeStart? builtin⟩ code
    | some number =>
      refine (callBuiltin_counts own number f).mono (fun _ m' h => ?_) fun _ m' h => ?_
      · rw [h]
        exact counts.call f
      · rw [h.2]
        exact counts.call f

end Engine

section Resting

variable {routines : Nat → Routine} {registry : Registry} {m : Machine}

theorem Resting.reachable (h : Resting routines registry m) : Reachable routines registry m := by
  induction h with
  | fresh config loaded => exact .fresh config loaded
  | command c _ after ih => exact .command c ih after
  | executed nesting f _ after ih => exact .executed nesting f ih after

/-- **Between the calls of the host, there is a counter for every function.** -/
theorem Resting.counts (core : registry.OnlyCore) (h : Resting routines registry m) :
    m.profile.Counts m.program.functions.size := by
  have fresh (functions : Nat) : (Profile.new functions).Counts functions :=
    ⟨Array.size_replicate, Array.size_replicate⟩
  induction h with
  | fresh config _ => exact fresh _
  | command c _ after ih =>
    refine Engine.Ends.after (P := fun m' => m'.profile.Counts m'.program.functions.size)
      ((c.perform_serves _).mono ?_ ?_) after
    · rintro _ m' (serviced | ⟨-, _, _, image, -, rfl⟩)
      · exact serviced.program ▸ serviced.counters _ ih
      · exact fresh _
    · intro _ m' serviced
      exact serviced.program ▸ serviced.counters _ ih
  | @executed m m' nesting f rest after ih =>
    obtain ⟨start, own⟩ := rest.reachable.starts_core core nesting
    have counters := Engine.run_counters start own ih f
    have ends := Engine.run_ends start f
    refine Engine.Ends.after (P := fun m' => m'.profile.Counts m'.program.functions.size)
      ((Engine.execute_outcome _ f m).mono ?_ ?_) after
    · rintro _ m' ⟨m₁, ran, rfl⟩
      have kept := counters.ok ran
      rw [← ((ends.ok ran).evolves start own).program] at kept
      exact kept
    · rintro e m' ⟨e₁, m₁, m₂, broke, reported, rfl⟩
      obtain ⟨-, host, rfl⟩ := (Engine.report_ends e₁ m₁).ok reported
      have kept := counters.error broke
      rw [← ((ends.error broke).admitted start own).1.program] at kept
      exact kept

end Resting

namespace Engine

variable {registry : Registry}

/-- **The budget and the counters are exact.** An execution of bytecode on the engine's own builtins ends by itself
    after no more statements than its budget, or runs away; the latter exactly where a history of so many statements
    stands. In every case the counters have grown as the statements and the calls say. -/
theorem execute_meters (core : registry.OnlyCore) (rest : Resting routines registry m) (code : m.HasCode f)
    (nesting : Nat) :
    Ends (execute (Dispatch.link routines nesting) f) m
      (fun _ m' => ∃ log m₁, Ended (Dispatch.link routines nesting) f m.started log (.ok ()) m₁ ∧
        log.charges.length ≤ m.config.budget ∧ m.profile.Grows log m'.profile)
      (fun e m' =>
        (∃ log opened m₁, History (Dispatch.link routines nesting) f m.started log opened m₁ ∧
          log.charges.length = m.config.budget ∧ e.cause = .runawayLoop m.config.budget ∧
          m.profile.Grows log m'.profile) ∨
        ∃ log e₁ m₁, Ended (Dispatch.link routines nesting) f m.started log (.error e₁) m₁ ∧
          log.charges.length ≤ m.config.budget ∧ e.cause = e₁.cause ∧ e.Timely ∧
          m.profile.Grows log m'.profile) ∧
    ((∃ e m', execute (Dispatch.link routines nesting) f m = .error e m' ∧
        e.cause = .runawayLoop m.config.budget) ↔
      ∃ log opened m₁, History (Dispatch.link routines nesting) f m.started log opened m₁ ∧
        log.charges.length = m.config.budget) := by
  obtain ⟨start, own⟩ := rest.reachable.starts_core core nesting
  have counts : m.profile.Counts m.program.functions.size := rest.counts core
  have started : m.started.HasCode f := code
  have logs := run_logs start started
  have outcome := execute_outcome (Dispatch.link routines nesting) f m
  refine ⟨outcome.mono ?_ ?_, ?_, ?_⟩
  · rintro _ m' ⟨m₁, ran, rfl⟩
    obtain ⟨log, ended, within⟩ := logs.ok ran
    exact ⟨log, m₁, ended, within, (ended.grows start own counts).1⟩
  · rintro e m' ⟨e₁, m₁, m₂, broke, reported, rfl⟩
    obtain ⟨cause, host, rfl⟩ := (report_ends e₁ m₁).ok reported
    rcases logs.error broke with ⟨log, opened, h, spent, rfl⟩ | ⟨log, ended, within⟩
    · have grows := h.grows start own counts
      exact .inl ⟨log, opened, m₁, h, spent, cause, grows⟩
    · obtain ⟨grows, timely⟩ := ended.grows start own counts
      refine .inr ⟨log, e₁, m₁, ended, within, cause, fun budget spent => ?_, grows⟩
      exact timely e₁ rfl budget (cause.symm.trans spent)
  · rintro ⟨e, m', failed, spent⟩
    obtain ⟨e₁, m₁, m₂, broke, reported, -⟩ := outcome.error failed
    obtain ⟨cause, -⟩ := (report_ends e₁ m₁).ok reported
    rcases logs.error broke with ⟨log, opened, h, spent, -⟩ | ⟨log, ended, -⟩
    · exact ⟨log, opened, m₁, h, spent⟩
    · exact absurd (cause.symm.trans spent) ((ended.grows start own counts).2 e₁ rfl _)
  · rintro ⟨log, opened, m₁, h, spent⟩
    have broke := run_of_spent started h spent
    cases execution : execute (Dispatch.link routines nesting) f m with
    | ok _ m' =>
      obtain ⟨m₂, ran, -⟩ := outcome.ok execution
      cases broke.symm.trans ran
    | error e m' =>
      obtain ⟨e₁, m₂, m₃, broke', reported, -⟩ := outcome.error execution
      cases broke.symm.trans broke'
      exact ⟨e, m', rfl, ((report_ends _ m₁).ok reported).1⟩

/-- A function that calls another one over and over. -/
def circling : ImageBuilder :=
  { statements := #[{}, { op := 51, a := 92 }, { op := 61, a := -1 }, { op := 43 }]
    functions := #[{}, { firstStatement := 1, parmStart := 93 }, { firstStatement := 3, parmStart := 93 }]
    globals := (Array.replicate 93 0).set! 92 2 }

/-- With a budget of four, the call is dispatched twice, the branch back once and the return once; then the second
    call of the other function has begun. -/
theorem execute_meters_circling : ∃ m e m' log opened m₁, Resting default .core m ∧ m.HasCode 1 ∧
    execute (Dispatch.link default 0) 1 m = .error e m' ∧ e.cause = .runawayLoop 4 ∧
    History (Dispatch.link default 0) 1 m.started log opened m₁ ∧ log.charges.length = 4 ∧
    m'.profile = { statements := #[0, 3, 1], calls := #[0, 1, 2] } := by
  have loads : Machine.Loads circling.build .small { budget := 4 } .core fun m =>
      m.config.budget = 4 ∧ ((m.program.function? 1).any fun func => func.codeStart?.isSome) = true ∧
      Ends (execute (Dispatch.link default 0) 1) m (fun _ _ => False) fun e m' =>
        e.cause = .runawayLoop 4 ∧ m'.profile = { statements := #[0, 3, 1], calls := #[0, 1, 2] } := by
    decide +kernel
  obtain ⟨image, loaded, unnamed, holds⟩ := loads
  rw [Machine.new_of_unnamed unnamed] at holds
  obtain ⟨budget, code, ends⟩ := holds
  have code := (Option.any_eq_true _ _).mp code
  obtain ⟨e, m', failed, cause, profile⟩ := ends.exists_error
  have rest : Resting default .core (.new image { budget := 4 } .core) := .fresh _ loaded
  obtain ⟨log, opened, m₁, h, spent⟩ :=
    (execute_meters Registry.onlyCore_core rest code 0).2.mp ⟨e, m', failed, cause⟩
  exact ⟨_, e, m', log, opened, m₁, rest, code, failed, cause, h, spent, profile⟩

end Engine

end QuakeProgs
