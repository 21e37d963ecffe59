/-
  File:      QuakeProgs/Proofs/Machine/Course.lean
  Subject:   THE COURSE OF AN EXECUTION: functions that are entered, and executions within that fail.

  A builtin of the host may execute functions and may go on when one of these executions fails. The failure
  has emptied the call stack by then, under the runs that the builtin was called from. What becomes of them
  hangs on what is entered afterwards.

  * `Happening`, `Course` -- what happens in the course of an action, from one machine to the next;
  * `Engine.loopCourse`, `Engine.runCourse`, `Routine.course`, `Dispatch.course` -- the courses of a run, of a
    builtin of the host and of all builtins, executions being nested;
  * `Engine.Accounts` -- the invariant: after a failure the call stack is empty until something is entered;
  * `Engine.loop_accounts` -- on an empty call stack the loop does not come to its end;
  * `Engine.failure_ends_execution` -- so an execution in which something fails and nothing is entered
    afterwards fails, whatever the builtins make of the failure;
  * `Engine.failure_passes_unnoticed` -- if a function is entered afterwards, the execution may succeed.
-/
import QuakeProgs.Proofs.Machine.Balance
import QuakeProgs.Proofs.Machine.Lockstep
import QuakeProgs.Proofs.Machine.Resting

namespace QuakeProgs

/-! ## 1. What happens. -/

/-- Something that happens in the course of a run. -/
inductive Happening where
  /-- Bytecode was entered. -/
  | entered (f : FuncRef)
  /-- A builtin of the host executed a function, and that failed. -/
  | failed (f : FuncRef)
  deriving DecidableEq

def Happening.isFailure : Happening → Bool
  | .entered _ => false
  | .failed _ => true

/-- What happens in the course of an action, in order, by the machine it starts from. -/
abbrev Course := Machine → List Happening

/-- What happens in the course of an action, and then, if it succeeds, in what follows. -/
def Course.andThen {β : Type} (first : Course) (x : Engine β) (rest : β → Course) : Course := fun m =>
  first m ++ match x m with
    | .ok b m' => rest b m'
    | .error _ _ => []

/-- Nothing happens. -/
def Course.nothing : Course := fun _ => []

/-- What happens after an action in which nothing does. -/
def Course.after {β : Type} (x : Engine β) (rest : β → Course) : Course := Course.nothing.andThen x rest

theorem Course.after_of_ok {β : Type} {x : Engine β} {rest : β → Course} {m m' : Machine} {b : β}
    (h : x m = .ok b m') : Course.after x rest m = rest b m' := by
  rw [Course.after, andThen, h]
  rfl

namespace Engine

/-! ## 2. The course of a run. -/

section

variable (dispatch : Native → Engine Unit) (within : Native → Course)

def callBuiltinCourse (number : Nat) (f : FuncRef) : Course :=
  .after (modify fun m => { m with profile := m.profile.call f }) fun _ =>
    .after (reads fun m => m.builtins.lookup number) fun slot =>
      match slot with
      | some b => within b.code
      | none => .nothing

def callCourse (f : FuncRef) : Course :=
  .after (function f) fun func =>
    match func.builtinNumber? with
    | some number => callBuiltinCourse within number f
    | none => .after (enter f) fun _ _ => [.entered f]

def stepCourse (st : Statement) : Course :=
  match st.op with
  | .call argc => .after (modify fun m => { m with argc := argc.val }) fun _ =>
      .after (word st.ga) fun f => callCourse within f
  | _ => .nothing

def cycleCourse (pc : Nat) : Course :=
  .after (fetch pc) fun st => .after (trace pc) fun _ =>
    .after (modify fun m => { m with profile := m.profile.statement m.current }) fun _ => stepCourse within st

/-- **The course of the loop**, turn after turn. -/
def loopCourse (exit : Nat) : Nat → Nat → Course
  | 0, _ => .nothing
  | remaining + 1, pc =>
    .after (modify fun m => { m with statement := pc }) fun _ =>
      (cycleCourse within pc).andThen (cycle dispatch pc) fun flow =>
        match flow with
        | .next => loopCourse exit remaining (pc + 1)
        | .jump target => loopCourse exit remaining target
        | .returned caller => fun m => if m.calls.depth = exit then [] else loopCourse exit remaining (caller + 1) m

/-- **The course of a run.** -/
def runCourse (f : FuncRef) : Course :=
  .after (function f) fun func =>
    match func.builtinNumber? with
    | some number => callBuiltinCourse within number f
    | none => fun m => Course.andThen (.after (enter f) fun _ _ => [.entered f]) (enter f)
        (fun entry => loopCourse dispatch within m.calls.depth m.config.budget entry) m

/-- The course of an execution. -/
def executeCourse (f : FuncRef) : Course := fun m => runCourse dispatch within f m.started

end

end Engine

/-- **The course of a builtin of the host**: what happens in its executions, and which of them fail. -/
def Routine.course (execute : FuncRef → Engine Unit) (within : FuncRef → Course) : Routine → Course
  | .finish _ => .nothing
  | .exec target next => .after target fun f m =>
      -- what happened within comes first; a failure is noted as the builtin gets to know of it
      within f m ++ match execute f m with
        | .ok () m' => (next (.ok ())).course execute within m'
        | .error e m' => .failed f :: (next (.error e)).course execute within m'
  | .look next => fun m => (next m).course execute within m

/-- The courses of all builtins; only those of the host execute functions. -/
def Dispatch.course (routines : Nat → Routine) : (nesting : Nat) → Native → Course
  | nesting + 1, .hosted key => (routines key).course (Engine.execute (link routines nesting))
      (Engine.executeCourse (link routines nesting) (course routines nesting))
  | _, _ => .nothing

/-! ## 3. The account. -/

namespace Engine

variable {α β : Type}

/-- Whether a failure came last. -/
def lostAfter (lost : Bool) (happenings : List Happening) : Bool :=
  happenings.foldl (fun _ h => h.isFailure) lost

theorem lostAfter_cons (lost : Bool) (h : Happening) (hs : List Happening) :
    lostAfter lost (h :: hs) = lostAfter h.isFailure hs := rfl

theorem lostAfter_append (lost : Bool) (hs hs' : List Happening) :
    lostAfter lost (hs ++ hs') = lostAfter (lostAfter lost hs) hs' := List.foldl_append

/-- A failure comes last until something is entered. -/
theorem lostAfter_of_none_entered {hs : List Happening} (none : ∀ f, .entered f ∉ hs) : lostAfter true hs = true := by
  induction hs with
  | nil => rfl
  | cons h hs ih =>
    cases h with
    | entered f => exact absurd List.mem_cons_self (none f)
    | failed f => exact ih fun g mem => none g (List.mem_cons_of_mem _ mem)

/-- **The account**: as long as a failure came last, the call stack is empty and the result is one of `P`. -/
def Accounts (x : Engine α) (course : Course) (P : α → Prop) : Prop :=
  ∀ lost m, (lost = true → m.calls.depth = 0) →
    Ends x m (fun a m' => lostAfter lost (course m) = true → m'.calls.depth = 0 ∧ P a) fun _ _ => True

/-- An action that leaves an empty call stack empty. -/
def Still (x : Engine α) : Prop :=
  ∀ m : Machine, m.calls.depth = 0 → Ends x m (fun _ m' => m'.calls.depth = 0) fun _ _ => True

/-- What code does that only computes. -/
theorem Still.of_blind {act : Engine α} (h : ∀ v : Comparison, Durable v.inv → v.counted → v.drawn → Blind v act) :
    Still act := by
  have durable : Durable fun m : Machine => m.calls.depth = 0 :=
    ⟨fun empty => empty, fun _ empty => empty, fun _ empty => empty, fun _ empty => empty⟩
  exact fun m empty => ((h (.single _) durable trivial trivial).ends empty).mono (fun _ _ h => h) fun _ _ _ => trivial

theorem Still.modify {f : Machine → Machine} (h : ∀ m, (f m).calls = m.calls) : Still (modify f) :=
  fun m empty => by
    show (f m).calls.depth = 0
    rw [h, empty]

theorem Still.reads (f : Machine → Except Error α) : Still (reads f) :=
  fun _ empty => ends_reads (fun _ _ => empty) fun _ _ => trivial

theorem Still.get : Still (MonadState.get : Engine Machine) := fun _ empty => empty

theorem Still.accounts {x : Engine α} (h : Still x) : Accounts x .nothing fun _ => True := by
  intro lost m empty
  -- nothing happens, so a failure comes last afterwards only if it did before
  cases lost with
  | false => exact ends_iff.mpr ⟨fun _ _ _ => nofun, fun _ _ _ => trivial⟩
  | true => exact (h m (empty rfl)).mono (fun _ _ empty' _ => ⟨empty', trivial⟩) fun _ _ _ => trivial

variable {P : β → Prop} {Q : α → Prop}

/-- One action after the other, where the second may count on the first. -/
theorem Accounts.andThen {x : Engine β} {f : β → Engine α} {first : Course} {rest : β → Course}
    (hx : Accounts x first P)
    (hf : ∀ b lost m, (lost = true → m.calls.depth = 0 ∧ P b) →
      Ends (f b) m (fun a m' => lostAfter lost (rest b m) = true → m'.calls.depth = 0 ∧ Q a) fun _ _ => True) :
    Accounts (x >>= f) (first.andThen x rest) Q := by
  intro lost m empty
  refine ends_bind (ends_iff.mpr ⟨fun b m' ok => ?_, fun _ _ _ => trivial⟩)
  have followed := hf b _ m' ((hx lost m empty).ok ok)
  refine followed.mono (fun a m'' account ends => account ?_) fun _ _ _ => trivial
  rw [Course.andThen, ok, lostAfter_append] at ends
  exact ends

theorem Accounts.after {x : Engine β} {f : β → Engine α} {rest : β → Course} (hx : Still x)
    (hf : ∀ b, Accounts (f b) (rest b) Q) : Accounts (x >>= f) (.after x rest) Q :=
  hx.accounts.andThen fun b lost m empty => hf b lost m fun l => (empty l).1

/-- One action after the other, in the second of which nothing happens. -/
theorem Accounts.followed {x : Engine β} {f : β → Engine α} {course : Course} (hx : Accounts x course P)
    (hf : ∀ b, Accounts (f b) .nothing Q) : Accounts (x >>= f) course Q := by
  intro lost m empty
  refine ends_bind ((hx lost m empty).mono (fun b m' account => ?_) fun _ _ _ => trivial)
  exact hf b _ m' fun l => (account l).1

/-- The result is made into another. -/
theorem Accounts.map {x : Engine β} {course : Course} (hx : Accounts x course P) (g : β → α)
    (hg : ∀ b, P b → Q (g b)) : Accounts (x >>= fun b => pure (g b)) course Q := by
  intro lost m empty
  refine ends_bind ((hx lost m empty).mono (fun b m' account => ?_) fun _ _ _ => trivial)
  exact ends_pure fun l => ⟨(account l).1, hg b (account l).2⟩

theorem Accounts.pure {a : α} (h : Q a) : Accounts (Pure.pure a) .nothing Q :=
  fun _ _ empty => ends_pure fun l => ⟨empty l, h⟩

theorem Accounts.fail (c : Cause) : Accounts (Engine.fail c) .nothing Q := fun _ _ _ => trivial

/-! ## 4. Turn after turn. -/

variable {dispatch : Native → Engine Unit} {within : Native → Course}

theorem function_still (f : FuncRef) : Still (function f) := fun m empty =>
  (function_ends m f).mono (fun _ _ h => h.1 ▸ empty) fun _ _ _ => trivial

theorem fetch_still (pc : Nat) : Still (fetch pc) := by
  refine fun m empty => ends_bind (ends_get ?_)
  cases m.program.statements[pc]? with
  | none => trivial
  | some st => exact empty

theorem core_still (b : CoreBuiltin) : Still (core b) :=
  .of_blind fun _ durable counted drawn => core_blind durable counted b (.inl drawn)

theorem trace_still (pc : Nat) : Still (trace pc) := .modify fun m => by split <;> rfl

/-- Entering a function sets the account right. -/
theorem enter_accounts (f : FuncRef) :
    Accounts (enter f) (.after (enter f) fun _ _ => [.entered f]) fun _ => True := by
  intro lost m _
  refine ends_iff.mpr ⟨fun entry m' ok ends => ?_, fun _ _ _ => trivial⟩
  rw [Course.after_of_ok ok] at ends
  cases ends

/-- **There is nothing to leave on an empty call stack.** -/
theorem leave_accounts : Accounts leave .nothing fun _ => False := by
  intro lost m empty
  refine ends_bind (ends_get ?_)
  cases lost with
  | false => exact ends_iff.mpr ⟨fun _ _ _ => nofun, fun _ _ _ => trivial⟩
  | true =>
    cases m.program.function? m.current with
    | none => trivial
    | some func =>
      dsimp only
      rw [if_pos (empty rfl)]
      trivial

section

variable (served : ∀ native, Accounts (dispatch native) (within native) fun _ => True)
include served

theorem callBuiltin_accounts (number : Nat) (f : FuncRef) :
    Accounts (callBuiltin dispatch number f) (callBuiltinCourse within number f) fun _ => True := by
  refine .after (.modify fun _ => rfl) fun _ => .after (.reads _) fun slot => ?_
  cases slot with
  | some b => exact served b.code
  | none => exact (Still.of_blind fun _ durable _ _ => returnVector_blind durable _).accounts

theorem call_accounts (f : FuncRef) :
    Accounts (call dispatch f) (callCourse within f) fun flow => ∀ caller, flow ≠ .returned caller := by
  refine .after (function_still f) fun func => ?_
  cases func.builtinNumber? with
  | some number => exact (callBuiltin_accounts served number f).map _ fun _ _ => nofun
  | none => exact (enter_accounts f).map _ fun _ _ => nofun

omit served in
theorem jump_accounts (pc : Nat) (st : Statement) :
    Accounts (jump pc st) .nothing fun flow => ∀ caller, flow ≠ .returned caller := by
  refine Still.get.accounts.followed fun m => ?_
  dsimp only
  split
  · exact .pure nofun
  · exact .fail _

/-- **A statement**: only a call changes the account, and none returns while it shows a failure. -/
theorem step_accounts (pc : Nat) (st : Statement) :
    Accounts (step dispatch pc st) (stepCourse within st) fun flow => ∀ caller, flow ≠ .returned caller := by
  have word : ∀ ofs, Still (word ofs) := fun ofs => .reads _
  have passes : Accounts (do compute st; return Flow.next) .nothing fun flow => ∀ caller, flow ≠ .returned caller :=
    (Still.of_blind fun _ durable _ _ => compute_blind durable st).accounts.map _ fun _ _ => nofun
  have returns : Accounts (do returnWords st.ga; return Flow.returned (← leave)) .nothing
      fun flow => ∀ caller, flow ≠ .returned caller :=
    (Still.of_blind fun _ durable _ _ => returnWords_blind durable _).accounts.followed fun _ =>
      leave_accounts.map _ fun _ never => never.elim
  obtain ⟨op, a, b, c⟩ := st
  cases op with
  | done => exact returns
  | ret => exact returns
  | branchIf =>
    refine (word _).accounts.followed fun w => ?_
    split
    · exact jump_accounts pc _
    · exact .pure nofun
  | branchIfNot =>
    refine (word _).accounts.followed fun w => ?_
    split
    · exact jump_accounts pc _
    · exact .pure nofun
  | goto => exact jump_accounts pc _
  | call argc => exact .after (.modify fun _ => rfl) fun _ => .after (word _) fun f => call_accounts served f
  | _ => exact passes

/-- **A turn.** -/
theorem cycle_accounts (pc : Nat) :
    Accounts (cycle dispatch pc) (cycleCourse within pc) fun flow => ∀ caller, flow ≠ .returned caller :=
  .after (fetch_still pc) fun st => .after (trace_still pc) fun _ => .after (.modify fun _ => rfl) fun _ =>
    step_accounts served pc st

/-- **The loop** does not come to its end while a failure came last: its last turn returns, and on an empty call
    stack none can. -/
theorem loop_accounts (budget exit remaining pc : Nat) :
    Accounts (loop dispatch budget exit remaining pc) (loopCourse dispatch within exit remaining pc)
      fun _ => False := by
  induction remaining generalizing pc with
  | zero => exact fun _ _ _ => ends_bind (ends_modify trivial)
  | succ remaining ih =>
    refine .after (.modify fun _ => rfl) fun _ => (cycle_accounts served pc).andThen fun flow lost m account => ?_
    have empty : lost = true → m.calls.depth = 0 := fun l => (account l).1
    cases flow with
    | next => exact ih (pc + 1) lost m empty
    | jump target => exact ih target lost m empty
    | returned caller =>
      refine ends_bind (ends_get ?_)
      dsimp only
      split
      -- the turn returned, which it could not have done while a failure came last
      · exact ends_pure fun l => absurd rfl ((account l).2 caller)
      · exact ih (caller + 1) lost m empty

/-- **A run.** Of bytecode, it does not come to its end while a failure came last. -/
theorem run_accounts (f : FuncRef) {lost : Bool} {m : Machine} (empty : lost = true → m.calls.depth = 0) :
    Ends (run dispatch f) m
      (fun _ m' => lostAfter lost (runCourse dispatch within f m) = true → m'.calls.depth = 0 ∧ ¬ m.HasCode f)
      fun _ _ => True := by
  refine ends_bind (ends_iff.mpr ⟨fun func _ found => ?_, fun _ _ _ => trivial⟩)
  rw [runCourse, Course.after_of_ok found]
  obtain ⟨rfl, -, stored⟩ := (function_ends m f).ok found
  cases number : func.builtinNumber? with
  | some k =>
    have native : ¬ m.HasCode f := by
      rintro ⟨func', stored', code⟩
      cases stored.symm.trans stored'
      exact not_isSome_codeStart? number code
    exact (callBuiltin_accounts served k f lost m empty).mono (fun _ _ account l => ⟨(account l).1, native⟩)
      fun _ _ _ => trivial
  | none =>
    have whole := (enter_accounts f).andThen (Q := fun _ : Unit => False) fun entry lost' m' account =>
      loop_accounts served m.config.budget m.calls.depth m.config.budget entry lost' m' fun l => (account l).1
    exact (whole lost m empty).mono (fun _ _ account l => (account l).2.elim) fun _ _ _ => trivial

/-- **An execution.** If it fails, the call stack is empty. -/
theorem execute_accounts (f : FuncRef) {lost : Bool} {m : Machine} (empty : lost = true → m.calls.depth = 0) :
    Ends (execute dispatch f) m
      (fun _ m' => lostAfter lost (executeCourse dispatch within f m) = true →
        m'.calls.depth = 0 ∧ ¬ m.HasCode f)
      fun _ m' => m'.calls.depth = 0 := by
  refine ends_iff.mpr ⟨fun _ m' done => ?_, fun e m' failed => ?_⟩
  · obtain ⟨m₁, ran, rfl⟩ := (execute_outcome dispatch f m).ok done
    have account := (run_accounts served f (m := m.started) empty).ok ran
    exact account
  · rw [CallStack.depth, (execute_cleared failed).1.frames]
    rfl

end

end Engine

/-! ## 5. Builtins of the host. -/

open Engine

/-- **A builtin of the host that adds no return points** by its own actions. It may execute any functions, and
    do what it likes with their outcomes. -/
def Routine.Still : Routine → Prop
  | .finish act => Engine.Still act
  | .exec target next => Engine.Still target ∧ ∀ outcome, (next outcome).Still
  | .look next => ∀ m, (next m).Still

/-- No command adds one. -/
theorem Command.perform_still (c : Command) : Engine.Still c.perform := by
  intro m empty
  refine (c.perform_serves m).mono ?_ fun _ _ _ => trivial
  rintro _ m' (serviced | ⟨-, _, _, image, -, rfl⟩)
  · rw [serviced.calls, empty]
  · rfl

theorem Routine.Still.accounts {exec : FuncRef → Engine Unit} {within : FuncRef → Course}
    (hexec : ∀ f lost m, (lost = true → m.calls.depth = 0) → Ends (exec f) m
      (fun _ m' => lostAfter lost (within f m) = true → m'.calls.depth = 0) fun _ m' => m'.calls.depth = 0)
    (r : Routine) (h : r.Still) : Accounts (r.run exec) (r.course exec within) fun _ => True := by
  induction r with
  | finish act => exact Engine.Still.accounts h
  | exec target next ih =>
    obtain ⟨still, rest⟩ := h
    rw [Routine.run, Routine.course]
    refine .after still fun f lost m empty => ?_
    refine ends_bind (ends_attempt (ends_iff.mpr ⟨fun _ m' ran => ?_, fun e m' broke => ?_⟩))
    · rw [ran, lostAfter_append]
      exact ih (.ok ()) (rest _) _ m' ((hexec f lost m empty).ok ran)
    -- whatever was lost before, now the stack is empty and a failure came last
    · rw [broke, lostAfter_append, lostAfter_cons]
      exact ih (.error e) (rest _) true m' fun _ => (hexec f lost m empty).error broke
  | look next ih => exact fun lost m => ih m (h m) lost m

/-- **All builtins keep the account**, executions being nested to any depth. -/
theorem Dispatch.link_accounts {routines : Nat → Routine} (still : ∀ key, (routines key).Still) (nesting : Nat)
    (native : Native) : Accounts (link routines nesting native) (course routines nesting native) fun _ => True := by
  induction nesting generalizing native with
  | zero =>
    cases native with
    | core b => exact (core_still b).accounts
    | hosted key => exact .fail _
  | succ nesting ih =>
    cases native with
    | core b => exact (core_still b).accounts
    | hosted key =>
      refine Routine.Still.accounts (fun f lost m empty => ?_) _ (still key)
      exact (execute_accounts ih f empty).mono (fun _ _ account l => (account l).1) fun _ _ h => h

namespace Engine

variable {routines : Nat → Routine} {nesting : Nat} {f g : FuncRef} {m : Machine}

/-- **A failure ends the execution around it, unless something is entered afterwards.** The builtins of the host
    may execute functions, and go on when that fails, as they like. If in the course of an execution of bytecode
    one of these fails, and no function is entered after that, the execution fails. -/
theorem failure_ends_execution (still : ∀ key, (routines key).Still) (code : m.HasCode f)
    {before after : List Happening}
    (happens : executeCourse (Dispatch.link routines nesting) (Dispatch.course routines nesting) f m =
      before ++ .failed g :: after) (none : ∀ h, .entered h ∉ after) :
    ∃ e m', execute (Dispatch.link routines nesting) f m = .error e m' := by
  have ends := @execute_accounts _ _ (Dispatch.link_accounts still nesting) f false m nofun
  rw [happens, lostAfter_append, lostAfter_cons] at ends
  have never := ends.mono (fun _ _ account => (account (lostAfter_of_none_entered none)).2 code) fun _ _ h => h
  obtain ⟨e, m', failed, -⟩ := never.exists_error
  exact ⟨e, m', failed⟩

/-- The builtin that goes on whatever the outcome adds no return points. -/
theorem still_goingOn (key : Nat) : (goingOn key).Still :=
  ⟨.of_blind fun _ _ _ _ => argWord_blind 0, fun _ => fun _ empty => empty⟩

/-- A program for that builtin. Function 1 hands it no function, and returns. -/
def forsaken : ImageBuilder :=
  { statements := #[{}, { op := 52, a := 92 }, { op := 43 }]
    functions := #[{}, { firstStatement := 1, parmStart := 92 }, { firstStatement := -1 }]
    globals := Array.replicate 92 0 ++ #[2] }

/-- The builtin goes on, and then function 1 has nothing to return to. -/
theorem failure_ends_execution_forsaken : ∃ m e m', Resting goingOn hosting m ∧ m.HasCode 1 ∧
    executeCourse (Dispatch.link goingOn 1) (Dispatch.course goingOn 1) 1 m = [.entered 1, .failed 0] ∧
    execute (Dispatch.link goingOn 1) 1 m = .error e m' := by
  have loads : Machine.Loads forsaken.build .small { numbering := .own } hosting fun m =>
      ((m.program.function? 1).any fun func => func.codeStart?.isSome) = true ∧
      executeCourse (Dispatch.link goingOn 1) (Dispatch.course goingOn 1) 1 m = [.entered 1, .failed 0] := by
    decide +kernel
  obtain ⟨image, loaded, unnamed, code, happens⟩ := loads
  rw [Machine.new_of_unnamed unnamed] at code happens
  have code := (Option.any_eq_true _ _).mp code
  have split : executeCourse (Dispatch.link goingOn 1) (Dispatch.course goingOn 1) 1
      (Machine.new image { numbering := .own } hosting) = [.entered 1] ++ .failed 0 :: [] := happens
  obtain ⟨e, m', failed⟩ := failure_ends_execution still_goingOn code split nofun
  exact ⟨_, e, m', .fresh _ loaded, code, happens, failed⟩

/-- **A failure can pass unnoticed.** Function 1 of `reentering` hands the builtin no function; the builtin goes
    on when the execution fails, and function 1 calls function 2. The return of function 2 finds the call stack
    at the depth the execution started from, and the execution succeeds. -/
theorem failure_passes_unnoticed : ∃ m m', Resting goingOn hosting m ∧ m.HasCode 1 ∧
    executeCourse (Dispatch.link goingOn 1) (Dispatch.course goingOn 1) 1 m =
      [.entered 1, .failed 0, .entered 2] ∧
    execute (Dispatch.link goingOn 1) 1 m = .ok () m' := by
  have loads : Machine.Loads (reentering 0).build .small { numbering := .own } hosting fun m =>
      ((m.program.function? 1).any fun func => func.codeStart?.isSome) = true ∧
      executeCourse (Dispatch.link goingOn 1) (Dispatch.course goingOn 1) 1 m =
        [.entered 1, .failed 0, .entered 2] ∧
      Ends (execute (Dispatch.link goingOn 1) 1) m (fun _ _ => True) fun _ _ => False := by
    decide +kernel
  obtain ⟨image, loaded, unnamed, code, happens, ends⟩ := loads
  rw [Machine.new_of_unnamed unnamed] at code happens ends
  obtain ⟨_, m', done, -⟩ := ends.exists_ok
  exact ⟨_, m', .fresh _ loaded, (Option.any_eq_true _ _).mp code, happens, done⟩

end Engine

end QuakeProgs
