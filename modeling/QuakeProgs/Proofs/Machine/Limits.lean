/-
  File:      QuakeProgs/Proofs/Machine/Limits.lean
  Subject:   LIMITS ONLY CUT OFF: a run that no limit stops does not hang on them.

  A machine has three limits: how many return points it holds, how many saved words, and how many statements one
  execution may run. They are looked at when a function is entered and before a statement is fetched, and
  nowhere else. Two machines that differ in nothing but their limits go through the same motions until the one
  with less room meets a limit.

  * `Machine.Roomier` -- the same machine with more room;
  * `Engine.Outlasts` -- the first meets a limit, or both end the same way;
  * `Engine.loop_outlasts` -- by induction on what is left of the smaller budget;
  * `Engine.limits_only_cut_off` -- an execution that succeeds, or fails for another reason than a limit, ends the
    same way where there is more room.
-/
import QuakeProgs.Image.Builder
import QuakeProgs.Proofs.Machine.Resting
import QuakeProgs.Proofs.Machine.Safety
import QuakeProgs.Proofs.Machine.Uniformity

namespace QuakeProgs

/-! ## 1. The same machine with more room. -/

/-- **The same machine with more room**: the limits may be larger, all else is the same. The hosts give the same
    answers from here on. -/
structure Machine.Roomier (m₁ m₂ : Machine) : Prop where
  config : { m₁.config with
    maxDepth := m₂.config.maxDepth, localWords := m₂.config.localWords, budget := m₂.config.budget } = m₂.config
  budget : m₁.config.budget ≤ m₂.config.budget
  limit : m₁.calls.limit ≤ m₂.calls.limit
  capacity : m₁.locals.capacity ≤ m₂.locals.capacity
  program : m₁.program = m₂.program
  strings : m₁.strings = m₂.strings
  globals : m₁.globals = m₂.globals
  edicts : m₁.edicts = m₂.edicts
  hot : m₁.hot = m₂.hot
  fieldCache : m₁.fieldCache = m₂.fieldCache
  registry : m₁.registry = m₂.registry
  builtins : m₁.builtins = m₂.builtins
  frames : m₁.calls.frames = m₂.calls.frames
  words : m₁.locals.words = m₂.locals.words
  host : m₁.host.Alike True m₂.host
  state : m₁.state = m₂.state
  phase : m₁.phase = m₂.phase
  legacy : m₁.legacy = m₂.legacy
  current : m₁.current = m₂.current
  statement : m₁.statement = m₂.statement
  argc : m₁.argc = m₂.argc
  tracing : m₁.tracing = m₂.tracing
  profile : m₁.profile = m₂.profile
  random : m₁.random = m₂.random

namespace Machine.Roomier

variable {m₁ m₂ : Machine}

/-- **Larger limits from the start.** -/
theorem new (image : Image) (registry : Registry) {config : Config} {maxDepth localWords budget : Nat}
    (depth : config.maxDepth ≤ maxDepth) (words : config.localWords ≤ localWords) (more : config.budget ≤ budget) :
    (Machine.new image config registry).Roomier
      (Machine.new image { config with maxDepth, localWords, budget } registry) where
  config := rfl
  budget := more
  limit := depth
  capacity := words
  program := rfl
  strings := rfl
  globals := rfl
  edicts := rfl
  hot := rfl
  fieldCache := rfl
  registry := rfl
  builtins := rfl
  frames := rfl
  words := rfl
  host es₁ es₂ told name := by
    rw [told.lines trivial]
    rfl
  state := rfl
  phase := rfl
  legacy := rfl
  current := rfl
  statement := rfl
  argc := rfl
  tracing := rfl
  profile := rfl
  random := rfl

theorem told (h : m₁.Roomier m₂) (e : Event) : (m₁.tell e).Roomier (m₂.tell e) := by
  rw [Comparison.tell_eq, Comparison.tell_eq]
  exact { h with host := h.host.told (.refl True #[e]) }

theorem view (h : m₁.Roomier m₂) : m₁.view = m₂.view := by
  rw [Machine.view, h.program, h.strings, h.globals, Machine.view]

/-- The statement is told and counted in both. -/
theorem fetched (h : m₁.Roomier m₂) (pc : Nat) : (m₁.fetched pc).Roomier (m₂.fetched pc) := by
  have profile : m₁.profile.statement m₁.current = m₂.profile.statement m₂.current := by rw [h.profile, h.current]
  have host : Host.Alike True (m₁.fetched pc).host (m₂.fetched pc).host := by
    dsimp only [Machine.fetched]
    rw [h.tracing, h.view]
    split
    · exact (h.told _).host
    · exact h.host
  exact { h with host, profile }

theorem depth (h : m₁.Roomier m₂) : m₁.calls.depth = m₂.calls.depth := by
  rw [CallStack.depth, h.frames, CallStack.depth]

/-- Room for a return point in the first is room in the second. -/
theorem checkRoom (h : m₁.Roomier m₂) (room : m₁.calls.checkRoom = .ok ()) : m₂.calls.checkRoom = .ok () := by
  have within := CallStack.checkRoom_ok room
  have more := h.limit
  rw [h.depth] at within
  exact if_neg (by omega)

theorem checkWords (h : m₁.Roomier m₂) {n : Nat} (room : m₁.locals.checkRoom n = .ok ()) :
    m₂.locals.checkRoom n = .ok () := by
  have within := LocalStack.checkRoom_ok room
  have more := h.capacity
  rw [LocalStack.used, h.words] at within
  exact if_neg (by rw [LocalStack.used]; omega)

end Machine.Roomier

/-- The first machine has no builtins but those of the engine. -/
structure Machine.RoomierCore (m₁ m₂ : Machine) : Prop extends Roomier m₁ m₂ where
  core : m₁.builtins.All Builtin.IsCore

/-- **What code does not see it does not disturb.** -/
theorem KeptAlike.roomier : KeptAlike Machine.RoomierCore where
  program h := h.program
  registry h := h.registry
  builtins h := h.builtins
  hot h := h.hot
  phase h := h.phase
  legacy h := h.legacy
  current h := h.current
  strings h := h.strings
  globals h := h.globals
  edicts h := .inl h.edicts
  answer h := h.host.answer
  setGlobals _ h := { h with globals := rfl }
  setTexts _ h := { h with strings := by rw [h.strings] }
  setStore _ h := { h with edicts := by rw [h.edicts] }
  setRandom _ h := { h with random := by rw [h.random] }
  setTracing _ h := { h with tracing := rfl }
  tell _ h := { h.told _ with core := h.core }

/-! ## 2. Until a limit is met. -/

namespace Engine

variable {α β : Type} {m₁ m₂ : Machine}

/-- **The first meets a limit, or both end the same way.** -/
def Outlasts (x₁ x₂ : Engine α) (m₁ m₂ : Machine) (Q : α → α → Machine → Machine → Prop) : Prop :=
  (∃ e n, x₁ m₁ = .error e n ∧ e.cause.isLimit = true) ∨ Paired x₁ x₂ m₁ m₂ Q fun _ => Machine.RoomierCore

/-- The same result, and machines that differ in their limits only. -/
def SameAnswer (a₁ a₂ : α) (n₁ n₂ : Machine) : Prop := a₁ = a₂ ∧ n₁.RoomierCore n₂

variable {Q : α → α → Machine → Machine → Prop}

theorem Outlasts.bind {x₁ x₂ : Engine β} {f₁ f₂ : β → Engine α}
    (h : Outlasts x₁ x₂ m₁ m₂ fun b₁ b₂ n₁ n₂ => Outlasts (f₁ b₁) (f₂ b₂) n₁ n₂ Q) :
    Outlasts (x₁ >>= f₁) (x₂ >>= f₂) m₁ m₂ Q := by
  rcases h with ⟨e, n, met, limit⟩ | both
  · exact .inl ⟨e, n, bind_of_error met, limit⟩
  cases both with
  | error h₁ h₂ roomier => exact .inr (.error (bind_of_error h₁) (bind_of_error h₂) roomier)
  | ok h₁ h₂ rest =>
    rcases rest with ⟨e, n, met, limit⟩ | both
    · exact .inl ⟨e, n, (bind_of_ok h₁).trans met, limit⟩
    · exact .inr (paired_bind (.ok h₁ h₂ both))

/-- An action that answers the same, and then another. -/
theorem Outlasts.then {x₁ x₂ : Engine β} {f₁ f₂ : β → Engine α} (h : Outlasts x₁ x₂ m₁ m₂ SameAnswer)
    (hf : ∀ b n₁ n₂, n₁.RoomierCore n₂ → Outlasts (f₁ b) (f₂ b) n₁ n₂ Q) :
    Outlasts (x₁ >>= f₁) (x₂ >>= f₂) m₁ m₂ Q := by
  refine .bind (h.imp_right fun both => both.mono ?_ fun _ _ _ he => he)
  rintro b _ n₁ n₂ ⟨rfl, roomier⟩
  exact hf b n₁ n₂ roomier

theorem Outlasts.congr {x₁ x₂ y₁ y₂ : Engine α} {n₁ n₂ : Machine} (h : Outlasts y₁ y₂ n₁ n₂ Q)
    (e₁ : x₁ m₁ = y₁ n₁) (e₂ : x₂ m₂ = y₂ n₂) : Outlasts x₁ x₂ m₁ m₂ Q := by
  rcases h with ⟨e, n, met, limit⟩ | both
  · exact .inl ⟨e, n, e₁.trans met, limit⟩
  cases both with
  | ok h₁ h₂ q => exact .inr (.ok (e₁.trans h₁) (e₂.trans h₂) q)
  | error h₁ h₂ roomier => exact .inr (.error (e₁.trans h₁) (e₂.trans h₂) roomier)

theorem outlasts_pure {a₁ a₂ : α} (h : Q a₁ a₂ m₁ m₂) : Outlasts (pure a₁) (pure a₂) m₁ m₂ Q :=
  .inr (paired_pure h)

theorem outlasts_get {Q : Machine → Machine → Machine → Machine → Prop} (h : Q m₁ m₂ m₁ m₂) :
    Outlasts get get m₁ m₂ Q := .inr (paired_get h)

theorem outlasts_modify {f₁ f₂ : Machine → Machine} {Q : Unit → Unit → Machine → Machine → Prop}
    (h : Q () () (f₁ m₁) (f₂ m₂)) : Outlasts (modify f₁) (modify f₂) m₁ m₂ Q := .inr (paired_modify h)

theorem outlasts_fail {c : Cause} (h : m₁.RoomierCore m₂) : Outlasts (fail c) (fail c) m₁ m₂ Q :=
  .inr (paired_throw h)

/-- Steady code looks at no limit. -/
theorem Uniform.outlasts {act : Engine α} (h : Steady Machine.RoomierCore act) (roomier : m₁.RoomierCore m₂) :
    Outlasts act act m₁ m₂ SameAnswer :=
  .inr ((h m₁ m₂ roomier).mono (fun _ _ _ _ q => q) fun _ _ _ he => he.2)

/-- **A check of a limit**: what passes in the first passes in the second. -/
theorem outlasts_update {check : Machine → Except Error Unit} {change : Unit → Machine → Machine}
    {Q : Unit → Unit → Machine → Machine → Prop} (passes : check m₁ = .ok () → check m₂ = .ok ())
    (hok : Q () () (change () m₁) (change () m₂)) (limit : ∀ e, check m₁ = .error e → e.cause.isLimit = true) :
    Outlasts (update check change) (update check change) m₁ m₂ Q := by
  cases checked : check m₁ with
  | ok _ => exact .inr (.ok (update_of_ok checked change) (update_of_ok (passes checked) change) hok)
  | error e => exact .inl ⟨e, m₁, update_of_error checked change, limit e checked⟩

/-! ## 3. Calls and returns. -/

theorem pushFrame_outlasts (h : m₁.RoomierCore m₂) : Outlasts pushFrame pushFrame m₁ m₂ SameAnswer := by
  refine outlasts_update h.checkRoom ⟨rfl, ?_⟩ fun e full => by rw [CallStack.checkRoom_error full]; rfl
  exact { h with
    limit := h.limit
    frames := by rw [CallStack.add, CallStack.add, h.frames, h.statement, h.current] }

theorem saveLocals_outlasts (h : m₁.RoomierCore m₂) (region : Array Word) :
    Outlasts (saveLocals region) (saveLocals region) m₁ m₂ SameAnswer := by
  refine outlasts_update h.checkWords ⟨rfl, ?_⟩ fun e full => by rw [LocalStack.checkRoom_error full]; rfl
  exact { h with
    capacity := h.capacity
    words := by rw [LocalStack.append, LocalStack.append, h.words] }

/-- **Entering** looks at two of the limits. -/
theorem enter_outlasts (h : m₁.RoomierCore m₂) (f : FuncRef) : Outlasts (enter f) (enter f) m₁ m₂ SameAnswer := by
  have kept := KeptAlike.roomier
  refine ((function_steady kept f).outlasts h).then fun func n₁ n₂ h => ?_
  cases func.codeStart? with
  | none => exact outlasts_fail h
  | some entry =>
    refine (pushFrame_outlasts h).then fun _ n₁ n₂ h => ?_
    refine ((slice_steady kept _ _).outlasts h).then fun region n₁ n₂ h => ?_
    refine (saveLocals_outlasts h region).then fun _ n₁ n₂ h => ?_
    refine ((copyArgs_steady kept _ _ _).outlasts h).then fun _ n₁ n₂ h => ?_
    refine .bind (outlasts_modify (outlasts_pure ⟨rfl, ?_⟩))
    exact { h with current := rfl, profile := by rw [h.profile] }

theorem loadLocals_steady (n : Nat) : Steady Machine.RoomierCore (loadLocals n) := by
  refine .update (fun m₁ m₂ h => ?_) (fun _ m₁ m₂ h _ _ => ?_) fun m => m.locals.last_plain n
  · rw [LocalStack.last, LocalStack.used, h.words]
    rfl
  · exact { h with
      capacity := h.capacity
      words := by rw [LocalStack.dropLast, LocalStack.dropLast, LocalStack.used, h.words]; rfl }

theorem popFrame_steady : Steady Machine.RoomierCore popFrame := by
  refine .update (fun m₁ m₂ h => ?_) (fun _ m₁ m₂ h _ _ => ?_) fun m => m.calls.last_plain
  · rw [CallStack.last, h.frames]
    rfl
  · exact { h with
      limit := h.limit
      frames := by rw [CallStack.dropLast, CallStack.dropLast, h.frames]
      current := rfl
      statement := rfl }

/-- **Leaving** looks at none: what was saved is the same on both. -/
theorem leave_steady : Steady Machine.RoomierCore leave := by
  refine .get (fun _ _ h => by rw [h.program, h.current, h.depth]) fun m => ?_
  cases m.program.function? m.current with
  | none => exact .fail ⟨rfl, rfl⟩
  | some func =>
    refine .ite (.fail ⟨rfl, rfl⟩) ?_
    have checked : Steady Machine.RoomierCore (reads fun m => m.globals.check func.parmStart func.locals) :=
      .reads (fun _ _ h => by rw [h.globals]) fun m => m.globals.check_plain _ _
    refine checked.bind fun _ => (loadLocals_steady _).bind fun _ => ?_
    exact (write_steady .roomier _ _).bind fun _ => popFrame_steady.bind fun _ => .pure _

/-! ## 4. Turn after turn. -/

section Run

variable {routines : Nat → Routine} {nesting : Nat}

theorem callBuiltin_outlasts (h : m₁.RoomierCore m₂) (number : Nat) (f : FuncRef) :
    Outlasts (callBuiltin (Dispatch.link routines nesting) number f)
      (callBuiltin (Dispatch.link routines nesting) number f) m₁ m₂ SameAnswer := by
  have kept := KeptAlike.roomier
  refine .bind (outlasts_modify ?_)
  have counted : Machine.RoomierCore { m₁ with profile := m₁.profile.call f }
      { m₂ with profile := m₂.profile.call f } := { h with profile := by rw [h.profile] }
  refine .bind (.inr (paired_reads (by rw [h.builtins]) (fun slot found => ?_) fun _ _ => counted))
  cases slot with
  | none => exact (returnVector_steady kept _).outlasts counted
  | some b =>
    obtain ⟨c, code⟩ := h.core b (BuiltinTable.mem_of_lookup found)
    dsimp only
    rw [code, Dispatch.link_core]
    exact (core_steady kept (fun _ _ h => h.argc) c (.inl fun _ _ h => h.random)).outlasts counted

theorem call_outlasts (h : m₁.RoomierCore m₂) (f : FuncRef) :
    Outlasts (call (Dispatch.link routines nesting) f) (call (Dispatch.link routines nesting) f) m₁ m₂
      SameAnswer := by
  refine ((function_steady .roomier f).outlasts h).then fun func n₁ n₂ h => ?_
  cases func.builtinNumber? with
  | some number => exact (callBuiltin_outlasts h number f).then fun _ _ _ h => outlasts_pure ⟨rfl, h⟩
  | none => exact (enter_outlasts h f).then fun _ _ _ h => outlasts_pure ⟨rfl, h⟩

/-- A statement of every kind. -/
theorem step_outlasts (h : m₁.RoomierCore m₂) (pc : Nat) (st : Statement) :
    Outlasts (step (Dispatch.link routines nesting) pc st) (step (Dispatch.link routines nesting) pc st) m₁ m₂
      SameAnswer := by
  have kept := KeptAlike.roomier
  have passes : Steady Machine.RoomierCore (do compute st; return Flow.next) :=
    (compute_steady kept st).bind fun _ => .pure _
  have returns : Steady Machine.RoomierCore (do returnWords st.ga; return Flow.returned (← leave)) :=
    (returnWords_steady kept _).bind fun _ => leave_steady.bind fun _ => .pure _
  have branches (c : Word → Prop) [DecidablePred c] : Steady Machine.RoomierCore
      (do if c (← word st.ga) then jump pc st else return Flow.next) :=
    (word_steady kept _).bind fun _ => .ite (jump_steady kept pc st) (.pure _)
  obtain ⟨op, a, b, c⟩ := st
  cases op with
  | done => exact returns.outlasts h
  | ret => exact returns.outlasts h
  | branchIf => exact (branches (· ≠ 0)).outlasts h
  | branchIfNot => exact (branches (· = 0)).outlasts h
  | goto => exact (jump_steady kept pc _).outlasts h
  | call argc =>
    refine .bind (outlasts_modify ?_)
    have counted : Machine.RoomierCore { m₁ with argc := argc.val } { m₂ with argc := argc.val } :=
      { h with argc := rfl }
    exact ((word_steady kept _).outlasts counted).then fun f _ _ h => call_outlasts h f
  | _ => exact passes.outlasts h

/-- **A turn.** -/
theorem cycle_outlasts (h : m₁.RoomierCore m₂) (pc : Nat) :
    Outlasts (cycle (Dispatch.link routines nesting) pc) (cycle (Dispatch.link routines nesting) pc) m₁ m₂
      SameAnswer := by
  cases hst : m₁.program.statements[pc]? with
  | none => exact .inr (.error (cycle_eq_of_none hst) (cycle_eq_of_none (h.program ▸ hst)) h)
  | some st =>
    have fetched : (m₁.fetched pc).RoomierCore (m₂.fetched pc) := { h.fetched pc with core := h.core }
    exact (step_outlasts fetched pc st).congr (cycle_eq hst) (cycle_eq (h.program ▸ hst))

/-- **The loop**, by induction on what is left of the smaller budget: where the second has spent its budget, the first
    has too. -/
theorem loop_outlasts {budget₁ budget₂ exit remaining₁ remaining₂ : Nat} (more : remaining₁ ≤ remaining₂)
    (h : m₁.RoomierCore m₂) (pc : Nat) :
    Outlasts (loop (Dispatch.link routines nesting) budget₁ exit remaining₁ pc)
      (loop (Dispatch.link routines nesting) budget₂ exit remaining₂ pc) m₁ m₂ SameAnswer := by
  induction remaining₁ generalizing remaining₂ pc m₁ m₂ with
  | zero => exact .inl ⟨{ cause := .runawayLoop budget₁ }, m₁.moveTo pc, rfl, rfl⟩
  | succ remaining₁ ih =>
    obtain ⟨remaining₂, rfl⟩ : ∃ k, remaining₂ = k + 1 := ⟨remaining₂ - 1, by omega⟩
    refine .bind (outlasts_modify ?_)
    have moved : Machine.RoomierCore { m₁ with statement := pc } { m₂ with statement := pc } :=
      { h with statement := rfl }
    refine (cycle_outlasts moved pc).then fun flow n₁ n₂ h => ?_
    cases flow with
    | next => exact ih (by omega) h (pc + 1)
    | jump target => exact ih (by omega) h target
    | returned caller =>
      refine .bind (outlasts_get ?_)
      rw [h.depth]
      split
      · exact outlasts_pure ⟨rfl, h⟩
      · exact ih (by omega) h (caller + 1)

/-- **A run.** -/
theorem run_outlasts (h : m₁.RoomierCore m₂) (f : FuncRef) :
    Outlasts (run (Dispatch.link routines nesting) f) (run (Dispatch.link routines nesting) f) m₁ m₂ SameAnswer := by
  refine ((function_steady .roomier f).outlasts h).then fun func n₁ n₂ h => ?_
  cases func.builtinNumber? with
  | some number => exact callBuiltin_outlasts h number f
  | none =>
    refine .bind (outlasts_get ((enter_outlasts h f).then fun entry k₁ k₂ h' => ?_))
    rw [h.depth]
    exact loop_outlasts h.budget h' entry

/-! ## 5. An execution. -/

/-- A report shows the same of both. -/
theorem report_roomier (h : m₁.RoomierCore m₂) (e : Error) {E : Error → Machine → Machine → Prop} :
    Paired (report e) (report e) m₁ m₂ SameAnswer E := by
  have frames : m₁.stackFrames = m₂.stackFrames := by
    rw [Machine.stackFrames, h.frames, h.current, h.statement, Machine.stackFrames]
  have diagnostics : m₁.config.diagnostics = m₂.config.diagnostics := by rw [← h.config]
  unfold report
  split
  · exact paired_pure ⟨rfl, h⟩
  · refine paired_bind (paired_get ?_)
    dsimp only
    rw [diagnostics, KeptAlike.roomier.selfEdict h, h.current, h.statement, KeptAlike.roomier.view h, frames,
      h.edicts]
    exact paired_bind (paired_modify (paired_pure ⟨rfl, { h.told _ with core := h.core }⟩))

/-- **An execution.** What a limit stops is reported and aborted as such. -/
theorem execute_outlasts (h : m₁.RoomierCore m₂) (f : FuncRef) :
    Outlasts (execute (Dispatch.link routines nesting) f) (execute (Dispatch.link routines nesting) f) m₁ m₂
      SameAnswer := by
  have started : m₁.started.RoomierCore m₂.started := { h with state := rfl }
  rcases run_outlasts started f with ⟨e, n, met, limit⟩ | both
  · cases ended : execute (Dispatch.link routines nesting) f m₁ with
    | ok _ n₁ =>
      obtain ⟨_, ran, -⟩ := (execute_outcome _ f m₁).ok ended
      cases met.symm.trans ran
    | error e' n₁ =>
      obtain ⟨_, _, _, broke, reported, -⟩ := (execute_outcome _ f m₁).error ended
      cases met.symm.trans broke
      exact .inl ⟨e', n₁, ended, ((report_ends e n).ok reported).1 ▸ limit⟩
  · refine .inr (paired_bind (paired_get ?_))
    rw [h.state]
    refine paired_bind (paired_modify (paired_bind (paired_attempt (both.mono ?_ ?_))))
    · rintro _ _ n₁ n₂ ⟨rfl, h'⟩
      exact paired_modify ⟨rfl, { h' with state := rfl }⟩
    · intro e n₁ n₂ h'
      refine paired_bind ((report_roomier h' e).mono ?_ fun _ _ _ he => he)
      rintro e' _ k₁ k₂ ⟨rfl, h'⟩
      refine paired_bind (paired_modify (paired_throw ?_))
      exact { h' with
        limit := h'.limit, capacity := h'.capacity, frames := rfl, words := rfl, current := rfl, state := rfl }

end Run

/-- **Limits only cut off.** Two machines differ in nothing but their limits, and the second has no less room than the
    first. Where an execution succeeds on the first it succeeds on the second, and where it fails on the first for
    another reason than a limit it fails on the second with the same error; either way the two differ in nothing but
    their limits afterwards. -/
theorem limits_only_cut_off {m₁ m₂ : Machine} (core : m₁.builtins.All Builtin.IsCore) (roomier : m₁.Roomier m₂)
    (routines : Nat → Routine) (nesting : Nat) (f : FuncRef) :
    (∀ n₁, execute (Dispatch.link routines nesting) f m₁ = .ok () n₁ →
      ∃ n₂, execute (Dispatch.link routines nesting) f m₂ = .ok () n₂ ∧ n₁.Roomier n₂) ∧
    (∀ e n₁, execute (Dispatch.link routines nesting) f m₁ = .error e n₁ → e.cause.isLimit = false →
      ∃ n₂, execute (Dispatch.link routines nesting) f m₂ = .error e n₂ ∧ n₁.Roomier n₂) := by
  have start : m₁.RoomierCore m₂ := { roomier with core }
  have outlasts : Outlasts (execute (Dispatch.link routines nesting) f) (execute (Dispatch.link routines nesting) f)
      m₁ m₂ SameAnswer := execute_outlasts start f
  constructor
  · intro n₁ succeeded
    rcases outlasts with ⟨e, n, met, -⟩ | both
    · cases succeeded.symm.trans met
    · cases both with
      | ok h₁ h₂ same =>
        cases succeeded.symm.trans h₁
        exact ⟨_, h₂, same.2.toRoomier⟩
      | error h₁ _ _ => cases succeeded.symm.trans h₁
  · intro e n₁ failed other
    rcases outlasts with ⟨e, n, met, limit⟩ | both
    · cases failed.symm.trans met
      rw [other] at limit
      cases limit
    · cases both with
      | ok h₁ _ _ => cases failed.symm.trans h₁
      | error h₁ h₂ same =>
        cases failed.symm.trans h₁
        exact ⟨_, h₂, same.toRoomier⟩

/-- A function that calls another, which saves a word, and a function that calls none. -/
def calling : ImageBuilder :=
  { statements := #[{}, { op := 51, a := 92 }, { op := 43 }, { op := 43 }, { op := 51, a := 93 }]
    functions := #[{}, { firstStatement := 1 }, { firstStatement := 3, parmStart := 93, locals := 1 },
      { firstStatement := 4 }]
    globals := (Array.replicate 94 0).set! 92 2 }

/-- With just enough room for two calls, one word and three statements, and with the usual limits. -/
theorem limits_only_cut_off_just : ∃ m₁ m₂ n₁ n₂ k₁ k₂ e, m₁.Roomier m₂ ∧ m₁.config.budget = 3 ∧
    m₂.config.budget = 0x01000000 ∧ m₁.builtins.All Builtin.IsCore ∧
    execute (Dispatch.link default 0) 1 m₁ = .ok () n₁ ∧ execute (Dispatch.link default 0) 1 m₂ = .ok () n₂ ∧
    n₁.Roomier n₂ ∧
    execute (Dispatch.link default 0) 3 m₁ = .error e k₁ ∧ e.cause = .nullFunctionCall ∧
    execute (Dispatch.link default 0) 3 m₂ = .error e k₂ ∧ k₁.Roomier k₂ := by
  have loads : Machine.Loads calling.build .small { maxDepth := 2, localWords := 1, budget := 3 } .core fun m =>
      Ends (execute (Dispatch.link default 0) 1) m (fun _ _ => True) (fun _ _ => False) ∧
      Ends (execute (Dispatch.link default 0) 3) m (fun _ _ => False) fun e _ => e.cause = .nullFunctionCall := by
    decide +kernel
  obtain ⟨image, loaded, unnamed, holds⟩ := loads
  rw [Machine.new_of_unnamed unnamed] at holds
  obtain ⟨_, n₁, succeeded, -⟩ := holds.1.exists_ok
  obtain ⟨e, k₁, failed, cause⟩ := holds.2.exists_error
  have roomier : (Machine.new image { maxDepth := 2, localWords := 1, budget := 3 } .core).Roomier
      (Machine.new image {} .core) := .new image .core (by decide) (by decide) (by decide)
  have core := BuiltinTable.all_build Registry.onlyCore_core image.program .declared 1024
  obtain ⟨n₂, succeeded', same⟩ := (limits_only_cut_off core roomier default 0 1).1 n₁ succeeded
  obtain ⟨k₂, failed', same'⟩ := (limits_only_cut_off core roomier default 0 3).2 e k₁ failed (by rw [cause]; rfl)
  exact ⟨_, _, n₁, n₂, k₁, k₂, e, roomier, rfl, rfl, core, succeeded, succeeded', same, failed, cause, failed',
    same'⟩

end Engine

end QuakeProgs
