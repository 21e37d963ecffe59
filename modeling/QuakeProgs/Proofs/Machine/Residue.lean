/-
  File:      QuakeProgs/Proofs/Machine/Residue.lean
  Subject:   NOTHING IS LEFT OVER FROM ONE CALL OF THE HOST TO THE NEXT.

  An earlier run leaves traces of itself: a state, the last statement, a count of arguments, counters, cached
  names. The next run finds them, and pushes some of them onto its stack. It never looks at them.

  * `Machine.Settled` -- what holds of every machine that can be reached: what is derived from the image and
    the configuration, and that nothing runs below the first return point;
  * `Engine.Impartial` -- an action of the host that looks at no residue;
  * `Engine.report_paired`, `Engine.execute_paired` -- an execution within a run, on two machines;
  * `Reachable.settled` -- by comparing each machine with itself;
  * `Engine.execute_without_residue` -- an execution from outside, on two machines that differ in their
    residue;
  * `Engine.execute_with_residue` -- a builtin of the host that looks at it carries it on.
-/
import QuakeProgs.Proofs.Machine.Balance
import QuakeProgs.Proofs.Machine.Lockstep
import QuakeProgs.Proofs.Machine.Resting

namespace QuakeProgs

open Engine

/-! ## 1. Machines that can be reached. -/

namespace CallStack

variable {s : CallStack}

/-- The functions that wait, outermost first, and the one that runs. -/
def chain (s : CallStack) (current : FuncRef) : List FuncRef := s.frames.toList.map Frame.function ++ [current]

theorem chain_add (s : CallStack) (frame : Frame) (current : FuncRef) :
    (s.add frame).chain current = s.chain frame.function ++ [current] := by
  simp only [chain, add, Array.toList_push, List.map_append, List.map_cons, List.map_nil]

/-- While something waits, what came first does not depend on what runs. -/
theorem head?_chain (h : 0 < s.depth) (f g : FuncRef) : (s.chain f).head? = (s.chain g).head? := by
  cases hf : s.frames.toList with
  | nil =>
    rw [depth_eq_length, hf] at h
    cases h
  | cons frame frames => simp only [chain, hf, List.map_cons, List.cons_append, List.head?_cons]

/-- The last that waits goes on. -/
theorem head?_chain_dropLast {frame : Frame} (h : s.last = .ok frame) (current : FuncRef) :
    (s.dropLast.chain frame.function).head? = (s.chain current).head? := by
  obtain ⟨frames, hf⟩ := toList_of_last h
  have below := (last_of_toList hf).2
  have chain_eq : s.chain current = s.dropLast.chain frame.function ++ [current] := by
    simp only [chain, below, hf, List.map_append, List.map_cons, List.map_nil]
  rw [chain_eq, List.head?_append, List.head?_eq_some_head (by simp [chain]), Option.some_or]

end CallStack

namespace Machine

/-- **What the image, the configuration and the builtins determine**, and who called the first function. -/
structure Settled (registry : Registry) (m : Machine) : Prop where
  registry : m.registry = registry
  builtins : m.builtins = .build m.registry m.program m.config.numbering m.config.maxBuiltins
  hot : m.hot = .resolve m.program
  legacy : m.legacy = m.config.legacy.contains m.program.digest
  limit : m.calls.limit = m.config.maxDepth
  capacity : m.locals.capacity = m.config.localWords
  cache : m.fieldCache.Fits m.program
  /-- What came first belongs to no function. -/
  root : (m.calls.chain m.current).head? = some 0

variable {registry : Registry} {m m' : Machine}

theorem settled_new (image : Image) (config : Config) (registry : Registry) :
    (new image config registry).Settled registry where
  registry := rfl
  builtins := rfl
  hot := rfl
  legacy := rfl
  limit := rfl
  capacity := rfl
  cache := FieldCache.fits_empty _
  root := rfl

theorem Settled.serviced (h : m.Settled registry) (s : m.Serviced m') : m'.Settled registry where
  registry := s.registry.trans h.registry
  builtins := by rw [s.builtins, s.registry, s.program, s.config, h.builtins]
  hot := by rw [s.hot, s.program, h.hot]
  legacy := by rw [s.legacy, s.config, s.program, h.legacy]
  limit := by rw [s.calls, s.config, h.limit]
  capacity := by rw [s.locals, s.config, h.capacity]
  cache := s.fits h.cache
  root := by rw [s.calls, s.current, h.root]

theorem Settled.rebuilt (h : m.Settled registry) (r : m.Rebuilt m') : m'.Settled registry := by
  obtain ⟨-, _, _, image, -, rfl⟩ := r
  have fresh := settled_new image m.config m.registry
  rw [h.registry] at fresh ⊢
  exact { fresh with limit := h.limit, capacity := h.capacity }

theorem Settled.started (h : m.Settled registry) : m.started.Settled registry := { h with }

theorem Settled.unwound (h : m.Settled registry) : (m.unwound m.host).Settled registry := { h with root := rfl }

theorem Settled.tell (h : m.Settled registry) (e : Event) : (m.tell e).Settled registry := { h with }

/-- Entering a function and leaving it keeps who came first. -/
theorem lasting_settled (registry : Registry) : Lasting (Settled registry) where
  data h := { h with }
  texts _ h := { h with }
  store _ h := { h with }
  tell _ h := { h with }
  push h := { h with root := by rw [CallStack.chain_add, List.head?_append, h.root, Option.some_or] }
  enter f deep h := { h with root := (CallStack.head?_chain deep f _).trans h.root }
  pop last h := { h with root := (CallStack.head?_chain_dropLast last _).trans h.root }

end Machine

/-! ## 2. Builtins of the host that look at no residue. -/

/-- Two machines that can be reached. -/
def Comparison.settled (registry : Registry) (traced : Prop) : Comparison :=
  { inv := Machine.Settled registry, traced }

/-- **What a builtin of the host meets**: two machines in the middle of a run that differ in their residue. -/
def Comparison.met (registry : Registry) (traced : Prop) : Comparison :=
  (settled registry traced).within fun _ => True

/-- The call stack is as it was, or empty. -/
def Machine.Restacked (m m' : Machine) : Prop := m'.calls = m.calls ∨ m'.calls.frames = #[]

theorem Machine.Restacked.trans {m m₁ m' : Machine} (h : m.Restacked m₁) (h' : m₁.Restacked m') :
    m.Restacked m' := by
  rcases h' with same | empty
  · rw [Restacked, same]
    exact h
  · exact .inr empty

namespace Engine

variable {α β : Type} {registry : Registry}

/-- Both machines are alike again, and neither stack holds what it did not hold before. -/
structure BothServed (registry : Registry) (traced : Prop) (m₁ m₂ n₁ n₂ : Machine) : Prop where
  alike : (Comparison.met registry traced).Alike n₁ n₂
  left : m₁.Restacked n₁
  right : m₂.Restacked n₂

/-- **An action of the host that looks at no residue**: it gives the same result, or fails with the same
    error, on machines that differ in nothing else. -/
def Impartial (registry : Registry) (act : Engine α) : Prop :=
  ∀ traced m₁ m₂, (Comparison.met registry traced).Alike m₁ m₂ →
    Paired act act m₁ m₂ (fun a₁ a₂ n₁ n₂ => a₁ = a₂ ∧ BothServed registry traced m₁ m₂ n₁ n₂)
      fun _ n₁ n₂ => BothServed registry traced m₁ m₂ n₁ n₂

theorem Impartial.of_blind {act : Engine α} (blind : ∀ v : Comparison, Durable v.inv → Blind v act)
    (serving : Serving act) : Impartial registry act := by
  intro traced m₁ m₂ h
  cases blind _ (Machine.lasting_settled registry).toDurable m₁ m₂ h with
  | ok h₁ h₂ alike =>
    exact .ok h₁ h₂ ⟨alike.1, alike.2, .inl ((serving m₁).ok h₁).calls, .inl ((serving m₂).ok h₂).calls⟩
  | error h₁ h₂ alike =>
    exact .error h₁ h₂ ⟨alike.2, .inl ((serving m₁).error h₁).calls, .inl ((serving m₂).error h₂).calls⟩

theorem Impartial.bind {x : Engine β} {f : β → Engine α} (hx : Impartial registry x)
    (hf : ∀ b, Impartial registry (f b)) : Impartial registry (x >>= f) := by
  intro traced m₁ m₂ h
  refine paired_bind ((hx traced m₁ m₂ h).mono ?_ fun _ _ _ he => he)
  rintro b _ n₁ n₂ ⟨rfl, served⟩
  refine (hf b traced n₁ n₂ served.alike).mono ?_ ?_
  · rintro _ _ k₁ k₂ ⟨same, served'⟩
    exact ⟨same, served'.alike, served.left.trans served'.left, served.right.trans served'.right⟩
  · rintro _ k₁ k₂ served'
    exact ⟨served'.alike, served.left.trans served'.left, served.right.trans served'.right⟩

/-- **Names are found where the program has them**, whatever the caches hold. -/
theorem fieldOffset?_impartial (name : String) : Impartial registry (fieldOffset? name) := by
  intro traced m₁ m₂ h
  refine .ok rfl rfl ⟨?_, ?_, .inl rfl, .inl rfl⟩
  · show (m₁.fieldCache.lookup m₁.program name).1 = (m₂.fieldCache.lookup m₂.program name).1
    rw [h.left.cache.lookup_fst, h.right.cache.lookup_fst, h.program]
  · exact { h with
      same := False.elim
      left := h.left.serviced (fieldOffset?_serving name m₁)
      right := h.right.serviced (fieldOffset?_serving name m₂) }

end Engine

namespace Routine

/-- **A builtin of the host that looks at no residue**; what it does with the outcome of an execution is
    its own affair. -/
def Impartial (registry : Registry) : Routine → Prop
  | .finish act => Engine.Impartial registry act
  | .exec target next => Engine.Impartial registry target ∧ ∀ outcome, (next outcome).Impartial registry
  | .look next => (∀ m, (next m).Impartial registry) ∧
      ∀ traced m₁ m₂, (Comparison.met registry traced).Alike m₁ m₂ → next m₁ = next m₂

end Routine

/-- A builtin of the engine, or one of the host that looks at no residue. -/
def Builtin.Impartial (registry : Registry) (routines : Nat → Routine) (b : Builtin) : Prop :=
  ∀ key, b.code = .hosted key → (routines key).Impartial registry

/-! ## 3. Executions within a run. -/

namespace Engine

variable {v : Comparison} {m₁ m₂ : Machine}

/-- The call chain that a report shows. -/
theorem stackFrames_eq (h : v.Alike m₁ m₂) : m₁.stackFrames = m₂.stackFrames := by
  have levels := h.calls.levels
  unfold Machine.stackFrames
  dsimp only
  rw [List.filter_cons, List.filter_cons, levels, ← h.current]
  by_cases running : m₁.current = 0
  · simp [running]
  · rw [h.statement (.inr running)]

/-- An entity that a report shows. -/
theorem capture_eq (h : v.Alike m₁ m₂) (view : View) (config : DiagnosticsConfig) (statement : Option Nat)
    (frames : List StackFrame) (edict : Option EdictId) :
    view.capture config statement frames m₁.edicts edict =
      view.capture config statement frames m₂.edicts edict := by
  simp only [View.capture, h.edicts.get?]

/-- **A report shows the same of both machines.** -/
theorem report_paired (told : ∀ (m : Machine) (e : Event), v.inv m → v.inv (m.tell e)) (h : v.Alike m₁ m₂)
    (e : Error) {E : Error → Machine → Machine → Prop} :
    Paired (report e) (report e) m₁ m₂ (fun e₁ e₂ n₁ n₂ => e₁ = e₂ ∧ v.Alike n₁ n₂) E := by
  unfold report
  split
  · exact paired_pure ⟨rfl, h⟩
  · refine paired_bind (paired_get ?_)
    have statement : (if m₁.current = 0 then none else some m₁.statement) =
        if m₂.current = 0 then none else some m₂.statement := by
      rw [← h.current]
      split
      · rfl
      · next running => rw [h.statement (.inr running)]
    dsimp only
    rw [statement, h.config, h.view, h.selfEdict, stackFrames_eq h, capture_eq h]
    exact paired_bind (paired_modify (paired_pure ⟨rfl, h.tell (told _ _ h.left) (told _ _ h.right)⟩))

/-- **Both are aborted**, with the same error. -/
theorem abort_paired (told : ∀ (m : Machine) (e : Event), v.inv m → v.inv (m.tell e)) (h : v.Alike m₁ m₂)
    (e : Error) {Q : Unit → Unit → Machine → Machine → Prop} {E : Error → Machine → Machine → Prop}
    (hE : ∀ e n₁ n₂, v.Alike n₁ n₂ → E e (n₁.unwound n₁.host) (n₂.unwound n₂.host)) :
    Paired (report e >>= fun e => unwind >>= fun _ => throw e) (report e >>= fun e => unwind >>= fun _ => throw e)
      m₁ m₂ Q E := by
  refine paired_bind ((report_paired told h e).mono ?_ fun _ _ _ he => he)
  rintro e' _ n₁ n₂ ⟨rfl, h'⟩
  exact paired_bind (paired_modify (paired_throw (hE e' n₁ n₂ h')))

end Engine

namespace Comparison

variable {registry : Registry} {traced : Prop} {stale : Nat → Prop} {m₁ m₂ n₁ n₂ : Machine}

theorem Alike.met (h : ((settled registry traced).within stale).Alike m₁ m₂) : (met registry traced).Alike m₁ m₂ :=
  { h with calls := h.calls.mono fun _ => trivial }

/-- What is left of the two when both are aborted. -/
theorem Alike.unwound {v : Comparison} (kept : ∀ m : Machine, v.inv m → v.inv (m.unwound m.host))
    (same : ¬ v.same) (h : v.Alike m₁ m₂) (stale : Nat → Prop) :
    { v with stale }.Alike (m₁.unwound m₁.host) (m₂.unwound m₂.host) :=
  { h with
    locals := by rw [Machine.unwound, Machine.unwound, h.locals]
    state := rfl
    current := rfl
    calls := .inl rfl
    statement := fun hp => h.statement (.inl (hp.resolve_right fun running => running rfl))
    same := fun s => absurd s same
    left := kept m₁ h.left
    right := kept m₂ h.right }

/-- What a builtin of the host gives back. -/
theorem Alike.served (h : ((settled registry traced).within stale).Alike m₁ m₂)
    (s : BothServed registry traced m₁ m₂ n₁ n₂) : ((settled registry traced).within stale).Alike n₁ n₂ := by
  refine { s.alike with calls := ?_ }
  rcases s.left with same₁ | empty₁
  · rcases s.right with same₂ | empty₂
    · rw [same₁, same₂]
      exact h.calls
    · exact .inl (s.alike.calls.eq_of_empty (.inr empty₂))
  · exact .inl (s.alike.calls.eq_of_empty (.inl empty₁))

end Comparison

namespace Engine

variable {registry : Registry} {traced : Prop} {stale : Nat → Prop} {m₁ m₂ : Machine}

/-- An action within a run that keeps two machines alike, whether it succeeds or fails. -/
def Parallel (registry : Registry) (traced : Prop) (stale : Nat → Prop) (act : Engine Unit) : Prop :=
  ∀ m₁ m₂, ((Comparison.settled registry traced).within stale).Alike m₁ m₂ →
    Paired act act m₁ m₂ (fun _ _ => ((Comparison.settled registry traced).within stale).Alike)
      fun _ => ((Comparison.settled registry traced).within stale).Alike

/-- Builtins that end the same way on both machines, whatever return points differ. -/
def ServedAlike (registry : Registry) (traced : Prop) (dispatch : Native → Engine Unit) : Prop :=
  ∀ stale : Nat → Prop, ¬ stale 0 → Served ((Comparison.settled registry traced).within stale) dispatch
    fun _ => (Comparison.met registry traced).Alike

/-- **An execution within a run, on both machines.** A failure empties both stacks, and with them the return
    point that differs. -/
theorem execute_paired {dispatch : Native → Engine Unit} (served : ServedAlike registry traced dispatch)
    (outer : ¬ stale 0) (f : FuncRef) : Parallel registry traced stale (execute dispatch f) := by
  intro m₁ m₂ h
  refine paired_bind (paired_get ?_)
  rw [h.state]
  refine paired_bind (paired_modify (paired_bind (paired_attempt ?_)))
  have started : ((Comparison.settled registry traced).within stale).Alike m₁.started m₂.started :=
    { h with
      state := rfl
      same := False.elim
      left := { h.left with }
      right := { h.right with } }
  refine (run_paired (Machine.lasting_settled registry) outer started (fun _ _ _ _ h => h) served f).mono ?_ ?_
  · intro _ _ n₁ n₂ h'
    exact paired_modify { h' with
      state := rfl
      same := False.elim
      left := { h'.left with }
      right := { h'.right with } }
  · intro e n₁ n₂ h'
    exact abort_paired (fun _ event h => Machine.Settled.tell h event) h' e fun _ _ _ h =>
      h.unwound (fun _ settled => Machine.Settled.unwound settled) id stale

/-- **A builtin of the host on both machines.** -/
theorem routine_paired {exec : FuncRef → Engine Unit} (hexec : ∀ g, Parallel registry traced stale (exec g))
    (r : Routine) (hr : r.Impartial registry) : Parallel registry traced stale (r.run exec) := by
  induction r with
  | finish act =>
    intro m₁ m₂ h
    exact (hr traced m₁ m₂ h.met).mono (fun _ _ _ _ s => h.served s.2) fun _ _ _ s => h.served s
  | exec target next ih =>
    intro m₁ m₂ h
    refine paired_bind ((hr.1 traced m₁ m₂ h.met).mono ?_ fun _ _ _ s => h.served s)
    rintro g _ k₁ k₂ ⟨rfl, s⟩
    refine paired_bind (paired_attempt ((hexec g k₁ k₂ (h.served s)).mono ?_ ?_))
    · intro _ _ n₁ n₂ h
      exact ih _ (hr.2 _) n₁ n₂ h
    · intro e n₁ n₂ h
      exact ih _ (hr.2 _) n₁ n₂ h
  | look next ih =>
    intro m₁ m₂ h
    have same := hr.2 traced m₁ m₂ h.met
    cases ih m₁ (hr.1 m₁) m₁ m₂ h with
    | ok ran₁ ran₂ h' =>
      rw [same] at ran₂
      exact .ok ran₁ ran₂ h'
    | error ran₁ ran₂ h' =>
      rw [same] at ran₂
      exact .error ran₁ ran₂ h'

variable {routines : Nat → Routine} (impartial : registry.All (Builtin.Impartial registry routines))
include impartial

/-- **Every builtin on both machines**, executions being nested to any depth. -/
theorem link_servedAlike (traced : Prop) (nesting : Nat) :
    ServedAlike registry traced (Dispatch.link routines nesting) := by
  have hosted : ∀ {b : Builtin} {m : Machine}, m.Settled registry → some b ∈ m.builtins.slots →
      b.Impartial registry routines := by
    intro b m h mem
    rw [h.builtins, h.registry] at mem
    exact BuiltinTable.all_build impartial _ _ _ b mem
  have core : ∀ (stale : Nat → Prop) (c : CoreBuiltin) {m₁ m₂ : Machine},
      ((Comparison.settled registry traced).within stale).Alike m₁ m₂ →
      Paired (Engine.core c) (Engine.core c) m₁ m₂
        (fun _ _ => ((Comparison.settled registry traced).within stale).Alike)
        fun _ => (Comparison.met registry traced).Alike := by
    intro stale c m₁ m₂ h
    have blind := core_blind (v := (Comparison.settled registry traced).within stale)
      (Machine.lasting_settled registry).toDurable trivial c (.inl trivial)
    exact (blind m₁ m₂ h).mono (fun _ _ _ _ h => h.2) fun _ _ _ he => he.2.met
  induction nesting with
  | zero =>
    intro stale _ b m₁ m₂ mem h
    cases hc : b.code with
    | core c => exact core stale c h
    | hosted key => exact paired_throw h.met
  | succ nesting ih =>
    intro stale outer b m₁ m₂ mem h
    have impartial := hosted h.left mem
    unfold Builtin.Impartial at impartial
    cases hc : b.code with
    | core c => exact core stale c h
    | hosted key =>
      have paired := routine_paired (execute_paired ih outer) _ (impartial key hc) m₁ m₂ h
      exact paired.mono (fun _ _ _ _ h => h) fun _ _ _ h => h.met

end Engine

/-! ## 4. Every machine that can be reached is settled. -/

section Reached

variable {routines : Nat → Routine} {registry : Registry} {m : Machine}

theorem Comparison.settled_alike (h : m.Settled registry) (stale : Nat → Prop) :
    ((settled registry True).within stale).Alike m m :=
  { within_alike h stale with same := False.elim }

variable (impartial : registry.All (Builtin.Impartial registry routines))
include impartial

/-- A turn of the loop, compared with itself. -/
theorem Machine.Settled.cycle (h : m.Settled registry) (nesting pc : Nat) :
    Ends (Engine.cycle (Dispatch.link routines nesting) pc) m (fun _ m' => m'.Settled registry)
      fun _ m' => m'.Settled registry := by
  have served := link_servedAlike impartial True nesting (fun _ => False) id
  have alike := Comparison.settled_alike h fun _ => False
  refine (cycle_paired (Machine.lasting_settled registry) (fun _ _ _ _ h => h.met) trivial (fun _ => id)
    served alike pc).ends ?_ fun _ _ h => h.left
  intro flow m' turns
  cases turns with
  | next h => exact h.left
  | jump h => exact { (h 0).left with }
  | returned returns =>
    rcases returns with ⟨-, h⟩ | ⟨-, -, h⟩
    · exact h.left
    · exact h.left

theorem Visits.settled {nesting : Nat} {f : FuncRef} {m₀ : Machine} {opened : List Opened} (h₀ : m₀.Settled registry)
    (h : Visits (Dispatch.link routines nesting) f m₀ opened m) : m.Settled registry := by
  induction h with
  | @entered entry m hentry =>
    have alike := Comparison.settled_alike h₀ fun _ => False
    have paired := enter_paired (Machine.lasting_settled registry) alike (alike.pushed trivial) f
    have ends : Ends (enter f) m₀ (fun entry m => (m.moveTo entry).Settled registry) fun _ _ => True :=
      paired.ends (fun entry _ h => (h.2.2 entry).left) fun _ _ _ => trivial
    exact ends.ok hentry
  | next _ hc ih => exact { (ih.cycle impartial nesting _).ok hc with }
  | jumped _ hc _ ih => exact { (ih.cycle impartial nesting _).ok hc with }
  | called _ hc _ ih => exact { (ih.cycle impartial nesting _).ok hc with }
  | returned _ hc _ ih => exact { (ih.cycle impartial nesting _).ok hc with }

/-- **Every machine that can be reached is settled.** -/
theorem Reachable.settled (h : Reachable routines registry m) : m.Settled registry := by
  induction h with
  | fresh config _ => exact Machine.settled_new _ config registry
  | command c _ after ih =>
    refine Ends.after (P := Machine.Settled registry) ((c.perform_serves _).mono ?_ ?_) after
    · rintro _ m' (serviced | rebuilt)
      · exact ih.serviced serviced
      · exact ih.rebuilt rebuilt
    · intro _ m' serviced
      exact ih.serviced serviced
  | executed nesting f _ after ih =>
    have paired := execute_paired (link_servedAlike impartial True nesting) id f _ _
      (Comparison.settled_alike ih fun _ => False)
    exact Ends.after (P := Machine.Settled registry) (paired.ends (fun _ _ h => h.left) fun _ _ h => h.left) after
  | begun _ ih => exact { ih with }
  | within nesting _ visits ih => exact visits.settled impartial ih.started
  | underway _ _ _ _ _ ih => exact { ih with }

end Reached

/-! ## 5. An execution from outside. -/

namespace Machine

/-- A machine at rest, with both stacks empty. -/
structure Vacant (m : Machine) : Prop where
  state : m.state ≠ .running
  frames : m.calls.frames = #[]
  words : m.locals.words = #[]

/-- **The same for a program**: image, configuration, builtins, data, phase, random numbers, and a host that
    gives the same answers. Nothing is said of the state, the last statement, the last count of arguments,
    the counters, the cached names and the trace. -/
structure SameOutlook (m₁ m₂ : Machine) : Prop where
  config : m₁.config = m₂.config
  program : m₁.program = m₂.program
  builtins : m₁.builtins = m₂.builtins
  globals : m₁.globals = m₂.globals
  edicts : m₁.edicts = m₂.edicts
  strings : m₁.strings = m₂.strings
  random : m₁.random = m₂.random
  phase : m₁.phase = m₂.phase
  host : m₁.host.Alike (m₁.tracing = m₂.tracing) m₂.host

/-- The same globals, entities, strings and random numbers, and the same state. -/
structure SameData (m₁ m₂ : Machine) : Prop where
  state : m₁.state = m₂.state
  globals : m₁.globals = m₂.globals
  edicts : m₁.edicts = m₂.edicts
  strings : m₁.strings = m₂.strings
  random : m₁.random = m₂.random

end Machine

/-- Machines that differ in their residue: neither statement nor count of arguments need be the same. -/
def Comparison.residual (registry : Registry) (traced : Prop) : Comparison :=
  { settled registry traced with counted := False, placed := False }

namespace Comparison

variable {registry : Registry} {traced : Prop} {m₁ m₂ : Machine}

theorem Alike.sameData {v : Comparison} (h : v.Alike m₁ m₂) (drawn : v.drawn := by exact trivial)
    (gathered : ¬ v.scattered := by exact id) : m₁.SameData m₂ :=
  { h with
    edicts := h.edicts.eq gathered
    random := h.random drawn }

/-- A vacant machine runs no function. -/
theorem current_of_vacant {m : Machine} (h : m.Settled registry) (vacant : m.Vacant) : m.current = 0 := by
  have root := h.root
  rw [CallStack.chain, vacant.frames] at root
  exact Option.some.inj root

/-- **Two vacant machines as an execution begins.** What is derived from the image and the configuration is
    the same; the rest is what the comparison asks for. -/
theorem vacant_alike {v : Comparison} (s₁ : m₁.Settled registry) (s₂ : m₂.Settled registry)
    (vacant₁ : m₁.Vacant) (vacant₂ : m₂.Vacant) (config : m₁.config = m₂.config)
    (program : m₁.program = m₂.program) (phase : m₁.phase = m₂.phase) (strings : m₁.strings = m₂.strings)
    (globals : m₁.globals = m₂.globals) (edicts : m₁.edicts.Alike v.scattered m₂.edicts)
    (random : v.drawn → m₁.random = m₂.random) (argc : v.counted → m₁.argc = m₂.argc)
    (tracing : v.traced → m₁.tracing = m₂.tracing) (host : m₁.host.Alike v.traced m₂.host)
    (placed : ¬ v.placed) (same : ¬ v.same) (left : v.inv m₁.started) (right : v.inv m₂.started) :
    v.Alike m₁.started m₂.started where
  config := config
  program := program
  registry := s₁.registry.trans s₂.registry.symm
  builtins := by
    show m₁.builtins = m₂.builtins
    rw [s₁.builtins, s₂.builtins, s₁.registry, s₂.registry, program, config]
  hot := by
    show m₁.hot = m₂.hot
    rw [s₁.hot, s₂.hot, program]
  phase := phase
  legacy := by
    show m₁.legacy = m₂.legacy
    rw [s₁.legacy, s₂.legacy, config, program]
  strings := strings
  globals := globals
  edicts := edicts
  random := random
  locals := by
    show (⟨m₁.locals.words, m₁.locals.capacity⟩ : LocalStack) = ⟨m₂.locals.words, m₂.locals.capacity⟩
    rw [vacant₁.words, vacant₂.words, s₁.capacity, s₂.capacity, config]
  state := rfl
  current := (current_of_vacant s₁ vacant₁).trans (current_of_vacant s₂ vacant₂).symm
  limit := by
    show m₁.calls.limit = m₂.calls.limit
    rw [s₁.limit, s₂.limit, config]
  calls := .inl (vacant₁.frames.trans vacant₂.frames.symm)
  statement hs := absurd (current_of_vacant s₁ vacant₁) (hs.resolve_left placed)
  argc := argc
  tracing := tracing
  host := host
  same := fun one => absurd one same
  left := left
  right := right

/-- **Two vacant machines with the same outlook**, as an execution begins. -/
theorem residual_alike (s₁ : m₁.Settled registry) (s₂ : m₂.Settled registry) (vacant₁ : m₁.Vacant)
    (vacant₂ : m₂.Vacant) (same : m₁.SameOutlook m₂) :
    (residual registry (m₁.tracing = m₂.tracing)).Alike m₁.started m₂.started :=
  vacant_alike s₁ s₂ vacant₁ vacant₂ same.config same.program same.phase same.strings same.globals
    (.inl same.edicts) (fun _ => same.random) False.elim id same.host id id s₁.started s₂.started

end Comparison

namespace Engine

variable {routines : Nat → Routine} {registry : Registry} {traced : Prop} {f : FuncRef} {m₁ m₂ : Machine}

/-- **A run from outside, on both machines.** Its first return point is the residue of each. -/
theorem run_outermost_paired (impartial : registry.All (Builtin.Impartial registry routines))
    (h : (Comparison.residual registry traced).Alike m₁ m₂) (empty₁ : m₁.calls.frames = #[])
    (empty₂ : m₂.calls.frames = #[]) (resting : m₁.current = 0) (code : m₁.HasCode f) (nesting : Nat) :
    Paired (run (Dispatch.link routines nesting) f) (run (Dispatch.link routines nesting) f) m₁ m₂
      (fun _ _ => ((Comparison.residual registry traced).past True m₁.calls.depth).Alike)
      fun _ => (Comparison.residual registry traced).loose.Alike := by
  have served : Served ((Comparison.residual registry traced).inside True m₁.calls.depth).counting
      (Dispatch.link routines nesting) fun _ => (Comparison.residual registry traced).loose.Alike := by
    intro b k₁ k₂ mem alike
    have paired := link_servedAlike impartial traced nesting (fun d => True ∧ m₁.calls.depth < d)
      (fun deeper => absurd deeper.2 (Nat.not_lt_zero _)) b k₁ k₂ mem alike
    refine paired.mono (fun _ _ _ _ h => h) fun _ _ _ h => ?_
    exact { h with
      statement := fun _ => h.statement (.inl trivial)
      argc := False.elim }
  refine run_outside_paired (Machine.lasting_settled registry) h empty₁ empty₂ resting (fun _ _ _ _ h => h) served ?_
  intro func found
  obtain ⟨func', found', bytecode⟩ := code
  cases found.symm.trans found'
  cases number : func.builtinNumber? with
  | none => rfl
  | some _ => exact absurd bytecode (not_isSome_codeStart? number)

/-- **Nothing is left over.** Two machines that can be reached, at rest and with empty stacks, may differ in
    their state, their last statement and count of arguments, their counters, their cached names and their
    trace. If all else is the same, and the builtins of the host look at no residue, executing bytecode
    gives the same outcome on both: it succeeds, or fails with the same error and the same context. The
    globals, the entities, the strings and the random numbers are the same afterwards. -/
theorem execute_without_residue (impartial : registry.All (Builtin.Impartial registry routines))
    (h₁ : Reachable routines registry m₁) (h₂ : Reachable routines registry m₂) (vacant₁ : m₁.Vacant)
    (vacant₂ : m₂.Vacant) (same : m₁.SameOutlook m₂) (code : m₁.HasCode f) (nesting : Nat) :
    Paired (execute (Dispatch.link routines nesting) f) (execute (Dispatch.link routines nesting) f) m₁ m₂
      (fun _ _ => Machine.SameData) fun _ => Machine.SameData := by
  have s₁ := h₁.settled impartial
  have s₂ := h₂.settled impartial
  have alike := Comparison.residual_alike s₁ s₂ vacant₁ vacant₂ same
  have resting := Comparison.current_of_vacant s₁ vacant₁
  refine paired_bind (paired_get (paired_bind (paired_modify (paired_bind (paired_attempt ?_)))))
  refine (run_outermost_paired impartial alike vacant₁.frames vacant₂.frames resting code nesting).mono ?_ ?_
  · intro _ _ n₁ n₂ h
    exact paired_modify { h.sameData with state := (if_neg vacant₁.state).trans (if_neg vacant₂.state).symm }
  · intro e n₁ n₂ h
    exact abort_paired (fun _ event h => Machine.Settled.tell h event) h e
      fun _ _ _ h => { h.sameData with state := rfl }

theorem after_of_ends {act : Engine Unit} {m m' : Machine}
    (h : Ends act m (fun _ n => n = m') fun _ n => n = m') : After act m m' := by
  cases hn : act m with
  | ok a n =>
    cases h.ok hn
    exact .inl ⟨a, hn⟩
  | error e n =>
    cases h.error hn
    exact .inr ⟨e, hn⟩

/-- Executing a builtin that leaves the machine alone counts the call, and does nothing else. -/
theorem after_counted {dispatch : Native → Engine Unit} {func : Function} {number : Nat} {b : Builtin} {m : Machine}
    (idle : m.state = .idle) (there : f ≠ 0) (found : m.program.function? f = some func)
    (numbered : func.builtinNumber? = some number) (slot : m.builtins.lookup number = .ok (some b))
    (alone : dispatch b.code { m.started with profile := m.profile.call f } =
      .ok () { m.started with profile := m.profile.call f }) :
    After (execute dispatch f) m { m with profile := m.profile.call f } := by
  have ran : run dispatch f m.started = .ok () { m.started with profile := m.profile.call f } := by
    have found' : m.started.program.function? f = some func := found
    have slot' : (reads fun m => m.builtins.lookup number) { m.started with profile := m.profile.call f } =
        .ok (some b) { m.started with profile := m.profile.call f } := by
      simp only [reads, Machine.started, slot]
    rw [run, bind_of_ok (function_of_found there found'), numbered]
    exact (modify_bind _ _).trans ((bind_of_ok slot').trans alone)
  refine after_of_ends ((execute_outcome dispatch f m).mono ?_ ?_)
  · rintro _ _ ⟨m₁, done, rfl⟩
    cases ran.symm.trans done
    rw [if_neg (by simp [idle]), ← idle]
    rfl
  · rintro _ _ ⟨e₁, m₁, m₂, broke, -⟩
    cases ran.symm.trans broke

/-- A program for one builtin of the host. Function 1 calls it, as function 2, and returns. -/
def polling : ImageBuilder :=
  { statements := #[{}, { op := 51, a := 92 }, { op := 43 }]
    functions := #[{}, { firstStatement := 1, parmStart := 92 }, { firstStatement := -1 }]
    globals := Array.replicate 92 0 ++ #[2] }

/-- The builtin looks at the counters, and fails if function 2 has been called more than once. -/
def counting : Nat → Routine := fun _ => .look fun m =>
  if (m.profile.entries m.program).any fun e => e.function = 2 ∧ 1 < e.calls then
    .finish (fail (.internal "called before"))
  else .finish (pure ())

theorem run_counting (exec : FuncRef → Engine Unit) (key : Nat) {m : Machine}
    (once : ((m.profile.entries m.program).any fun e => e.function = 2 ∧ 1 < e.calls) = false) :
    (counting key).run exec m = .ok () m := by
  rw [counting, Routine.run, get_bind, if_neg (ne_true_of_eq_false once)]
  rfl

/-- **A builtin that looks at residue carries it on.** Two machines differ in nothing but the count of the calls
    of function 2, which the host has executed on one of them. Executing function 1 succeeds on the other, and
    fails on this one. -/
theorem execute_with_residue : ∃ m₁ m₂ : Machine, Reachable counting hosting m₁ ∧ Reachable counting hosting m₂ ∧
    m₁.Vacant ∧ m₂.Vacant ∧ m₁.SameOutlook m₂ ∧ m₁.HasCode 1 ∧
    (∃ m', execute (Dispatch.link counting 1) 1 m₁ = .ok () m') ∧
    ∃ e m', execute (Dispatch.link counting 1) 1 m₂ = .error e m' := by
  have loads : Machine.Loads polling.build .small { numbering := .own } hosting fun m =>
      ((m.program.function? 1).any fun func => func.codeStart?.isSome) = true ∧
      ((m.program.function? 2).bind Function.builtinNumber?) = some 1 ∧
      m.builtins.lookup 1 = .ok (some { name := "exec", number := 1, code := .hosted 0 }) ∧
      (((m.profile.call 2).entries m.program).any fun e => e.function = 2 ∧ 1 < e.calls) = false ∧
      Ends (execute (Dispatch.link counting 1) 1) m (fun _ _ => True) (fun _ _ => False) ∧
      Ends (execute (Dispatch.link counting 1) 1) { m with profile := m.profile.call 2 } (fun _ _ => False)
        fun _ _ => True := by
    decide +kernel
  obtain ⟨image, loaded, unnamed, holds⟩ := loads
  rw [Machine.new_of_unnamed unnamed] at holds
  obtain ⟨code, builtin, slot, once, succeeds, fails⟩ := holds
  obtain ⟨func, found, numbered⟩ := Option.bind_eq_some_iff.mp builtin
  let m₁ := Machine.new image { numbering := .own } hosting
  let m₂ : Machine := { m₁ with profile := m₁.profile.call 2 }
  have alone : Dispatch.link counting 1 (.hosted 0) { m₁.started with profile := m₁.profile.call 2 } =
      .ok () { m₁.started with profile := m₁.profile.call 2 } := run_counting _ 0 once
  have fresh : Reachable counting hosting m₁ := .fresh _ loaded
  have used : Reachable counting hosting m₂ :=
    .executed 1 2 fresh (after_counted rfl (by decide) found numbered slot alone)
  have vacant₁ : m₁.Vacant := ⟨nofun, rfl, rfl⟩
  have vacant₂ : m₂.Vacant := ⟨nofun, rfl, rfl⟩
  have same : m₁.SameOutlook m₂ := ⟨rfl, rfl, rfl, rfl, rfl, rfl, rfl, rfl, fun _ _ _ _ => rfl⟩
  obtain ⟨_, m', done, -⟩ := succeeds.exists_ok
  obtain ⟨e, m'', failed, -⟩ := fails.exists_error
  exact ⟨m₁, m₂, fresh, used, vacant₁, vacant₂, same, (Option.any_eq_true _ _).mp code, ⟨m', done⟩, e, m'',
    failed⟩

/-- The builtin looks for a field by its name and returns where it lies. -/
def finding : Nat → Routine := fun _ => .finish do
  returnFloat (.ofNat ((← fieldOffset? "health").getD 0))

theorem impartial_finding : hosting.All (Builtin.Impartial hosting finding) := by
  intro b _ key _
  refine (fieldOffset?_impartial "health").bind fun ofs => ?_
  exact .of_blind (fun _ durable => returnFloat_blind durable _) (write_serving _ _)

/-- Asking for a field leaves its name in the cache. -/
theorem after_field (id : EdictId) (name : String) (type : ValueType) (m : Machine) :
    After (Command.field id name type).perform m
      { m with fieldCache := (m.fieldCache.lookup m.program name).2 } := by
  refine after_of_ends (ends_bind (ends_bind (ends_iff.mpr ⟨fun ofs m₁ found => ?_, fun _ _ failed => ?_⟩)))
  · cases found
    split
    · exact ends_pure (ends_pure rfl)
    · exact ends_bind (ends_reads (fun _ _ => ends_pure (ends_pure rfl)) fun _ _ => rfl)
  · cases failed

/-- The builtins of the engine look at no residue, and neither does that of `hosting`. A fresh machine is
    compared with one that was aborted, asked for a field and left in the middle of something. -/
theorem execute_without_residue_leftover : Registry.core.All (Builtin.Impartial Registry.core finding) ∧
    hosting.All (Builtin.Impartial hosting finding) ∧ ∃ m₁ m₂ : Machine, Reachable finding hosting m₁ ∧
    Reachable finding hosting m₂ ∧ m₁.Vacant ∧ m₂.Vacant ∧ m₁.SameOutlook m₂ ∧ m₁.HasCode 1 ∧
    m₁.state ≠ m₂.state ∧ m₁.statement ≠ m₂.statement ∧ m₁.argc ≠ m₂.argc ∧
    m₁.fieldCache ≠ m₂.fieldCache ∧
    Paired (execute (Dispatch.link finding 1) 1) (execute (Dispatch.link finding 1) 1) m₁ m₂
      (fun _ _ => Machine.SameData) fun _ => Machine.SameData := by
  have loads : Machine.Loads (reentering 0).build .small { numbering := .own } hosting fun m =>
      ((m.program.function? 1).any fun func => func.codeStart?.isSome) = true := by
    decide +kernel
  obtain ⟨image, loaded, unnamed, code⟩ := loads
  let m₁ := Machine.new image { numbering := .own } hosting
  let m₂ : Machine := { m₁ with
    state := .aborted, statement := 7, argc := 3, profile := {},
    fieldCache := (m₁.fieldCache.lookup m₁.program "health").2 }
  have fresh : Reachable finding hosting m₁ := .fresh _ loaded
  have used : Reachable finding hosting m₂ :=
    .underway 7 3 {} m₁.host (.command _ (.executed 0 0 fresh (.inr ⟨_, rfl⟩)) (after_field 0 "health" .float _))
  have vacant₁ : m₁.Vacant := ⟨nofun, rfl, rfl⟩
  have vacant₂ : m₂.Vacant := ⟨nofun, rfl, rfl⟩
  have same : m₁.SameOutlook m₂ := ⟨rfl, rfl, rfl, rfl, rfl, rfl, rfl, rfl, fun _ _ _ _ => rfl⟩
  have code : m₁.HasCode 1 := (Option.any_eq_true _ _).mp code
  exact ⟨Registry.onlyCore_core.hosted _, impartial_finding, m₁, m₂, fresh, used, vacant₁, vacant₂, same, code,
    nofun, nofun, nofun, nofun,
    execute_without_residue impartial_finding fresh used vacant₁ vacant₂ same code 1⟩

end Engine

end QuakeProgs
