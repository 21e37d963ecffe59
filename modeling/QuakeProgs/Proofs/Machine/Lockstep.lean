/-
  File:      QuakeProgs/Proofs/Machine/Lockstep.lean
  Subject:   TWO RUNS IN STEP: calls, returns, and the loop.

  A run that comes from outside saves, as its first return point, a statement that is nobody's. It may be a
  leftover of an earlier run. The proof lets the outermost return point differ as long as the run it waits
  for is open, and shows that it is taken off only by the return that ends this run.

  * `Engine.enter_paired`, `Engine.leave_paired` -- a call and a return on both machines;
  * `Turns` -- how a turn of the loop ends on both;
  * `Comparison.inside`, `Comparison.past` -- the machines of a run, and those it leaves;
  * `Engine.loop_paired` -- the loop, by induction on what is left of the budget;
  * `Engine.run_paired` -- a run of any function, and `Engine.run_outside_paired`, of bytecode from outside.
-/
import QuakeProgs.Proofs.Machine.Blindness
import QuakeProgs.Proofs.Machine.Run

namespace QuakeProgs

/-! ## 1. Return points. -/

namespace CallStack

variable {p : Prop} {s₁ s₂ : CallStack}

theorem depth_eq_length (s : CallStack) : s.depth = s.frames.toList.length := rfl

theorem Alike.depth (h : s₁.Alike p s₂) : s₁.depth = s₂.depth := by
  rcases h with same | ⟨-, p₁, p₂, rest, h₁, h₂⟩
  · rw [CallStack.depth, same, CallStack.depth]
  · rw [depth_eq_length, depth_eq_length, h₁, h₂, List.length_cons, List.length_cons]

theorem Alike.add (h : s₁.Alike p s₂) (f : Frame) : (s₁.add f).Alike p (s₂.add f) := by
  rcases h with same | ⟨stale, p₁, p₂, rest, h₁, h₂⟩
  · exact .inl (by rw [CallStack.add, same, CallStack.add])
  · refine .inr ⟨stale, p₁, p₂, rest ++ [f], ?_, ?_⟩
    · rw [CallStack.add, Array.toList_push, h₁, List.cons_append]
    · rw [CallStack.add, Array.toList_push, h₂, List.cons_append]

theorem depth_add (s : CallStack) (f : Frame) : (s.add f).depth = s.depth + 1 := Array.size_push _

/-- The first return point of all belongs to no function, so its statement may be anything. -/
theorem alike_first (h₁ : s₁.frames = #[]) (h₂ : s₂.frames = #[]) (p₁ p₂ : Nat) :
    (s₁.add { statement := p₁, function := 0 }).Alike True (s₂.add { statement := p₂, function := 0 }) := by
  refine .inr ⟨trivial, p₁, p₂, [], ?_, ?_⟩
  · rw [CallStack.add, Array.toList_push, h₁, List.nil_append]
  · rw [CallStack.add, Array.toList_push, h₂, List.nil_append]

theorem Alike.checkRoom (h : s₁.Alike p s₂) (limit : s₁.limit = s₂.limit) :
    s₁.checkRoom = s₂.checkRoom := by
  rw [CallStack.checkRoom, h.depth, limit, CallStack.checkRoom]

/-- The levels of the call chain that belong to a function. -/
theorem Alike.levels (h : s₁.Alike p s₂) :
    (s₁.frames.toList.reverse.map fun f => StackFrame.mk f.function f.statement).filter (·.function ≠ 0) =
      (s₂.frames.toList.reverse.map fun f => StackFrame.mk f.function f.statement).filter (·.function ≠ 0) := by
  rcases h with same | ⟨-, p₁, p₂, rest, h₁, h₂⟩
  · rw [same]
  · rw [h₁, h₂]
    simp

theorem last_of_toList {s : CallStack} {fs : List Frame} {f : Frame} (h : s.frames.toList = fs ++ [f]) :
    s.last = .ok f ∧ s.dropLast.frames.toList = fs := by
  constructor
  · rw [CallStack.last, ← Array.getLast?_toList, h, List.getLast?_concat]
  · rw [CallStack.dropLast, Array.toList_pop, h, List.dropLast_concat]

/-- **The last return point**: there is none; or it is the same in both, and those below it are alike; or it
    is the outermost, and nothing is below it. -/
theorem Alike.last_cases (h : s₁.Alike p s₂) :
    s₁.last = .error Cause.stackUnderflow ∧ s₂.last = .error Cause.stackUnderflow ∨
    (∃ f, s₁.last = .ok f ∧ s₂.last = .ok f ∧ s₁.dropLast.Alike p s₂.dropLast) ∨
    p ∧ s₁.dropLast.frames = #[] ∧ s₂.dropLast.frames = #[] ∧ ∃ p₁ p₂,
      s₁.last = .ok { statement := p₁, function := 0 } ∧ s₂.last = .ok { statement := p₂, function := 0 } := by
  rcases h with same | ⟨stale, p₁, p₂, rest, h₁, h₂⟩
  · have last : s₁.last = s₂.last := by rw [CallStack.last, same, CallStack.last]
    cases hf : s₁.frames.back? with
    | none =>
      have none₁ : s₁.last = .error Cause.stackUnderflow := by rw [CallStack.last, hf]
      exact .inl ⟨none₁, last ▸ none₁⟩
    | some f =>
      have some₁ : s₁.last = .ok f := by rw [CallStack.last, hf]
      refine .inr (.inl ⟨f, some₁, last ▸ some₁, .inl ?_⟩)
      rw [CallStack.dropLast, same, CallStack.dropLast]
  · rcases List.eq_nil_or_concat rest with rfl | ⟨rest, f, rfl⟩
    · rw [← List.nil_append [_]] at h₁ h₂
      obtain ⟨last₁, below₁⟩ := last_of_toList h₁
      obtain ⟨last₂, below₂⟩ := last_of_toList h₂
      exact .inr (.inr ⟨stale, Array.toList_inj.mp below₁, Array.toList_inj.mp below₂, p₁, p₂, last₁, last₂⟩)
    · rw [List.concat_eq_append, ← List.cons_append] at h₁ h₂
      obtain ⟨last₁, below₁⟩ := last_of_toList h₁
      obtain ⟨last₂, below₂⟩ := last_of_toList h₂
      exact .inr (.inl ⟨f, last₁, last₂, .inr ⟨stale, p₁, p₂, rest, below₁, below₂⟩⟩)

theorem toList_of_last {s : CallStack} {f : Frame} (h : s.last = .ok f) :
    ∃ fs, s.frames.toList = fs ++ [f] := by
  unfold CallStack.last at h
  split at h
  · next hf =>
    cases h
    rw [← Array.getLast?_toList] at hf
    exact List.getLast?_eq_some_iff.mp hf
  · cases h

/-- Taking a return point off. -/
theorem depth_dropLast {s : CallStack} {f : Frame} (h : s.last = .ok f) : s.dropLast.depth + 1 = s.depth := by
  obtain ⟨fs, hfs⟩ := toList_of_last h
  rw [depth_eq_length, depth_eq_length, (last_of_toList hfs).2, hfs, List.length_append, List.length_singleton]

end CallStack

/-! ## 2. Calls and returns. -/

namespace Comparison

variable {v : Comparison} {m₁ m₂ : Machine}

/-- The same comparison, of machines with more than `k` return points. -/
def deep (v : Comparison) (k : Nat) : Comparison := { v with inv := fun m => v.inv m ∧ k < m.calls.depth }

theorem durable_deep (durable : Durable v.inv) (k : Nat) : Durable (v.deep k).inv where
  data h := ⟨durable.data h.1, h.2⟩
  texts c h := ⟨durable.texts c h.1, h.2⟩
  store c h := ⟨durable.store c h.1, h.2⟩
  tell quiet h := ⟨durable.tell quiet h.1, h.2⟩

/-- The machines a return leads to: their depth is one less. -/
def returned (v : Comparison) : Comparison := { v with stale := fun d => v.stale (d + 1) }

theorem Alike.uncounted (h : v.counting.Alike m₁ m₂) : v.Alike m₁ m₂ :=
  { h with argc := fun _ => h.argc trivial }

theorem Alike.standing (h : v.standing.Alike m₁ m₂) : v.Alike m₁ m₂ :=
  { h with statement := fun _ => h.statement (.inl trivial) }

/-- Both save the same return point. -/
theorem Alike.pushed (h : v.Alike m₁ m₂) (placed : v.placed) :
    (m₁.calls.add { statement := m₁.statement, function := m₁.current }).Alike
      (v.stale m₁.calls.depth) (m₂.calls.add { statement := m₂.statement, function := m₂.current }) := by
  rw [h.statement (.inl placed), h.current]
  exact h.calls.add _

/-- A return point is saved. -/
theorem Alike.push (h : v.Alike m₁ m₂) (lasting : Lasting v.inv)
    (calls : (m₁.calls.add { statement := m₁.statement, function := m₁.current }).Alike
      (v.stale (m₁.calls.depth + 1)) (m₂.calls.add { statement := m₂.statement, function := m₂.current })) :
    (v.deep m₁.calls.depth).Alike
      { m₁ with calls := m₁.calls.add { statement := m₁.statement, function := m₁.current } }
      { m₂ with calls := m₂.calls.add { statement := m₂.statement, function := m₂.current } } :=
  { h with
    limit := h.limit
    calls := by rw [CallStack.depth_add]; exact calls
    same := fun s => by rw [h.same s]
    left := ⟨lasting.push h.left, by rw [CallStack.depth_add]; omega⟩
    right := ⟨lasting.push h.right, by rw [CallStack.depth_add, h.calls.depth]; omega⟩ }

/-- A function is entered; what is compared from here on stands at a statement of it. -/
theorem Alike.enter {k : Nat} (h : (v.deep k).Alike m₁ m₂) (lasting : Lasting v.inv) (f : FuncRef) (pc : Nat) :
    v.standing.Alike
      { m₁ with current := f, profile := m₁.profile.call f, statement := pc }
      { m₂ with current := f, profile := m₂.profile.call f, statement := pc } :=
  { h with
    current := rfl
    statement := fun _ => rfl
    same := fun s => by rw [h.same s]
    left := lasting.data (lasting.enter f (Nat.zero_lt_of_lt h.left.2) h.left.1)
    right := lasting.data (lasting.enter f (Nat.zero_lt_of_lt h.right.2) h.right.1) }

end Comparison

namespace Machine

/-- What is written to the trace before a statement runs. -/
def traceLines (m : Machine) (pc : Nat) : Array Event :=
  if m.tracing then #[.trace (m.view.disassemble pc)] else #[]

theorem traced_eq (m : Machine) (pc : Nat) :
    (if m.tracing then m.tell (.trace (m.view.disassemble pc)) else m) =
      { m with host := { m.host with events := m.host.events ++ m.traceLines pc } } := by
  unfold traceLines
  split
  · rw [Comparison.tell_eq]
  · rw [Array.append_empty]

theorem filter_traceLines (m : Machine) (pc : Nat) :
    (m.traceLines pc).toList.filter (!·.isTrace) = [] := by
  unfold traceLines
  split <;> rfl

end Machine

theorem Durable.traced {I : Machine → Prop} (durable : Durable I) {m : Machine} (h : I m) (pc : Nat) :
    I { m with host := { m.host with events := m.host.events ++ m.traceLines pc } } := by
  rw [← Machine.traced_eq]
  split
  · exact durable.tell rfl h
  · exact h

namespace Engine

variable {v : Comparison} {m₁ m₂ : Machine}

/-- Finding a function changes nothing. -/
theorem function_paired (h : v.Alike m₁ m₂) (f : FuncRef) :
    Paired (function f) (function f) m₁ m₂
      (fun a₁ a₂ n₁ n₂ => a₁ = a₂ ∧ m₁.program.function? f = some a₁ ∧ m₁ = n₁ ∧ m₂ = n₂)
      fun e n₁ n₂ => e.context = none ∧ m₁ = n₁ ∧ m₂ = n₂ := by
  unfold function
  split
  · exact paired_throw ⟨rfl, rfl, rfl⟩
  · refine paired_bind (paired_get ?_)
    rw [h.program]
    dsimp only
    cases found : m₂.program.function? f with
    | some func => exact paired_pure ⟨rfl, rfl, rfl, rfl⟩
    | none => exact paired_throw ⟨rfl, rfl, rfl⟩

theorem fetch_blind (pc : Nat) : Blind v (fetch pc) := by
  refine .get (fun _ _ h => by rw [h.program]) fun m => ?_
  cases m.program.statements[pc]? with
  | some st => exact .pure _
  | none => exact .fail _

section Data

variable (durable : Durable v.inv)
include durable

theorem copyArgs_blind (i dst : Nat) (sizes : List Nat) : Blind v (copyArgs i dst sizes) :=
  (copyArgs_steady (v.keptAlike durable) i dst sizes).blind

theorem saveLocals_blind (region : Array Word) : Blind v (saveLocals region) := by
  refine .update (fun _ _ h => by rw [h.locals]) (fun _ _ _ h _ _ => ?_) fun m => m.locals.checkRoom_unreported _
  exact h.setWords durable (by rw [h.locals])

theorem loadLocals_blind (n : Nat) : Blind v (loadLocals n) := by
  refine .update (fun _ _ h => by rw [h.locals]) (fun _ _ _ h _ _ => ?_) fun m => m.locals.last_unreported n
  exact h.setWords durable (by rw [h.locals])

theorem returnWords_blind (a : Nat) : Blind v (returnWords a) := (returnWords_steady (v.keptAlike durable) a).blind

/-- Lines of the trace may differ: hosts that hear them get the same lines. -/
theorem trace_blind (pc : Nat) : Blind v (trace pc) := by
  refine .modify fun m₁ m₂ h => ?_
  rw [m₁.traced_eq pc, m₂.traced_eq pc]
  refine h.told ⟨?_, fun t => ?_⟩ (fun s => by rw [h.same s]) ?_ ?_
  · rw [m₁.filter_traceLines pc, m₂.filter_traceLines pc]
  · rw [Machine.traceLines, h.tracing t, h.view, Machine.traceLines]
  · exact durable.traced h.left pc
  · exact durable.traced h.right pc

end Data

/-- Taking the last return point off. -/
theorem pop_of_last {m : Machine} {f : Frame} (h : m.calls.last = .ok f) :
    popFrame m = .ok f
      { m with calls := m.calls.dropLast, current := f.function, statement := f.statement } := by
  rw [popFrame, update, h]

section Control

variable (lasting : Lasting v.inv)
include lasting

/-- **A call on both machines.** The return points may come from statements that differ, if those belong to
    no function. -/
theorem enter_paired (h : v.Alike m₁ m₂)
    (calls : (m₁.calls.add { statement := m₁.statement, function := m₁.current }).Alike
      (v.stale (m₁.calls.depth + 1)) (m₂.calls.add { statement := m₂.statement, function := m₂.current }))
    (f : FuncRef) :
    Paired (enter f) (enter f) m₁ m₂
      (fun a₁ a₂ n₁ n₂ => a₁ = a₂ ∧ m₁.calls.depth < n₁.calls.depth ∧
        ∀ pc, v.standing.Alike (n₁.moveTo pc) (n₂.moveTo pc))
      fun e n₁ n₂ => e.context = none ∧ v.Alike n₁ n₂ := by
  have durable := Comparison.durable_deep lasting.toDurable m₁.calls.depth
  have shallow : ∀ (e : Error) n₁ n₂, e.context = none → (v.deep m₁.calls.depth).Alike n₁ n₂ →
      e.context = none ∧ v.Alike n₁ n₂ :=
    fun _ _ _ he h => ⟨he, { h with left := h.left.1, right := h.right.1 }⟩
  refine paired_bind ((function_paired h f).mono ?_ ?_)
  · rintro func _ _ _ ⟨rfl, -, rfl, rfl⟩
    cases func.codeStart? with
    | none => exact paired_throw ⟨rfl, h⟩
    | some entry =>
      refine paired_bind (paired_update (h.calls.checkRoom h.limit) (fun _ _ => ?_) fun e he => ?_)
      · refine (slice_blind _ _).paired (h.push lasting calls) shallow fun region k₁ k₂ h => ?_
        refine (saveLocals_blind durable region).paired h shallow fun _ k₁ k₂ h => ?_
        refine (copyArgs_blind durable _ _ _).paired h shallow fun _ k₁ k₂ h => ?_
        exact paired_bind (paired_modify (paired_pure ⟨rfl, h.left.2, fun pc => h.enter lasting f pc⟩))
      · exact ⟨CallStack.checkRoom_unreported _ e he, h⟩
  · rintro e _ _ ⟨unreported, rfl, rfl⟩
    exact ⟨unreported, h⟩

/-- **How a return ends on both machines**: at the same statement; or the outermost return point was taken
    off, and then it may be at two different ones. -/
def Returns (v : Comparison) (p₁ p₂ : Nat) (n₁ n₂ : Machine) : Prop :=
  p₁ = p₂ ∧ v.returned.Alike n₁ n₂ ∨
    v.stale 1 ∧ n₁.calls.depth = 0 ∧ { v with placed := False, stale := fun _ => False }.Alike n₁ n₂

theorem popFrame_paired (h : v.Alike m₁ m₂) :
    Paired popFrame popFrame m₁ m₂ (fun f₁ f₂ => Returns v f₁.statement f₂.statement)
      fun e n₁ n₂ => e.context = none ∧ v.Alike n₁ n₂ := by
  rcases h.calls.last_cases with ⟨last₁, last₂⟩ | ⟨f, last₁, last₂, below⟩ |
    ⟨stale, below₁, below₂, p₁, p₂, last₁, last₂⟩
  · refine paired_update (last₁.trans last₂.symm) (fun f hf => ?_) fun e he => ?_
    · cases last₁.symm.trans hf
    · exact ⟨m₁.calls.last_unreported e he, h⟩
  · refine paired_update (last₁.trans last₂.symm) (fun g hg => ?_) fun e he => ?_
    · cases last₁.symm.trans hg
      rw [← CallStack.depth_dropLast last₁] at below
      exact .inl ⟨rfl, { h with
        current := rfl
        calls := below
        statement := fun _ => rfl
        same := fun s => by rw [h.same s]
        left := lasting.pop last₁ h.left
        right := lasting.pop last₂ h.right }⟩
    · cases last₁.symm.trans he
  · have depth : m₁.calls.dropLast.depth = 0 := by rw [CallStack.depth, below₁]; rfl
    rw [← CallStack.depth_dropLast last₁, depth] at stale
    have popped₁ := pop_of_last last₁
    have popped₂ := pop_of_last last₂
    refine .ok popped₁ popped₂ (.inr ⟨stale, depth, ?_⟩)
    exact { h with
      current := rfl
      calls := .inl (below₁.trans below₂.symm)
      statement := fun hs => absurd rfl (hs.resolve_left id)
      same := fun s => by
        cases h.same s
        cases last₁.symm.trans last₂
        rfl
      left := lasting.pop last₁ h.left
      right := lasting.pop last₂ h.right }

/-- **A return on both machines.** -/
theorem leave_paired (h : v.Alike m₁ m₂) :
    Paired leave leave m₁ m₂ (Returns v) fun e n₁ n₂ => e.context = none ∧ v.Alike n₁ n₂ := by
  have keep : ∀ (e : Error) n₁ n₂, e.context = none → v.Alike n₁ n₂ → e.context = none ∧ v.Alike n₁ n₂ :=
    fun _ _ _ he h => ⟨he, h⟩
  refine paired_bind (paired_get ?_)
  rw [h.program, h.current, h.calls.depth]
  cases m₂.program.function? m₂.current with
  | none => exact paired_throw ⟨rfl, h⟩
  | some func =>
    dsimp only
    by_cases empty : m₂.calls.depth = 0
    · rw [if_pos empty]
      exact paired_throw ⟨rfl, h⟩
    · rw [if_neg empty]
      have checked : Blind v (reads fun m => m.globals.check func.parmStart func.locals) :=
        .reads (fun _ _ h => by rw [h.globals]) fun m => m.globals.check_unreported _ _
      refine checked.paired h keep fun _ k₁ k₂ h => ?_
      refine (loadLocals_blind lasting.toDurable _).paired h keep fun region k₁ k₂ h => ?_
      refine (write_blind lasting.toDurable _ _).paired h keep fun _ k₁ k₂ h => ?_
      exact paired_bind ((popFrame_paired lasting h).mono (fun _ _ _ _ r => paired_pure r) fun _ _ _ he => he)

end Control

/-! ## 3. A turn. -/

/-- **What is asked of the builtins**: that they end the same way on machines that are alike. -/
def Served (v : Comparison) (dispatch : Native → Engine Unit) (E : Error → Machine → Machine → Prop) : Prop :=
  ∀ b m₁ m₂, some b ∈ m₁.builtins.slots → v.Alike m₁ m₂ →
    Paired (dispatch b.code) (dispatch b.code) m₁ m₂ (fun _ _ => v.Alike) E

/-- A turn that fails fails the same way on both machines. -/
def Covers (v : Comparison) (E : Error → Machine → Machine → Prop) : Prop :=
  ∀ e n₁ n₂, e.context = none → v.Alike n₁ n₂ → E e n₁ n₂

/-- **How a turn ends on both machines.** -/
inductive Turns (v : Comparison) : Flow → Flow → Machine → Machine → Prop
  | next {n₁ n₂ : Machine} : v.Alike n₁ n₂ → Turns v .next .next n₁ n₂
  | jump {n₁ n₂ : Machine} {target : Nat} : (∀ pc, v.Alike (n₁.moveTo pc) (n₂.moveTo pc)) →
      Turns v (.jump target) (.jump target) n₁ n₂
  | returned {n₁ n₂ : Machine} {p₁ p₂ : Nat} : Returns v p₁ p₂ n₁ n₂ →
      Turns v (.returned p₁) (.returned p₂) n₁ n₂

variable {dispatch : Native → Engine Unit} {E : Error → Machine → Machine → Prop}

theorem Covers.counting (h : Covers v E) : Covers v.counting E :=
  fun e n₁ n₂ he alike => h e n₁ n₂ he alike.uncounted

theorem callBuiltin_paired (durable : Durable v.inv) (covers : Covers v E) (served : Served v dispatch E)
    (h : v.Alike m₁ m₂) (number : Nat) (f : FuncRef) :
    Paired (callBuiltin dispatch number f) (callBuiltin dispatch number f) m₁ m₂ (fun _ _ => v.Alike) E := by
  refine paired_bind (paired_modify ?_)
  have counted := h.count durable fun _ profile => profile.call f
  refine paired_bind (paired_reads (by rw [h.builtins]) (fun slot found => ?_) fun e he => ?_)
  · cases slot with
    | none =>
      exact (returnVector_blind durable .zero _ _ counted).mono (fun _ _ _ _ h => h.2)
        fun e n₁ n₂ he => covers e n₁ n₂ he.1 he.2
    | some b =>
      exact served b _ _ (BuiltinTable.mem_of_lookup found) counted
  · exact covers e _ _ (m₁.builtins.lookup_unreported number e he) counted

section Turn

variable (lasting : Lasting v.inv) (covers : Covers v E)
include lasting covers

theorem return_paired (h : v.Alike m₁ m₂) (a : Nat) :
    Paired (do returnWords a; return Flow.returned (← leave)) (do returnWords a; return Flow.returned (← leave))
      m₁ m₂ (Turns v) E := by
  refine (returnWords_blind lasting.toDurable a).paired h covers fun _ k₁ k₂ h => ?_
  refine paired_bind ((leave_paired lasting h).mono ?_ fun e n₁ n₂ he => covers e n₁ n₂ he.1 he.2)
  intro p₁ p₂ n₁ n₂ returns
  exact paired_pure (.returned returns)

theorem jump_paired (h : v.Alike m₁ m₂) (pc : Nat) (st : Statement) :
    Paired (jump pc st) (jump pc st) m₁ m₂ (Turns v) E := by
  refine paired_bind (paired_get ?_)
  rw [h.program]
  dsimp only
  split
  · exact paired_pure (.jump fun pc => h.moveTo lasting.toDurable pc)
  · exact paired_throw (covers _ _ _ rfl h)

variable (placed : v.placed) (grows : ∀ d, v.stale d → v.stale (d + 1))
  (served : Served v.counting dispatch E)
include placed grows served

/-- A call: a builtin runs on both machines, or bytecode is entered. -/
theorem call_paired (h : v.counting.Alike m₁ m₂) (f : FuncRef) :
    Paired (call dispatch f) (call dispatch f) m₁ m₂ (Turns v) E := by
  have lasting' : Lasting v.counting.inv := lasting
  have covers' : Covers v.counting E := covers.counting
  refine paired_bind ((function_paired h f).mono ?_ ?_)
  · rintro func _ _ _ ⟨rfl, -, rfl, rfl⟩
    cases func.builtinNumber? with
    | some number =>
      refine paired_bind ((callBuiltin_paired lasting'.toDurable covers' served h number f).mono ?_
        fun _ _ _ he => he)
      intro _ _ n₁ n₂ h
      exact paired_pure (.next h.uncounted)
    | none =>
      refine paired_bind ((enter_paired lasting' h ((h.pushed placed).mono (grows _)) f).mono ?_
        fun e n₁ n₂ he => covers' e n₁ n₂ he.1 he.2)
      rintro entry _ n₁ n₂ ⟨rfl, -, entered⟩
      exact paired_pure (.jump fun pc => (entered pc).standing.uncounted)
  · rintro e _ _ ⟨unreported, rfl, rfl⟩
    exact covers' e _ _ unreported h

/-- A statement of every kind. -/
theorem step_paired (h : v.Alike m₁ m₂) (pc : Nat) (st : Statement) :
    Paired (step dispatch pc st) (step dispatch pc st) m₁ m₂ (Turns v) E := by
  have passes : Paired (do compute st; return Flow.next) (do compute st; return Flow.next) m₁ m₂ (Turns v) E :=
    (compute_blind lasting.toDurable st).paired h covers fun _ _ _ h => paired_pure (.next h)
  obtain ⟨op, a, b, c⟩ := st
  cases op with
  | done => exact return_paired lasting covers h _
  | ret => exact return_paired lasting covers h _
  | branchIf =>
    refine (word_blind _).paired h covers fun w k₁ k₂ h => ?_
    by_cases hw : w ≠ 0
    · rw [if_pos hw]
      exact jump_paired lasting covers h pc _
    · rw [if_neg hw]
      exact paired_pure (.next h)
  | branchIfNot =>
    refine (word_blind _).paired h covers fun w k₁ k₂ h => ?_
    by_cases hw : w = 0
    · rw [if_pos hw]
      exact jump_paired lasting covers h pc _
    · rw [if_neg hw]
      exact paired_pure (.next h)
  | goto => exact jump_paired lasting covers h pc _
  | call argc =>
    refine paired_bind (paired_modify ?_)
    refine (word_blind _).paired (h.setArgc lasting.toDurable argc.val) covers.counting fun f k₁ k₂ h => ?_
    exact call_paired lasting covers placed grows served h f
  | _ => exact passes

/-- **A turn on both machines.** -/
theorem cycle_paired (h : v.Alike m₁ m₂) (pc : Nat) :
    Paired (cycle dispatch pc) (cycle dispatch pc) m₁ m₂ (Turns v) E := by
  refine (fetch_blind pc).paired h covers fun st k₁ k₂ h => ?_
  refine (trace_blind lasting.toDurable pc).paired h covers fun _ k₁ k₂ h => ?_
  refine paired_bind (paired_modify ?_)
  have counted := h.count lasting.toDurable fun f profile => profile.statement f
  exact step_paired lasting covers placed grows served counted pc st

end Turn

end Engine

/-! ## 4. The loop. -/

namespace Comparison

variable {v : Comparison} {m₁ m₂ : Machine}

/-- **The machines that a run within a run is compared on.** -/
def within (v : Comparison) (stale : Nat → Prop) : Comparison :=
  { v with counted := True, placed := True, stale }

theorem within_alike {I : Machine → Prop} {m : Machine} (h : I m) (stale : Nat → Prop) :
    ((single I).within stale).Alike m m :=
  { single_alike h with calls := .inl rfl }

/-- **The machines of a run** that ends where the call stack is back at depth `exit`. If `stale`, the
    outermost return point may differ while the stack is deeper than that. -/
def inside (v : Comparison) (stale : Prop) (exit : Nat) : Comparison :=
  { v with placed := True, stale := fun d => stale ∧ exit < d }

/-- The outermost return point may differ, however deep the stack is. -/
def loose (v : Comparison) : Comparison := { v with stale := fun _ => True }

/-- **The machines a run leaves.** If it took the outermost return point off, they may stand at different
    statements. -/
def past (v : Comparison) (stale : Prop) (exit : Nat) : Comparison :=
  { v with placed := ¬ (stale ∧ exit = 0), stale := fun d => stale ∧ d = exit }

end Comparison

namespace Engine

variable {v : Comparison} {m₁ m₂ : Machine} {dispatch : Native → Engine Unit}
  {E : Error → Machine → Machine → Prop} {stale : Prop} {exit : Nat}

theorem Covers.loose (h : Covers v.loose E) : Covers v E :=
  fun e n₁ n₂ he alike => h e n₁ n₂ he { alike with calls := alike.calls.mono fun _ => trivial }

/-- A return that ends the run. -/
theorem Returns.past {p₁ p₂ : Nat} (h : Returns (v.inside stale exit) p₁ p₂ m₁ m₂)
    (ended : m₁.calls.depth = exit) : (v.past stale exit).Alike m₁ m₂ := by
  rcases h with ⟨-, h⟩ | ⟨⟨stale, -⟩, empty, h⟩
  · exact { h with
      calls := h.calls.mono fun hs => ⟨hs.1, ended⟩
      statement := fun _ => h.statement (.inl trivial) }
  · have outermost : exit = 0 := ended.symm.trans empty
    exact { h with
      calls := h.calls.mono False.elim
      statement := fun hs => h.statement (.inr (hs.resolve_left fun hn => hn ⟨stale, outermost⟩)) }

/-- A return within the run: both go on at the same statement. -/
theorem Returns.inside {p₁ p₂ : Nat} (h : Returns (v.inside stale exit) p₁ p₂ m₁ m₂)
    (deeper : m₁.calls.depth ≠ exit) : p₁ = p₂ ∧ (v.inside stale exit).Alike m₁ m₂ := by
  rcases h with ⟨same, h⟩ | ⟨⟨-, first⟩, empty, -⟩
  · refine ⟨same, { h with calls := h.calls.mono fun hs => ⟨hs.1, ?_⟩ }⟩
    have := hs.2
    omega
  · exact absurd (show m₁.calls.depth = exit by omega) deeper

theorem Returns.depth {p₁ p₂ : Nat} (h : Returns v p₁ p₂ m₁ m₂) : m₁.calls.depth = m₂.calls.depth := by
  rcases h with ⟨-, h⟩ | ⟨-, -, h⟩
  · exact h.calls.depth
  · exact h.calls.depth

/-- **The loop on both machines**: they go through the same statements, and end the same way. -/
theorem loop_paired (lasting : Lasting v.inv) (covers : Covers (v.inside stale exit) E)
    (served : Served (v.inside stale exit).counting dispatch E) (budget : Nat) {remaining pc : Nat}
    (h : (v.inside stale exit).Alike (m₁.moveTo pc) (m₂.moveTo pc)) :
    Paired (loop dispatch budget exit remaining pc) (loop dispatch budget exit remaining pc) m₁ m₂
      (fun _ _ => (v.past stale exit).Alike) E := by
  have lasting' : Lasting (v.inside stale exit).inv := lasting
  have grows : ∀ d, (v.inside stale exit).stale d → (v.inside stale exit).stale (d + 1) :=
    fun d hd => ⟨hd.1, Nat.lt_succ_of_lt hd.2⟩
  induction remaining generalizing pc m₁ m₂ with
  | zero => exact paired_bind (paired_modify (paired_throw (covers _ _ _ rfl h)))
  | succ remaining ih =>
    refine paired_bind (paired_modify (paired_bind ?_))
    refine (cycle_paired lasting' covers trivial grows served h pc).mono ?_ fun _ _ _ he => he
    intro f₁ f₂ n₁ n₂ turns
    cases turns with
    | next h => exact ih (h.moveTo lasting'.toDurable (pc + 1))
    | jump h => exact ih (h _)
    | returned returns =>
      refine paired_bind (paired_get ?_)
      rw [← returns.depth]
      by_cases ended : n₁.calls.depth = exit
      · rw [if_pos ended, if_pos ended]
        exact paired_pure (returns.past ended)
      · obtain ⟨rfl, h⟩ := returns.inside ended
        rw [if_neg ended]
        exact ih (h.moveTo lasting'.toDurable _)

/-! ## 5. Runs. -/

/-- **A run of bytecode on both machines.** If `stale`, the return point it starts with may differ. -/
theorem bytecode_paired (lasting : Lasting v.inv) (h : v.Alike m₁ m₂) (open' : v.stale m₁.calls.depth → stale)
    (calls : (m₁.calls.add { statement := m₁.statement, function := m₁.current }).Alike stale
      (m₂.calls.add { statement := m₂.statement, function := m₂.current }))
    (covers : Covers v.loose E) (served : Served (v.inside stale m₁.calls.depth).counting dispatch E)
    (f : FuncRef) (budget : Nat) :
    Paired (do loop dispatch budget m₁.calls.depth budget (← enter f))
      (do loop dispatch budget m₁.calls.depth budget (← enter f)) m₁ m₂
      (fun _ _ => (v.past stale m₁.calls.depth).Alike) E := by
  -- while the function is being entered, the stack may be no deeper than before
  let w : Comparison := { v with stale := fun d => stale ∧ m₁.calls.depth ≤ d }
  have entering : w.Alike m₁ m₂ := { h with calls := h.calls.mono fun hs => ⟨open' hs, Nat.le_refl _⟩ }
  have pushed := calls.mono fun hs => show w.stale (m₁.calls.depth + 1) from ⟨hs, Nat.le_succ _⟩
  refine paired_bind ((enter_paired (v := w) lasting entering pushed f).mono ?_ ?_)
  · rintro entry _ n₁ n₂ ⟨rfl, deeper, entered⟩
    refine loop_paired lasting ?_ served budget ?_
    · intro e k₁ k₂ he h
      exact covers e k₁ k₂ he { h with
        calls := h.calls.mono fun _ => trivial
        statement := fun _ => h.statement (.inl trivial) }
    · exact { entered entry with calls := (entered entry).calls.mono fun hs => ⟨hs.1, deeper⟩ }
  · rintro e n₁ n₂ ⟨he, h⟩
    exact covers e n₁ n₂ he { h with calls := h.calls.mono fun _ => trivial }

/-- **A run of bytecode from outside, on both machines.** Its first return point is a leftover of each. -/
theorem run_outside_paired (lasting : Lasting v.inv) (h : v.Alike m₁ m₂) (empty₁ : m₁.calls.frames = #[])
    (empty₂ : m₂.calls.frames = #[]) (resting : m₁.current = 0) (covers : Covers v.loose E)
    (served : Served (v.inside True m₁.calls.depth).counting dispatch E) {f : FuncRef}
    (bytecode : ∀ func, m₁.program.function? f = some func → func.builtinNumber? = none) :
    Paired (run dispatch f) (run dispatch f) m₁ m₂ (fun _ _ => (v.past True m₁.calls.depth).Alike) E := by
  have first := CallStack.alike_first empty₁ empty₂ m₁.statement m₂.statement
  refine paired_bind ((function_paired h f).mono ?_ ?_)
  · rintro func _ _ _ ⟨rfl, found, rfl, rfl⟩
    rw [bytecode func found]
    refine paired_bind (paired_get ?_)
    rw [← h.config, ← h.calls.depth]
    refine bytecode_paired lasting h (fun _ => trivial) ?_ covers served f _
    rw [← h.current, resting]
    exact first
  · rintro e _ _ ⟨he, rfl, rfl⟩
    exact covers.loose e _ _ he h

/-- **A run within a run, on both machines.** The builtins have to serve whatever return points differ, as
    long as there are some. -/
theorem run_paired {stale : Nat → Prop} (lasting : Lasting v.inv) (outer : ¬ stale 0)
    (h : (v.within stale).Alike m₁ m₂) (covers : Covers (v.within fun _ => True) E)
    (served : ∀ stale : Nat → Prop, ¬ stale 0 → Served (v.within stale) dispatch E) (f : FuncRef) :
    Paired (run dispatch f) (run dispatch f) m₁ m₂ (fun _ _ => (v.within stale).Alike) E := by
  have lasting' : Lasting (v.within stale).inv := lasting
  have covers' : Covers (v.within stale).loose E := covers
  refine paired_bind ((function_paired h f).mono ?_ ?_)
  · rintro func _ _ _ ⟨rfl, -, rfl, rfl⟩
    cases func.builtinNumber? with
    | some number => exact callBuiltin_paired lasting'.toDurable covers'.loose (served stale outer) h number f
    | none =>
      refine paired_bind (paired_get ?_)
      rw [← h.config, ← h.calls.depth]
      let depth := m₁.calls.depth
      have inner := served (fun d => stale depth ∧ depth < d) fun hs => absurd hs.2 (Nat.not_lt_zero _)
      refine (bytecode_paired lasting' h id (h.pushed trivial) covers' inner f _).mono ?_ fun _ _ _ he => he
      intro _ _ n₁ n₂ h
      have notOutermost : ¬ (stale depth ∧ depth = 0) := fun hs => outer (hs.2 ▸ hs.1)
      exact { h with
        calls := h.calls.mono fun hs => hs.2 ▸ hs.1
        statement := fun _ => h.statement (.inl notOutermost) }
  · rintro e _ _ ⟨he, rfl, rfl⟩
    exact covers'.loose e _ _ he h

end Engine

end QuakeProgs
