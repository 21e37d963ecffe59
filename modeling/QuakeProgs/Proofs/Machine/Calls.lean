/-
  File:      QuakeProgs/Proofs/Machine/Calls.lean
  Subject:   CALLS AND THEIR RETURNS: what every call puts on the two stacks, its return takes off.

  Ranges of globals may overlap in any way, so nothing can be said of a range alone. What is known is
  what lies on the stacks, call by call; the proof keeps a list of the calls that have not returned,
  each with the machine that made it:

  * `Opened` -- such a call; `Opened.Covers` -- the machine is one that the call has led to, its
    return point and its saved words being on top of the caller's stacks;
  * `Stacked` -- all open calls of a run, one on top of the other;
  * `Opened.Restored` -- what a return gives back;
  * `Stacked.entered`, `Stacked.balanced` -- the stacks counted.
-/
import QuakeProgs.Proofs.Machine.Turn

namespace QuakeProgs

/-! ## 1. What lasts, and machines in order. -/

namespace Machine

/-- The program, the builtins, the limits and the sizes are the same. -/
structure Persists (m m' : Machine) : Prop where
  config : m'.config = m.config
  program : m'.program = m.program
  registry : m'.registry = m.registry
  builtins : m'.builtins = m.builtins
  legacy : m'.legacy = m.legacy
  limit : m'.calls.limit = m.calls.limit
  capacity : m'.locals.capacity = m.locals.capacity
  globals : m'.globals.size = m.globals.size
  cursor : m'.strings.CursorFits
  edicts : m'.edicts.Tiled

/-- Both stacks are the same, for the same program. -/
structure SameStacks (m m' : Machine) : Prop where
  program : m'.program = m.program
  calls : m'.calls = m.calls
  locals : m'.locals = m.locals
  current : m'.current = m.current

/-- All of this, and what the machine is doing. -/
structure Keeps (m m' : Machine) : Prop extends Persists m m', SameStacks m m' where
  state : m'.state = m.state

/-- **A machine in order.** -/
structure Sound (m : Machine) : Prop extends Ready m where
  limit : m.calls.limit = m.config.maxDepth
  capacity : m.locals.capacity = m.config.localWords
  legacy : m.legacy = m.config.legacy.contains m.program.digest
  builtins : m.builtins = .build m.registry m.program m.config.numbering m.config.maxBuiltins

variable {m m₁ m' : Machine}

theorem Evolves.persists (h : m.Evolves m') : m.Persists m' := { h with }

theorem Glides.keeps (h : m.Glides m') : m.Keeps m' := { h with }

theorem Persists.trans (h : m.Persists m₁) (h' : m₁.Persists m') : m.Persists m' where
  config := h'.config.trans h.config
  program := h'.program.trans h.program
  registry := h'.registry.trans h.registry
  builtins := h'.builtins.trans h.builtins
  legacy := h'.legacy.trans h.legacy
  limit := h'.limit.trans h.limit
  capacity := h'.capacity.trans h.capacity
  globals := h'.globals.trans h.globals
  cursor := h'.cursor
  edicts := h'.edicts

theorem Keeps.trans (h : m.Keeps m₁) (h' : m₁.Keeps m') : m.Keeps m' where
  toPersists := h.toPersists.trans h'.toPersists
  calls := h'.calls.trans h.calls
  locals := h'.locals.trans h.locals
  current := h'.current.trans h.current
  state := h'.state.trans h.state

theorem Sound.persists (h : m.Sound) (h' : m.Persists m') : m'.Sound where
  program := by
    rw [h'.program, h'.globals]
    exact h.program
  cursor := h'.cursor
  edicts := h'.edicts
  limit := by rw [h'.limit, h'.config, h.limit]
  capacity := by rw [h'.capacity, h'.config, h.capacity]
  legacy := by rw [h'.legacy, h'.config, h'.program, h.legacy]
  builtins := by rw [h'.builtins, h'.registry, h'.program, h'.config, h.builtins]

/-- The functions that were entered and not yet left, outermost first: all callers but the first,
    which is whoever called from outside, and the function that runs. -/
def entered (m : Machine) : List FuncRef := ((m.calls.frames.toList.map Frame.function) ++ [m.current]).tail

end Machine

/-- The words a call of a function saves. -/
def Program.savedWords (p : Program) (f : FuncRef) : Nat := ((p.function? f).map Function.locals).getD 0

/-- **Both stacks counted**: no more return points and words than there is room for, and as many words
    as the functions saved that were entered and not yet left. -/
structure Machine.Balanced (m : Machine) : Prop where
  depth : m.calls.depth ≤ m.calls.limit
  used : m.locals.used ≤ m.locals.capacity
  saved : m.locals.used = (m.entered.map m.program.savedWords).sum

/-! ## 2. A call that has not returned. -/

/-- A call of the function `ref`, made by the machine `before`. -/
structure Opened where
  ref : FuncRef
  before : Machine

namespace Opened

/-- The function that was called. -/
def func (o : Opened) : Function := (o.before.program.function? o.ref).getD default

/-- **The call has led to `m`**, and nothing else lies on the stacks above what the caller had. -/
structure Covers (o : Opened) (m : Machine) : Prop where
  program : m.program = o.before.program
  found : m.program.function? o.ref = some o.func
  code : o.func.codeStart?.isSome
  room : o.before.calls.depth < o.before.calls.limit
  space : o.before.locals.used + o.func.locals ≤ o.before.locals.capacity
  range : o.func.parmStart + o.func.locals ≤ o.before.globals.size
  calls : m.calls =
    o.before.calls.add { statement := o.before.statement, function := o.before.current }
  locals : m.locals = o.before.locals.append
    (o.before.globals.words.extract o.func.parmStart (o.func.parmStart + o.func.locals))
  current : m.current = o.ref

/-- **What a return gives back**: both stacks, the running function and the words of the range. -/
structure Restored (o : Opened) (m : Machine) : Prop where
  calls : m.calls = o.before.calls
  locals : m.locals = o.before.locals
  current : m.current = o.before.current
  range : ∀ k, k < o.func.locals →
    m.globals.words[o.func.parmStart + k]? = o.before.globals.words[o.func.parmStart + k]?

variable {o : Opened} {m m' : Machine}

theorem func_eq {f : FuncRef} {func : Function} (h : m.program.function? f = some func) :
    (⟨f, m⟩ : Opened).func = func := by
  unfold Opened.func
  rw [h, Option.getD_some]

theorem covers_of_enters {f : FuncRef} {func : Function} {entry : Nat}
    (h : m.Enters f func entry m') : (⟨f, m⟩ : Opened).Covers m' := by
  obtain rfl := func_eq h.found
  exact {
    program := h.evolves.program
    found := h.evolves.program ▸ h.found
    code := Option.isSome_of_eq_some h.code
    room := h.room
    space := h.space
    range := h.range
    calls := h.calls
    locals := h.locals
    current := h.current }

/-- Only the stacks, the running function and the program matter. -/
theorem Covers.same (h : o.Covers m) (k : m.SameStacks m') : o.Covers m' :=
  { h with
    program := k.program.trans h.program
    found := k.program ▸ h.found
    calls := k.calls.trans h.calls
    locals := k.locals.trans h.locals
    current := k.current.trans h.current }

/-- The words saved by the call, as many as its range has. -/
theorem Covers.size_region (h : o.Covers m) :
    (o.before.globals.words.extract o.func.parmStart (o.func.parmStart + o.func.locals)).size =
      o.func.locals :=
  GlobalBlock.size_extract_of_le h.range

theorem Covers.depth (h : o.Covers m) : m.calls.depth = o.before.calls.depth + 1 := by
  rw [h.calls]
  exact Array.size_push _

theorem Covers.used (h : o.Covers m) : m.locals.used = o.before.locals.used + o.func.locals := by
  rw [h.locals]
  simp only [LocalStack.used, LocalStack.append, Array.size_append, h.size_region]

theorem Covers.canLeave (h : o.Covers m) : m.CanLeave o.func where
  found := by rw [h.current]; exact h.found
  code := h.code
  depth := by rw [h.depth]; omega
  held := by rw [h.used]; omega

/-- **Leaving takes off exactly what entering put on.** -/
theorem Covers.left (h : o.Covers m) {func : Function} {frame : Frame} (leaves : m.Leaves func frame m') :
    o.Restored m' ∧ frame.statement = o.before.statement := by
  have hfunc : func = o.func := Option.some.inj (leaves.found.symm.trans h.canLeave.found)
  subst hfunc
  have hframe : { statement := o.before.statement, function := o.before.current } = frame := by
    have last := leaves.last
    rw [h.calls, CallStack.add, Array.back?_push] at last
    exact Option.some.inj last
  subst hframe
  refine ⟨⟨?_, ?_, leaves.current, fun k hk => ?_⟩, rfl⟩
  · rw [leaves.calls, h.calls, CallStack.dropLast, CallStack.add, Array.pop_push]
  · have used := h.used
    rw [leaves.locals, LocalStack.dropLast, used, Nat.add_sub_cancel, h.locals, LocalStack.append]
    simp [LocalStack.used]
  · have size := h.size_region
    have start : m.locals.used - o.func.locals = o.before.locals.words.size := by
      rw [h.used, Nat.add_sub_cancel, LocalStack.used]
    rw [leaves.restored k hk, start, h.locals]
    simp only [LocalStack.append, Array.getElem?_append_right (Nat.le_add_right _ _),
      Nat.add_sub_cancel_left]
    have bound : k < min (o.func.parmStart + o.func.locals) o.before.globals.words.size - o.func.parmStart := by
      rw [Array.size_extract] at size
      omega
    rw [Array.getElem?_extract, if_pos bound]

/-- The function that was called is the last one entered. -/
theorem Covers.entered (h : o.Covers m) : m.entered = o.before.entered ++ [o.ref] := by
  simp only [Machine.entered, h.calls, h.current, CallStack.add, Array.toList_push, List.map_append,
    List.map_cons, List.map_nil]
  rw [List.tail_append_of_ne_nil (by simp)]

/-- A call keeps the count of the stacks. -/
theorem Covers.balanced (h : o.Covers m) (b : o.before.Balanced) : m.Balanced := by
  constructor
  · rw [h.depth, h.calls]
    exact h.room
  · rw [h.used, h.locals]
    exact h.space
  · have words : m.program.savedWords o.ref = o.func.locals := by
      rw [Program.savedWords, h.found]
      rfl
    rw [h.used, h.entered, List.map_append, List.sum_append, b.saved, h.program, ← words, h.program]
    simp

end Opened

/-! ## 3. All open calls of a run. -/

/-- **The open calls of a run**, innermost first, the last of them being `first`: each was made by a
    machine that stood inside the one before, at a statement of the program. -/
inductive Stacked (first : Opened) : List Opened → Machine → Prop
  | base {m : Machine} : first.Covers m → Stacked first [first] m
  | call {o : Opened} {opened : List Opened} {m : Machine} : o.Covers m →
      o.before.statement < o.before.program.statements.size → Stacked first opened o.before →
      Stacked first (o :: opened) m

namespace Stacked

variable {first : Opened} {opened : List Opened} {m m' : Machine}

theorem same (h : Stacked first opened m) (k : m.SameStacks m') : Stacked first opened m' := by
  cases h with
  | base covers => exact .base (covers.same k)
  | call covers inside rest => exact .call (covers.same k) inside rest

/-- Some call is open, and the innermost one has led to the machine. -/
theorem top (h : Stacked first opened m) : ∃ o rest, opened = o :: rest ∧ o.Covers m := by
  cases h with
  | base covers => exact ⟨first, [], rfl, covers⟩
  | call covers _ _ => exact ⟨_, _, rfl, covers⟩

theorem depth (h : Stacked first opened m) :
    m.calls.depth = first.before.calls.depth + opened.length := by
  induction h with
  | base covers => exact covers.depth
  | call covers _ _ ih => rw [covers.depth, ih, List.length_cons]; omega

/-- The functions entered are those of before and those of the open calls. -/
theorem entered (h : Stacked first opened m) :
    m.entered = first.before.entered ++ (opened.map Opened.ref).reverse := by
  induction h with
  | base covers => exact covers.entered
  | call covers _ _ ih =>
    rw [covers.entered, ih, List.map_cons, List.reverse_cons, List.append_assoc]

/-- **The stacks are balanced at every point of a run.** -/
theorem balanced (h : Stacked first opened m) (b : first.before.Balanced) : m.Balanced := by
  induction h with
  | base covers => exact covers.balanced b
  | call covers _ _ ih => exact covers.balanced ih

end Stacked

end QuakeProgs
