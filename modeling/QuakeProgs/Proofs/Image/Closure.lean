/-
  File:      QuakeProgs/Proofs/Image/Closure.lean
  Subject:   WHERE CONTROL GOES FROM THE STATEMENTS OF AN ASSEMBLED FUNCTION.

  A function under construction gets a `DONE` if its last statement is one that control can go on from. The
  last statement alone decides this, while a branch before it may be aimed at the end of the body.

  * `Statement.successors` -- the control successors of a statement; `Closed` -- a block of statements that
    contains those of all its own;
  * `FunctionBuilder.goto_aims`, `branchIf_aims`, `branchIfNot_aims`, `patchBranch_aims` -- a branch leads where it
    was aimed, if the distance fits;
  * `FunctionBuilder.Aimed`, `FunctionBuilder.Exposed` -- all branches of a body lead into it or to its end,
    some branch leads to its end;
  * `FunctionBuilder.finish_reaches` -- control from a finished function goes at most one statement too far;
  * `FunctionBuilder.finish_closed_iff` -- its block is closed, unless no `DONE` was appended to a body with a
    branch to its end;
  * `ImageBuilder.Carries` -- what is assembled later leaves the block alone; `Carries.define` -- so does the
    definition of another function.
-/
import QuakeProgs.Proofs.Image.Building

namespace QuakeProgs

/-! ## 1. Control successors. -/

/-- Whether control can go on to the next statement. -/
def Statement.passes (s : Statement) : Bool := !(s.op.isReturn || s.op = .goto)

/-- **The control successors of the statement at `i`**: where its branch leads, and the next statement. -/
def Statement.successors (s : Statement) (i : Nat) : List Int :=
  (s.target? i).toList ++ if s.passes then [(i : Int) + 1] else []

/-- **A closed block** from `first` up to `stop`: it contains the successors of all its statements. -/
def Closed (code : Nat → Option Statement) (first stop : Nat) : Prop :=
  ∀ i ∈ List.range' first (stop - first), ∀ s ∈ code i, ∀ t ∈ s.successors i, first ≤ t ∧ t < stop

instance Closed.decidable (code : Nat → Option Statement) (first stop : Nat) : Decidable (Closed code first stop) :=
  inferInstanceAs (Decidable (∀ i ∈ _, _))

/-- What a stored statement says; none if there is no such opcode. -/
def RawStatement.decoded? (r : RawStatement) : Option Statement :=
  (Opcode.ofNumber? r.op.toNat).map fun op => { op, a := r.a, b := r.b, c := r.c }

/-- The statements of an image under construction. -/
def ImageBuilder.code (b : ImageBuilder) (i : Nat) : Option Statement := b.statements[i]?.bind RawStatement.decoded?

/-- The statements of a program. -/
def Program.code (p : Program) (i : Nat) : Option Statement := p.statements[i]?

variable {s : Statement} {i : Nat} {t : Int}

theorem Statement.mem_successors :
    t ∈ s.successors i ↔ s.target? i = some t ∨ s.passes = true ∧ t = (i : Int) + 1 := by
  rw [successors, List.mem_append, Option.mem_toList]
  cases s.passes <;> simp

theorem closed_iff {code : Nat → Option Statement} {first stop : Nat} : Closed code first stop ↔
    ∀ i s t, first ≤ i → i < stop → code i = some s → t ∈ s.successors i → first ≤ t ∧ t < stop := by
  unfold Closed
  constructor
  · intro h i s t low high found leads
    exact h i (List.mem_range'_1.mpr ⟨low, by omega⟩) s found t leads
  · intro h i mem s found t leads
    obtain ⟨low, high⟩ := List.mem_range'_1.mp mem
    exact h i s t low (by omega) found leads

/-- Only the statements of the block matter. -/
theorem Closed.congr {code code' : Nat → Option Statement} {first stop : Nat} (h : Closed code first stop)
    (same : ∀ i, first ≤ i → i < stop → code' i = code i) : Closed code' first stop := by
  rw [closed_iff] at h ⊢
  intro i s t low high found leads
  exact h i s t low high (same i low high ▸ found) leads

/-! ## 2. The commands to an open function. -/

namespace FunctionBuilder

variable {fb : FunctionBuilder}

/-- Commands in a row. -/
def performAll (fb : FunctionBuilder) (cs : List BodyCommand) : FunctionBuilder := cs.foldl perform fb

/-- **An open function takes shape**: it keeps its number, its start and the functions of the image, and its
    statements become no fewer. -/
structure Shapes (fb fb' : FunctionBuilder) : Prop where
  func : fb'.func = fb.func
  first : fb'.firstStatement = fb.firstStatement
  functions : fb'.image.functions = fb.image.functions
  here : fb.here ≤ fb'.here

theorem Shapes.refl (fb : FunctionBuilder) : fb.Shapes fb := ⟨rfl, rfl, rfl, Nat.le_refl _⟩

theorem Shapes.trans {fb₁ fb₂ : FunctionBuilder} (h : fb.Shapes fb₁) (h' : fb₁.Shapes fb₂) : fb.Shapes fb₂ :=
  ⟨h'.func.trans h.func, h'.first.trans h.first, h'.functions.trans h.functions, Nat.le_trans h.here h'.here⟩

theorem shapes_emitRaw (op : UInt16) (a b c : Int) : fb.Shapes (fb.emitRaw op a b c) :=
  ⟨rfl, rfl, rfl, by rw [here, here, emitRaw, Array.size_push]; omega⟩

theorem shapes_call (func : Int) (args : List (Int × ValueType)) : fb.Shapes (fb.call func args) := by
  refine Shapes.trans ?_ (shapes_emitRaw _ _ _ _)
  exact List.foldlRecOn _ _ (.refl fb) fun _ h _ _ => h.trans (shapes_emitRaw _ _ _ _)

theorem shapes_perform (c : BodyCommand) : fb.Shapes (fb.perform c) := by
  cases c with
  | allocLocal type => exact ⟨rfl, rfl, rfl, Nat.le_refl _⟩
  | patchBranch pos target => exact ⟨rfl, rfl, rfl, Nat.le_of_eq Array.size_modify.symm⟩
  | call func args => exact shapes_call func args
  | _ => exact shapes_emitRaw _ _ _ _

theorem shapes_performAll (cs : List BodyCommand) : fb.Shapes (fb.performAll cs) :=
  List.foldlRecOn _ _ (.refl fb) fun _ h c _ => h.trans (shapes_perform c)

/-! ### Aiming branches. -/

/-- Every stored opcode reads back. -/
theorem ofNumber?_stored (op : Opcode) : Opcode.ofNumber? op.number.toUInt16.toNat = some op := by
  have known := op.ofNumber?_number
  have small : op.number < 66 := (List.getElem?_eq_some_iff.mp known).1
  have size : UInt16.size = 65536 := rfl
  rwa [Nat.toUInt16_eq, UInt16.toNat_ofNat_of_lt' (by omega)]

theorem code_emit (op : Opcode) (a b c : Int) : (fb.emit op a b c).image.code fb.here =
    some { op, a := Int16.ofInt a, b := Int16.ofInt b, c := Int16.ofInt c } := by
  rw [ImageBuilder.code, emit, emitRaw, here, Array.getElem?_push_size, Option.bind_some, RawStatement.decoded?,
    ofNumber?_stored, Option.map_some]

/-- A distance that sixteen bits hold. -/
def Fits (origin : Nat) (target : Int) : Prop := -32768 ≤ target - origin ∧ target - origin < 32768

theorem Fits.toInt {origin : Nat} {target : Int} (fits : Fits origin target) :
    (origin : Int) + (Int16.ofInt (target - origin)).toInt = target := by
  rw [Int16.toInt_ofInt_of_le fits.1 fits.2]
  omega

/-- The command leaves a branch at `i` that leads to `target`. -/
def Aims (fb : FunctionBuilder) (i : Nat) (target : Int) : Prop :=
  ∃ s, fb.image.code i = some s ∧ s.target? i = some target

theorem goto_aims {target : Int} (fits : Fits fb.here target) : (fb.goto target).Aims fb.here target :=
  ⟨_, code_emit .., congrArg some fits.toInt⟩

theorem branchIf_aims {cond target : Int} (fits : Fits fb.here target) :
    (fb.branchIf cond target).Aims fb.here target :=
  ⟨_, code_emit .., congrArg some fits.toInt⟩

theorem branchIfNot_aims {cond target : Int} (fits : Fits fb.here target) :
    (fb.branchIfNot cond target).Aims fb.here target :=
  ⟨_, code_emit .., congrArg some fits.toInt⟩

/-- A branch aimed anew leads as far as it is told to. -/
theorem decoded?_retarget {r : RawStatement} {s : Statement} {i : Nat} {old : Int} (said : r.decoded? = some s)
    (leads : s.target? i = some old) (distance : Int16) :
    ∃ s', (retarget distance r).decoded? = some s' ∧ s'.target? i = some (i + distance.toInt) := by
  obtain ⟨op, known, rfl⟩ := Option.map_eq_some_iff.mp said
  cases op with
  | goto | branchIf | branchIfNot =>
    rw [retarget, known]
    exact ⟨_, by rw [RawStatement.decoded?, known]; rfl, rfl⟩
  | _ => cases leads

/-- A branch that was emitted is aimed anew. -/
theorem patchBranch_aims {pos : Nat} {old target : Int} (fits : Fits pos target) (branch : fb.Aims pos old) :
    (fb.patchBranch pos target).Aims pos target := by
  obtain ⟨s, found, leads⟩ := branch
  obtain ⟨r, stored, said⟩ := Option.bind_eq_some_iff.mp found
  obtain ⟨s', said', leads'⟩ := decoded?_retarget said leads (Int16.ofInt (target - pos))
  refine ⟨s', ?_, leads'.trans (congrArg some fits.toInt)⟩
  rw [ImageBuilder.code, patchBranch, Array.getElem?_modify, if_pos rfl, stored, Option.map_some, Option.bind_some,
    said']

end FunctionBuilder

/-! ## 3. Finished functions. -/

namespace FunctionBuilder

variable {fb : FunctionBuilder}

/-- Where the branches of the body lead. -/
def aims (fb : FunctionBuilder) : List Int :=
  (List.range' fb.firstStatement (fb.here - fb.firstStatement)).filterMap fun i =>
    (fb.image.code i).bind (·.target? i)

/-- **Every branch of the body is aimed into it, or at its end.** -/
def Aimed (fb : FunctionBuilder) : Prop := ∀ t ∈ fb.aims, fb.firstStatement ≤ t ∧ t ≤ fb.here

instance Aimed.decidable (fb : FunctionBuilder) : Decidable fb.Aimed := inferInstanceAs (Decidable (∀ t ∈ _, _))

/-- **The end of the body is exposed**: a branch is aimed at it, and the last statement is one that control cannot go
    on from, so that nothing will stand there. -/
def Exposed (fb : FunctionBuilder) : Prop := fb.isClosed = true ∧ (fb.here : Int) ∈ fb.aims

instance Exposed.decidable (fb : FunctionBuilder) : Decidable fb.Exposed := inferInstanceAs (Decidable (_ ∧ _))

theorem mem_aims {t : Int} : t ∈ fb.aims ↔
    ∃ i s, fb.firstStatement ≤ i ∧ i < fb.here ∧ fb.image.code i = some s ∧ s.target? i = some t := by
  simp only [aims, List.mem_filterMap, List.mem_range'_1, Option.bind_eq_some_iff]
  constructor
  · intro ⟨i, ⟨low, high⟩, s, found, leads⟩
    exact ⟨i, s, low, by omega, found, leads⟩
  · intro ⟨i, s, low, high, found, leads⟩
    exact ⟨i, ⟨low, by omega⟩, s, found, leads⟩

/-- What stands in a finished function: the body, and behind it a `DONE` unless the body is closed. -/
theorem code_finish (fb : FunctionBuilder) (i : Nat) : fb.finish.code i =
    if fb.isClosed = false ∧ i = fb.here then some { op := .done, a := 0, b := 0, c := 0 } else fb.image.code i := by
  rw [ImageBuilder.code, ImageBuilder.code]
  have stored : fb.finish.statements = if fb.isClosed then fb.image.statements else fb.image.statements.push {} := by
    unfold finish
    split <;> rfl
  rw [stored]
  cases fb.isClosed with
  | true => rw [if_pos rfl, if_neg (by simp)]
  | false =>
    rw [if_neg Bool.false_ne_true]
    by_cases last : i = fb.here
    · subst last
      rw [if_pos ⟨rfl, rfl⟩, here, Array.getElem?_push_size]
      rfl
    · have other : i ≠ fb.image.statements.size := last
      rw [if_neg fun h => last h.2, Array.getElem?_push, if_neg other]

/-- Where a finished function ends. -/
theorem size_finish (fb : FunctionBuilder) :
    fb.finish.statements.size = if fb.isClosed then fb.here else fb.here + 1 := by
  unfold finish
  split
  · rfl
  · exact Array.size_push _

/-- A body that is closed ends in a statement that control does not go on from. -/
theorem last_of_isClosed (closed : fb.isClosed = true) :
    fb.firstStatement < fb.here ∧ ∃ s, fb.image.code (fb.here - 1) = some s ∧ s.passes = false := by
  unfold isClosed at closed
  rw [Bool.and_eq_true, decide_eq_true_eq] at closed
  obtain ⟨some', ends⟩ := closed
  refine ⟨some', ?_⟩
  split at ends
  · next op known =>
    obtain ⟨r, stored, known⟩ := Option.bind_eq_some_iff.mp known
    refine ⟨{ op, a := r.a, b := r.b, c := r.c }, ?_, by rw [Statement.passes, ends]; rfl⟩
    rw [ImageBuilder.code, here, ← Array.back?_eq_getElem?, stored, Option.bind_some, RawStatement.decoded?, known,
      Option.map_some]
  · cases ends

/-- **Control from a finished function** goes into it, or to the statement just past its end; there only if the end of
    the body is exposed. -/
theorem finish_reaches (aimed : fb.Aimed) {i : Nat} {s : Statement} {t : Int} (low : fb.firstStatement ≤ i)
    (high : i < fb.finish.statements.size) (found : fb.finish.code i = some s) (leads : t ∈ s.successors i) :
    fb.firstStatement ≤ t ∧ (t < fb.finish.statements.size ∨ t = fb.finish.statements.size ∧ fb.Exposed) := by
  rw [size_finish] at high ⊢
  rw [code_finish] at found
  rw [Statement.mem_successors] at leads
  cases closed : fb.isClosed with
  | true =>
    rw [closed] at found high
    rw [if_pos rfl] at high ⊢
    rw [if_neg (by simp)] at found
    rcases leads with branch | ⟨passes, rfl⟩
    · have isAim := mem_aims.mpr ⟨i, s, low, high, found, branch⟩
      obtain ⟨above, below⟩ := aimed t isAim
      refine ⟨above, (Int.lt_or_eq_of_le below).imp_right fun same => ⟨same, closed, same ▸ isAim⟩⟩
    · -- The last statement is not one that control goes on from.
      obtain ⟨-, s', last, ends⟩ := last_of_isClosed closed
      have inner : i ≠ fb.here - 1 := by
        rintro rfl
        cases last.symm.trans found
        rw [ends] at passes
        cases passes
      exact ⟨by omega, .inl (by omega)⟩
  | false =>
    rw [closed] at found high
    rw [if_neg Bool.false_ne_true] at high ⊢
    by_cases last : i = fb.here
    · rw [if_pos ⟨rfl, last⟩] at found
      cases found
      rcases leads with branch | ⟨passes, -⟩
      · cases branch
      · cases passes
    · rw [if_neg fun h => last h.2] at found
      rcases leads with branch | ⟨-, rfl⟩
      · obtain ⟨above, below⟩ := aimed t (mem_aims.mpr ⟨i, s, low, by omega, found, branch⟩)
        exact ⟨above, .inl (by omega)⟩
      · exact ⟨by omega, .inl (by omega)⟩

/-- **The block of a finished function is closed exactly if the end of the body is not exposed.** -/
theorem finish_closed_iff (aimed : fb.Aimed) :
    Closed fb.finish.code fb.firstStatement fb.finish.statements.size ↔ ¬ fb.Exposed := by
  rw [closed_iff]
  constructor
  · intro closed exposed
    obtain ⟨i, s, low, high, found, leads⟩ := mem_aims.mp exposed.2
    have stop : fb.finish.statements.size = fb.here := by rw [size_finish, if_pos exposed.1]
    have same : fb.finish.code i = some s := by
      rw [code_finish, if_neg (by rw [exposed.1]; simp), found]
    have inside := closed i s fb.here low (stop ▸ high) same (Statement.mem_successors.mpr (.inl leads))
    rw [stop] at inside
    exact Int.lt_irrefl _ inside.2
  · intro hidden i s t low high found leads
    obtain ⟨above, below | ⟨-, exposed⟩⟩ := finish_reaches aimed low high found leads
    · exact ⟨above, below⟩
    · exact absurd exposed hidden

end FunctionBuilder

/-! ## 4. A definition, and what is assembled after it. -/

namespace FunctionBuilder

variable {fb : FunctionBuilder} {n : Nat}

/-- Allocating the parameters touches neither statements nor functions. -/
theorem start_image (b : ImageBuilder) (f : FuncRef) (sizes : List UInt8) :
    (start b f sizes).image.statements = b.statements ∧ (start b f sizes).image.functions = b.functions := by
  unfold start
  exact List.foldlRecOn
    (motive := fun p : List UInt16 × ImageBuilder => p.2.statements = b.statements ∧ p.2.functions = b.functions)
    (sizes.take Global.maxParms) _ ⟨rfl, rfl⟩ fun _ h _ _ => h

/-- An open function whose first `n` statements are those of `statements`. -/
def Extends (fb : FunctionBuilder) (statements : Array RawStatement) (n : Nat) : Prop :=
  n ≤ fb.here ∧ ∀ i, i < n → fb.image.statements[i]? = statements[i]?

variable {statements : Array RawStatement}

theorem Extends.emitRaw (h : fb.Extends statements n) (op : UInt16) (a b c : Int) :
    (fb.emitRaw op a b c).Extends statements n := by
  refine ⟨Nat.le_trans h.1 (shapes_emitRaw op a b c).here, fun i below => ?_⟩
  have inside : i < fb.image.statements.size := Nat.lt_of_lt_of_le below h.1
  rw [← h.2 i below, FunctionBuilder.emitRaw, Array.getElem?_push_lt inside, Array.getElem?_eq_getElem inside]

theorem Extends.call (h : fb.Extends statements n) (func : Int) (args : List (Int × ValueType)) :
    (fb.call func args).Extends statements n := by
  refine Extends.emitRaw ?_ _ _ _ _
  exact List.foldlRecOn (motive := fun fb : FunctionBuilder => fb.Extends statements n)
    (args.take Global.maxParms).zipIdx _ h fun _ h _ _ => h.emitRaw _ _ _ _

end FunctionBuilder

/-- The command aims no branch anew that stands before statement `n`. -/
def BodyCommand.Spares (n : Nat) : BodyCommand → Prop
  | .patchBranch pos _ => n ≤ pos
  | _ => True

namespace FunctionBuilder

variable {fb : FunctionBuilder} {n : Nat} {statements : Array RawStatement}

theorem Extends.perform (h : fb.Extends statements n) {c : BodyCommand} (spares : c.Spares n) :
    (fb.perform c).Extends statements n := by
  cases c with
  | allocLocal type => exact h
  | patchBranch pos target =>
    refine ⟨Nat.le_trans h.1 (shapes_perform (.patchBranch pos target)).here, fun i below => ?_⟩
    have other : pos ≠ i := Nat.ne_of_gt (Nat.lt_of_lt_of_le below spares)
    rw [← h.2 i below, FunctionBuilder.perform, patchBranch, Array.getElem?_modify, if_neg other]
  | call func args => exact h.call func args
  | _ => exact h.emitRaw _ _ _ _

theorem Extends.performAll (h : fb.Extends statements n) (cs : List BodyCommand) (spares : ∀ c ∈ cs, c.Spares n) :
    (fb.performAll cs).Extends statements n :=
  List.foldlRecOn (motive := fun fb : FunctionBuilder => fb.Extends statements n) cs _ h fun _ h c mem =>
    h.perform (spares c mem)

/-- Finishing fills in the record of the function, and no other. -/
theorem functions_finish (fb : FunctionBuilder) :
    fb.finish.functions = fb.image.functions.modify fb.func.toNat fb.record := by
  unfold finish
  split <;> rfl

/-- Finishing appends, if anything. -/
theorem Extends.finish (h : fb.Extends statements n) :
    n ≤ fb.finish.statements.size ∧ ∀ i, i < n → fb.finish.statements[i]? = statements[i]? := by
  unfold FunctionBuilder.finish
  split
  · exact h
  · obtain ⟨long, same⟩ := h.emitRaw 0 0 0 0
    exact ⟨long, same⟩

end FunctionBuilder

namespace ImageBuilder

variable {b later done : ImageBuilder} {f : FuncRef} {first : Nat}

/-- The definition of a function by commands to its body. -/
def defineBy (b : ImageBuilder) (f : FuncRef) (sizes : List UInt8) (cs : List BodyCommand) : ImageBuilder :=
  b.define f sizes (·.performAll cs)

/-- A declared function starts where its first statement was put. -/
theorem defineBy_record (declared : f.toNat < b.functions.size) (sizes : List UInt8) (cs : List BodyCommand) :
    ∃ r, (b.defineBy f sizes cs).functions[f.toNat]? = some r ∧ r.firstStatement = Int32.ofNat b.statements.size := by
  have shape := (FunctionBuilder.start b f sizes).shapes_performAll cs
  have functions : (b.defineBy f sizes cs).functions = b.functions.modify f.toNat
      ((FunctionBuilder.start b f sizes).performAll cs).record := by
    rw [ImageBuilder.defineBy, define, FunctionBuilder.functions_finish, shape.functions, shape.func,
      (FunctionBuilder.start_image b f sizes).2]
    rfl
  rw [functions, Array.getElem?_modify, if_pos rfl, Array.getElem?_eq_getElem declared, Option.map_some]
  exact ⟨_, rfl, congrArg Int32.ofNat shape.first⟩

/-- A defined function has a statement. -/
theorem defineBy_nonempty (b : ImageBuilder) (f : FuncRef) (sizes : List UInt8) (cs : List BodyCommand) :
    b.statements.size < (b.defineBy f sizes cs).statements.size := by
  have shape := (FunctionBuilder.start b f sizes).shapes_performAll cs
  have start : (FunctionBuilder.start b f sizes).here = b.statements.size :=
    congrArg Array.size (FunctionBuilder.start_image b f sizes).1
  have grown := shape.here
  rw [start] at grown
  rw [defineBy, define, FunctionBuilder.size_finish]
  split
  · next closed =>
    have some' := (FunctionBuilder.last_of_isClosed closed).1
    rwa [shape.first] at some'
  · omega

/-- **What is assembled later leaves a function alone**: its record and its statements, from `first` on. -/
structure Carries (later done : ImageBuilder) (f : FuncRef) (first : Nat) : Prop where
  record : later.functions[f.toNat]? = done.functions[f.toNat]?
  size : done.statements.size ≤ later.statements.size
  block : ∀ i, first ≤ i → i < done.statements.size → later.statements[i]? = done.statements[i]?

theorem Carries.refl (done : ImageBuilder) (f : FuncRef) (first : Nat) : done.Carries done f first :=
  ⟨rfl, Nat.le_refl _, fun _ _ _ => rfl⟩

/-- **The definition of another function leaves it alone**, if it aims no branch anew but its own. -/
theorem Carries.defineBy (h : later.Carries done f first) {g : FuncRef} (other : g ≠ f) (sizes : List UInt8)
    (cs : List BodyCommand) (own : ∀ c ∈ cs, c.Spares later.statements.size) :
    (later.defineBy g sizes cs).Carries done f first := by
  have shape := (FunctionBuilder.start later g sizes).shapes_performAll cs
  obtain ⟨statements, functions⟩ := FunctionBuilder.start_image later g sizes
  have opened : (FunctionBuilder.start later g sizes).Extends later.statements later.statements.size := by
    refine ⟨?_, fun i _ => by rw [statements]⟩
    exact Nat.le_of_eq (congrArg Array.size statements).symm
  obtain ⟨long, same⟩ := (opened.performAll cs own).finish
  refine ⟨?_, Nat.le_trans h.size long, fun i low high => ?_⟩
  · have apart : g.toNat ≠ f.toNat := fun e => other (UInt32.toNat_inj.mp e)
    have number : ((FunctionBuilder.start later g sizes).performAll cs).func = g := shape.func
    rw [ImageBuilder.defineBy, define, FunctionBuilder.functions_finish, number, shape.functions, functions,
      Array.getElem?_modify, if_neg apart]
    exact h.record
  · rw [← h.block i low high]
    exact same i (Nat.lt_of_lt_of_le high h.size)

end ImageBuilder

/-! ## 5. What is loaded. -/

/-- A loaded program has the statements that were assembled. -/
theorem Image.Shows.code {image : Image} {b : ImageBuilder} {options : LoadOptions} (h : image.Shows b.raw options)
    (i : Nat) : image.program.code i = b.code i := by
  have size : image.program.statements.size = b.statements.size := h.statements.size
  rw [Program.code, ImageBuilder.code]
  cases stored : b.statements[i]? with
  | none =>
    rw [Array.getElem?_eq_none_iff] at stored
    rw [Array.getElem?_eq_none_iff.mpr (size ▸ stored)]
    rfl
  | some r =>
    have inside : i < image.program.statements.size := size ▸ (Array.getElem?_eq_some_iff.mp stored).1
    have found := Array.getElem?_eq_getElem inside
    obtain ⟨op, a, b, c⟩ := h.statements.entry i r _ (by rw [← stored]; exact Array.getElem?_toList) found
    rw [found, Option.bind_some, RawStatement.decoded?, ← op, Opcode.ofNumber?_number, ← a, ← b, ← c]
    rfl

/-- The function that a loaded image has from a definition starts where its statements do. -/
theorem ImageBuilder.defineBy_entry {b : ImageBuilder} {f : FuncRef} {sizes : List UInt8} {cs : List BodyCommand}
    (declared : f.toNat < b.functions.size) {later : ImageBuilder}
    (carries : later.Carries (b.defineBy f sizes cs) f b.statements.size) (small : b.statements.size < 2 ^ 31)
    {image : Image} {options : LoadOptions} (shows : image.Shows later.raw options) {func : Function}
    (found : image.program.function? f = some func) : func.codeStart? = some b.statements.size := by
  obtain ⟨r, stored, first⟩ := defineBy_record declared sizes cs
  rw [← carries.record] at stored
  have read := shows.functions.entry f.toNat r func (by rw [← stored]; exact Array.getElem?_toList) found
  have start : r.firstStatement.toInt = b.statements.size := by
    rw [first]
    exact Int32.toInt_ofNat_of_lt small
  rw [Function.codeStart?, read.firstStatement, start, if_neg (by omega), Int.toNat_natCast]

end QuakeProgs
