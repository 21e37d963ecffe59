/-
  File:      QuakeProgs/Proofs/Machine/Passing.lean
  Subject:   ARGUMENTS AND RESULTS, word for word.

  A caller leaves its arguments in slots that are three words apart. The function has them packed, one right
  behind the other, each as wide as it says. The result goes to three words of its own, and only then the
  words of the function are put back.

  * `Function.parmOffset` -- where a parameter lies among the packed ones;
  * `Function.Receives` -- every word of every parameter is the word of its slot, and no other word changed;
  * `Engine.copyArgs_passes` -- copying does that wherever it does not write into the slots;
  * `Engine.return_passes` -- what a return leaves in the three words;
  * `Engine.passes_exactly` -- both, for every loaded program and every machine that holds it.
-/
import QuakeProgs.Proofs.Machine.Arguments

namespace QuakeProgs

/-! ## 1. Where the words lie. -/

namespace Function

/-- The words of parameter `i`. -/
def parmSize (func : Function) (i : Nat) : Nat := (func.parmSizes.toList.getD i 0).toNat

/-- Where parameter `i` lies: behind those before it. -/
def parmOffset (func : Function) (i : Nat) : Nat :=
  func.parmStart + ((func.parmSizes.toList.take i).map UInt8.toNat).sum

/-- One of the words of the parameters. -/
def IsParm (func : Function) (k : Nat) : Prop := func.parmStart ≤ k ∧ k < func.parmStart + func.parmWords

/-- No parameter lies in the slots that arguments are passed in. -/
def Apart (func : Function) : Prop := ∀ k, func.IsParm k → k < Global.firstParm ∨ Global.parmsEnd ≤ k

/-- No saved word is one of the three that a result is passed in. -/
def SparesResult (func : Function) : Prop :=
  ∀ k, func.parmStart ≤ k → k < func.parmStart + func.locals → k < Global.returned ∨ Global.returned + 3 ≤ k

/-- **The function has got its arguments**: `g` is the block before the call, `g'` the block at the entry. -/
structure Receives (func : Function) (g g' : GlobalBlock) : Prop where
  size : g'.size = g.size
  passed : ∀ i, i < func.parmCount → ∀ j, j < func.parmSize i →
    ∃ w, g.words[Global.parm i + j]? = some w ∧ g'.words[func.parmOffset i + j]? = some w
  outside : ∀ k, ¬ func.IsParm k → g'.words[k]? = g.words[k]?

theorem passedSizes_getElem? (func : Function) {i : Nat} (h : i < func.parmCount) :
    func.passedSizes[i]? = some (func.parmSize i) := by
  have few : func.parmCount ≤ 8 := Nat.min_le_right _ _
  have inside : i < func.parmSizes.toList.length := by
    rw [Vector.length_toList]
    omega
  rw [passedSizes, List.getElem?_map, List.getElem?_take_of_lt h, parmSize, List.getD_eq_getElem?_getD,
    List.getElem?_eq_getElem inside, Option.map_some, Option.getD_some]

theorem take_passedSizes (func : Function) {i : Nat} (h : i < func.parmCount) :
    func.passedSizes.take i = (func.parmSizes.toList.take i).map UInt8.toNat := by
  rw [passedSizes, ← List.map_take, List.take_take, Nat.min_eq_left (Nat.le_of_lt h)]

end Function

/-! ## 2. Copying. -/

namespace Engine

variable {m m' : Machine}

/-- Words that are not overwritten on the way are copied as they were. -/
theorem copyWords_passes (m : Machine) {src dst n : Nat} (apart : ∀ j, j < n → src + j < dst ∨ dst + n ≤ src + j) :
    Ends (copyWords src dst n) m
      (fun _ m' => m.Refills dst n m' ∧
        ∀ j, j < n → ∃ w, m.globals.words[src + j]? = some w ∧ m'.globals.words[dst + j]? = some w)
      fun _ _ => True := by
  induction n generalizing m src dst with
  | zero => exact ⟨.refl m dst, nofun⟩
  | succ n ih =>
    refine ends_bind (ends_reads (fun w read => ?_) fun _ _ => trivial)
    refine ends_bind ((write_refills m dst [w]).mono (fun _ m₁ first => ?_) fun _ _ _ => trivial)
    have apart' : ∀ j, j < n → src + 1 + j < dst + 1 ∨ dst + 1 + n ≤ src + 1 + j := fun j hj => by
      have := apart (j + 1) (by omega)
      omega
    refine (ih m₁ apart').mono (fun _ m₂ others => ⟨?_, fun j hj => ?_⟩) fun _ _ _ => trivial
    · rw [Nat.add_comm n 1]
      exact first.1.trans others.1
    cases j with
    | zero =>
      refine ⟨w, GlobalBlock.getElem?_of_get read, ?_⟩
      rw [others.1.outside (dst + 0) (by omega)]
      exact first.2 0 (by exact Nat.one_pos)
    | succ j =>
      obtain ⟨u, before, after⟩ := others.2 j (by omega)
      have := apart (j + 1) hj
      rw [first.1.outside (src + 1 + j) (by rw [List.length_singleton]; omega)] at before
      exact ⟨u, by rw [← Nat.add_assoc, Nat.add_right_comm]; exact before,
        by rw [← Nat.add_assoc, Nat.add_right_comm]; exact after⟩

/-- **Copying arguments** gives each of them its words, if none of these lies in the slots: a slot is read after
    the parameters before it were filled. -/
theorem copyArgs_passes (m : Machine) {i dst : Nat} {sizes : List Nat} (few : i + sizes.length ≤ Global.maxParms)
    (narrow : ∀ n ∈ sizes, n ≤ 3)
    (apart : ∀ k, dst ≤ k → k < dst + sizes.sum → k < Global.firstParm ∨ Global.parmsEnd ≤ k) :
    Ends (copyArgs i dst sizes) m
      (fun _ m' => m.Refills dst sizes.sum m' ∧
        ∀ l size, sizes[l]? = some size → ∀ j, j < size →
          ∃ w, m.globals.words[Global.parm (i + l) + j]? = some w ∧
            m'.globals.words[dst + (sizes.take l).sum + j]? = some w)
      fun _ _ => True := by
  induction sizes generalizing m i dst with
  | nil => exact ⟨.refl m dst, nofun⟩
  | cons size sizes ih =>
    rw [List.length_cons] at few
    rw [List.sum_cons] at apart
    -- a slot is no word of a parameter
    have slot : ∀ l j, l ≤ sizes.length → j < 3 →
        Global.parm (i + l) + j < dst ∨ dst + (size + sizes.sum) ≤ Global.parm (i + l) + j := fun l j hl hj => by
      have away := apart (Global.parm (i + l) + j)
      simp only [Global.parm, Global.firstParm, Global.parmsEnd, Global.maxParms] at away few ⊢
      omega
    have width := narrow size List.mem_cons_self
    have own : ∀ j, j < size → Global.parm i + j < dst ∨ dst + size ≤ Global.parm i + j := fun j hj => by
      have := slot 0 j (Nat.zero_le _) (by omega)
      rw [Nat.add_zero] at this
      omega
    refine ends_bind ((copyWords_passes m own).mono (fun _ m₁ first => ?_) fun _ _ _ => trivial)
    have behind : ∀ k, dst + size ≤ k → k < dst + size + sizes.sum → k < Global.firstParm ∨ Global.parmsEnd ≤ k :=
      fun k _ _ => apart k (by omega) (by omega)
    have others := @ih m₁ (i + 1) _ (by omega) (fun n hn => narrow n (List.mem_cons_of_mem _ hn)) behind
    refine others.mono (fun _ m₂ others => ⟨?_, fun l wide hl j hj => ?_⟩) fun _ _ _ => trivial
    · rw [List.sum_cons]
      exact first.1.trans others.1
    cases l with
    | zero =>
      cases hl
      obtain ⟨w, before, after⟩ := first.2 j hj
      refine ⟨w, before, ?_⟩
      rw [List.take_zero, List.sum_nil, Nat.add_zero, others.1.outside (dst + j) (by omega)]
      exact after
    | succ l =>
      rw [List.getElem?_cons_succ] at hl
      obtain ⟨inside, rfl⟩ := List.getElem?_eq_some_iff.mp hl
      have narrow' := narrow _ (List.mem_cons_of_mem _ (List.getElem_mem inside))
      obtain ⟨w, before, after⟩ := others.2 l _ hl j hj
      rw [Nat.add_right_comm, Nat.add_assoc] at before
      have := slot (l + 1) j (by omega) (by omega)
      rw [first.1.outside _ (by omega)] at before
      refine ⟨w, before, ?_⟩
      rw [List.take_succ_cons, List.sum_cons, ← Nat.add_assoc]
      exact after

end Engine

/-! ## 3. Entering. -/

/-- The machine at a call of so many arguments, as the function is about to be called. -/
def Machine.calling (m : Machine) (argc : Nat) : Machine := { m.fetched m.statement with argc }

namespace Engine

variable {m m' : Machine} {f : FuncRef} {func : Function} {entry : Nat} {dispatch : Native → Engine Unit}

theorem enter_receives (found : m.program.function? f = some func)
    (narrow : func.codeStart?.isSome → ∀ n ∈ func.passedSizes, n ≤ 3) (apart : func.Apart)
    (entered : enter f m = .ok entry m') : func.Receives m.globals m'.globals := by
  obtain ⟨_, m₁, found', code, -, copied, rfl⟩ := (enter_copies m f).ok entered
  cases found.symm.trans found'
  have few : 0 + func.passedSizes.length ≤ Global.maxParms := by
    rw [Nat.zero_add]
    exact length_passedSizes func
  have words := func.parmWords_eq_sum
  have passes := copyArgs_passes (m.saving func) few (narrow (Option.isSome_of_eq_some code)) fun k low high =>
    apart k ⟨low, by rw [words]; exact high⟩
  obtain ⟨refills, passed⟩ := passes.ok copied
  refine ⟨refills.size, fun i hi j hj => ?_, fun k other => refills.outside k ?_⟩
  · have := passed i _ (func.passedSizes_getElem? hi) j hj
    rw [Nat.zero_add, func.take_passedSizes hi] at this
    exact this
  · rw [← words]
    rw [Function.IsParm] at other
    omega

theorem program_of_enter (entered : enter f m = .ok entry m') : m'.program = m.program ∧ m'.current = f := by
  obtain ⟨func, m₁, -, -, refills, rfl⟩ := (enter_refills m f).ok entered
  rw [refills.rest]
  exact ⟨rfl, rfl⟩

/-- A call enters bytecode, or is served by a builtin and goes on behind it. -/
theorem call_enters (m : Machine) (f : FuncRef) :
    Ends (call dispatch f) m (fun flow m' => ∀ entry, flow = .jump entry → enter f m = .ok entry m')
      fun _ _ => True := by
  refine ends_bind ((function_ends m f).mono ?_ fun _ _ _ => trivial)
  rintro func _ ⟨rfl, -, -⟩
  cases func.builtinNumber? with
  | some number =>
    exact ends_bind (ends_iff.mpr ⟨fun _ _ _ => ends_pure nofun, fun _ _ _ => trivial⟩)
  | none =>
    refine ends_bind (ends_iff.mpr ⟨fun entry m' entered => ends_pure ?_, fun _ _ _ => trivial⟩)
    rintro _ ⟨⟩
    exact entered

/-- The turn at a call: the host is told, the statement and its arguments are counted, and the function is called. -/
theorem cycle_of_callee (h : m.callee? = some f) :
    ∃ argc, cycle dispatch m.statement m = call dispatch f (m.calling argc) := by
  unfold Machine.callee? at h
  split at h
  · next argc a b c hst =>
    refine ⟨argc.val, (cycle_eq hst).trans ?_⟩
    have read : GlobalBlock.get m.globals a.toUInt16.toNat = .ok f := by rw [GlobalBlock.get, h]
    exact bind_of_ok (reads_of_ok read)
  · cases h

end Engine

/-- **How bytecode is entered** from `m`: by the call that the machine stands at, or as the function that an
    execution runs. -/
inductive Machine.EntersBy (dispatch : Native → Engine Unit) (m : Machine) (f : FuncRef) : Machine → Prop
  | call {entry : Nat} {m' : Machine} : m.callee? = some f →
      Engine.cycle dispatch m.statement m = .ok (.jump entry) m' → EntersBy dispatch m f m'
  | execute {entry : Nat} {m' : Machine} : Engine.enter f m.started = .ok entry m' → EntersBy dispatch m f m'

/-- Either way the function is entered with the globals as they are. -/
theorem Machine.EntersBy.enters {dispatch : Native → Engine Unit} {m m' : Machine} {f : FuncRef}
    (h : m.EntersBy dispatch f m') : ∃ entry m₁, m₁.program = m.program ∧ m₁.globals = m.globals ∧
      Engine.enter f m₁ = .ok entry m' := by
  cases h with
  | call calls turned =>
    obtain ⟨argc, eq⟩ := Engine.cycle_of_callee calls
    rw [eq] at turned
    exact ⟨_, m.calling argc, rfl, rfl, (Engine.call_enters _ f).ok turned _ rfl⟩
  | execute entered => exact ⟨_, m.started, rfl, rfl, entered⟩

/-! ## 4. Leaving. -/

namespace Engine

variable {m m' : Machine} {func : Function} {dispatch : Native → Engine Unit}

/-- **Leaving** touches the saved words, the stacks and the registers; a function that cannot be left leaves
    the machine as it was. -/
theorem leave_refills (m : Machine) :
    Ends leave m
      (fun _ m' => ∃ func, m.program.function? m.current = some func ∧
        { m with calls := m'.calls, locals := m'.locals, current := m'.current, statement := m'.statement }.Refills
          func.parmStart func.locals m')
      fun _ m' => m = m' := by
  refine ends_bind (ends_get ?_)
  cases found : m.program.function? m.current with
  | none => rfl
  | some func =>
    dsimp only
    by_cases deep : m.calls.depth = 0
    · rw [if_pos deep]
      rfl
    rw [if_neg deep]
    refine ends_bind (ends_reads (fun _ checked => ?_) fun _ _ => rfl)
    have range : func.parmStart + func.locals ≤ m.globals.size := GlobalBlock.check_eq_ok checked
    refine ends_bind ((loadLocals_ends m func.locals).mono ?_ fun _ _ h => h.1)
    rintro _ _ ⟨held, rfl, rfl⟩
    have width := LocalStack.size_extract_of_le held
    -- the words have a place and there is a return point, so nothing fails from here on
    refine ends_bind ((write_ends _ (by rw [Array.length_toList, width]; exact range)).mono ?_ fun _ _ never => never)
    rintro _ _ rfl
    refine ends_bind ((popFrame_ends _ (by exact deep)).mono ?_ fun _ _ never => never)
    rintro frame _ ⟨-, rfl⟩
    refine ends_pure ⟨func, rfl, rfl, GlobalBlock.size_overwrite _, fun k away => ?_⟩
    refine (Block.getElem?_writeFrom _ _ k _ (by rw [Array.length_toList, width]; exact range)).trans (if_neg ?_)
    rw [Array.length_toList, width]
    omega

/-- **A return** leaves the three words from `a` on as they were before it, whatever these words are to the function:
    the result is written first, and putting the saved words back does not touch it. -/
theorem return_passes (found : m.program.function? m.current = some func) (spares : func.SparesResult) (a : Nat) :
    Ends (do returnWords a; return Flow.returned (← leave)) m
      (fun _ m' => ∀ j, j < 3 → m'.globals.words[Global.returned + j]? = some (m.globals.words.getD (a + j) 0))
      fun _ _ => True := by
  refine ends_bind (ends_bind (ends_get ((write_refills m _ _).mono (fun _ m₁ first => ?_) fun _ _ _ => trivial)))
  obtain ⟨refills, written⟩ := first
  refine ends_bind ((leave_refills m₁).mono ?_ fun _ _ _ => trivial)
  rintro _ m₂ ⟨func', found', put⟩
  rw [refills.rest] at found'
  cases found.symm.trans found'
  refine ends_pure fun j hj => ?_
  have outside := put.outside (Global.returned + j) (by have := spares (Global.returned + j); omega)
  refine (outside.trans (written j hj)).trans ?_
  match j, hj with
  | 0, _ => rfl
  | 1, _ => rfl
  | 2, _ => rfl

/-! ## 5. Every loaded program. -/

/-- **Arguments and results are passed exactly.** The machine holds a loaded program and is in any state. Bytecode
    whose parameters lie outside the slots has its arguments when it is entered, and nothing else has changed. A
    statement that returns leaves the three words of its operand as they were before it; words past the end count as
    zero. -/
theorem passes_exactly {bytes : Bytes} {options : LoadOptions} {image : Image}
    (loaded : Image.load bytes options = .ok image) {m : Machine} (holds : m.program = image.program)
    (dispatch : Native → Engine Unit) :
    (∀ f func m', m.program.function? f = some func → func.Apart → m.EntersBy dispatch f m' →
      func.Receives m.globals m'.globals) ∧
    (∀ func st caller m', m.program.function? m.current = some func → func.SparesResult →
      m.program.statements[m.statement]? = some st → st.op.isReturn = true →
      cycle dispatch m.statement m = .ok (.returned caller) m' →
      ∀ j, j < 3 → m'.globals.words[Global.returned + j]? = some (m.globals.words.getD (st.ga + j) 0)) := by
  constructor
  · intro f func m' found apart enters
    obtain ⟨entry, m₁, program, globals, entered⟩ := enters.enters
    have fits := (Image.load_checked loaded).program.functions f.toNat func (holds ▸ found)
    rw [← globals]
    exact enter_receives (program ▸ found) fits.widths apart entered
  · intro func st caller m' found spares hst returns turned
    rw [cycle_eq hst] at turned
    have passes := return_passes (m := m.fetched m.statement) found spares st.ga
    obtain ⟨op, a, b, c⟩ := st
    cases op with
    | done => exact passes.ok turned
    | ret => exact passes.ok turned
    | _ => cases returns

/-- A function of three parameters, of three words, of none and of one, all in the four words that it saves. It
    returns its third word, and there is only one behind that. -/
def packing : ImageBuilder :=
  { statements := #[{}, { op := 43, a := 94 }]
    functions := #[{}, { firstStatement := 1, parmStart := 92, locals := 4, numParms := 3
                         parmSizes := #v[3, 0, 1, 0, 0, 0, 0, 0] }]
    globals := ((((Array.replicate 96 0).set! 4 7).set! 5 8).set! 6 9).set! 10 11 }

/-- The function gets the 7, the 8, the 9 and the 11. It returns the last two and a zero, although its words are put
    back before the caller goes on. -/
theorem passes_exactly_packed : ∃ (image : Image) (m m₁ m₂ : Machine) (func : Function),
    Image.load packing.build .small = .ok image ∧ m.program = image.program ∧
    m.program.function? 1 = some func ∧ func.Apart ∧ func.SparesResult ∧
    m.EntersBy (Dispatch.link default 0) 1 m₁ ∧ m₁.globals.words.extract 92 96 = #[7, 8, 9, 11] ∧
    func.Receives m.globals m₁.globals ∧
    cycle (Dispatch.link default 0) 1 (m₁.moveTo 1) = .ok (.returned 0) m₂ ∧
    ∀ j, j < 3 → m₂.globals.words[Global.returned + j]? = some (m₁.globals.words.getD (94 + j) 0) := by
  have loads : Machine.Loads packing.build .small {} .core fun m =>
      (m.program.function? 1).map (fun func => (func.parmStart, func.parmWords, func.locals)) = some (92, 4, 4) ∧
      m.program.statements[1]? = some ⟨.ret, 94, 0, 0⟩ ∧
      Ends (enter 1) m.started (fun _ m₁ => m₁.globals.words.extract 92 96 = #[7, 8, 9, 11] ∧
        Ends (cycle (Dispatch.link default 0) 1) (m₁.moveTo 1) (fun flow _ => flow = .returned 0) fun _ _ => False)
        fun _ _ => False := by
    decide +kernel
  obtain ⟨image, m, loaded, holds, shape, statement, ends⟩ := loads.holding
  obtain ⟨entry, m₁, entered, words, ends⟩ := ends.exists_ok
  obtain ⟨_, m₂, turned, rfl⟩ := ends.exists_ok
  obtain ⟨func, found, shape⟩ := Option.map_eq_some_iff.mp shape
  obtain ⟨start, -⟩ : func.parmStart = 92 ∧ func.parmWords = 4 ∧ func.locals = 4 := by simpa using shape
  have apart : func.Apart := fun k parm => by
    rw [Function.IsParm, start] at parm
    exact .inr (by rw [Global.parmsEnd]; omega)
  have spares : func.SparesResult := fun k low _ => by
    rw [start] at low
    exact .inr (by rw [Global.returned]; omega)
  have enters : m.EntersBy (Dispatch.link default 0) 1 m₁ := .execute entered
  have receives := (passes_exactly loaded holds (Dispatch.link default 0)).1 1 func m₁ found apart enters
  obtain ⟨program, current⟩ := program_of_enter entered
  have results := (passes_exactly (m := m₁.moveTo 1) loaded (program.trans holds) (Dispatch.link default 0)).2 func
    ⟨.ret, 94, 0, 0⟩ 0 m₂ (by exact program ▸ current ▸ found) spares (by exact program ▸ statement) rfl turned
  exact ⟨image, m, m₁, m₂, func, loaded, holds, found, apart, spares, enters, words, receives, turned, results⟩

end Engine

end QuakeProgs
