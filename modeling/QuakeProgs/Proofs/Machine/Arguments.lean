/-
  File:      QuakeProgs/Proofs/Machine/Arguments.lean
  Subject:   WHAT A CALL OVERWRITES AND WHAT ITS RETURN PUTS BACK.

  A call saves as many words as the function declares, and copies in as many as its parameters have. The two
  are checked apart when an image is loaded, so a function may declare fewer words than its parameters have.

  * `Engine.copyArgs_refills` -- copying arguments touches the words of the parameters and nothing else;
  * `Function.Spills` -- the words that get an argument and are not saved;
  * `Engine.enter_then_leave` -- leaving a function right after it was entered puts back all others; where the
    declared words cover the parameters, that is the whole block;
  * `Engine.argument_left_behind` -- where they do not, an argument stays in the block.
-/
import QuakeProgs.Image.Builder
import QuakeProgs.Proofs.Machine.Reachable

namespace QuakeProgs

/-! ## 1. Copying. -/

namespace Machine

/-- The `n` global words from `dst` on may have changed, and nothing else. -/
structure Refills (m : Machine) (dst n : Nat) (m' : Machine) : Prop where
  rest : m' = { m with globals := m'.globals }
  size : m'.globals.size = m.globals.size
  outside : ∀ k, k < dst ∨ dst + n ≤ k → m'.globals.words[k]? = m.globals.words[k]?

theorem Refills.refl (m : Machine) (dst : Nat) : m.Refills dst 0 m := ⟨rfl, rfl, fun _ _ => rfl⟩

theorem Refills.trans {m m₁ m' : Machine} {dst n n' : Nat} (h : m.Refills dst n m₁)
    (h' : m₁.Refills (dst + n) n' m') : m.Refills dst (n + n') m' where
  rest := by
    rw [h'.rest]
    dsimp only
    rw [h.rest]
  size := h'.size.trans h.size
  outside k away := (h'.outside k (by omega)).trans (h.outside k (by omega))

end Machine

/-- The return point that was added last is the last one. -/
theorem CallStack.dropLast_add (s : CallStack) (frame : Frame) : (s.add frame).dropLast = s := by
  rw [CallStack.dropLast, CallStack.add, Array.pop_push]

/-- The words that were saved last are the last ones. -/
theorem LocalStack.last_append (s : LocalStack) (region : Array Word) :
    (s.append region).last region.size = .ok region := by
  simp [LocalStack.last, LocalStack.append, LocalStack.used]

theorem LocalStack.dropLast_append (s : LocalStack) (region : Array Word) :
    (s.append region).dropLast region.size = s := by
  simp [LocalStack.dropLast, LocalStack.append, LocalStack.used]

/-- The words of the parameters, added up. -/
theorem Function.parmWords_eq_sum (func : Function) : func.parmWords = func.passedSizes.sum :=
  List.sum_eq_foldl_nat.symm

/-- A run of words that can be read lies inside the block. -/
theorem GlobalBlock.le_of_slice {g : GlobalBlock} {ofs n : Nat} {ws : Array Word} (h : g.slice ofs n = .ok ws) :
    ofs + n ≤ g.size := by
  refine Decidable.byContradiction fun outside => ?_
  rw [slice, Block.slice?, if_neg (show ¬ ofs + n ≤ g.words.size from outside)] at h
  cases h

/-- A word that was read. -/
theorem GlobalBlock.getElem?_of_get {g : GlobalBlock} {ofs : Nat} {w : Word} (h : g.get ofs = .ok w) :
    g.words[ofs]? = some w := by
  unfold GlobalBlock.get at h
  split at h
  · next found => cases h; exact found
  · cases h

/-- The words that a run of words was read from. -/
theorem GlobalBlock.getElem?_of_slice {g : GlobalBlock} {ofs n : Nat} {ws : Array Word} (h : g.slice ofs n = .ok ws) :
    ws.size = n ∧ ∀ j, j < n → ws.toList[j]? = g.words[ofs + j]? := by
  have range := le_of_slice h
  cases (slice_of_le range).symm.trans h
  refine ⟨size_extract_of_le range, fun j hj => ?_⟩
  have inside : ofs + n ≤ g.words.size := range
  rw [Array.getElem?_toList, Array.getElem?_extract, if_pos (by omega)]

/-- The words of a run, put back into a block of the same size. -/
theorem GlobalBlock.getElem?_putBack {g g' : GlobalBlock} {ofs n : Nat} (range : ofs + n ≤ g.size)
    (size : g'.size = g.size) (k : Nat) :
    (g'.overwrite ofs (g.words.extract ofs (ofs + n)).toList).words[k]? =
      if ofs ≤ k ∧ k < ofs + n then g.words[k]? else g'.words[k]? := by
  have width : (g.words.extract ofs (ofs + n)).toList.length = n := by
    rw [Array.length_toList, size_extract_of_le range]
  have fits : ofs + (g.words.extract ofs (ofs + n)).toList.length ≤ g'.words.size := by
    rw [width]
    exact Nat.le_trans range (Nat.le_of_eq size.symm)
  rw [overwrite, Block.getElem?_writeFrom _ _ _ _ fits, width]
  split
  · next inside =>
    have bound : k - ofs < min (ofs + n) g.words.size - ofs := by
      have : ofs + n ≤ g.words.size := range
      omega
    rw [Array.getElem?_toList, Array.getElem?_extract, if_pos bound, Nat.add_sub_cancel' inside.1]
  · rfl

namespace Engine

variable {m m₁ : Machine} {f : FuncRef}

/-- **Writing** fills the places of the words and touches nothing else; words that have no place are not
    written. -/
theorem write_refills (m : Machine) (ofs : Nat) (ws : List Word) :
    Ends (write ofs ws) m
      (fun _ m' => m.Refills ofs ws.length m' ∧ ∀ j, j < ws.length → m'.globals.words[ofs + j]? = ws[j]?)
      fun _ m' => m = m' := by
  refine ends_update (fun _ checked => ?_) fun _ _ => rfl
  have inside : ofs + ws.length ≤ m.globals.words.size := GlobalBlock.check_eq_ok checked
  have written (k : Nat) := Block.getElem?_writeFrom _ _ k _ inside
  refine ⟨⟨rfl, GlobalBlock.size_overwrite _, fun k away => ?_⟩, fun j hj => ?_⟩
  · exact (written k).trans (if_neg (by omega))
  · refine (written (ofs + j)).trans ((if_pos (by omega)).trans ?_)
    rw [Nat.add_sub_cancel_left]

theorem copyWords_refills (m : Machine) (src dst n : Nat) :
    Ends (copyWords src dst n) m (fun _ m' => m.Refills dst n m') fun _ _ => True := by
  induction n generalizing m src dst with
  | zero => exact .refl m dst
  | succ n ih =>
    refine ends_bind (ends_reads (fun w _ => ?_) fun _ _ => trivial)
    refine ends_bind ((write_refills m dst [w]).mono (fun _ m₁ first => ?_) fun _ _ _ => trivial)
    refine (ih m₁ (src + 1) (dst + 1)).mono (fun _ m' others => ?_) fun _ _ _ => trivial
    rw [Nat.add_comm n 1]
    exact first.1.trans others

/-- **Copying arguments** touches the words of the parameters and nothing else. -/
theorem copyArgs_refills (m : Machine) (i dst : Nat) (sizes : List Nat) :
    Ends (copyArgs i dst sizes) m (fun _ m' => m.Refills dst sizes.sum m') fun _ _ => True := by
  induction sizes generalizing m i dst with
  | nil => exact .refl m dst
  | cons size sizes ih =>
    refine ends_bind ((copyWords_refills m _ dst size).mono (fun _ m₁ first => ?_) fun _ _ _ => trivial)
    refine (ih m₁ (i + 1) (dst + size)).mono (fun _ m' others => ?_) fun _ _ _ => trivial
    rw [List.sum_cons]
    exact first.trans others

/-! ## 2. Entering and leaving. -/

/-- The return point and the declared words are saved, and the arguments are copied. -/
theorem enter_copies (m : Machine) (f : FuncRef) :
    Ends (enter f) m
      (fun entry m' => ∃ func m₁, m.program.function? f = some func ∧ func.codeStart? = some entry ∧
        func.parmStart + func.locals ≤ m.globals.size ∧
        copyArgs 0 func.parmStart func.passedSizes (m.saving func) = .ok () m₁ ∧
        m' = { m₁ with current := f, profile := m₁.profile.call f }) fun _ _ => True := by
  refine ends_bind ((function_ends m f).mono ?_ fun _ _ _ => trivial)
  rintro func _ ⟨rfl, -, found⟩
  cases code : func.codeStart? with
  | none => exact trivial
  | some entry =>
    refine ends_bind ((pushFrame_ends m).mono ?_ fun _ _ _ => trivial)
    rintro _ _ ⟨-, rfl⟩
    refine ends_bind (ends_reads (fun region sliced => ?_) fun _ _ => trivial)
    -- words that are not there are not saved: the call fails first
    have range : func.parmStart + func.locals ≤ m.globals.size := GlobalBlock.le_of_slice sliced
    cases (GlobalBlock.slice_of_le range).symm.trans sliced
    refine ends_bind ((saveLocals_ends _ _).mono ?_ fun _ _ _ => trivial)
    rintro _ _ ⟨-, rfl⟩
    refine ends_bind (ends_iff.mpr ⟨fun _ m₁ copied => ?_, fun _ _ _ => trivial⟩)
    exact ends_bind (ends_modify (ends_pure ⟨func, m₁, found, code, range, copied, rfl⟩))

/-- What entering has done: the return point and the declared words are saved, and the words of the parameters
    are filled. -/
theorem enter_refills (m : Machine) (f : FuncRef) :
    Ends (enter f) m
      (fun _ m' => ∃ func m₁, m.program.function? f = some func ∧
        func.parmStart + func.locals ≤ m.globals.size ∧
        (m.saving func).Refills func.parmStart func.parmWords m₁ ∧
        m' = { m₁ with current := f, profile := m₁.profile.call f }) fun _ _ => True := by
  refine (enter_copies m f).mono ?_ fun _ _ _ => trivial
  rintro _ m' ⟨func, m₁, found, -, range, copied, eq⟩
  refine ⟨func, m₁, found, range, ?_, eq⟩
  rw [func.parmWords_eq_sum]
  exact (copyArgs_refills _ _ _ _).ok copied

/-- **Leaving a function whose words were saved**: they are back, and both stacks are shorter. -/
theorem leave_saved {func : Function} {calls : CallStack} {frame : Frame} {locals : LocalStack}
    {region : Array Word} (found : m.program.function? m.current = some func)
    (range : func.parmStart + func.locals ≤ m.globals.size) (called : m.calls = calls.add frame)
    (saved : m.locals = locals.append region) (width : region.size = func.locals) :
    leave m = .ok frame.statement { m with
      calls, locals
      globals := m.globals.overwrite func.parmStart region.toList
      current := frame.function
      statement := frame.statement } := by
  have deep : m.calls.depth ≠ 0 := by
    rw [called, CallStack.depth, CallStack.add, Array.size_push]
    omega
  have last : m.locals.last func.locals = .ok region := by rw [saved, ← width, LocalStack.last_append]
  have ends : Ends leave m (fun pc m' => pc = frame.statement ∧ m' = { m with
      calls, locals
      globals := m.globals.overwrite func.parmStart region.toList
      current := frame.function
      statement := frame.statement }) fun _ _ => False := by
    refine ends_bind (ends_get ?_)
    rw [found]
    dsimp only
    rw [if_neg deep]
    refine ends_bind (ends_reads (fun _ _ => ?_) fun e outside => GlobalBlock.check_ne_error range outside)
    refine ends_bind (ends_update (fun _ loaded => ?_) fun e empty => ?_)
    · cases loaded.symm.trans last
      refine ends_bind ((write_ends _ (by rw [Array.length_toList, width]; exact range)).mono ?_
        fun _ _ never => never)
      rintro _ _ rfl
      refine ends_bind ((popFrame_ends _ (by exact deep)).mono ?_ fun _ _ never => never)
      rintro popped _ ⟨back, rfl⟩
      have hframe : popped = frame := by
        rw [show _ = calls.add frame from called, CallStack.add, Array.back?_push] at back
        exact (Option.some.inj back).symm
      subst hframe
      refine ends_pure ⟨rfl, ?_⟩
      dsimp only
      rw [called, saved, ← width, LocalStack.dropLast_append, CallStack.dropLast_add]
    · cases empty.symm.trans last
  obtain ⟨_, _, left, rfl, rfl⟩ := ends.exists_ok
  exact left

end Engine

/-- A word that gets an argument and is not saved. -/
def Function.Spills (func : Function) (k : Nat) : Prop :=
  func.parmStart + func.locals ≤ k ∧ k < func.parmStart + func.parmWords

namespace Engine

variable {m m₁ : Machine} {f : FuncRef} {entry : Nat}

/-- **Leaving a function right after it was entered** gives back the stacks and the registers, and every word
    of the globals but those that spill; these hold what the arguments left in them. Where the declared words
    cover the parameters, no word spills, and the whole block is as before. -/
theorem enter_then_leave (entered : enter f m = .ok entry m₁) : ∃ func m₂,
    m.program.function? f = some func ∧ leave m₁ = .ok m.statement m₂ ∧
    m₂ = { m with globals := m₂.globals, profile := m.profile.call f } ∧
    (∀ k, ¬ func.Spills k → m₂.globals.words[k]? = m.globals.words[k]?) ∧
    (∀ k, func.Spills k → m₂.globals.words[k]? = m₁.globals.words[k]?) ∧
    (func.parmWords ≤ func.locals → m₂.globals = m.globals) := by
  obtain ⟨func, m', found, range, refills, rfl⟩ := (enter_refills m f).ok entered
  have width := GlobalBlock.size_extract_of_le range
  obtain ⟨g, rfl⟩ : ∃ g, m' = { m.saving func with globals := g } := ⟨_, refills.rest⟩
  have size : g.size = m.globals.size := refills.size
  have left := @leave_saved { m.saving func with globals := g, current := f, profile := m.profile.call f } func
    m.calls _ m.locals _ found (by rw [size]; exact range) rfl rfl width
  have put := GlobalBlock.getElem?_putBack range size
  have kept : ∀ k, ¬ func.Spills k → (g.overwrite func.parmStart (m.globals.words.extract func.parmStart
      (func.parmStart + func.locals)).toList).words[k]? = m.globals.words[k]? := by
    intro k dry
    rw [put]
    split
    · rfl
    -- a word that was not saved was no parameter either, unless it spills
    · next outside =>
      refine refills.outside k ?_
      rw [Function.Spills] at dry
      omega
  refine ⟨func, _, found, left, rfl, kept, fun k spills => ?_, fun covered => ?_⟩
  · refine (put k).trans (if_neg ?_)
    have behind := spills.1
    omega
  · refine congrArg GlobalBlock.mk (Array.ext_getElem? fun k => kept k ?_)
    rintro ⟨behind, within⟩
    omega

/-- A program of two functions with one parameter each, in word 92. The first declares no words, the second
    declares one. The argument is 7. -/
def spilling : ImageBuilder :=
  { statements := #[{}, { op := 43 }]
    functions := #[{},
      { firstStatement := 1, parmStart := 92, numParms := 1, parmSizes := #v[1, 0, 0, 0, 0, 0, 0, 0] },
      { firstStatement := 1, parmStart := 92, locals := 1, numParms := 1, parmSizes := #v[1, 0, 0, 0, 0, 0, 0, 0] }]
    globals := (Array.replicate 92 0).set! 4 7 ++ #[5] }

/-- The second function takes its argument, and its return puts the 5 back. -/
theorem enter_then_leave_covered : ∃ m entry m₁ m₂, Reachable default .core m ∧ enter 2 m = .ok entry m₁ ∧
    m₁.globals.words[92]? = some 7 ∧ leave m₁ = .ok m.statement m₂ ∧ m₂.globals = m.globals := by
  have loads : Machine.Loads spilling.build .small {} .core fun m =>
      ((m.program.function? 2).all fun func => func.parmWords ≤ func.locals) = true ∧
      Ends (enter 2) m (fun _ m₁ => m₁.globals.words[92]? = some 7) fun _ _ => False := by
    decide +kernel
  obtain ⟨m, reachable, covered, ends⟩ := loads.reachable default
  obtain ⟨entry, m₁, entered, taken⟩ := ends.exists_ok
  obtain ⟨func, m₂, found, left, -, -, -, whole⟩ := enter_then_leave entered
  rw [found, Option.all_some, decide_eq_true_eq] at covered
  exact ⟨m, entry, m₁, m₂, reachable, entered, taken, left, whole covered⟩

/-- **An argument stays behind.** The first function saves nothing, and its return puts nothing back. -/
theorem argument_left_behind : ∃ m entry m₁ m₂, Reachable default .core m ∧ enter 1 m = .ok entry m₁ ∧
    leave m₁ = .ok m.statement m₂ ∧ m₂.globals ≠ m.globals := by
  have loads : Machine.Loads spilling.build .small {} .core fun m =>
      m.globals.words[92]? = some 5 ∧
      Ends (enter 1) m (fun _ m₁ => Ends leave m₁ (fun pc m₂ => pc = m.statement ∧ m₂.globals.words[92]? = some 7)
        fun _ _ => False) fun _ _ => False := by
    decide +kernel
  obtain ⟨m, reachable, before, ends⟩ := loads.reachable default
  obtain ⟨entry, m₁, entered, ends⟩ := ends.exists_ok
  obtain ⟨_, m₂, left, rfl, after⟩ := ends.exists_ok
  refine ⟨m, entry, m₁, m₂, reachable, entered, left, fun same => ?_⟩
  rw [same, before] at after
  exact absurd after (by decide)

end Engine

end QuakeProgs
