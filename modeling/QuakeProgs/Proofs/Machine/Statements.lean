/-
  File:      QuakeProgs/Proofs/Machine/Statements.lean
  Subject:   WHAT STATEMENTS, CALLS AND RETURNS DO to a machine whose program was checked.

  * `Engine.compute_quiet` -- a statement that fits and neither branches, calls nor returns is quiet;
  * `Machine.Enters`, `Engine.enter_ends` -- entering bytecode adds one return point and one saved
    range, and fails only for want of room;
  * `Machine.Leaves`, `Engine.leave_ends` -- leaving takes off exactly what entering adds, and puts the
    saved words back.
-/
import QuakeProgs.Proofs.Image.Acceptance
import QuakeProgs.Proofs.Machine.Builtins

namespace QuakeProgs

/-! ## 1. Computing. -/

namespace Engine

variable {α β : Type} {m₀ : Machine}

/-- A read whose result is known to satisfy something, and what follows. -/
theorem Quiet.readsBind {f : Machine → Except Error β} {g : β → Engine α}
    (herr : ∀ m, m₀.Stays m → ∀ e, f m = .error e → m₀.Admits e.cause)
    (hg : ∀ m, m₀.Stays m → ∀ b, f m = .ok b → Quiet m₀ (g b)) : Quiet m₀ (Engine.reads f >>= g) :=
  fun m hm => ends_bind (ends_reads (fun b hb => hg m hm b hb m hm) fun e he => ⟨hm, herr m hm e he⟩)

/-- What is read from the globals and what follows, the words being as many as were asked for. -/
theorem slice_bind_quiet {ofs n : Nat} {g : Array Word → Engine α} (h : ofs + n ≤ m₀.globals.size)
    (hg : ∀ ws, ws.size = n → Quiet m₀ (g ws)) : Quiet m₀ (slice ofs n >>= g) := by
  refine .readsBind (fun m hm e he => ?_) fun m hm ws hws => hg ws ?_
  · exact absurd he (GlobalBlock.slice_ne_error (hm.globals ▸ h))
  · rw [GlobalBlock.slice_of_le (hm.globals ▸ h)] at hws
    cases hws
    exact GlobalBlock.size_extract_of_le (hm.globals ▸ h)

theorem compareStrings_quiet {a b : Nat} (ha : a < m₀.globals.size) (hb : b < m₀.globals.size) :
    Quiet m₀ (compareStrings a b) := by
  refine (word_quiet ha).bind fun x => (word_quiet hb).bind fun y => .reads fun m _ e he => ?_
  unfold StringTable.compare at he
  cases hx : m.strings.get x.toRef with
  | error e' =>
    rw [hx] at he
    cases he
    rw [get_string_error hx]
    trivial
  | ok s =>
    rw [hx] at he
    cases hy : m.strings.get y.toRef with
    | error e' =>
      rw [hy] at he
      cases he
      rw [get_string_error hy]
      trivial
    | ok t =>
      rw [hy] at he
      cases he

theorem isNone_quiet (k : RefKind) (w : Word) : Quiet m₀ (isNone k w) := by
  cases k with
  | string => exact Quiet.get.bind fun _ => .pure _
  | entity => exact .pure _
  | function => exact .pure _

theorem load_quiet {a b c n : Nat} (ha : a < m₀.globals.size) (hb : b < m₀.globals.size)
    (hc : c + n ≤ m₀.globals.size) : Quiet m₀ (load a b c n) := by
  refine (word_quiet ha).bind fun id => (word_quiet hb).bind fun field => ?_
  refine .readsBind (fun m _ e he => words_error he) fun m _ ws hws => write_quiet ?_
  have size : ws.size = n := by
    cases hg : m.edicts.get id with
    | error e => rw [hg] at hws; cases hws
    | ok rec =>
      rw [hg] at hws
      simp only [bind, Except.bind, Edict.words, Block.slice?] at hws
      split at hws
      · next h =>
        cases hws
        split at h
        · cases h
          rw [Array.size_extract]
          omega
        · cases h
      · cases hws
  rw [Array.length_toList, size]
  exact hc

theorem address_quiet {a b c : Nat} (ha : a < m₀.globals.size) (hb : b < m₀.globals.size)
    (hc : c < m₀.globals.size) : Quiet m₀ (address a b c) := by
  refine (word_quiet ha).bind fun id => checkWorldWrite_quiet fun _ => ?_
  refine (edict_quiet id).bind fun _ => (word_quiet hb).bind fun _ => ?_
  refine (Quiet.reads fun m _ e he => ?_).bind fun _ => setWord_quiet hc
  unfold FieldPointer.encode at he
  split at he
  · cases he; trivial
  · dsimp only at he
    split at he
    · cases he
    · cases he; trivial

/-- A pointer is looked at when it is used, so one that was made earlier or made up leads to the world
    no more than a fresh one. -/
theorem storeThrough_quiet {a b n : Nat} (ha : a + n ≤ m₀.globals.size) (hb : b < m₀.globals.size) :
    Quiet m₀ (storeThrough a b n) := by
  refine (word_quiet hb).bind fun ptr => (Quiet.reads fun m _ e he => ?_).bind fun target => ?_
  · unfold FieldPointer.decode at he
    split at he
    · cases he; trivial
    · cases he
  · exact checkWorldWrite_quiet fun hw => (slice_quiet ha).bind fun _ => writeField_quiet hw

/-- Writing a field that a program may not have. -/
theorem writeOptional_quiet {id : EdictId} (hid : id = 0 → ¬ m₀.WorldClosed) (ofs : Option Nat) (w : Word) :
    Quiet m₀ (match ofs with
      | some ofs => writeField id ofs [w]
      | none => pure ()) := by
  cases ofs with
  | none => exact .pure _
  | some ofs => exact writeField_quiet hid

theorem state_quiet {a b : Nat} (hw : Global.count ≤ m₀.globals.size) (ha : a < m₀.globals.size)
    (hb : b < m₀.globals.size) : Quiet m₀ (state a b) := by
  refine (word_quiet (Nat.lt_of_lt_of_le (by decide) hw)).bind fun id => checkWorldWrite_quiet fun hid => ?_
  refine (float_quiet (Nat.lt_of_lt_of_le (by decide) hw)).bind fun time => ?_
  refine (word_quiet ha).bind fun frame => (word_quiet hb).bind fun think => ?_
  refine (edict_quiet id).bind fun _ => Quiet.get.bind fun m => ?_
  exact (writeOptional_quiet hid _ _).bind fun _ => (writeOptional_quiet hid _ _).bind fun _ =>
    writeOptional_quiet hid _ _

/-- **Computing is quiet**, for a statement whose operands fit. -/
theorem compute_quiet {st : Statement} {index count : Nat} (hw : Global.count ≤ m₀.globals.size)
    (h : st.Fits index count m₀.globals.size) : Quiet m₀ (compute st) := by
  obtain ⟨op, a, b, c⟩ := st
  obtain ⟨ha, hb, hc⟩ := h
  cases op with
  | done => exact .pure _
  | ret => exact .pure _
  | float op => exact (float_quiet ha).bind fun _ => (float_quiet hb).bind fun _ => setFloat_quiet hc
  | vector op => exact (vector_quiet ha).bind fun _ => (vector_quiet hb).bind fun _ => setVector_quiet hc
  | dot => exact (vector_quiet ha).bind fun _ => (vector_quiet hb).bind fun _ => setFloat_quiet hc
  | scaleLeft => exact (float_quiet ha).bind fun _ => (vector_quiet hb).bind fun _ => setVector_quiet hc
  | scaleRight => exact (vector_quiet ha).bind fun _ => (float_quiet hb).bind fun _ => setVector_quiet hc
  | eqVector => exact (vector_quiet ha).bind fun _ => (vector_quiet hb).bind fun _ => setFlag_quiet hc
  | neVector => exact (vector_quiet ha).bind fun _ => (vector_quiet hb).bind fun _ => setFlag_quiet hc
  | eqRef k =>
    cases k with
    | string => exact (compareStrings_quiet ha hb).bind fun _ => setFlag_quiet hc
    | entity => exact (word_quiet ha).bind fun _ => (word_quiet hb).bind fun _ => setFlag_quiet hc
    | function => exact (word_quiet ha).bind fun _ => (word_quiet hb).bind fun _ => setFlag_quiet hc
  | neRef k =>
    cases k with
    | string => exact (compareStrings_quiet ha hb).bind fun _ => setFloat_quiet hc
    | entity => exact (word_quiet ha).bind fun _ => (word_quiet hb).bind fun _ => setFlag_quiet hc
    | function => exact (word_quiet ha).bind fun _ => (word_quiet hb).bind fun _ => setFlag_quiet hc
  | load s => exact load_quiet ha hb hc
  | address => exact address_quiet ha hb hc
  | store s =>
    refine slice_bind_quiet ha fun ws hws => write_quiet ?_
    rw [Array.length_toList, hws]
    exact hb
  | storeThrough s => exact storeThrough_quiet ha hb
  | notFloat => exact (float_quiet ha).bind fun _ => setFlag_quiet hc
  | notVector => exact (vector_quiet ha).bind fun _ => setFlag_quiet hc
  | notRef k => exact (word_quiet ha).bind fun _ => (isNone_quiet k _).bind fun _ => setFlag_quiet hc
  | branchIf => exact .pure _
  | branchIfNot => exact .pure _
  | goto => exact .pure _
  | call argc => exact .pure _
  | state => exact state_quiet hw ha hb

end Engine

/-! ## 2. Entering. -/

theorem CallStack.checkRoom_ok {s : CallStack} {u : Unit} (h : s.checkRoom = .ok u) : s.depth < s.limit := by
  unfold checkRoom at h
  split at h
  · cases h
  · next hl => exact Nat.not_le.mp hl

theorem CallStack.checkRoom_error {s : CallStack} {e : Error} (h : s.checkRoom = .error e) :
    e.cause = .stackOverflow s.limit := by
  unfold checkRoom at h
  split at h
  · cases h; rfl
  · cases h

theorem LocalStack.checkRoom_ok {s : LocalStack} {n : Nat} {u : Unit} (h : s.checkRoom n = .ok u) :
    s.used + n ≤ s.capacity := by
  unfold checkRoom at h
  split at h
  · cases h
  · next hl => exact Nat.not_lt.mp hl

theorem LocalStack.checkRoom_error {s : LocalStack} {n : Nat} {e : Error}
    (h : s.checkRoom n = .error e) : e.cause = .localStackOverflow n s.used s.capacity := by
  unfold checkRoom at h
  split at h
  · cases h; rfl
  · cases h

namespace Machine

/-- What running code relies on: the program was checked against the block, the string ring and the
    entities are in order. -/
structure Ready (m : Machine) : Prop where
  program : m.program.Checked m.globals.size
  cursor : m.strings.CursorFits
  edicts : m.edicts.Tiled

variable {m m' : Machine}

theorem Ready.evolves (h : m.Ready) (h' : m.Evolves m') : m'.Ready where
  program := by
    rw [h'.program, h'.globals]
    exact h.program
  cursor := h'.cursor
  edicts := h'.edicts

/-- The machine once the return point and the words of the function's range are saved. -/
def saving (m : Machine) (func : Function) : Machine :=
  { m with
    calls := m.calls.add { statement := m.statement, function := m.current }
    locals := m.locals.append (m.globals.words.extract func.parmStart (func.parmStart + func.locals)) }

/-- **Entering a function**: a return point is added, and the words of the function's range. -/
structure Enters (m : Machine) (f : FuncRef) (func : Function) (entry : Nat) (m' : Machine) : Prop where
  evolves : m.Evolves m'
  found : m.program.function? f = some func
  code : func.codeStart? = some entry
  inside : entry < m.program.statements.size
  room : m.calls.depth < m.calls.limit
  space : m.locals.used + func.locals ≤ m.locals.capacity
  range : func.parmStart + func.locals ≤ m.globals.size
  calls : m'.calls = m.calls.add { statement := m.statement, function := m.current }
  locals : m'.locals =
    m.locals.append (m.globals.words.extract func.parmStart (func.parmStart + func.locals))
  current : m'.current = f
  state : m'.state = m.state

end Machine

namespace Engine

variable {m m₀ : Machine}

/-- A function is found, or there is none to call. -/
theorem function_ends (m : Machine) (f : FuncRef) :
    Ends (function f) m (fun func m' => m = m' ∧ f ≠ 0 ∧ m.program.function? f = some func)
      fun e m' => m = m' ∧ m.Admits e.cause := by
  unfold function
  by_cases h0 : f = 0
  · rw [if_pos h0]
    exact ⟨rfl, trivial⟩
  · rw [if_neg h0]
    refine ends_bind (ends_get ?_)
    dsimp only
    cases hf : m.program.function? f with
    | none => exact ⟨rfl, trivial⟩
    | some func => exact ⟨rfl, h0, rfl⟩

/-- A function that the program has is found. -/
theorem function_of_found {g : FuncRef} {func : Function} (known : g ≠ 0)
    (found : m.program.function? g = some func) :
    function g m = .ok func m := by
  rw [function, if_neg known, get_bind, found]
  rfl

theorem copyWords_quiet {src dst n : Nat} (hs : src + n ≤ m₀.globals.size)
    (hd : dst + n ≤ m₀.globals.size) : Quiet m₀ (copyWords src dst n) := by
  induction n generalizing src dst with
  | zero => exact .pure _
  | succ n ih =>
    refine (word_quiet (by omega)).bind fun _ => (setWord_quiet (by omega)).bind fun _ => ?_
    exact ih (by omega) (by omega)

/-- At most eight arguments of at most three words each. -/
theorem copyArgs_quiet (hw : Global.count ≤ m₀.globals.size) {i dst : Nat} {sizes : List Nat}
    (hi : i + sizes.length ≤ 8) (h3 : ∀ n ∈ sizes, n ≤ 3) (hd : dst + sizes.sum ≤ m₀.globals.size) :
    Quiet m₀ (copyArgs i dst sizes) := by
  induction sizes generalizing i dst with
  | nil => exact .pure _
  | cons size sizes ih =>
    rw [List.length_cons] at hi
    rw [List.sum_cons] at hd
    have parm := parm_lt hw (n := i) (by omega)
    have wide := h3 size List.mem_cons_self
    refine (copyWords_quiet (by omega) (by omega)).bind fun _ => ?_
    exact ih (by omega) (fun n hn => h3 n (List.mem_cons_of_mem _ hn)) (by omega)

theorem length_passedSizes (f : Function) : f.passedSizes.length ≤ 8 := by
  rw [Function.passedSizes, List.length_map, List.length_take]
  have : f.parmCount ≤ 8 := Nat.min_le_right _ _
  omega

/-- The arguments of bytecode that fits have a place. -/
theorem passedSizes_quiet {func : Function} {index count : Nat} (hw : Global.count ≤ m₀.globals.size)
    (fits : func.Fits index count m₀.globals.size) (code : func.codeStart?.isSome) :
    Quiet m₀ (copyArgs 0 func.parmStart func.passedSizes) := by
  refine copyArgs_quiet hw ?_ (fits.widths code) (fits.parms code)
  rw [Nat.zero_add]
  exact length_passedSizes func

/-- What is asked of a loaded function that is bytecode. -/
theorem fits_of_function? (h : m.Ready) {f : FuncRef} {func : Function}
    (hf : m.program.function? f = some func) :
    func.Fits f.toNat m.program.statements.size m.globals.size :=
  h.program.functions f.toNat func hf

theorem pushFrame_ends (m : Machine) :
    Ends pushFrame m
      (fun _ m' => m.calls.depth < m.calls.limit ∧
        { m with calls := m.calls.add { statement := m.statement, function := m.current } } = m')
      fun e m' => m = m' ∧ m.Admits e.cause := by
  refine ends_update (fun _ h => ⟨CallStack.checkRoom_ok h, rfl⟩) fun e h => ⟨rfl, ?_⟩
  rw [CallStack.checkRoom_error h]
  trivial

theorem saveLocals_ends (m : Machine) (region : Array Word) :
    Ends (saveLocals region) m
      (fun _ m' => m.locals.used + region.size ≤ m.locals.capacity ∧
        { m with locals := m.locals.append region } = m')
      fun e m' => m = m' ∧ m.Admits e.cause := by
  refine ends_update (fun _ h => ⟨LocalStack.checkRoom_ok h, rfl⟩) fun e h => ⟨rfl, ?_⟩
  rw [LocalStack.checkRoom_error h]
  trivial

theorem slice_ends (m : Machine) {ofs n : Nat} (h : ofs + n ≤ m.globals.size)
    {E : Error → Machine → Prop} :
    Ends (slice ofs n) m (fun ws m' => m = m' ∧ m.globals.words.extract ofs (ofs + n) = ws) E := by
  refine ends_reads (fun ws hws => ?_) fun e he => absurd he (GlobalBlock.slice_ne_error h)
  rw [GlobalBlock.slice_of_le h] at hws
  cases hws
  exact ⟨rfl, rfl⟩

/-- **Entering** adds a return point and the saved range. Of bytecode, it fails only for want of room or
    of the function. -/
theorem enter_ends (h : m.Ready) (f : FuncRef) :
    Ends (enter f) m (fun entry m' => ∃ func, m.Enters f func entry m')
      fun e m' => m.Evolves m' ∧
        ((∀ func, m.program.function? f = some func → func.codeStart?.isSome) → m.Admits e.cause) := by
  have evolves := Machine.Evolves.refl h.cursor h.edicts
  refine ends_bind ((function_ends m f).mono ?_ fun e m' ⟨hm, he⟩ => ⟨hm ▸ evolves, fun _ => he⟩)
  intro func _ hres
  obtain ⟨rfl, h0, hf⟩ := hres
  cases hentry : func.codeStart? with
  | none =>
    refine ⟨evolves, fun hcode => ?_⟩
    have := hcode func hf
    rw [hentry] at this
    cases this
  | some entry =>
    have fits := fits_of_function? h hf
    have code := Option.isSome_of_eq_some hentry
    have range := fits.locals code
    refine ends_bind ((pushFrame_ends m).mono ?_ fun e m' ⟨hm, he⟩ => ⟨hm ▸ evolves, fun _ => he⟩)
    intro _ _ hres
    obtain ⟨room, rfl⟩ := hres
    refine ends_bind ((slice_ends _ (by exact range)).mono ?_ fun _ _ he => he)
    intro _ _ hres
    obtain ⟨rfl, rfl⟩ := hres
    refine ends_bind ((saveLocals_ends _ _).mono ?_ fun e m' ⟨hm, he⟩ =>
      ⟨hm ▸ { evolves with }, fun _ => he⟩)
    intro _ _ hres
    obtain ⟨space, rfl⟩ := hres
    rw [GlobalBlock.size_extract_of_le range] at space
    have copied : Quiet (m.saving func) (copyArgs 0 func.parmStart func.passedSizes) :=
      passedSizes_quiet h.program.wellKnown fits code
    refine ends_bind ((copied (m.saving func) (.refl h.cursor h.edicts)).mono ?_ ?_)
    · intro _ m' stays
      refine ends_bind (ends_modify (ends_pure ⟨func, ?_⟩))
      exact {
        evolves := { stays.toEvolves with }
        found := hf
        code := hentry
        inside := fits.entry entry hentry fun hz => h0 (UInt32.toNat.inj hz)
        room, space, range
        calls := stays.calls
        locals := stays.locals
        current := rfl
        state := stays.state }
    · intro e m' hres
      obtain ⟨stays, he⟩ := hres
      exact ⟨{ stays.toEvolves with }, fun _ => he⟩

end Engine

/-! ## 3. Leaving. -/

theorem LocalStack.last_eq_ok {s : LocalStack} {n : Nat} {ws : Array Word} (h : s.last n = .ok ws) :
    n ≤ s.used ∧ s.words.extract (s.used - n) s.used = ws := by
  unfold LocalStack.last at h
  split at h
  · cases h
  · next hn =>
    cases h
    exact ⟨Nat.not_lt.mp hn, rfl⟩

theorem LocalStack.size_extract_of_le {s : LocalStack} {n : Nat} (h : n ≤ s.used) :
    (s.words.extract (s.used - n) s.used).size = n := by
  rw [Array.size_extract]
  simp only [LocalStack.used] at h ⊢
  omega

theorem LocalStack.last_eq_error {s : LocalStack} {n : Nat} {e : Error} (h : s.last n = .error e) :
    s.used < n := by
  unfold LocalStack.last at h
  split at h
  · next hn => exact hn
  · cases h

theorem GlobalBlock.check_eq_ok {g : GlobalBlock} {ofs n : Nat} {u : Unit} (h : g.check ofs n = .ok u) :
    ofs + n ≤ g.size := by
  unfold check at h
  split at h
  · next hn => exact hn
  · cases h

theorem CallStack.last_eq_ok {s : CallStack} {f : Frame} (h : s.last = .ok f) :
    s.frames.back? = some f := by
  unfold CallStack.last at h
  split at h
  · next hf =>
    cases h
    exact hf
  · cases h

theorem CallStack.last_eq_error {s : CallStack} {e : Error} (h : s.last = .error e) : s.depth = 0 := by
  unfold CallStack.last at h
  split at h
  · cases h
  · next hf => rw [CallStack.depth, Array.back?_eq_none_iff.mp hf]; rfl

namespace Machine

/-- The running function is bytecode that was entered, and the words saved for it are there. -/
structure CanLeave (m : Machine) (func : Function) : Prop where
  found : m.program.function? m.current = some func
  code : func.codeStart?.isSome
  depth : m.calls.depth ≠ 0
  held : func.locals ≤ m.locals.used

/-- **Leaving a function**: the return point and the saved words are taken off, and the words are back
    in their place. -/
structure Leaves (m : Machine) (func : Function) (frame : Frame) (m' : Machine) : Prop where
  evolves : m.Evolves m'
  found : m.program.function? m.current = some func
  last : m.calls.frames.back? = some frame
  held : func.locals ≤ m.locals.used
  calls : m'.calls = m.calls.dropLast
  locals : m'.locals = m.locals.dropLast func.locals
  current : m'.current = frame.function
  state : m'.state = m.state
  restored : ∀ k, k < func.locals →
    m'.globals.words[func.parmStart + k]? = m.locals.words[m.locals.used - func.locals + k]?

end Machine

namespace Engine

variable {m : Machine}

theorem loadLocals_ends (m : Machine) (n : Nat) :
    Ends (loadLocals n) m
      (fun ws m' => n ≤ m.locals.used ∧ m.locals.words.extract (m.locals.used - n) m.locals.used = ws ∧
        { m with locals := m.locals.dropLast n } = m')
      fun _ m' => m = m' ∧ m.locals.used < n :=
  ends_update (fun _ h => ⟨(LocalStack.last_eq_ok h).1, (LocalStack.last_eq_ok h).2, rfl⟩)
    fun _ h => ⟨rfl, LocalStack.last_eq_error h⟩

theorem write_ends (m : Machine) {ofs : Nat} {ws : List Word} (h : ofs + ws.length ≤ m.globals.size)
    {E : Error → Machine → Prop} :
    Ends (write ofs ws) m (fun _ m' => { m with globals := m.globals.overwrite ofs ws } = m') E :=
  ends_update (fun _ _ => rfl) fun _ he => absurd he (GlobalBlock.check_ne_error h)

theorem popFrame_ends (m : Machine) (h : m.calls.depth ≠ 0) {E : Error → Machine → Prop} :
    Ends popFrame m
      (fun frame m' => m.calls.frames.back? = some frame ∧
        { m with calls := m.calls.dropLast, current := frame.function, statement := frame.statement } = m')
      E :=
  ends_update (fun _ hf => ⟨CallStack.last_eq_ok hf, rfl⟩)
    fun _ he => absurd (CallStack.last_eq_error he) h

/-- The words of a range after they were overwritten by as many others. -/
theorem getElem?_overwrite {g : GlobalBlock} {ofs k : Nat} {ws : Array Word} (h : ofs + ws.size ≤ g.size)
    (hk : k < ws.size) : (g.overwrite ofs ws.toList).words[ofs + k]? = ws[k]? := by
  rw [GlobalBlock.overwrite, Block.getElem?_writeFrom _ _ _ _ (by rw [Array.length_toList]; exact h),
    Array.length_toList, if_pos (by omega), Nat.add_sub_cancel_left, Array.getElem?_toList]

/-- **Leaving** takes off what entering added, wherever there is something to leave. -/
theorem leave_ends (h : m.Ready) :
    Ends leave m (fun pc m' => ∃ func frame, m.Leaves func frame m' ∧ frame.statement = pc)
      fun _ m' => m.Evolves m' ∧ ∀ func, ¬ m.CanLeave func := by
  have evolves := Machine.Evolves.refl h.cursor h.edicts
  refine ends_bind (ends_get ?_)
  cases hf : m.program.function? m.current with
  | none =>
    refine ⟨evolves, fun func can => ?_⟩
    rw [can.found] at hf
    cases hf
  | some func =>
    have same : ∀ func', m.CanLeave func' → func' = func := fun func' can =>
      Option.some.inj (can.found.symm.trans hf)
    dsimp only
    by_cases hd : m.calls.depth = 0
    · rw [if_pos hd]
      exact ⟨evolves, fun func' can => can.depth hd⟩
    rw [if_neg hd]
    by_cases range : func.parmStart + func.locals ≤ m.globals.size
    · refine ends_bind (ends_reads (fun _ _ => ?_) fun e he => absurd he (GlobalBlock.check_ne_error range))
      refine ends_bind ((loadLocals_ends m func.locals).mono ?_ ?_)
      · intro _ _ hres
        obtain ⟨held, rfl, rfl⟩ := hres
        have size := LocalStack.size_extract_of_le held
        refine ends_bind ((write_ends _ (by rw [Array.length_toList, size]; exact range)).mono ?_
          fun _ _ he => he)
        intro _ _ hm
        subst hm
        refine ends_bind ((popFrame_ends _ (by exact hd)).mono ?_ fun _ _ he => he)
        intro frame _ hres
        obtain ⟨last, rfl⟩ := hres
        refine ends_pure ⟨func, frame, ?_, rfl⟩
        exact {
          evolves := { evolves with globals := GlobalBlock.size_overwrite _ }
          found := hf
          last, held
          calls := rfl
          locals := rfl
          current := rfl
          state := rfl
          restored := fun k hk => by
            have bound : k < min m.locals.used m.locals.words.size - (m.locals.used - func.locals) := by
              simp only [LocalStack.used] at held ⊢
              omega
            rw [getElem?_overwrite (by rw [size]; exact range) (by rw [size]; exact hk),
              Array.getElem?_extract, if_pos bound] }
      · intro _ _ hres
        obtain ⟨rfl, short⟩ := hres
        refine ⟨evolves, fun func' can => ?_⟩
        cases same func' can
        exact Nat.not_lt.mpr can.held short
    · -- only of bytecode the range is known to lie inside the block
      refine ends_bind (ends_reads (fun _ hc => absurd (GlobalBlock.check_eq_ok hc) range) fun e _ => ?_)
      refine ⟨evolves, fun func' can => ?_⟩
      cases same func' can
      exact range ((fits_of_function? h hf).locals can.code)

end Engine

end QuakeProgs
