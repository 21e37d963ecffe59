/-
  File:      QuakeProgs/Proofs/Machine/Turn.lean
  Subject:   ONE TURN OF THE LOOP, every case of it.

  A machine stands at a statement, which it holds in its register. Whatever the statement is, the turn
  is one of a few things; later proofs about runs split here and nowhere else:

  * `Machine.Turned` -- the ways a turn succeeds: the statement passes, jumps, is served by a builtin,
    enters a function or leaves one;
  * `Machine.Stopped` -- the ways it fails;
  * `Engine.cycle_ends` -- there are no others.
-/
import QuakeProgs.Proofs.Machine.Statements

namespace QuakeProgs

/-! ## 1. The cases. -/

namespace Machine

/-- Both stacks and the running function are the same; the statement and the count of arguments may
    differ. -/
structure Glides (m m' : Machine) : Prop extends Evolves m m' where
  calls : m'.calls = m.calls
  locals : m'.locals = m.locals
  state : m'.state = m.state
  current : m'.current = m.current

variable {m m₁ m' : Machine}

theorem Stays.glides (h : m.Stays m') : m.Glides m' :=
  { h with }

theorem Glides.trans (h : m.Glides m₁) (h' : m₁.Glides m') : m.Glides m' where
  toEvolves := h.toEvolves.trans h'.toEvolves
  calls := h'.calls.trans h.calls
  locals := h'.locals.trans h.locals
  state := h'.state.trans h.state
  current := h'.current.trans h.current

/-- Entering after a change of the registers is entering. -/
theorem Glides.enters (h : m.Glides m₁) (same : m₁.globals = m.globals)
    (at' : m₁.statement = m.statement) {f : FuncRef} {func : Function} {entry : Nat}
    (enters : m₁.Enters f func entry m') : m.Enters f func entry m' where
  evolves := h.toEvolves.trans enters.evolves
  found := h.program ▸ enters.found
  code := enters.code
  inside := h.program ▸ enters.inside
  room := h.calls ▸ enters.room
  space := h.locals ▸ enters.space
  range := h.globals ▸ enters.range
  calls := by rw [enters.calls, h.calls, h.current, at']
  locals := by rw [enters.locals, h.locals, same]
  current := enters.current
  state := enters.state.trans h.state

/-- Leaving after the return value was put in place is leaving. -/
theorem Glides.leaves (h : m.Glides m₁) {func : Function} {frame : Frame}
    (leaves : m₁.Leaves func frame m') : m.Leaves func frame m' where
  evolves := h.toEvolves.trans leaves.evolves
  found := h.program ▸ h.current ▸ leaves.found
  last := h.calls ▸ leaves.last
  held := h.locals ▸ leaves.held
  calls := by rw [leaves.calls, h.calls]
  locals := by rw [leaves.locals, h.locals]
  current := leaves.current
  state := leaves.state.trans h.state
  restored := h.locals ▸ leaves.restored

theorem Glides.canLeave (h : m.Glides m₁) {func : Function} (can : m.CanLeave func) :
    m₁.CanLeave func where
  found := by rw [h.program, h.current]; exact can.found
  code := can.code
  depth := by rw [h.calls]; exact can.depth
  held := by rw [h.locals]; exact can.held

/-- The machine once the statement at `pc` was fetched: the host was told, if it wants to know, and the
    statement is counted. -/
def fetched (m : Machine) (pc : Nat) : Machine :=
  { m with
    host := if m.tracing then (m.tell (.trace (m.view.disassemble pc))).host else m.host
    profile := m.profile.statement m.current }

/-- The function that the statement calls, if it is a call. -/
def callee? (m : Machine) : Option FuncRef :=
  match m.program.statements[m.statement]? with
  | some { op := .call _, a, .. } => m.globals.words[a.toUInt16.toNat]?
  | _ => none

theorem callee?_eq {st : Statement} {argc : Fin 9} (h : m.program.statements[m.statement]? = some st)
    (op : st.op = .call argc) : m.callee? = m.globals.words[st.ga]? := by
  obtain ⟨_, a, b, c⟩ := st
  cases op
  rw [callee?, h]
  rfl

/-- **How a turn succeeds.** -/
inductive Turned (dispatch : Native → Engine Unit) (m : Machine) : Flow → Machine → Prop
  /-- The statement computed or moved words, or was a branch not taken. -/
  | passed {m' : Machine} : m.statement < m.program.statements.size → m.Glides m' →
      Turned dispatch m .next m'
  /-- A branch was taken. -/
  | jumped {m' : Machine} {target : Nat} : target < m.program.statements.size → m.callee? = none →
      m.Glides m' → Turned dispatch m (.jump target) m'
  /-- A builtin was called, and succeeded. -/
  | served {b : Builtin} {m₁ m' : Machine} : m.statement < m.program.statements.size →
      some b ∈ m.builtins.slots → m.Glides m₁ → dispatch b.code m₁ = .ok () m' →
      Turned dispatch m .next m'
  /-- Bytecode was called. -/
  | entered {f : FuncRef} {func : Function} {entry : Nat} {m' : Machine} :
      m.statement < m.program.statements.size → m.callee? = some f → m.Enters f func entry m' →
      Turned dispatch m (.jump entry) m'
  /-- The function was left. -/
  | left {func : Function} {frame : Frame} {m' : Machine} : m.Leaves func frame m' →
      Turned dispatch m (.returned frame.statement) m'

/-- **How a turn fails.** -/
inductive Stopped (dispatch : Native → Engine Unit) (m : Machine) : Error → Machine → Prop
  /-- There is no such statement. -/
  | absent {m' : Machine} : m.program.statements.size ≤ m.statement → m.Evolves m' →
      Stopped dispatch m { cause := .internal s!"statement {m.statement} out of range" } m'
  /-- The statement failed, or there was no room to enter a function. -/
  | refused {e : Error} {m' : Machine} : m.Evolves m' → m.Admits e.cause → Stopped dispatch m e m'
  /-- A builtin was called, and failed. -/
  | unserved {b : Builtin} {e : Error} {m₁ m' : Machine} : some b ∈ m.builtins.slots → m.Glides m₁ →
      dispatch b.code m₁ = .error e m' → Stopped dispatch m e m'
  /-- There was nothing to leave. -/
  | stuck {e : Error} {m' : Machine} : m.Evolves m' → (∀ func, ¬ m.CanLeave func) →
      Stopped dispatch m e m'

end Machine

/-! ## 2. There are no others. -/

namespace Engine

variable {dispatch : Native → Engine Unit} {m m₁ : Machine} {st : Statement}

theorem trace_quiet (pc : Nat) : Quiet m (trace pc) := by
  refine .modify fun m₁ h => ?_
  split
  · exact { h with }
  · exact h

/-- A quiet action and then a flow. -/
theorem Quiet.ends {α : Type} {act : Engine α} (h : Quiet m act) (hm : m.Stays m₁)
    {Q : α → Machine → Prop} (hQ : ∀ a m', m.Stays m' → Q a m') :
    Ends act m₁ Q (m.Stopped dispatch) :=
  (h m₁ hm).mono hQ fun _ _ he => .refused he.1.toEvolves he.2

/-- The target of a branch that fits is a statement. -/
theorem jump_ends (fits : st.Fits m.statement m.program.statements.size m.globals.size)
    (hcall : m.callee? = none) {t : Int} (ht : st.target? m.statement = some t) (hm : m.Stays m₁) :
    Ends (jump m.statement st) m₁ (m.Turned dispatch) (m.Stopped dispatch) := by
  have range := ((Image.statement_fits_iff ..).mp fits).2.2.2 t ht
  refine ends_bind (ends_get ?_)
  rw [ht, hm.program, Option.getD_some, if_pos (by omega)]
  exact .jumped (by omega) hcall hm.glides

/-- **A turn runs the statement on a machine that told the host and counted it.** -/
theorem cycle_eq {pc : Nat} (h : m.program.statements[pc]? = some st) :
    cycle dispatch pc m = step dispatch pc st (m.fetched pc) := by
  have found : fetch pc m = .ok st m := by
    rw [fetch, get_bind, h]
    rfl
  rw [cycle, bind_of_ok found, trace, modify_bind, modify_bind, Machine.fetched]
  split <;> rfl

/-- Behind the last statement there is nothing to run. -/
theorem cycle_eq_of_none {pc : Nat} (h : m.program.statements[pc]? = none) :
    cycle dispatch pc m = .error { cause := .internal s!"statement {pc} out of range" } m := by
  refine bind_of_error ?_
  rw [fetch, get_bind, h]
  rfl

/-- A call of a builtin: the slot is empty, or what lies in it runs. -/
theorem callBuiltin_ends (h : m.Ready) (hm : m.Glides m₁) (number : Nat) (f : FuncRef) :
    Ends (callBuiltin dispatch number f) m₁
      (fun _ m' => m.Glides m' ∨
        ∃ b m₂, some b ∈ m.builtins.slots ∧ m.Glides m₂ ∧ dispatch b.code m₂ = .ok () m')
      (fun e m' => (m.Evolves m' ∧ m.Admits e.cause) ∨
        ∃ b m₂, some b ∈ m.builtins.slots ∧ m.Glides m₂ ∧ dispatch b.code m₂ = .error e m') := by
  refine ends_bind (ends_modify ?_)
  let counted : Machine := { m₁ with profile := m₁.profile.call f }
  have glides : m.Glides counted := { hm with }
  refine ends_bind (ends_reads (fun slot hslot => ?_) fun e he => ?_)
  · cases slot with
    | none =>
      have quiet : Quiet counted (returnVector .zero) :=
        returnVector_quiet (by rw [glides.globals]; exact h.program.wellKnown) _
      exact (quiet counted (.refl glides.cursor glides.edicts)).mono
        (fun _ m' hs => .inl (glides.trans hs.glides))
        fun e m' he => .inl ⟨glides.toEvolves.trans he.1.toEvolves, glides.admits he.2⟩
    | some b =>
      have mem : some b ∈ m.builtins.slots := hm.builtins ▸ BuiltinTable.mem_of_lookup hslot
      exact ends_iff.mpr ⟨fun _ m' hd => .inr ⟨b, counted, mem, glides, hd⟩,
        fun e m' hd => .inr ⟨b, counted, mem, glides, hd⟩⟩
  · refine .inl ⟨glides.toEvolves, ?_⟩
    unfold BuiltinTable.lookup at he
    split at he
    · cases he
    · cases he; trivial

/-- What is not a builtin is bytecode. -/
theorem isSome_codeStart? {func : Function} (h : func.builtinNumber? = none) : func.codeStart?.isSome := by
  unfold Function.builtinNumber? at h
  unfold Function.codeStart?
  split at h
  · cases h
  · next hs => rw [if_neg hs]; rfl

theorem not_isSome_codeStart? {func : Function} {number : Nat} (h : func.builtinNumber? = some number) :
    ¬ func.codeStart?.isSome := by
  unfold Function.builtinNumber? at h
  unfold Function.codeStart?
  split at h
  · next hs => rw [if_pos hs]; nofun
  · cases h

theorem call_ends (h : m.Ready) (inside : m.statement < m.program.statements.size) {f : FuncRef}
    (hf : m.callee? = some f) (hm : m.Glides m₁) (same : m₁.globals = m.globals)
    (at' : m₁.statement = m.statement) :
    Ends (call dispatch f) m₁ (m.Turned dispatch) (m.Stopped dispatch) := by
  have ready := h.evolves hm.toEvolves
  refine ends_bind ((function_ends m₁ f).mono ?_ ?_)
  · intro func _ hres
    obtain ⟨rfl, -, hfunc⟩ := hres
    cases hn : func.builtinNumber? with
    | some number =>
      refine ends_bind ((callBuiltin_ends h hm number f).mono ?_ ?_)
      · intro _ m' hres
        rcases hres with glides | ⟨b, m₂, mem, glides, hd⟩
        · exact .passed inside glides
        · exact .served inside mem glides hd
      · intro e m' hres
        rcases hres with ⟨evolves, he⟩ | ⟨b, m₂, mem, glides, hd⟩
        · exact .refused evolves he
        · exact .unserved mem glides hd
    | none =>
      have code : ∀ func', m₁.program.function? f = some func' → func'.codeStart?.isSome := by
        intro func' hfunc'
        cases hfunc.symm.trans hfunc'
        exact isSome_codeStart? hn
      refine ends_bind ((enter_ends ready f).mono ?_ ?_)
      · intro entry m' hres
        obtain ⟨func', enters⟩ := hres
        exact .entered inside hf (hm.enters same at' enters)
      · intro e m' hres
        obtain ⟨evolves, he⟩ := hres
        exact .refused (hm.toEvolves.trans evolves) (hm.admits (he code))
  · intro e _ hres
    obtain ⟨rfl, he⟩ := hres
    exact .refused hm.toEvolves (hm.admits he)

/-- The three words that are returned always have a place. -/
theorem returnWords_quiet (h : m.Ready) (a : Nat) : Quiet m (returnWords a) :=
  Quiet.get.bind fun _ => write_quiet (returned_lt h.program.wellKnown)

theorem return_ends (h : m.Ready) (hm : m.Stays m₁) (a : Nat) :
    Ends (do returnWords a; return Flow.returned (← leave)) m₁ (m.Turned dispatch)
      (m.Stopped dispatch) := by
  refine ends_bind ((returnWords_quiet h a).ends hm fun _ m₂ stays => ?_)
  have ready := h.evolves stays.toEvolves
  refine ends_bind ((leave_ends ready).mono ?_ ?_)
  · intro _ m' hres
    obtain ⟨func, frame, leaves, rfl⟩ := hres
    exact .left (stays.glides.leaves leaves)
  · intro e m' hres
    obtain ⟨evolves, stuck⟩ := hres
    exact .stuck (stays.toEvolves.trans evolves) fun func can => stuck func (stays.glides.canLeave can)

/-- A statement of every kind. -/
theorem step_ends (h : m.Ready) (hst : m.program.statements[m.statement]? = some st) (hm : m.Stays m₁)
    (same : m₁.globals = m.globals) :
    Ends (step dispatch m.statement st) m₁ (m.Turned dispatch) (m.Stopped dispatch) := by
  have fits := h.program.statements m.statement st hst
  have inside : m.statement < m.program.statements.size := (Array.getElem?_eq_some_iff.mp hst).1
  have passes : Ends (do compute st; return Flow.next) m₁ (m.Turned dispatch) (m.Stopped dispatch) :=
    ends_bind ((compute_quiet h.program.wellKnown fits).ends hm fun _ _ stays =>
      ends_pure (.passed inside stays.glides))
  have next : ∀ m₂, m.Stays m₂ → Ends (pure Flow.next) m₂ (m.Turned dispatch) (m.Stopped dispatch) :=
    fun _ stays => ends_pure (.passed inside stays.glides)
  obtain ⟨op, a, b, c⟩ := st
  cases op with
  | done => exact return_ends h hm _
  | ret => exact return_ends h hm _
  | branchIf =>
    have hcall : m.callee? = none := by rw [Machine.callee?, hst]
    refine ends_bind ((word_quiet fits.a).ends hm fun w m₂ stays => ?_)
    by_cases hw : w ≠ 0
    · rw [if_pos hw]
      exact jump_ends fits hcall rfl stays
    · rw [if_neg hw]
      exact next m₂ stays
  | branchIfNot =>
    have hcall : m.callee? = none := by rw [Machine.callee?, hst]
    refine ends_bind ((word_quiet fits.a).ends hm fun w m₂ stays => ?_)
    by_cases hw : w = 0
    · rw [if_pos hw]
      exact jump_ends fits hcall rfl stays
    · rw [if_neg hw]
      exact next m₂ stays
  | goto =>
    have hcall : m.callee? = none := by rw [Machine.callee?, hst]
    exact jump_ends fits hcall rfl hm
  | call argc =>
    refine ends_bind (ends_modify ?_)
    let counted : Machine := { m₁ with argc := argc.val }
    have glides : m.Glides counted := { hm.glides with }
    have operand : a.toUInt16.toNat < m.globals.size := fits.a
    refine ends_bind (ends_reads (fun f hf => ?_) fun e he => ?_)
    · refine call_ends h inside ?_ glides same hm.statement
      rw [Machine.callee?, hst]
      unfold GlobalBlock.get at hf
      split at hf
      · next hw =>
        cases hf
        rw [← same]
        exact hw
      · cases hf
    · have size : counted.globals.size = m.globals.size := hm.globals
      exact absurd he (GlobalBlock.get_ne_error (by rw [size]; exact operand))
  | _ => exact passes

/-- **A turn is one of the cases.** -/
theorem cycle_ends (h : m.Ready) :
    Ends (cycle dispatch m.statement) m (m.Turned dispatch) (m.Stopped dispatch) := by
  have evolves := Machine.Evolves.refl h.cursor h.edicts
  refine ends_bind (ends_bind (ends_get ?_))
  cases hst : m.program.statements[m.statement]? with
  | none => exact .absent (Array.getElem?_eq_none_iff.mp hst) evolves
  | some st =>
    refine ends_bind (ends_modify (ends_bind (ends_modify ?_)))
    have traced := trace_quiet m.statement m (.refl h.cursor h.edicts)
    refine step_ends h hst { traced with } ?_
    dsimp only
    split <;> rfl

end Engine

end QuakeProgs
