/-
  File:      QuakeProgs/Proofs/Machine/Drawing.lean
  Subject:   RUNS THAT DRAW NO RANDOM NUMBER: whatever comes of the builtin that draws, it does not show.

  * `Machine.Draws`, `Engine.ReachesRandom` -- a function is the builtin that draws; an execution comes to a
    call of it before its budget is spent;
  * `Machine.drawless` -- no function is, which can be found out by looking at all of them;
  * `Dispatch.sparing` -- the same builtins, but that drawing fails with a given error;
  * `Engine.Unless`, `Engine.run_unless` -- a run on those builtins is the run on the others, unless it comes
    to such a call, and then it fails with that error;
  * `Engine.paired_of_sparing` -- so two executions end the same way if they do on builtins that cannot draw,
    and one of the two does not come to such a call.
-/
import QuakeProgs.Proofs.Machine.Lockstep
import QuakeProgs.Proofs.Machine.Resting

namespace QuakeProgs

/-! ## 1. Coming to a random number. -/

/-- The function can be called, and is the builtin that draws. -/
def Machine.Draws (m : Machine) (f : FuncRef) : Prop :=
  f ≠ 0 ∧ ∃ func number b, m.program.function? f = some func ∧ func.builtinNumber? = some number ∧
    m.builtins.lookup number = .ok (some b) ∧ b.code = .core .random

/-- **No function of the program is the builtin that draws.** -/
def Machine.drawless (m : Machine) : Bool :=
  m.program.functions.all fun func => func.builtinNumber?.all fun number =>
    (m.builtins.lookup number).toOption.join.all fun b => b.code ≠ .core .random

theorem Machine.not_draws {m : Machine} (h : m.drawless = true) (f : FuncRef) : ¬ m.Draws f := by
  rintro ⟨-, func, number, b, found, isBuiltin, slot, draws⟩
  have each := Array.all_eq_true_iff_forall_mem.mp h func (Array.mem_of_getElem? found)
  rw [isBuiltin, Option.all_some, slot] at each
  exact absurd draws (by simpa [Except.toOption] using each)

/-- The builtins with the one that draws replaced: it fails with `e`. -/
def Dispatch.sparing (e : Error) (dispatch : Native → Engine Unit) : Native → Engine Unit
  | .core .random => throw e
  | native => dispatch native

theorem Dispatch.sparing_of_ne {native : Native} (h : native ≠ .core .random) (e : Error)
    (dispatch : Native → Engine Unit) : sparing e dispatch native = dispatch native := by
  unfold sparing
  split
  · exact absurd rfl h
  · rfl

namespace Engine

/-- **The loop comes to a call of the builtin that draws**, so much of the budget being left, before the call
    stack is back at depth `exit`. -/
inductive DrawsWithin (dispatch : Native → Engine Unit) (exit : Nat) : (remaining : Nat) → Machine → Prop
  | here {remaining : Nat} {m : Machine} {g : FuncRef} : m.callee? = some g → m.Draws g →
      DrawsWithin dispatch exit (remaining + 1) m
  | next {remaining : Nat} {m m' : Machine} : cycle dispatch m.statement m = .ok .next m' →
      DrawsWithin dispatch exit remaining (m'.moveTo (m.statement + 1)) →
      DrawsWithin dispatch exit (remaining + 1) m
  | jumped {remaining target : Nat} {m m' : Machine} : cycle dispatch m.statement m = .ok (.jump target) m' →
      DrawsWithin dispatch exit remaining (m'.moveTo target) → DrawsWithin dispatch exit (remaining + 1) m
  | returned {remaining caller : Nat} {m m' : Machine} :
      cycle dispatch m.statement m = .ok (.returned caller) m' → m'.calls.depth ≠ exit →
      DrawsWithin dispatch exit remaining (m'.moveTo (caller + 1)) →
      DrawsWithin dispatch exit (remaining + 1) m

/-- A run comes to a random number: the function itself draws, or the loop comes to a call that does. -/
def DrawsIn (dispatch : Native → Engine Unit) (f : FuncRef) (m : Machine) : Prop :=
  m.Draws f ∨ ∃ entry n, enter f m = .ok entry n ∧
    DrawsWithin dispatch m.calls.depth m.config.budget (n.moveTo entry)

/-- **An execution comes to a random number.** -/
def ReachesRandom (dispatch : Native → Engine Unit) (f : FuncRef) (m : Machine) : Prop :=
  DrawsIn dispatch f m.started

/-- Where the loop comes to such a call, one of the machines of the run stands at it. -/
theorem DrawsWithin.visits {dispatch : Native → Engine Unit} {f : FuncRef} {m₀ m : Machine} {remaining : Nat}
    (h : DrawsWithin dispatch m₀.calls.depth remaining m) {opened : List Opened}
    (visits : Visits dispatch f m₀ opened m) :
    ∃ opened n g, Visits dispatch f m₀ opened n ∧ n.Draws g := by
  induction h generalizing opened with
  | here _ draws => exact ⟨opened, _, _, visits, draws⟩
  | next hc _ ih => exact ih (.next visits hc)
  | @jumped _ _ m _ hc _ ih =>
    cases hg : m.callee? with
    | none => exact ih (.jumped visits hc hg)
    | some g => exact ih (.called visits hc hg)
  | returned hc deeper _ ih => exact ih (.returned visits hc deeper)

/-! ## 2. The same, unless it comes to that. -/

variable {α β : Type} {e : Error} {why : Prop} {m : Machine}

/-- **The first action is the second**, unless it fails with `e`, and then for the reason `why`. -/
def Unless (e : Error) (why : Prop) (x y : Engine α) (m : Machine) : Prop :=
  x m = y m ∨ why ∧ ∃ n, x m = .error e n

theorem Unless.mono {why' : Prop} {x y : Engine α} (h : Unless e why x y m) (hw : why → why') :
    Unless e why' x y m := by
  rcases h with same | ⟨reason, failed⟩
  · exact .inl same
  · exact .inr ⟨hw reason, failed⟩

theorem Unless.bind {x y : Engine β} {f g : β → Engine α} (h : Unless e why x y m)
    (hf : ∀ b n, y m = .ok b n → Unless e why (f b) (g b) n) : Unless e why (x >>= f) (y >>= g) m := by
  rcases h with same | ⟨reason, n, failed⟩
  · cases hy : y m with
    | ok b n =>
      rw [Unless, bind_of_ok (same.trans hy), bind_of_ok hy]
      exact hf b n hy
    | error e' n =>
      exact .inl (by rw [bind_of_error (same.trans hy), bind_of_error hy])
  · exact .inr ⟨reason, n, bind_of_error failed⟩

/-- An action that both begin with. -/
theorem Unless.then {x : Engine β} {f g : β → Engine α}
    (hf : ∀ b n, x m = .ok b n → Unless e why (f b) (g b) n) : Unless e why (x >>= f) (x >>= g) m :=
  Unless.bind (.inl rfl) hf

variable {dispatch : Native → Engine Unit}

theorem reads_eq_ok {f : Machine → Except Error α} {a : α} {n : Machine} (h : reads f m = .ok a n) :
    m = n ∧ f m = .ok a := by
  unfold reads at h
  split at h
  · next ha =>
    cases h
    exact ⟨rfl, ha⟩
  · cases h

theorem callBuiltin_unless (number : Nat) (f : FuncRef) :
    Unless e (∃ b, m.builtins.lookup number = .ok (some b) ∧ b.code = .core .random)
      (callBuiltin (Dispatch.sparing e dispatch) number f) (callBuiltin dispatch number f) m := by
  refine .then fun _ n hn => .then fun slot k hk => ?_
  cases hn
  obtain ⟨-, found⟩ := reads_eq_ok hk
  cases slot with
  | none => exact .inl rfl
  | some b =>
    dsimp only
    by_cases draws : b.code = .core .random
    · rw [draws]
      exact .inr ⟨⟨b, found, draws⟩, _, rfl⟩
    · rw [Dispatch.sparing_of_ne draws]
      exact .inl rfl

theorem call_unless (f : FuncRef) :
    Unless e (m.Draws f) (call (Dispatch.sparing e dispatch) f) (call dispatch f) m := by
  refine .then fun func n hn => ?_
  obtain ⟨rfl, called, found⟩ := (function_ends m f).ok hn
  cases number : func.builtinNumber? with
  | none => exact .inl rfl
  | some k =>
    refine Unless.bind ((callBuiltin_unless k f).mono fun hb => ?_) fun _ _ _ => .inl rfl
    obtain ⟨b, slot, draws⟩ := hb
    exact ⟨called, func, k, b, found, number, slot, draws⟩

theorem fetch_eq_ok {pc : Nat} {st : Statement} {n : Machine} (h : fetch pc m = .ok st n) :
    m = n ∧ m.program.statements[pc]? = some st := by
  have ends : Ends (fetch pc) m (fun st n => m = n ∧ m.program.statements[pc]? = some st) fun _ _ => True := by
    refine ends_bind (ends_get ?_)
    split
    · next found => exact ends_pure ⟨rfl, found⟩
    · exact trivial
  exact ends.ok h

/-- **A turn**: only a call can come to a random number. -/
theorem cycle_unless (m : Machine) :
    Unless e (∃ g, m.callee? = some g ∧ m.Draws g) (cycle (Dispatch.sparing e dispatch) m.statement)
      (cycle dispatch m.statement) m := by
  refine .then fun st n fetched => .then fun _ k traced => .then fun _ k' counted => ?_
  obtain ⟨rfl, hst⟩ := fetch_eq_ok fetched
  cases traced
  cases counted
  dsimp only
  rw [m.traced_eq]
  obtain ⟨op, a, b, c⟩ := st
  cases op with
  | call argc =>
    refine .then fun _ j hj => .then fun g j' hg => ?_
    cases hj
    obtain ⟨rfl, word⟩ := reads_eq_ok hg
    refine (call_unless g).mono fun draws => ⟨g, ?_, draws⟩
    rw [Machine.callee?, hst]
    unfold GlobalBlock.get at word
    split at word
    · next hw =>
      cases word
      exact hw
    · cases word
  | _ => exact .inl rfl

/-- **The loop.** -/
theorem loop_unless {budget exit remaining pc : Nat} :
    Unless e (DrawsWithin dispatch exit remaining (m.moveTo pc))
      (loop (Dispatch.sparing e dispatch) budget exit remaining pc)
      (loop dispatch budget exit remaining pc) m := by
  induction remaining generalizing pc m with
  | zero => exact .inl rfl
  | succ remaining ih =>
    refine .then fun _ n moved => ?_
    cases moved
    refine Unless.bind ((cycle_unless (m.moveTo pc)).mono fun hg => ?_) fun flow m' hc => ?_
    · obtain ⟨g, callee, draws⟩ := hg
      exact .here callee draws
    · cases flow with
      | next => exact ih.mono (.next hc)
      | jump target => exact ih.mono (.jumped hc)
      | returned caller =>
        refine .then fun n k hn => ?_
        cases hn
        by_cases hd : m'.calls.depth = exit
        · rw [if_pos hd, if_pos hd]
          exact .inl rfl
        · rw [if_neg hd, if_neg hd]
          exact ih.mono (.returned hc hd)

/-- **A run.** -/
theorem run_unless (f : FuncRef) (m : Machine) :
    Unless e (DrawsIn dispatch f m) (run (Dispatch.sparing e dispatch) f) (run dispatch f) m := by
  refine .then fun func n hn => ?_
  obtain ⟨rfl, called, found⟩ := (function_ends m f).ok hn
  cases number : func.builtinNumber? with
  | some k =>
    refine (callBuiltin_unless k f).mono fun hb => ?_
    obtain ⟨b, slot, draws⟩ := hb
    exact .inl ⟨called, func, k, b, found, number, slot, draws⟩
  | none =>
    refine .then fun m' k hk => .then fun entry n hn => ?_
    cases hk
    exact loop_unless.mono fun within => .inr ⟨entry, n, hn, within⟩

/-! ## 3. Executions. -/

/-- **An execution on builtins that cannot draw**: it is the one on the others, unless that comes to a random
    number, and then it fails for the given cause. -/
theorem execute_unless (f : FuncRef) (m : Machine) :
    execute (Dispatch.sparing e dispatch) f m = execute dispatch f m ∨
    ReachesRandom dispatch f m ∧ ∃ e' n, execute (Dispatch.sparing e dispatch) f m = .error e' n ∧
      e'.cause = e.cause := by
  rcases @run_unless e dispatch f m.started with same | ⟨reason, n, failed⟩
  · refine .inl ?_
    have equal : Unless e False (execute (Dispatch.sparing e dispatch) f) (execute dispatch f) m := by
      refine .then fun outer n hn => .then fun _ k hk => Unless.bind (.inl ?_) fun _ _ _ => .inl rfl
      cases hn
      cases hk
      show attempt (run (Dispatch.sparing e dispatch) f) m.started = attempt (run dispatch f) m.started
      rw [attempt, same, attempt]
    exact equal.resolve_right fun impossible => impossible.1
  · refine .inr ⟨reason, ?_⟩
    cases hx : execute (Dispatch.sparing e dispatch) f m with
    | ok a n' =>
      obtain ⟨m₁, ran, -⟩ := (execute_outcome _ f m).ok hx
      cases failed.symm.trans ran
    | error e' n' =>
      obtain ⟨e₁, m₁, m₂, broke, reported, -⟩ := (execute_outcome _ f m).error hx
      cases failed.symm.trans broke
      exact ⟨e', n', rfl, ((report_ends e n).ok reported).1⟩

/-- Some cause is another one. -/
theorem exists_other_cause (c : Cause) : ∃ c' : Cause, c' ≠ c := by
  by_cases h : c = .stackUnderflow
  · exact ⟨.nullFunctionCall, by rw [h]; nofun⟩
  · exact ⟨.stackUnderflow, Ne.symm h⟩

variable {f : FuncRef} {m₁ m₂ : Machine} {Q : Unit → Unit → Machine → Machine → Prop}
  {E : Error → Machine → Machine → Prop}

/-- **Two executions that need not draw.** If they end the same way on builtins that cannot draw, and the
    first does not come to a random number, they end the same way: had the second come to one, it would have
    failed for a cause that the first does not have. -/
theorem paired_of_sparing (spares : ¬ ReachesRandom dispatch f m₁)
    (h : ∀ e : Error, Paired (execute (Dispatch.sparing e dispatch) f) (execute (Dispatch.sparing e dispatch) f)
      m₁ m₂ Q E) :
    Paired (execute dispatch f) (execute dispatch f) m₁ m₂ Q E := by
  have first : ∀ e : Error, execute (Dispatch.sparing e dispatch) f m₁ = execute dispatch f m₁ :=
    fun e => (execute_unless f m₁).resolve_right fun reached => spares reached.1
  cases hx : execute dispatch f m₁ with
  | ok a n₁ =>
    cases h { cause := .stackUnderflow } with
    | ok h₁ h₂ q =>
      rcases @execute_unless { cause := .stackUnderflow } dispatch f m₂ with same | ⟨-, e', n, failed, -⟩
      · exact .ok ((first _).symm.trans h₁) (same.symm.trans h₂) q
      · cases failed.symm.trans h₂
    | error h₁ _ _ => cases hx.symm.trans ((first _).symm.trans h₁)
  | error e₁ n₁ =>
    obtain ⟨c, other⟩ := exists_other_cause e₁.cause
    cases h { cause := c } with
    | ok h₁ _ _ => cases hx.symm.trans ((first _).symm.trans h₁)
    | error h₁ h₂ he =>
      cases hx.symm.trans ((first _).symm.trans h₁)
      rcases @execute_unless { cause := c } dispatch f m₂ with same | ⟨-, e', n, failed, cause⟩
      · exact .error ((first _).symm.trans h₁) (same.symm.trans h₂) he
      · cases failed.symm.trans h₂
        exact absurd cause.symm other

end Engine

end QuakeProgs
