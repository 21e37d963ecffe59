/-
  File:      QuakeProgs/Proofs/Machine/Removals.lean
  Subject:   WHAT THE HOST IS TOLD TO UNLINK, and what is freed.

  An entity is removed in two steps: the host is told, and then the record is freed. Between the two lies the
  check that the entity is not the world. The first is seen in the events of the host, the second in the store
  alone; a ledger of both, entry by entry, is kept beside the run.

  * `Removal`, `Ledger` -- an entry, and what an action enters, by the machine it starts from;
  * `EdictStore.Frees` -- a store comes about by freeing some entities, in order, and by nothing else that
    frees one;
  * `Machine.Accounted` -- the invariant: the ledger says what the host was told and what was freed, and every
    notice is followed by its release, unless it is one of the world;
  * `Engine.remove_accounts`, `Engine.cycle_accounts_for`, `Engine.execute_accounts_for` -- a removal, a turn and
    an execution keep the ledger;
  * `unlinks_match_frees` -- so over any calls of the host, the notices are those of what was freed, in order, and
    one of the world for each attempt to remove it.
-/
import QuakeProgs.Proofs.Machine.Safety
import QuakeProgs.Proofs.Machine.Sparing

namespace QuakeProgs

open Engine

/-! ## 1. The ledger. -/

/-- What becomes of an entity that is to be removed. -/
inductive Removal where
  /-- The host was told to unlink it. -/
  | unlinked (id : EdictId)
  /-- Its record was freed. -/
  | freed (id : EdictId)
  deriving DecidableEq

def Removal.unlinked? : Removal → Option EdictId
  | .unlinked id => some id
  | .freed _ => none

def Removal.freed? : Removal → Option EdictId
  | .unlinked _ => none
  | .freed id => some id

/-- What an action enters, in order, by the machine it starts from. -/
abbrev Ledger := Machine → List Removal

namespace Ledger

variable {β : Type}

/-- Nothing is entered. -/
def empty : Ledger := fun _ => []

/-- What an action enters, and then, if it succeeds, what follows enters. -/
def andThen (first : Ledger) (x : Engine β) (rest : β → Ledger) : Ledger := fun m =>
  first m ++ match x m with
    | .ok b m' => rest b m'
    | .error _ _ => []

/-- What is entered after an action that enters nothing. -/
def after (x : Engine β) (rest : β → Ledger) : Ledger := empty.andThen x rest

variable {x : Engine β} {rest : β → Ledger} {m m' : Machine}

theorem after_of_ok {b : β} (h : x m = .ok b m') : after x rest m = rest b m' := by
  rw [after, andThen, h]
  rfl

theorem after_of_error {e : Error} (h : x m = .error e m') : after x rest m = [] := by
  rw [after, andThen, h]
  rfl

end Ledger

namespace Engine

/-- **A removal** enters the notice once the entity is known to be there, and the release if that is granted. -/
def removeLedger (id : EdictId) : Ledger :=
  .after (edict id) fun _ m => .unlinked id :: match m.edicts.checkRelease id with
    | .ok () => [.freed id]
    | .error _ => []

def raiseObjectLedger : Ledger :=
  .after (argsFrom 0) fun _ => .after get fun m => .after (dump m.selfEdict) fun _ =>
    if m.selfEdict ≠ 0 then removeLedger m.selfEdict else .empty

def coreLedger : CoreBuiltin → Ledger
  | .remove => .after (argWord 0) removeLedger
  | .objerror => raiseObjectLedger
  | _ => .empty

/-- What a builtin enters. Those of the host are not accounted for. -/
def nativeLedger : Native → Ledger
  | .core b => coreLedger b
  | .hosted _ => .empty

def callBuiltinLedger (number : Nat) (f : FuncRef) : Ledger :=
  .after (modify fun m => { m with profile := m.profile.call f }) fun _ =>
    .after (reads fun m => m.builtins.lookup number) fun slot =>
      match slot with
      | some b => nativeLedger b.code
      | none => .empty

def callLedger (f : FuncRef) : Ledger :=
  .after (function f) fun func =>
    match func.builtinNumber? with
    | some number => callBuiltinLedger number f
    | none => .empty

def stepLedger (st : Statement) : Ledger :=
  match st.op with
  | .call argc => .after (modify fun m => { m with argc := argc.val }) fun _ => .after (word st.ga) callLedger
  | _ => .empty

def cycleLedger (pc : Nat) : Ledger :=
  .after (fetch pc) fun st => .after (trace pc) fun _ =>
    .after (modify fun m => { m with profile := m.profile.statement m.current }) fun _ => stepLedger st

section

variable (dispatch : Native → Engine Unit)

/-- **The ledger of the loop**, turn after turn. -/
def loopLedger (exit : Nat) : Nat → Nat → Ledger
  | 0, _ => .empty
  | remaining + 1, pc =>
    .after (modify fun m => { m with statement := pc }) fun _ =>
      (cycleLedger pc).andThen (cycle dispatch pc) fun flow =>
        match flow with
        | .next => loopLedger exit remaining (pc + 1)
        | .jump target => loopLedger exit remaining target
        | .returned caller => fun m => if m.calls.depth = exit then [] else loopLedger exit remaining (caller + 1) m

def runLedger (f : FuncRef) : Ledger :=
  .after (function f) fun func =>
    match func.builtinNumber? with
    | some number => callBuiltinLedger number f
    | none => .after get fun m => .after (enter f) fun entry =>
      loopLedger dispatch m.calls.depth m.config.budget entry

/-- **The ledger of an execution.** -/
def executeLedger (f : FuncRef) : Ledger := fun m => runLedger dispatch f m.started

end

end Engine

/-! ## 2. What it accounts for. -/

namespace EdictStore

/-- **The entities that were freed since `s`**, in order. Besides, entities were handed out, and their fields
    written to. -/
inductive Frees (s : EdictStore) : List EdictId → EdictStore → Prop
  | start : Frees s [] s
  | handedOut {t t' : EdictStore} {ids : List EdictId} {id : EdictId} {time : Single} : Frees s ids t →
      t.alloc time = .ok (id, t') → Frees s ids t'
  | written {t t' : EdictStore} {ids : List EdictId} {id : EdictId} {ofs : Nat} {ws : List Word} : Frees s ids t →
      t.write id ofs ws = .ok t' → Frees s ids t'
  | freed {t t' : EdictStore} {ids : List EdictId} {id : EdictId} {time : Single} : Frees s ids t →
      t.release id time = .ok t' → Frees s (ids ++ [id]) t'

variable {s : EdictStore} {id : EdictId} {e : Edict}

/-- A record that is there can be freed, unless it is the world's. -/
theorem checkRelease_of_get (found : s.get id = .ok e) :
    s.checkRelease id = if id = 0 then .error (Cause.programError "tried to free the world entity") else .ok () := by
  rw [checkRelease, found]
  rfl

end EdictStore

/-- **Every notice is followed by its release**, unless it is one of the world. -/
inductive Concluded : List Removal → Prop
  | nothing : Concluded []
  | removed {l : List Removal} {id : EdictId} : Concluded l → id ≠ 0 → Concluded (l ++ [.unlinked id, .freed id])
  | refused {l : List Removal} : Concluded l → Concluded (l ++ [.unlinked 0])

/-- What was freed are the notices, but for those of the world. -/
theorem Concluded.freed_eq {l : List Removal} (h : Concluded l) :
    l.filterMap Removal.freed? = (l.filterMap Removal.unlinked?).filter (· ≠ 0) := by
  induction h with
  | nothing => rfl
  | removed _ other ih =>
    rw [List.filterMap_append, List.filterMap_append, List.filter_append, ih]
    simp [List.filterMap_cons, Removal.freed?, Removal.unlinked?, other]
  | refused _ ih =>
    rw [List.filterMap_append, List.filterMap_append, List.filter_append, ih]
    simp [List.filterMap_cons, Removal.freed?, Removal.unlinked?]

namespace Machine

/-- The entities that the host was told to unlink, in order. -/
def unlinks (m : Machine) : List EdictId := m.host.events.toList.filterMap Event.unlinked?

theorem unlinks_tell (m : Machine) (e : Event) : (m.tell e).unlinks = m.unlinks ++ e.unlinked?.toList := by
  rw [unlinks, tell, Array.toList_push, List.filterMap_append, unlinks]
  cases h : e.unlinked? with
  | none => rw [List.filterMap_cons_none h, List.filterMap_nil, Option.toList_none]
  | some id => rw [List.filterMap_cons_some h, List.filterMap_nil, Option.toList_some]

/-- **The account of a machine since `m₀`**: the ledger says what the host was told and what was freed. -/
structure Accounted (m₀ : Machine) (ledger : List Removal) (m : Machine) : Prop where
  core : m.builtins.All Builtin.IsCore
  unlinks : m.unlinks = m₀.unlinks ++ ledger.filterMap Removal.unlinked?
  frees : m₀.edicts.Frees (ledger.filterMap Removal.freed?) m.edicts
  concluded : Concluded ledger

variable {m₀ m : Machine} {ledger : List Removal}

theorem Accounted.start (core : m.builtins.All Builtin.IsCore) : m.Accounted [] m :=
  ⟨core, (List.append_nil _).symm, .start, .nothing⟩

/-- Code that frees nothing keeps the account as it is. -/
theorem accounted_sparing (m₀ : Machine) (ledger : List Removal) : Sparing (m₀.Accounted ledger) where
  aside {m m'} h edicts host builtins := by
    have unlinks : m'.unlinks = m.unlinks := by rw [Machine.unlinks, host, Machine.unlinks]
    exact ⟨builtins ▸ h.core, unlinks.trans h.unlinks, edicts ▸ h.frees, h.concluded⟩
  handOut {m i} vacant h := by
    have occupied : m.edicts.alloc m.time = .ok (i.toUInt32, m.edicts.occupy i) := by
      rw [EdictStore.alloc, vacant]
      rfl
    exact { h with frees := .handedOut h.frees occupied }
  overwrite {m id ofs ws} checked h := by
    have written : m.edicts.write id ofs ws = .ok (m.edicts.overwrite id ofs ws) := by
      rw [EdictStore.write, checked]
      rfl
    exact { h with frees := .written h.frees written }
  tell {m e} other h :=
    { h with unlinks := by rw [unlinks_tell, other, Option.toList_none, List.append_nil, h.unlinks] }

end Machine

/-! ## 3. Removals. -/

namespace Engine

variable {α β : Type} {x : Engine β} {f : β → Engine α} {first : Ledger} {rest : β → Ledger}

/-- **An action that keeps the account**, and enters what its ledger says, whether it succeeds or fails. -/
def AccountsFor (act : Engine α) (ledger : Ledger) : Prop :=
  ∀ m₀ l m, Machine.Accounted m₀ l m →
    Ends act m (fun _ m' => m₀.Accounted (l ++ ledger m) m') fun _ m' => m₀.Accounted (l ++ ledger m) m'

theorem AccountsFor.of_sparing {act : Engine α} (h : ∀ I, Sparing I → Maintains I act) :
    AccountsFor act .empty := by
  intro m₀ l m accounted
  simp only [Ledger.empty, List.append_nil]
  exact h _ (m₀.accounted_sparing l) m accounted

theorem AccountsFor.andThen (hx : AccountsFor x first) (hf : ∀ b, AccountsFor (f b) (rest b)) :
    AccountsFor (x >>= f) (first.andThen x rest) := by
  intro m₀ l m accounted
  have before := hx m₀ l m accounted
  refine ends_bind (ends_iff.mpr ⟨fun b m' ok => ?_, fun e m' failed => ?_⟩)
  · simp only [Ledger.andThen, ok, ← List.append_assoc]
    exact hf b m₀ _ m' (before.ok ok)
  · simp only [Ledger.andThen, failed, List.append_nil]
    exact before.error failed

theorem AccountsFor.after (hx : ∀ I, Sparing I → Maintains I x) (hf : ∀ b, AccountsFor (f b) (rest b)) :
    AccountsFor (x >>= f) (.after x rest) :=
  (AccountsFor.of_sparing hx).andThen hf

/-- An action that frees nothing may follow. -/
theorem AccountsFor.followed (hx : AccountsFor x first) (hf : ∀ b I, Sparing I → Maintains I (f b)) :
    AccountsFor (x >>= f) first := by
  intro m₀ l m accounted
  refine ends_bind ((hx m₀ l m accounted).mono (fun b m' h => ?_) fun _ _ h => h)
  exact hf b _ (m₀.accounted_sparing _) m' h

/-- An entity that is there is removed, and the world is not. -/
theorem remove_eq {m : Machine} {id : EdictId} {e : Edict} (found : m.edicts.get id = .ok e) :
    remove id m = if id = 0 then
      .error (Cause.programError "tried to free the world entity") (m.tell (.unlink id))
    else .ok () { m.tell (.unlink id) with edicts := m.edicts.free id m.time } := by
  have known : edict id m = .ok e m := reads_of_ok found
  have checks := EdictStore.checkRelease_of_get found
  have kept : (m.tell (.unlink id)).edicts = m.edicts := rfl
  rw [remove, bind_of_ok known, tell, modify_bind, get_bind, update, kept, checks]
  by_cases world : id = 0
  · rw [if_pos world, if_pos world]
  · rw [if_neg world, if_neg world]
    rfl

/-- An entity that is not there is not removed, and nobody is told. -/
theorem remove_eq_of_unknown {m : Machine} {id : EdictId} {e : Error} (unknown : m.edicts.get id = .error e) :
    remove id m = .error e m := by
  refine bind_of_error ?_
  rw [edict, reads, unknown]

/-- Where the entity is there, so is the notice; the release is, unless it is the world. -/
theorem removeLedger_eq {m : Machine} {id : EdictId} {e : Edict} (found : m.edicts.get id = .ok e) :
    removeLedger id m = if id = 0 then [.unlinked id] else [.unlinked id, .freed id] := by
  have known : edict id m = .ok e m := reads_of_ok found
  rw [removeLedger, Ledger.after_of_ok known, EdictStore.checkRelease_of_get found]
  by_cases world : id = 0
  · rw [if_pos world, if_pos world]
  · rw [if_neg world, if_neg world]

theorem removeLedger_eq_of_unknown {m : Machine} {id : EdictId} {e : Error} (unknown : m.edicts.get id = .error e) :
    removeLedger id m = [] := by
  have absent : edict id m = .error e m := by rw [edict, reads, unknown]
  exact Ledger.after_of_error absent

/-- What is entered for a removal hangs on the entities alone. -/
theorem removeLedger_tell (id : EdictId) (m : Machine) (e : Event) :
    removeLedger id (m.tell e) = removeLedger id m := by
  cases found : m.edicts.get id with
  | error err => rw [removeLedger_eq_of_unknown found, removeLedger_eq_of_unknown (m := m.tell e) found]
  | ok record => rw [removeLedger_eq found, removeLedger_eq (m := m.tell e) found]

/-- **A removal keeps the account.** -/
theorem remove_accounts (id : EdictId) : AccountsFor (remove id) (removeLedger id) := by
  intro m₀ l m accounted
  cases found : m.edicts.get id with
  | error e =>
    unfold Ends
    rw [remove_eq_of_unknown found, removeLedger_eq_of_unknown found, List.append_nil]
    exact accounted
  | ok e =>
    unfold Ends
    rw [remove_eq found, removeLedger_eq found]
    by_cases world : id = 0
    · cases world
      rw [if_pos rfl, if_pos rfl]
      refine ⟨accounted.core, ?_, ?_, .refused accounted.concluded⟩
      · rw [Machine.unlinks_tell, accounted.unlinks, List.filterMap_append, List.append_assoc]
        rfl
      · rw [List.filterMap_append]
        exact (List.append_nil (l.filterMap Removal.freed?)).symm ▸ accounted.frees
    · rw [if_neg world, if_neg world]
      have released : m.edicts.release id m.time = .ok (m.edicts.free id m.time) := by
        rw [EdictStore.release, EdictStore.checkRelease_of_get found, if_neg world]
        rfl
      refine ⟨accounted.core, ?_, ?_, .removed accounted.concluded world⟩
      · show (m.tell (.unlink id)).unlinks = _
        rw [Machine.unlinks_tell, accounted.unlinks, List.filterMap_append, List.append_assoc]
        rfl
      · rw [List.filterMap_append]
        exact .freed accounted.frees released

/-- Giving up on `self` removes it, unless it is the world. -/
theorem raiseObject_accounts : AccountsFor raiseObject raiseObjectLedger := by
  refine .after (fun _ _ => argsFrom_reads 0) fun message => .after (fun _ _ => .get) fun m => ?_
  refine .after (fun _ _ => dump_reads _) fun fields => ?_
  by_cases world : m.selfEdict ≠ 0
  · simp only [if_pos world]
    intro m₀ l m₁ accounted
    -- the host is given the message before, which does not change what is entered
    refine ends_bind (ends_modify ?_)
    rw [← removeLedger_tell]
    refine (remove_accounts _).followed (fun _ _ _ => .fail _) m₀ l _ ?_
    exact (m₀.accounted_sparing l).tell rfl accounted
  · simp only [if_neg world]
    exact .of_sparing fun _ sparing => (tell_spares sparing rfl).bind fun _ => .fail _

/-- **A builtin of the engine keeps the account.** -/
theorem core_accounts_for (b : CoreBuiltin) : AccountsFor (core b) (coreLedger b) := by
  cases removes : b.removes with
  | false =>
    have nothing : coreLedger b = .empty := by
      cases b with
      | remove => cases removes
      | objerror => cases removes
      | _ => rfl
    rw [nothing]
    exact .of_sparing fun _ sparing => core_spares sparing removes
  | true =>
    cases b with
    | remove => exact .after (fun _ _ => argWord_reads 0) remove_accounts
    | objerror => exact raiseObject_accounts
    | _ => cases removes

/-! ## 4. Turn after turn. -/

section

variable {routines : Nat → Routine} {nesting : Nat}

theorem callBuiltin_accounts_for (number : Nat) (f : FuncRef) :
    AccountsFor (callBuiltin (Dispatch.link routines nesting) number f) (callBuiltinLedger number f) := by
  refine .after (fun _ sparing => .modify fun _ h => sparing.aside h rfl rfl rfl) fun _ m₀ l m accounted => ?_
  refine ends_bind (ends_reads (fun slot found => ?_) fun e failed => ?_)
  · rw [Ledger.after_of_ok (reads_of_ok found)]
    cases slot with
    | some b =>
      obtain ⟨c, code⟩ := accounted.core b (BuiltinTable.mem_of_lookup found)
      dsimp only
      rw [code, Dispatch.link_core]
      exact core_accounts_for c m₀ l m accounted
    | none => exact AccountsFor.of_sparing (fun _ sparing => returnVector_spares sparing _) m₀ l m accounted
  · have stopped : reads (fun m : Machine => m.builtins.lookup number) m = .error e m := by rw [reads, failed]
    rw [Ledger.after_of_error stopped, List.append_nil]
    exact accounted

theorem call_accounts_for (f : FuncRef) :
    AccountsFor (call (Dispatch.link routines nesting) f) (callLedger f) := by
  refine .after (fun _ _ => function_reads f) fun func => ?_
  cases func.builtinNumber? with
  | some number => exact (callBuiltin_accounts_for number f).followed fun _ _ _ => .pure _
  | none => exact .of_sparing fun _ sparing => (enter_spares sparing f).bind fun _ => .pure _

/-- A statement: only a call enters anything. -/
theorem step_accounts_for (pc : Nat) (st : Statement) :
    AccountsFor (step (Dispatch.link routines nesting) pc st) (stepLedger st) := by
  have passes : AccountsFor (do compute st; return Flow.next) .empty :=
    .of_sparing fun _ sparing => (compute_spares sparing st).bind fun _ => .pure _
  have returns : AccountsFor (do returnWords st.ga; return Flow.returned (← leave)) .empty :=
    .of_sparing fun _ sparing =>
      (returnWords_spares sparing _).bind fun _ => (leave_spares sparing).bind fun _ => .pure _
  obtain ⟨op, a, b, c⟩ := st
  cases op with
  | done => exact returns
  | ret => exact returns
  | branchIf => exact .of_sparing fun _ _ => (word_reads _).bind fun _ => .ite (jump_reads _ _) (.pure _)
  | branchIfNot => exact .of_sparing fun _ _ => (word_reads _).bind fun _ => .ite (jump_reads _ _) (.pure _)
  | goto => exact .of_sparing fun _ _ => jump_reads _ _
  | call argc =>
    refine .after (fun _ sparing => .modify fun _ h => sparing.aside h rfl rfl rfl) fun _ => ?_
    exact .after (fun _ _ => word_reads _) fun f => call_accounts_for f
  | _ => exact passes

/-- **A turn.** -/
theorem cycle_accounts_for (pc : Nat) :
    AccountsFor (cycle (Dispatch.link routines nesting) pc) (cycleLedger pc) := by
  refine .after (fun _ _ => fetch_reads pc) fun st => .after (fun _ sparing => trace_spares sparing pc) fun _ => ?_
  exact .after (fun _ sparing => .modify fun _ h => sparing.aside h rfl rfl rfl) fun _ => step_accounts_for pc st

/-- **The loop**, by induction on what is left of the budget. -/
theorem loop_accounts_for (budget exit remaining pc : Nat) :
    AccountsFor (loop (Dispatch.link routines nesting) budget exit remaining pc)
      (loopLedger (Dispatch.link routines nesting) exit remaining pc) := by
  have moves : ∀ (pc : Nat) (I : Machine → Prop), Sparing I →
      Maintains I (modify fun m => { m with statement := pc }) :=
    fun _ _ sparing => .modify fun _ h => sparing.aside h rfl rfl rfl
  induction remaining generalizing pc with
  | zero => exact .of_sparing fun I sparing => (moves pc I sparing).bind fun _ => .fail _
  | succ remaining ih =>
    refine .after (moves pc) fun _ => (cycle_accounts_for pc).andThen fun flow => ?_
    cases flow with
    | next => exact ih (pc + 1)
    | jump target => exact ih target
    | returned caller =>
      intro m₀ l m accounted
      refine ends_bind (ends_get ?_)
      dsimp only
      by_cases done : m.calls.depth = exit
      · rw [if_pos done, if_pos done, List.append_nil]
        exact accounted
      · rw [if_neg done, if_neg done]
        exact ih (caller + 1) m₀ l m accounted

/-- **A run.** -/
theorem run_accounts_for (f : FuncRef) : AccountsFor (run (Dispatch.link routines nesting) f)
    (runLedger (Dispatch.link routines nesting) f) := by
  refine .after (fun _ _ => function_reads f) fun func => ?_
  cases func.builtinNumber? with
  | some number => exact callBuiltin_accounts_for number f
  | none =>
    refine .after (fun _ _ => .get) fun m => .after (fun _ sparing => enter_spares sparing f) fun entry => ?_
    exact loop_accounts_for m.config.budget m.calls.depth m.config.budget entry

/-- **An execution.** Starting, reporting and aborting enter nothing. -/
theorem execute_accounts_for (f : FuncRef) : AccountsFor (execute (Dispatch.link routines nesting) f)
    (executeLedger (Dispatch.link routines nesting) f) := by
  intro m₀ l m accounted
  have started : m₀.Accounted l m.started := (m₀.accounted_sparing l).aside accounted rfl rfl rfl
  have runs : AccountsFor (run (Dispatch.link routines nesting) f) _ := run_accounts_for f
  have ran := runs m₀ l m.started started
  refine (execute_outcome _ f m).mono ?_ ?_
  · rintro _ _ ⟨m₁, done, rfl⟩
    exact (m₀.accounted_sparing _).aside (ran.ok done) rfl rfl rfl
  · rintro e _ ⟨e₁, m₁, m₂, broke, reported, rfl⟩
    have told := (report_spares (m₀.accounted_sparing _) e₁ m₁ (ran.error broke)).ok reported
    exact (m₀.accounted_sparing _).aside told rfl rfl rfl

end

end Engine

/-! ## 5. Over any calls of the host. -/

/-- A call of the host: it removes an entity, or executes a function. -/
inductive HostCall where
  | remove (id : EdictId)
  | execute (f : FuncRef)

section

variable (dispatch : Native → Engine Unit)

def HostCall.perform : HostCall → Engine Unit
  | .remove id => Engine.remove id
  | .execute f => Engine.execute dispatch f

/-- What the call enters. -/
def HostCall.ledger : HostCall → Ledger
  | .remove id => removeLedger id
  | .execute f => executeLedger dispatch f

/-- The machine after a call. What a call that failed has changed stays. -/
def Machine.afterCall (m : Machine) (c : HostCall) : Machine :=
  match c.perform dispatch m with
  | .ok _ m' => m'
  | .error _ m' => m'

/-- The machine after some calls, whether they fail or not. -/
def Machine.afterCalls (m : Machine) (cs : List HostCall) : Machine := cs.foldl (Machine.afterCall dispatch) m

/-- **What some calls enter**, one after the other. -/
def callsLedger : List HostCall → Ledger
  | [] => .empty
  | c :: cs => fun m => c.ledger dispatch m ++ callsLedger cs (m.afterCall dispatch c)

end

section

variable {routines : Nat → Routine} {nesting : Nat} {m₀ m : Machine} {l : List Removal}

theorem Machine.Accounted.call (routines : Nat → Routine) (nesting : Nat) (h : m₀.Accounted l m) (c : HostCall) :
    m₀.Accounted (l ++ c.ledger (Dispatch.link routines nesting) m)
      (m.afterCall (Dispatch.link routines nesting) c) := by
  have accounts : AccountsFor (c.perform (Dispatch.link routines nesting))
      (c.ledger (Dispatch.link routines nesting)) := by
    cases c with
    | remove id => exact remove_accounts id
    | execute f => exact execute_accounts_for f
  have ends := accounts m₀ l m h
  unfold Machine.afterCall
  cases performed : c.perform (Dispatch.link routines nesting) m with
  | ok _ m' => exact ends.ok performed
  | error e m' => exact ends.error performed

/-- The account over some calls, by induction on these. -/
theorem Machine.Accounted.calls (routines : Nat → Routine) (nesting : Nat) (h : m₀.Accounted l m)
    (cs : List HostCall) :
    m₀.Accounted (l ++ callsLedger (Dispatch.link routines nesting) cs m)
      (m.afterCalls (Dispatch.link routines nesting) cs) := by
  induction cs generalizing l m with
  | nil => exact (List.append_nil l).symm ▸ h
  | cons c cs ih =>
    have rest := ih (h.call routines nesting c)
    rw [List.append_assoc] at rest
    exact rest

/-- **What the host is told to unlink is what is freed, but for the world.** Whatever entities the host removes
    and whatever functions it executes, on the engine's own builtins: the ledger, kept along the calls, says what
    the host was told, and what was freed. Each notice is followed at once by the release of the same entity, unless
    it is one of the world, which is never freed. So the two sequences are the same exactly if nobody has tried to
    remove the world. A removal that fails leaves the entities as they were; it leaves the host alone as well, unless
    it was one of the world. -/
theorem unlinks_match_frees (core : m.builtins.All Builtin.IsCore) (cs : List HostCall) :
    let m' := m.afterCalls (Dispatch.link routines nesting) cs
    let ledger := callsLedger (Dispatch.link routines nesting) cs m
    let told := ledger.filterMap Removal.unlinked?
    let freed := ledger.filterMap Removal.freed?
    m'.unlinks = m.unlinks ++ told ∧ m.edicts.Frees freed m'.edicts ∧
    Concluded ledger ∧ freed = told.filter (· ≠ 0) ∧ (freed = told ↔ 0 ∉ told) ∧
    ∀ id e m'', remove id m' = .error e m'' →
      m''.edicts = m'.edicts ∧ (id ≠ 0 → m'' = m') ∧ (id = 0 → m'' = m' ∨ m'' = m'.tell (.unlink 0)) := by
  intro m' ledger told freed
  have account := (Machine.Accounted.start core).calls routines nesting cs
  rw [List.nil_append] at account
  have same : freed = told.filter (· ≠ 0) := account.concluded.freed_eq
  refine ⟨account.unlinks, account.frees, account.concluded, same, ?_, ?_⟩
  · rw [same, List.filter_eq_self]
    constructor
    · intro all world
      exact absurd (all 0 world) (by simp)
    · intro absent id mem
      exact decide_eq_true fun world => absent (world ▸ mem)
  · intro id e m'' failed
    cases found : m'.edicts.get id with
    | error err =>
      cases (remove_eq_of_unknown found).symm.trans failed
      exact ⟨rfl, fun _ => rfl, fun _ => .inl rfl⟩
    | ok record =>
      rw [remove_eq found] at failed
      by_cases world : id = 0
      · rw [if_pos world] at failed
        cases failed
        exact ⟨rfl, fun other => absurd world other, fun _ => .inr (by rw [world])⟩
      · rw [if_neg world] at failed
        cases failed

end

/-- A program whose function 1 calls the builtin that removes an entity, here the one with a number. -/
def removing (id : Word) : ImageBuilder :=
  { statements := #[{}, { op := 52, a := 92 }, { op := 43 }]
    functions := #[{}, { firstStatement := 1, parmStart := 93 }, { firstStatement := -15 }]
    globals := (Array.replicate 92 0).set! 4 id ++ #[2] }

/-- Four entities, none of them handed out. -/
def Config.fourEntities : Config := { store := { initial := 4, reserved := 4 } }

/-- The host removes the second entity, the program the third; and there is no ninth. -/
theorem unlinks_match_frees_removing : ∃ m, Resting default .core m ∧ m.builtins.All Builtin.IsCore ∧
    (m.afterCalls (Dispatch.link default 0) [.remove 2, .remove 9, .execute 1]).unlinks = m.unlinks ++ [2, 3] ∧
    m.edicts.Frees [2, 3] (m.afterCalls (Dispatch.link default 0) [.remove 2, .remove 9, .execute 1]).edicts := by
  have loads : Machine.Loads (removing 3).build .small .fourEntities .core fun m =>
      callsLedger (Dispatch.link default 0) [.remove 2, .remove 9, .execute 1] m =
        [.unlinked 2, .freed 2, .unlinked 3, .freed 3] := by
    decide +kernel
  obtain ⟨image, loaded, unnamed, entered⟩ := loads
  rw [Machine.new_of_unnamed unnamed] at entered
  have core := BuiltinTable.all_build Registry.onlyCore_core image.program
    Config.fourEntities.numbering Config.fourEntities.maxBuiltins
  obtain ⟨unlinks, frees, -⟩ := @unlinks_match_frees default 0 (.new image .fourEntities .core) core
    [.remove 2, .remove 9, .execute 1]
  rw [entered] at unlinks frees
  exact ⟨_, .fresh _ loaded, core, unlinks, frees⟩

/-- **The host is told to unlink the world, which is not freed**: by a removal of the host that fails, and by one of
    the program. -/
theorem world_unlinked : ∃ m, Resting default .core m ∧ m.builtins.All Builtin.IsCore ∧ m.unlinks = [] ∧
    (∃ e m', remove 0 m = .error e m' ∧ m'.edicts = m.edicts ∧ m'.unlinks = [0]) ∧
    ∃ e m', execute (Dispatch.link default 0) 1 m = .error e m' ∧ m'.edicts = m.edicts ∧ m'.unlinks = [0] := by
  have loads : Machine.Loads (removing 0).build .small .fourEntities .core fun m => m.unlinks = [] ∧
      Ends (remove 0) m (fun _ _ => False) (fun _ m' => m'.edicts = m.edicts ∧ m'.unlinks = [0]) ∧
      Ends (execute (Dispatch.link default 0) 1) m (fun _ _ => False)
        (fun _ m' => m'.edicts = m.edicts ∧ m'.unlinks = [0]) := by
    decide +kernel
  obtain ⟨image, loaded, unnamed, nothing, removal, execution⟩ := loads
  rw [Machine.new_of_unnamed unnamed] at nothing removal execution
  exact ⟨_, .fresh _ loaded, BuiltinTable.all_build Registry.onlyCore_core _ _ _, nothing, removal.exists_error,
    execution.exists_error⟩

end QuakeProgs
