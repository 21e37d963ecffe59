/-
  File:      QuakeProgs/Proofs/Machine/Aborts.lean
  Subject:   ONE REPORT FOR EVERY ABORT, made by the innermost execution.

  A failure may come from any statement, any builtin, either stack, the budget, or an execution within a
  builtin, at any depth. Each execution on the way out sees it. The first of them makes the report and adds
  the context; the others find the context and hand the error on.

  * `Machine.Silent`, `Machine.Reported` -- no report since, or one;
  * `Routine.Relays` -- a builtin of the host that hands a failed execution on;
  * `Aborted` -- how an execution comes to fail, down to the one that made the report;
  * `Engine.run_reports`, `Engine.execute_reports` -- what a run and an execution tell the host, by induction
    on how deep executions are nested;
  * `Engine.execute_aborts_once` -- so for every machine between the calls of its host.
-/
import QuakeProgs.Proofs.Machine.Balance
import QuakeProgs.Proofs.Machine.Lockstep
import QuakeProgs.Proofs.Machine.Resting
import QuakeProgs.Proofs.Machine.Safety

namespace QuakeProgs

open Engine

/-! ## 1. What the host was told. -/

namespace Machine

/-- **No report since `m₀`**: the builtins are the same, and if it was running, it still is. -/
structure Silent (m₀ m : Machine) : Prop where
  reports : m.reports = m₀.reports
  registry : m.registry = m₀.registry
  builtins : m.builtins = m₀.builtins
  running : m₀.state = .running → m.state = .running

/-- **One report since `m₀`**, of an error that carries its context. -/
structure Reported (m₀ : Machine) (e : Error) (m : Machine) : Prop where
  reports : m.reports = m₀.reports ++ [e.report]
  registry : m.registry = m₀.registry
  builtins : m.builtins = m₀.builtins
  context : e.isReported

variable {m₀ m₁ m : Machine} {e : Error}

theorem Silent.refl (m : Machine) : m.Silent m := ⟨rfl, rfl, rfl, id⟩

theorem Silent.trans (h : m₀.Silent m₁) (h' : m₁.Silent m) : m₀.Silent m :=
  ⟨h'.reports.trans h.reports, h'.registry.trans h.registry, h'.builtins.trans h.builtins, h'.running ∘ h.running⟩

theorem Silent.reported (h : m₀.Silent m₁) (h' : m₁.Reported e m) : m₀.Reported e m :=
  ⟨h.reports ▸ h'.reports, h'.registry.trans h.registry, h'.builtins.trans h.builtins, h'.context⟩

theorem Reported.silent (h : m₀.Reported e m₁) (h' : m₁.Silent m) : m₀.Reported e m :=
  ⟨h'.reports.trans h.reports, h'.registry.trans h.registry, h'.builtins.trans h.builtins, h.context⟩

/-- Code makes no reports of its own. -/
theorem lasting_silent (m₀ : Machine) : Lasting m₀.Silent where
  data h := { h with }
  texts _ h := { h with }
  store _ h := { h with }
  tell quiet h := { h with reports := by rw [reports_tell, quiet, Option.toList_none, List.append_nil, h.reports] }
  push h := { h with }
  enter _ _ h := { h with }
  pop _ h := { h with }

end Machine

/-- **An action of the host that makes no report** on a machine that runs, and whose failure nobody has
    reported. -/
def Engine.Discreet {α : Type} (act : Engine α) (m : Machine) : Prop :=
  m.state = .running → Ends act m (fun _ m' => m.Silent m') fun e m' => e.context = none ∧ m.Silent m'

theorem Engine.Discreet.of_blind {α : Type} {act : Engine α}
    (h : ∀ v : Comparison, Durable v.inv → Blind v act) (m : Machine) : Discreet act m :=
  fun _ => (h _ (m.lasting_silent).toDurable).ends (.refl m)

/-! ## 2. Builtins that hand a failure on. -/

namespace Routine

/-- What is left of a builtin fails with the error, and tells the host nothing. -/
def HandsOn (e : Error) : Routine → Machine → Prop
  | .finish act, m => ∃ m', act m = .error e m' ∧ m.Silent m'
  | .exec _ _, _ => False
  | .look next, m => (next m).HandsOn e m

/-- What is left of a builtin, on the machine it has come to: it is discreet from one execution to the next,
    whatever these do, and once one of them has failed, it hands the error on. -/
def RelaysOn : Routine → Machine → Prop
  | .finish act, m => Discreet act m
  | .exec target next, m => Discreet target m ∧
      ∀ m', (next (.ok ())).RelaysOn m' ∧ ∀ e, (next (.error e)).HandsOn e m'
  | .look next, m => (next m).RelaysOn m

/-- **A builtin of the host that hands a failed execution on.** Whether it executes anything, what, and how
    often is its own affair, and may depend on the machine. -/
def Relays (r : Routine) : Prop := ∀ m, r.RelaysOn m

/-- Executes one function after the other; the first failure is handed on. -/
def each : List (Engine FuncRef) → Routine
  | [] => .finish (pure ())
  | target :: targets => .exec target fun
    | .ok () => each targets
    | .error e => .finish (throw e)

/-- Such a builtin relays, whatever finds its functions. -/
theorem relaysOn_each (targets : List (Engine FuncRef)) (discreet : ∀ target ∈ targets, ∀ m, Discreet target m)
    (m : Machine) : (each targets).RelaysOn m := by
  induction targets generalizing m with
  | nil => exact fun _ => .refl m
  | cons target targets ih =>
    have rest := ih fun target mem => discreet target (List.mem_cons_of_mem _ mem)
    exact ⟨discreet target List.mem_cons_self m, fun m' => ⟨rest m', fun e => ⟨m', rfl, .refl m'⟩⟩⟩

/-- The builtin, called on a machine, comes to execute a function on another. -/
inductive Executes (exec : FuncRef → Engine Unit) : Routine → Machine → FuncRef → Machine → Prop
  | first {target : Engine FuncRef} {next : Except Error Unit → Routine} {m m₁ : Machine} {g : FuncRef} :
      target m = .ok g m₁ → Executes exec (.exec target next) m g m₁
  | later {target : Engine FuncRef} {next : Except Error Unit → Routine} {m m₁ m₂ m₃ : Machine}
      {g f : FuncRef} : target m = .ok g m₁ → exec g m₁ = .ok () m₂ →
      Executes exec (next (.ok ())) m₂ f m₃ → Executes exec (.exec target next) m f m₃
  | look {next : Machine → Routine} {m m' : Machine} {f : FuncRef} :
      Executes exec (next m) m f m' → Executes exec (.look next) m f m'

/-- The builtin fails as it was to, and executes nothing. -/
theorem HandsOn.run (exec : FuncRef → Engine Unit) {e : Error} (r : Routine) {m : Machine} (h : r.HandsOn e m) :
    ∃ m', r.run exec m = .error e m' ∧ m.Silent m' := by
  induction r with
  | finish act => exact h
  | exec target next => exact h.elim
  | look next ih => exact ih m h

/-- **What a builtin of the host tells**: nothing; or one of its executions failed, and that one made the
    report. -/
theorem RelaysOn.ends {exec : FuncRef → Engine Unit} {P : FuncRef → Machine → Error → Prop} {m₀ : Machine}
    (running : m₀.state = .running)
    (hexec : ∀ g m, m₀.Silent m → Ends (exec g) m (fun _ m' => m.Silent m') fun e m' => m.Reported e m' ∧ P g m e)
    (r : Routine) {m : Machine} (h : r.RelaysOn m) (hm : m₀.Silent m) :
    Ends (r.run exec) m (fun _ m' => m₀.Silent m') fun e m' => (e.context = none ∧ m₀.Silent m') ∨
      m₀.Reported e m' ∧ ∃ g m₁ m₂, r.Executes exec m g m₁ ∧ exec g m₁ = .error e m₂ ∧ P g m₁ e := by
  induction r generalizing m with
  | finish act =>
    exact (h (hm.running running)).mono (fun _ _ s => hm.trans s) fun _ _ he => .inl ⟨he.1, hm.trans he.2⟩
  | exec target next ih =>
    obtain ⟨discreet, rest⟩ := h
    have target := discreet (hm.running running)
    refine ends_bind (ends_iff.mpr ⟨fun g m₁ found => ?_, fun e m₁ failed => ?_⟩)
    · have hm₁ := hm.trans (target.ok found)
      refine ends_bind (ends_attempt (ends_iff.mpr ⟨fun _ m₂ ran => ?_, fun e m₂ broke => ?_⟩))
      · have hm₂ := hm₁.trans ((hexec g m₁ hm₁).ok ran)
        refine (ih (.ok ()) (rest m₂).1 hm₂).mono (fun _ _ s => s) ?_
        rintro e m' (unreported | ⟨reported, f, m₃, m₄, executes, broke, origin⟩)
        · exact .inl unreported
        · exact .inr ⟨reported, f, m₃, m₄, .later found ran executes, broke, origin⟩
      · obtain ⟨reported, origin⟩ := (hexec g m₁ hm₁).error broke
        obtain ⟨m', failed, silent⟩ := ((rest m₂).2 e).run exec
        refine ends_iff.mpr ⟨fun _ _ ok => ?_, fun e' n error => ?_⟩
        · cases failed.symm.trans ok
        · cases failed.symm.trans error
          exact .inr ⟨(hm₁.reported reported).silent silent, g, m₁, m₂, .first found, broke, origin⟩
    · obtain ⟨unreported, silent⟩ := target.error failed
      exact .inl ⟨unreported, hm.trans silent⟩
  | look next ih =>
    refine (ih m h hm).mono (fun _ _ s => s) ?_
    rintro e m' (unreported | ⟨reported, f, m₁, m₂, executes, broke, origin⟩)
    · exact .inl unreported
    · exact .inr ⟨reported, f, m₁, m₂, .look executes, broke, origin⟩

end Routine

/-- A builtin of the engine, or one of the host that hands failures on. -/
def Builtin.Relays (routines : Nat → Routine) (b : Builtin) : Prop :=
  ∀ key, b.code = .hosted key → (routines key).Relays

/-! ## 3. Runs and executions. -/

/-- **How an execution comes to fail**, down to the one that made the report. -/
inductive Aborted (routines : Nat → Routine) : (nesting : Nat) → FuncRef → Machine → Error → Prop
  /-- Its run failed, nobody had reported that, and it made the report. -/
  | here {nesting : Nat} {f : FuncRef} {m m₁ m₂ : Machine} {e₁ e : Error} :
      run (Dispatch.link routines nesting) f m.started = .error e₁ m₁ → e₁.context = none →
      report e₁ m₁ = .ok e m₂ → Aborted routines nesting f m e
  /-- Its run failed because a builtin of the host did, on `m₂`, and that one because it executed a function,
      on `m₃`. The error is the one that this inner execution failed with. -/
  | nested {nesting key : Nat} {f g : FuncRef} {m m₁ m₂ m₃ m₄ : Machine} {e : Error} :
      run (Dispatch.link routines (nesting + 1)) f m.started = .error e m₁ →
      Dispatch.link routines (nesting + 1) (.hosted key) m₂ = .error e m₁ →
      (routines key).Executes (execute (Dispatch.link routines nesting)) m₂ g m₃ →
      execute (Dispatch.link routines nesting) g m₃ = .error e m₄ → Aborted routines nesting g m₃ e →
      Aborted routines (nesting + 1) f m e

namespace Engine

variable {routines : Nat → Routine} {nesting : Nat} {m₀ m : Machine} {e : Error}

/-- The failure is that of an execution within a builtin of the host. -/
def Relayed (routines : Nat → Routine) : (nesting : Nat) → Error → Machine → Prop
  | 0, _, _ => False
  | nesting + 1, e, m' => ∃ key m g m₁ m₂, Dispatch.link routines (nesting + 1) (.hosted key) m = .error e m' ∧
      (routines key).Executes (execute (Dispatch.link routines nesting)) m g m₁ ∧
      execute (Dispatch.link routines nesting) g m₁ = .error e m₂ ∧ Aborted routines nesting g m₁ e

/-- **What a run that failed has told the host**: nothing, or it was told by an execution within. -/
def Broken (routines : Nat → Routine) (nesting : Nat) (m₀ : Machine) (e : Error) (m' : Machine) : Prop :=
  (e.context = none ∧ m₀.Silent m') ∨ m₀.Reported e m' ∧ Relayed routines nesting e m'

/-- **What an execution tells the host**: nothing if it succeeds, and else its error, once. -/
def Reporting (routines : Nat → Routine) (nesting : Nat) : Prop :=
  ∀ f m, m.builtins.All (Builtin.Relays routines) →
    Ends (execute (Dispatch.link routines nesting) f) m (fun _ m' => m.Silent m')
      fun e m' => m.Reported e m' ∧ Aborted routines nesting f m e

/-- What a builtin tells the host, executions within it reporting as they should. -/
theorem link_reports (inner : ∀ n, nesting = n + 1 → Reporting routines n)
    (running : m₀.state = .running) (relays : m₀.builtins.All (Builtin.Relays routines)) {b : Builtin}
    (hb : b.Relays routines) (hm : m₀.Silent m) :
    Ends (Dispatch.link routines nesting b.code) m (fun _ m' => m₀.Silent m') (Broken routines nesting m₀) := by
  unfold Builtin.Relays at hb
  cases hc : b.code with
  | core c =>
    rw [Dispatch.link_core]
    have quiet := (core_blind m₀.lasting_silent.toDurable trivial c (.inl trivial)).ends hm
    exact quiet.mono (fun _ _ s => s) fun _ _ he => .inl he
  | hosted key =>
    cases nesting with
    | zero => exact .inl ⟨rfl, hm⟩
    | succ n =>
      have ends := (hb key hc m).ends running (fun g m₁ h₁ => inner n rfl g m₁ (h₁.builtins ▸ relays)) _ hm
      refine ends_iff.mpr ⟨fun _ _ served => ends.ok served, fun e m' failed => ?_⟩
      rcases ends.error failed with unreported | ⟨reported, g, m₁, m₂, executes, broke, origin⟩
      · exact .inl unreported
      · exact .inr ⟨reported, key, m, g, m₁, m₂, failed, executes, broke, origin⟩

/-- **What a run tells the host.** -/
theorem run_reports (inner : ∀ n, nesting = n + 1 → Reporting routines n) (f : FuncRef)
    (running : m.state = .running) (relays : m.builtins.All (Builtin.Relays routines)) :
    Ends (run (Dispatch.link routines nesting) f) m (fun _ m' => m.Silent m') (Broken routines nesting m) := by
  have alone : Covers ((Comparison.single m.Silent).within fun _ => True)
      fun e n₁ n₂ => n₁ = n₂ ∧ Broken routines nesting m e n₁ :=
    fun e n₁ n₂ he h => ⟨h.same trivial, .inl ⟨he, h.left⟩⟩
  have served : ∀ stale : Nat → Prop, ¬ stale 0 → Served ((Comparison.single m.Silent).within stale)
      (Dispatch.link routines nesting) fun e n₁ n₂ => n₁ = n₂ ∧ Broken routines nesting m e n₁ := by
    intro stale _ b m₁ m₂ mem h
    cases h.same trivial
    rw [h.left.builtins] at mem
    exact .of_ends (link_reports inner running relays (relays b mem) h.left)
      (fun _ _ s => Comparison.within_alike s stale) fun _ _ he => ⟨rfl, he⟩
  have paired := run_paired m.lasting_silent id (Comparison.within_alike (.refl m) fun _ => False) alone served f
  exact paired.ends (fun _ _ h => h.left) fun _ _ he => he.2

/-- An execution reports as it should if those within it do. -/
theorem reporting_of_inner (inner : ∀ n, nesting = n + 1 → Reporting routines n) :
    Reporting routines nesting := by
  intro f m relays
  have run := run_reports (m := m.started) inner f rfl relays
  refine (execute_outcome _ f m).mono ?_ ?_
  · rintro _ _ ⟨m₁, ran, rfl⟩
    exact { run.ok ran with running := fun running => if_pos running }
  · rintro e _ ⟨e₁, m₁, m₂, broke, told, rfl⟩
    rcases run.error broke with ⟨unreported, silent⟩ | ⟨reported, relayed⟩
    · refine ⟨?_, .here broke unreported told⟩
      obtain ⟨context, reported⟩ := report_of_unreported unreported m₁
      cases told.symm.trans reported
      have reports := m₁.reports_tell (.report (e₁.withContext context).report)
      rw [silent.reports] at reports
      exact { silent with reports, context := rfl }
    · -- the error has its context already, so nothing is told
      cases told.symm.trans (report_of_reported reported.context m₁)
      refine ⟨{ reported with }, ?_⟩
      cases nesting with
      | zero => exact relayed.elim
      | succ n =>
        obtain ⟨key, m₂, g, m₃, m₄, failed, executes, broke', origin⟩ := relayed
        exact .nested broke failed executes broke' origin

/-- **What every execution tells the host**, by induction on how deep executions are nested. -/
theorem execute_reports (routines : Nat → Routine) (nesting : Nat) : Reporting routines nesting := by
  induction nesting with
  | zero => exact reporting_of_inner fun n hn => absurd hn (Nat.succ_ne_zero n).symm
  | succ nesting ih =>
    refine reporting_of_inner fun n hn => ?_
    cases hn
    exact ih

end Engine

/-! ## 4. From every machine between the calls of its host. -/

namespace Resting

variable {routines : Nat → Routine} {registry : Registry} {m : Machine}

/-- The builtins that a machine can call are the registered ones. -/
theorem relays (hr : registry.All (Builtin.Relays routines)) (h : Resting routines registry m) :
    m.registry = registry ∧ m.builtins.All (Builtin.Relays routines) := by
  induction h with
  | fresh config _ => exact ⟨rfl, BuiltinTable.all_build hr _ _ _⟩
  | @command m₀ _ c _ after ih =>
    have serviced : ∀ m' : Machine, m₀.Serviced m' →
        m'.registry = registry ∧ m'.builtins.All (Builtin.Relays routines) :=
      fun m' s => ⟨s.registry.trans ih.1, s.builtins ▸ ih.2⟩
    refine Ends.after (P := fun m' => m'.registry = registry ∧ m'.builtins.All (Builtin.Relays routines))
      ((c.perform_serves m₀).mono ?_ fun _ m' s => serviced m' s) after
    rintro _ m' (s | ⟨-, _, _, image, -, rfl⟩)
    · exact serviced m' s
    · exact ⟨ih.1, BuiltinTable.all_build (ih.1 ▸ hr) _ _ _⟩
  | executed nesting f _ after ih =>
    refine Ends.after (P := fun m' => m'.registry = registry ∧ m'.builtins.All (Builtin.Relays routines))
      ((execute_reports routines nesting f _ ih.2).mono ?_ ?_) after
    · intro _ m' silent
      exact ⟨silent.registry.trans ih.1, silent.builtins ▸ ih.2⟩
    · rintro _ m' ⟨reported, -⟩
      exact ⟨reported.registry.trans ih.1, reported.builtins ▸ ih.2⟩

end Resting

namespace Engine

variable {routines : Nat → Routine} {registry : Registry} {m : Machine}

/-- **Every abort is reported once.** Between the calls of the host, no machine is running. An execution that
    succeeds leaves it idle, and the host without a report. One that fails leaves both stacks empty, no
    function running, and the machine aborted; the error carries a context, and the host got one report, of
    this error. Where executions are nested, it was made by the innermost that failed, and the error is
    the one that this execution gave. -/
theorem execute_aborts_once (relays : registry.All (Builtin.Relays routines)) (h : Resting routines registry m)
    (nesting : Nat) (f : FuncRef) :
    m.state ≠ .running ∧
    (∀ m', execute (Dispatch.link routines nesting) f m = .ok () m' →
      m'.state = .idle ∧ m'.reports = m.reports) ∧
    ∀ e m', execute (Dispatch.link routines nesting) f m = .error e m' →
      m'.Cleared ∧ e.context.isSome ∧ m'.reports = m.reports ++ [e.report] ∧ Aborted routines nesting f m e := by
  have atRest := h.not_running
  have reports := execute_reports routines nesting f m (h.relays relays).2
  refine ⟨atRest, fun m' ok => ⟨execute_idle atRest ok, (reports.ok ok).reports⟩, fun e m' failed => ?_⟩
  obtain ⟨reported, origin⟩ := reports.error failed
  obtain ⟨cleared, context⟩ := execute_cleared failed
  exact ⟨cleared, context, reported.reports, origin⟩

/-- The builtin executes its arguments in turn, as many as it was given. -/
def runningThrough : Nat → Routine := fun _ => .look fun m => .each ((List.range m.argc).map argWord)

theorem relays_runningThrough (key : Nat) : (runningThrough key).Relays := by
  intro m
  refine Routine.relaysOn_each _ (fun target mem m => ?_) m
  obtain ⟨i, -, rfl⟩ := List.mem_map.mp mem
  exact .of_blind (fun _ _ => argWord_blind i) m

/-- The builtins of the engine hand on what they should, and so does one of the host that executes as many
    functions as it was given. The program of `reentering` gives it one, the null function, so the execution
    within fails. -/
theorem execute_aborts_once_reentered : Registry.core.All (Builtin.Relays runningThrough) ∧
    hosting.All (Builtin.Relays runningThrough) ∧ ∃ m e m',
    Resting runningThrough hosting m ∧ execute (Dispatch.link runningThrough 1) 1 m = .error e m' ∧
    e.cause = .nullFunctionCall ∧ m'.Cleared ∧ e.context.isSome ∧ m'.reports = m.reports ++ [e.report] ∧
    Aborted runningThrough 1 1 m e := by
  have loads : Machine.Loads (reentering 0).build .small { numbering := .own } hosting fun m =>
      Ends (execute (Dispatch.link runningThrough 1) 1) m (fun _ _ => False)
        fun e _ => e.cause = .nullFunctionCall := by
    decide +kernel
  have relays : hosting.All (Builtin.Relays runningThrough) := fun _ _ key _ => relays_runningThrough key
  obtain ⟨image, loaded, unnamed, ends⟩ := loads
  rw [Machine.new_of_unnamed unnamed] at ends
  obtain ⟨e, m', failed, cause⟩ := ends.exists_error
  have resting : Resting runningThrough hosting _ := .fresh { numbering := .own } loaded
  have aborts := (execute_aborts_once relays resting 1 1).2.2 e m' failed
  exact ⟨Registry.onlyCore_core.hosted _, relays, _, e, m', resting, failed, cause, aborts⟩

end Engine

end QuakeProgs
