/-
  File:      QuakeProgs/Proofs/Machine/Resting.lean
  Subject:   MACHINES BETWEEN THE CALLS OF THEIR HOST.

  Nothing is asked of the builtins of the host here: they may do to a machine what they like.

  * `Machine.Serviced` -- what no command touches; `Machine.Rebuilt` -- a machine that starts over;
  * `Command.perform_serving`, `Command.perform_serves` -- every command does one or the other;
  * `Engine.execute_outcome` -- an execution is a run, and then a state to rest in, or a report and two empty
    stacks;
  * `Resting` -- the machines a host meets between its calls; none of them is running.
-/
import QuakeProgs.Proofs.Machine.Pairs
import QuakeProgs.Proofs.Machine.Reachable

namespace QuakeProgs

/-! ## 1. What commands leave alone. -/

/-- Every name in the cache lies where the program has it. -/
def FieldCache.Fits (c : FieldCache) (p : Program) : Prop :=
  ∀ e ∈ c.entries, e.ofs = (p.findField? e.name).map Def.ofs

namespace FieldCache

variable {c : FieldCache} {p : Program} {name : String}

theorem fits_empty (p : Program) : ({} : FieldCache).Fits p := by
  intro e he
  cases he

theorem entries_remember (c : FieldCache) (e e' : CacheEntry) (h : e' ∈ (c.remember e).entries) :
    e' = e ∨ e' ∈ c.entries := by
  unfold remember entries at *
  split at h <;> simp only [Option.toList_some, List.mem_append, List.mem_singleton] at h ⊢
  · rcases h with h | h
    · exact .inr (.inl h)
    · exact .inl h
  · rcases h with h | h
    · exact .inl h
    · exact .inr (.inr h)

/-- What is looked up is where the program has it, whatever the cache holds. -/
theorem Fits.lookup_fst (h : c.Fits p) (name : String) :
    (c.lookup p name).1 = (p.findField? name).map Def.ofs := by
  unfold lookup
  split
  · next e found =>
    have named : e.name = name := by simpa using List.find?_some found
    rw [← named]
    exact h e (List.mem_of_find?_eq_some found)
  · rfl

theorem Fits.lookup_snd (h : c.Fits p) (name : String) : (c.lookup p name).2.Fits p := by
  unfold lookup
  split
  · exact h
  · intro e he
    rcases entries_remember _ _ _ he with rfl | he
    · rfl
    · exact h e he

/-- The cache after some look-ups. -/
def after (c : FieldCache) (p : Program) (names : List String) : FieldCache :=
  names.foldl (fun c name => (c.lookup p name).2) c

theorem Fits.after (h : c.Fits p) (names : List String) : (c.after p names).Fits p := by
  induction names generalizing c with
  | nil => exact h
  | cons name names ih => exact ih (h.lookup_snd name)

end FieldCache

/-- **The tables there can be**: fresh ones, and what calls and restored bytes make of them. -/
inductive StringTable.Made : StringTable → Prop
  | fresh (blob : Bytes) (slots slotSize capacity : Nat) : Made (.new blob slots slotSize capacity)
  | call {t : StringTable} (c : StringCommand) : Made t → Made (t.after c)
  | restored {t t' : StringTable} (saved : Bytes) : Made t → t.restoreRuntime saved = .ok t' → Made t'

/-- There are counters for so many functions. -/
structure Profile.Counts (p : Profile) (functions : Nat) : Prop where
  statements : p.statements.size = functions
  calls : p.calls.size = functions

namespace Machine

/-- **What no command touches**, and what it works on through operations only. -/
structure Serviced (m m' : Machine) : Prop where
  config : m'.config = m.config
  program : m'.program = m.program
  registry : m'.registry = m.registry
  builtins : m'.builtins = m.builtins
  hot : m'.hot = m.hot
  legacy : m'.legacy = m.legacy
  calls : m'.calls = m.calls
  locals : m'.locals = m.locals
  state : m'.state = m.state
  current : m'.current = m.current
  cache : ∃ names, m'.fieldCache = m.fieldCache.after m.program names
  counters : ∀ n, m.profile.Counts n → m'.profile.Counts n
  edicts : ∃ cs : List StoreCommand, m'.edicts = cs.foldl EdictStore.after m.edicts
  strings : m.strings.Made → m'.strings.Made

/-- **A machine at rest starts over with an image.** Its stacks are emptied, and keep their room. -/
def Rebuilt (m m' : Machine) : Prop :=
  m.state ≠ .running ∧ ∃ bytes options image, Image.load bytes options = .ok image ∧ m' =
    { new image m.config m.registry with
      host := m.host, tracing := m.tracing, random := m.random, calls := m.calls.clear, locals := m.locals.clear }

variable {m m₁ m' : Machine}

theorem Serviced.refl (m : Machine) : m.Serviced m where
  config := rfl
  program := rfl
  registry := rfl
  builtins := rfl
  hot := rfl
  legacy := rfl
  calls := rfl
  locals := rfl
  state := rfl
  current := rfl
  cache := ⟨[], rfl⟩
  counters _ := id
  edicts := ⟨[], rfl⟩
  strings := id

theorem Serviced.trans (h : m.Serviced m₁) (h' : m₁.Serviced m') : m.Serviced m' where
  config := h'.config.trans h.config
  program := h'.program.trans h.program
  registry := h'.registry.trans h.registry
  builtins := h'.builtins.trans h.builtins
  hot := h'.hot.trans h.hot
  legacy := h'.legacy.trans h.legacy
  calls := h'.calls.trans h.calls
  locals := h'.locals.trans h.locals
  state := h'.state.trans h.state
  current := h'.current.trans h.current
  cache := by
    obtain ⟨names, looked⟩ := h.cache
    obtain ⟨names', looked'⟩ := h'.cache
    refine ⟨names ++ names', ?_⟩
    rw [looked', looked, h.program, FieldCache.after, FieldCache.after, FieldCache.after, List.foldl_append]
  counters n := h'.counters n ∘ h.counters n
  edicts := by
    obtain ⟨cs, made⟩ := h.edicts
    obtain ⟨cs', made'⟩ := h'.edicts
    exact ⟨cs ++ cs', by rw [List.foldl_append, ← made, made']⟩
  strings := h'.strings ∘ h.strings

theorem Serviced.fits (h : m.Serviced m') (fits : m.fieldCache.Fits m.program) : m'.fieldCache.Fits m'.program := by
  obtain ⟨names, looked⟩ := h.cache
  rw [looked, h.program]
  exact fits.after names

theorem rebuilt_of_replaceProgram {bytes : Bytes} {options : LoadOptions} {image : Image}
    (loaded : Image.load bytes options = .ok image) (h : m.replaceProgram image = .ok m') : m.Rebuilt m' := by
  unfold replaceProgram at h
  split at h
  · cases h
  · next atRest =>
    cases h
    exact ⟨atRest, bytes, options, image, loaded, rfl⟩

/-- A call to the string table. -/
theorem Serviced.texts (m : Machine) (c : StringCommand) : m.Serviced { m with strings := m.strings.after c } :=
  { refl m with strings := .call c }

/-- An operation on the entities. -/
theorem Serviced.store (m : Machine) (c : StoreCommand) : m.Serviced { m with edicts := m.edicts.after c } :=
  { refl m with edicts := ⟨[c], rfl⟩ }

end Machine

/-- A saved state brings data. -/
theorem Snapshot.apply_serviced {saved : Snapshot} {m m' : Machine} (h : saved.apply m = .ok m') :
    m.Serviced m' := by
  obtain ⟨edicts, strings, he, hs, -, rfl⟩ := apply_eq_ok h
  cases EdictStore.eq_after_restore he
  exact { Machine.Serviced.store m (.restore saved.edicts) with strings := fun made => .restored _ made hs }

namespace Engine

variable {α β : Type}

/-- **An action that serves a machine**, whether it succeeds or fails. -/
def Serving (act : Engine α) : Prop :=
  ∀ m : Machine, Ends act m (fun _ m' => m.Serviced m') fun _ m' => m.Serviced m'

theorem Serving.pure (a : α) : Serving (Pure.pure a) := fun m => .refl m

theorem Serving.bind {x : Engine β} {f : β → Engine α} (hx : Serving x) (hf : ∀ b, Serving (f b)) :
    Serving (x >>= f) := by
  intro m
  refine ends_bind ((hx m).mono (fun b m₁ s => ?_) fun _ _ s => s)
  exact (hf b m₁).mono (fun _ _ s' => s.trans s') fun _ _ s' => s.trans s'

theorem Serving.get : Serving (MonadState.get : Engine Machine) := fun m => .refl m

theorem Serving.fail (c : Cause) : Serving (Engine.fail c : Engine α) := fun m => .refl m

theorem Serving.modify {f : Machine → Machine} (hf : ∀ m : Machine, m.Serviced (f m)) : Serving (modify f) :=
  fun m => hf m

theorem Serving.reads (f : Machine → Except Error α) : Serving (reads f) :=
  fun m => ends_reads (fun _ _ => .refl m) fun _ _ => .refl m

theorem Serving.update {check : Machine → Except Error α} {change : α → Machine → Machine}
    (hc : ∀ m a, check m = .ok a → m.Serviced (change a m)) : Serving (update check change) :=
  fun m => ends_update (fun a ha => hc m a ha) fun _ _ => .refl m

theorem Serving.discard {act : Engine α} (h : Serving act) : Serving (discard act) := h.bind fun _ => .pure _

theorem write_serving (ofs : Nat) (ws : List Word) : Serving (write ofs ws) :=
  .update fun m _ _ => { Machine.Serviced.refl m with }

theorem writeField_serving (id : EdictId) (ofs : Nat) (ws : List Word) : Serving (writeField id ofs ws) := by
  refine .update fun m _ checked => ?_
  rw [EdictStore.overwrite_eq_after checked]
  exact .store m _

theorem tell_serving (e : Event) : Serving (tell e) := .modify fun m => { Machine.Serviced.refl m with }

theorem spawn_serving : Serving spawn := by
  refine Serving.bind (.update fun m _ vacant => ?_) fun _ => .pure _
  rw [EdictStore.occupy_eq_after vacant]
  exact .store m _

theorem remove_serving (id : EdictId) : Serving (remove id) := by
  refine (Serving.reads _).bind fun _ => (tell_serving _).bind fun _ => Serving.get.bind fun _ => ?_
  refine .update fun m _ checked => ?_
  rw [EdictStore.free_eq_after checked]
  exact .store m _

/-- Looking a field up changes the cache alone. -/
theorem fieldOffset?_serving (name : String) : Serving (fieldOffset? name) := by
  intro m
  exact { Machine.Serviced.refl m with cache := ⟨[name], rfl⟩ }

end Engine

namespace Command

/-- The command starts over with another image. -/
def replaces : Command → Bool
  | .replace .. => true
  | _ => false

open Engine in
/-- **Every command serves a machine**, but for the one that starts over. -/
theorem perform_serving {c : Command} (stays : c.replaces = false) : Serving c.perform := by
  have refl := Machine.Serviced.refl
  cases c with
  | replace bytes options => cases stays
  | restore saved => exact .discard (.update fun _ _ hm' => Snapshot.apply_serviced hm')
  | attach host => exact .modify fun m => { refl m with }
  | setPhase phase => exact .modify fun m => { refl m with }
  | setTracing on => exact .modify fun m => { refl m with }
  | resetProfile =>
    refine .modify fun m => { refl m with counters := fun n h => ?_ }
    exact ⟨by rw [← h.statements, Profile.reset, Array.size_map], by rw [← h.calls, Profile.reset, Array.size_map]⟩
  | write ofs ws => exact write_serving ofs ws
  | setGlobal name v =>
    refine Serving.get.bind fun m => ?_
    cases m.program.findGlobal? name with
    | none => exact .fail _
    | some d => exact write_serving _ _
  | field id name type =>
    refine .discard ((fieldOffset?_serving name).bind fun ofs => ?_)
    cases ofs with
    | none => exact .pure _
    | some ofs => exact (Serving.reads _).bind fun _ => .pure _
  | setField id name v =>
    refine .discard ((fieldOffset?_serving name).bind fun ofs => ?_)
    cases ofs with
    | none => exact .pure _
    | some ofs => exact (writeField_serving _ _ _).bind fun _ => .pure _
  | writeField id ofs ws => exact writeField_serving id ofs ws
  | setHeader id free freeTime =>
    intro m
    refine ends_bind (ends_reads (fun e found => ends_modify ?_) fun _ _ => refl m)
    rw [EdictStore.modify_eq_after found ⟨fun e => { e with free, freeTime }, fun _ => rfl⟩]
    exact .store m _
  | spawn => exact .discard spawn_serving
  | remove id => exact remove_serving id
  | alloc time =>
    refine .discard (.update fun m _ vacant => ?_)
    rw [EdictStore.occupy_eq_after vacant]
    exact .store m _
  | release id time =>
    refine .update fun m _ checked => ?_
    rw [EdictStore.free_eq_after checked]
    exact .store m _
  | grow n => exact .modify fun m => .store m (.grow n)
  | resetEdicts => exact .modify fun m => .store m .reset
  | restoreEdicts saved =>
    refine .discard (.update fun m edicts restored => ?_)
    cases EdictStore.eq_after_restore restored
    exact .store m _
  | keep s =>
    refine .discard (.update fun m _ placed => ?_)
    rw [StringTable.addKept_eq_after placed]
    exact .texts m _
  | temp s =>
    refine .discard (Serving.get.bind fun _ => Serving.bind (.modify fun m => ?_) fun _ => .reads _)
    rw [StringTable.putTemp_eq_after]
    exact .texts m _
  | restoreStrings saved =>
    exact .discard (.update fun m strings restored =>
      { refl m with strings := fun made => .restored _ made restored })

open Engine in
/-- **Every command serves a machine, or a machine at rest starts over**; one that fails serves it in any
    case. -/
theorem perform_serves (c : Command) (m : Machine) :
    Ends c.perform m (fun _ m' => m.Serviced m' ∨ m.Rebuilt m') fun _ m' => m.Serviced m' := by
  cases stays : c.replaces with
  | false => exact (perform_serving stays m).mono (fun _ _ s => .inl s) fun _ _ s => s
  | true =>
    cases c with
    | replace bytes options =>
      refine ends_bind (ends_update (fun m' hm' => ends_pure (.inr ?_)) fun _ _ => .refl m)
      cases hi : Image.load bytes options with
      | error e => rw [hi] at hm'; cases hm'
      | ok image =>
        rw [hi] at hm'
        exact Machine.rebuilt_of_replaceProgram hi hm'
    | _ => cases stays

end Command

/-! ## 2. How an execution ends. -/

namespace Machine

/-- The texts of the reports the host was given, in order. -/
def reports (m : Machine) : List String := m.host.events.toList.filterMap Event.report?

theorem reports_tell (m : Machine) (e : Event) : (m.tell e).reports = m.reports ++ e.report?.toList := by
  rw [reports, tell, Array.toList_push, List.filterMap_append, reports]
  cases h : e.report? with
  | none => rw [List.filterMap_cons_none h, List.filterMap_nil, Option.toList_none]
  | some text => rw [List.filterMap_cons_some h, List.filterMap_nil, Option.toList_some]

/-- **What an aborted execution leaves**: both stacks are empty, and no function runs. -/
structure Cleared (m : Machine) : Prop where
  frames : m.calls.frames = #[]
  words : m.locals.words = #[]
  current : m.current = 0
  state : m.state = .aborted

end Machine

namespace Engine

variable {dispatch : Native → Engine Unit} {f : FuncRef} {e : Error} {m : Machine}

/-- An error that was reported is handed on. -/
theorem report_of_reported (h : e.isReported) (m : Machine) : report e m = .ok e m := by
  rw [report, if_pos h]
  rfl

/-- An error that nobody reported gets a context, and the host is given the report. -/
theorem report_of_unreported (h : e.context = none) (m : Machine) :
    ∃ context, report e m = .ok (e.withContext context) (m.tell (.report (e.withContext context).report)) := by
  have unreported : ¬ e.isReported := by simp [Error.isReported, h]
  rw [report, if_neg unreported]
  exact ⟨_, rfl⟩

/-- After a report, the error carries a context. -/
theorem isReported_of_report {e' : Error} {m' : Machine} (h : report e m = .ok e' m') : e'.isReported := by
  by_cases reported : e.isReported
  · rw [report_of_reported reported] at h
    cases h
    exact reported
  · have none : e.context = none := by simpa [Error.isReported] using reported
    obtain ⟨context, hc⟩ := report_of_unreported none m
    rw [hc] at h
    cases h
    rfl

/-- **Every execution**, whatever its builtins do, is a run. If that succeeds, the machine rests, or runs on
    in the execution around it; if it fails, the failure is reported and both stacks are emptied. -/
theorem execute_outcome (dispatch : Native → Engine Unit) (f : FuncRef) (m : Machine) :
    Ends (execute dispatch f) m
      (fun _ m' => ∃ m₁, run dispatch f m.started = .ok () m₁ ∧
        m' = { m₁ with state := if m.state = .running then .running else .idle })
      fun e m' => ∃ e₁ m₁ m₂, run dispatch f m.started = .error e₁ m₁ ∧ report e₁ m₁ = .ok e m₂ ∧
        m' = m₂.unwound m₂.host := by
  refine ends_bind (ends_get (ends_bind (ends_modify (ends_bind (ends_attempt ?_)))))
  refine ends_iff.mpr ⟨fun _ m₁ ran => ends_modify ⟨m₁, ran, rfl⟩, fun e₁ m₁ broke => ?_⟩
  cases hr : report e₁ m₁ with
  | ok e m₂ =>
    refine ends_bind (ends_iff.mpr ⟨fun e' m' h => ?_, fun e' m' h => ?_⟩)
    · cases hr.symm.trans h
      exact ends_bind (ends_modify ⟨e₁, m₁, m₂, broke, hr, rfl⟩)
    · cases hr.symm.trans h
  | error e m₂ => exact ((report_ends e₁ m₁).error hr).elim

/-- **An execution that fails** leaves a cleared machine and an error with its context. -/
theorem execute_cleared {m' : Machine} (h : execute dispatch f m = .error e m') :
    m'.Cleared ∧ e.isReported := by
  obtain ⟨e₁, m₁, m₂, -, hr, rfl⟩ := (execute_outcome dispatch f m).error h
  exact ⟨⟨rfl, rfl, rfl, rfl⟩, isReported_of_report hr⟩

/-- **An execution from outside that succeeds** leaves a machine at rest. -/
theorem execute_idle {m' : Machine} (atRest : m.state ≠ .running) (h : execute dispatch f m = .ok () m') :
    m'.state = .idle := by
  obtain ⟨m₁, -, rfl⟩ := (execute_outcome dispatch f m).ok h
  exact if_neg atRest

end Engine

/-! ## 3. Between the calls of the host. -/

open Engine in
/-- **The machines a host meets between its calls**: it loads an image, gives commands and executes
    functions. -/
inductive Resting (routines : Nat → Routine) (registry : Registry) : Machine → Prop
  /-- An image was loaded. -/
  | fresh {bytes : Bytes} {options : LoadOptions} {image : Image} (config : Config) :
      Image.load bytes options = .ok image → Resting routines registry (.new image config registry)
  /-- A command was given. -/
  | command {m m' : Machine} (c : Command) : Resting routines registry m → After c.perform m m' →
      Resting routines registry m'
  /-- A function was executed. -/
  | executed {m m' : Machine} (nesting : Nat) (f : FuncRef) : Resting routines registry m →
      After (execute (Dispatch.link routines nesting) f) m m' → Resting routines registry m'

/-- **Between the calls of the host no machine is running.** -/
theorem Resting.not_running {routines : Nat → Routine} {registry : Registry} {m : Machine}
    (h : Resting routines registry m) : m.state ≠ .running := by
  induction h with
  | fresh config _ => exact nofun
  | command c _ after ih =>
    refine Engine.Ends.after (P := fun m' => m'.state ≠ .running) ((c.perform_serves _).mono ?_ ?_) after
    · rintro _ m' (serviced | ⟨-, _, _, image, -, rfl⟩)
      · rw [serviced.state]
        exact ih
      · exact nofun
    · intro _ m' serviced
      rw [serviced.state]
      exact ih
  | executed nesting f _ after ih =>
    rcases after with ⟨_, ok⟩ | ⟨e, failed⟩
    · rw [Engine.execute_idle ih ok]
      exact nofun
    · rw [(Engine.execute_cleared failed).1.state]
      exact nofun

end QuakeProgs
