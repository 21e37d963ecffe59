/-
  File:      QuakeProgs/Proofs/Machine/Resumption.lean
  Subject:   A SAVED STATE, and what a machine it is put into does like the machine it was taken from.

  A saved state holds the globals, the bytes of the ring and of the kept strings, and the entities below the
  mark. It does not hold which slot of the ring is next, what lies past the mark, and how many arguments the
  last call had. Where these are the same, a machine that was restored goes on like the other.

  * `Machine.Grown` -- strings and entities came about by operations on those of the image;
  * `Engine.execute_resumed_paired` -- an execution from outside, on two such machines;
  * `Machine.Played` -- a fresh machine after any executions, and `Played.grown`, by comparing it with itself;
  * `Snapshot.restored_alike` -- a machine that was restored beside the one it was taken from;
  * `Snapshot.resumes_alike` -- so every sequence of calls that spares the random numbers goes the same way;
  * `Snapshot.resumes_elsewhere` -- which slot is next makes a difference.
-/
import QuakeProgs.Proofs.Image.Acceptance
import QuakeProgs.Proofs.Machine.Drawing
import QuakeProgs.Proofs.Machine.Residue
import QuakeProgs.Proofs.Machine.Safety

namespace QuakeProgs

open Engine

variable {image : Image} {config : Config} {registry : Registry} {routines : Nat → Routine} {nesting : Nat}
  {m m' : Machine}

/-! ## 1. Machines that grew out of an image. -/

namespace Machine

/-- **What came of an image**: its program and configuration are as they were, and the strings and the
    entities came about by operations. -/
structure Grown (image : Image) (config : Config) (registry : Registry) (m : Machine) : Prop
    extends Settled registry m where
  configured : m.config = config
  loaded : m.program = image.program
  texts : ∃ calls : List StringCommand, m.strings = calls.foldl StringTable.after image.strings
  entities : ∃ calls : List StoreCommand,
    m.edicts = calls.foldl EdictStore.after (.new image.program.entityFields config.store)

theorem grown_new (image : Image) (config : Config) (registry : Registry) :
    (new image config registry).Grown image config registry :=
  { settled_new image config registry with
    configured := rfl
    loaded := rfl
    texts := ⟨[], rfl⟩
    entities := ⟨[], rfl⟩ }

theorem Grown.started (h : m.Grown image config registry) : m.started.Grown image config registry := { h with }

theorem Grown.tell (h : m.Grown image config registry) (e : Event) : (m.tell e).Grown image config registry :=
  { h with }

theorem Grown.unwound (h : m.Grown image config registry) :
    (m.unwound m.host).Grown image config registry := { h with root := rfl }

/-- Only the operations of the string table and of the store touch strings and entities. -/
theorem lasting_grown (image : Image) (config : Config) (registry : Registry) :
    Lasting (Grown image config registry) where
  data h := { h with }
  texts c h := { h with
    texts := by
      obtain ⟨calls, made⟩ := h.texts
      exact ⟨calls ++ [c], by rw [List.foldl_append, ← made]; rfl⟩ }
  store c h := { h with
    entities := by
      obtain ⟨calls, made⟩ := h.entities
      exact ⟨calls ++ [c], by rw [List.foldl_append, ← made]; rfl⟩ }
  tell _ h := { h with }
  push h := { h with root := ((lasting_settled registry).push h.toSettled).root }
  enter f deep h := { h with root := ((lasting_settled registry).enter f deep h.toSettled).root }
  pop last h := { h with root := ((lasting_settled registry).pop last h.toSettled).root }

/-- Where no builtin of the host is registered, none can be called. -/
theorem Grown.own (h : m.Grown image config registry) (core : registry.OnlyCore) :
    m.builtins.All Builtin.IsCore := by
  rw [h.builtins, h.registry]
  exact BuiltinTable.all_build core _ _ _

/-- A machine that is at rest after an execution has empty stacks again. -/
theorem Vacant.executed (trusts : registry.Trusts routines) (h : Reachable routines registry m)
    (vacant : m.Vacant) {f : FuncRef} (after : After (execute (Dispatch.link routines nesting) f) m m') :
    m'.Vacant := by
  rcases after with ⟨_, ok⟩ | ⟨e, failed⟩
  · obtain ⟨sound, -, hr⟩ := h.sound trusts
    have serves := Dispatch.link_serves trusts nesting
    rw [← hr] at serves
    obtain ⟨kept, -⟩ := (execute_keeps sound serves f).ok ok
    refine ⟨by rw [execute_idle vacant.state ok]; nofun, ?_, ?_⟩
    · exact (congrArg CallStack.frames kept.calls).trans vacant.frames
    · exact (congrArg LocalStack.words kept.locals).trans vacant.words
  · have cleared := (execute_cleared failed).1
    exact ⟨by rw [cleared.state]; nofun, cleared.frames, cleared.words⟩

end Machine

/-! ## 2. An execution from outside, on both. -/

/-- Machines that grew out of one image. They may stand at different statements, and their entities may lie
    in different batches. -/
def Comparison.resumed (image : Image) (config : Config) (registry : Registry) (traced counted drawn : Prop) :
    Comparison :=
  { inv := Machine.Grown image config registry, traced, counted, placed := False, drawn, scattered := True }

/-- The engine's own builtins, but for some that fail. Without `drawn`, the one that draws a random number is
    among those. -/
def Dispatch.Own (drawn : Prop) (dispatch : Native → Engine Unit) : Prop :=
  ∀ c, (drawn ∨ c ≠ .random) ∧ dispatch (.core c) = core c ∨ ∃ e, dispatch (.core c) = throw e

theorem Dispatch.own_link (routines : Nat → Routine) (nesting : Nat) : Own True (link routines nesting) :=
  fun c => .inl ⟨.inl trivial, link_core routines nesting c⟩

theorem Dispatch.own_sparing (e : Error) (routines : Nat → Routine) (nesting : Nat) :
    Own False (sparing e (link routines nesting)) := by
  intro c
  by_cases draws : c = .random
  · exact .inr ⟨e, by rw [draws]; rfl⟩
  · refine .inl ⟨.inr draws, ?_⟩
    rw [sparing_of_ne (fun same => draws (Native.core.inj same)), link_core]

/-- Whether a function is a builtin. -/
def Program.IsBuiltin (p : Program) (f : FuncRef) : Prop :=
  ∃ func number, p.function? f = some func ∧ func.builtinNumber? = some number

/-- A run that ended is compared again as the next one begins. -/
theorem Comparison.Alike.restarted {v : Comparison} {m₁ m₂ : Machine} (h : v.loose.Alike m₁ m₂)
    (empty : m₁.calls.frames = #[]) (left : v.inv m₁.started) (right : v.inv m₂.started) :
    v.Alike m₁.started m₂.started :=
  { h with
    state := rfl
    calls := .inl (h.calls.eq_of_empty (.inl empty))
    same := fun s => by rw [h.same s]
    left, right }

namespace Engine

variable {traced counted drawn : Prop} {dispatch : Native → Engine Unit} {f : FuncRef} {m₁ m₂ : Machine}

/-- The engine's own builtins end the same way on machines that are alike. -/
theorem Served.own {v : Comparison} {E : Error → Machine → Machine → Prop} (durable : Durable v.inv)
    (counted : v.counted) (core : ∀ m, v.inv m → m.builtins.All Builtin.IsCore)
    (own : Dispatch.Own v.drawn dispatch) (fails : ∀ e n₁ n₂, v.Alike n₁ n₂ → E e n₁ n₂) :
    Served v dispatch E := by
  intro b m₁ m₂ mem h
  obtain ⟨c, hc⟩ := core m₁ h.left b mem
  rw [hc]
  rcases own c with ⟨drawn, same⟩ | ⟨e, failing⟩
  · rw [same]
    exact (core_blind durable counted c drawn m₁ m₂ h).mono (fun _ _ _ _ h => h.2)
      fun e n₁ n₂ he => fails e n₁ n₂ he.2
  · rw [failing]
    exact paired_throw (fails e m₁ m₂ h)

variable (core : registry.OnlyCore) (own : Dispatch.Own drawn dispatch)
include core own

/-- **A run from outside, on both machines.** The count of arguments is of interest only where the function is
    itself a builtin. -/
theorem run_resumed_paired
    (h : (Comparison.resumed image config registry traced counted drawn).Alike m₁ m₂)
    (empty₁ : m₁.calls.frames = #[]) (empty₂ : m₂.calls.frames = #[]) (resting : m₁.current = 0)
    (direct : counted ∨ ¬ image.program.IsBuiltin f) :
    Paired (run dispatch f) (run dispatch f) m₁ m₂
      (fun _ _ => (Comparison.resumed image config registry traced counted drawn).loose.Alike)
      fun _ => (Comparison.resumed image config registry traced counted drawn).loose.Alike := by
  have lasting := Machine.lasting_grown image config registry
  by_cases builtin : image.program.IsBuiltin f
  · obtain ⟨func, number, found, isBuiltin⟩ := builtin
    have counts : counted := direct.resolve_right fun code => code ⟨func, number, found, isBuiltin⟩
    have served : Served (Comparison.resumed image config registry traced counted drawn).loose dispatch
        fun _ => (Comparison.resumed image config registry traced counted drawn).loose.Alike :=
      .own lasting.toDurable counts (fun _ grown => Machine.Grown.own grown core) own fun _ _ _ h => h
    have open' : (Comparison.resumed image config registry traced counted drawn).loose.Alike m₁ m₂ :=
      { h with calls := h.calls.mono fun _ => trivial }
    refine paired_bind ((function_paired open' f).mono ?_ ?_)
    · rintro func' _ _ _ ⟨rfl, found', rfl, rfl⟩
      rw [h.left.loaded, found] at found'
      cases found'
      rw [isBuiltin]
      exact callBuiltin_paired lasting.toDurable (fun _ _ _ _ h => h) served open' number f
    · rintro e _ _ ⟨-, rfl, rfl⟩
      exact open'
  · have served : Served
        ((Comparison.resumed image config registry traced counted drawn).inside True m₁.calls.depth).counting
        dispatch fun _ => (Comparison.resumed image config registry traced counted drawn).loose.Alike := by
      refine .own lasting.toDurable trivial (fun _ grown => Machine.Grown.own grown core) own fun _ n₁ n₂ h => ?_
      exact { h with
        calls := h.calls.mono fun _ => trivial
        statement := fun _ => h.statement (.inl trivial)
        argc := fun _ => h.argc trivial }
    refine (run_outside_paired lasting h empty₁ empty₂ resting (fun _ _ _ _ h => h) served ?_).mono ?_
      fun _ _ _ h => h
    · intro func found
      cases number : func.builtinNumber? with
      | none => rfl
      | some k => exact absurd ⟨func, k, h.left.loaded ▸ found, number⟩ builtin
    · intro _ _ n₁ n₂ h
      exact { h with
        calls := h.calls.mono fun _ => trivial
        statement := fun running => h.statement (.inr (running.resolve_left id)) }

/-- **An execution from outside, on both machines.** -/
theorem execute_resumed_paired
    (h : (Comparison.resumed image config registry traced counted drawn).Alike m₁.started m₂.started)
    (vacant₁ : m₁.Vacant) (vacant₂ : m₂.Vacant) (direct : counted ∨ ¬ image.program.IsBuiltin f) :
    Paired (execute dispatch f) (execute dispatch f) m₁ m₂
      (fun _ _ => (Comparison.resumed image config registry traced counted drawn).loose.Alike)
      fun _ => (Comparison.resumed image config registry traced counted drawn).loose.Alike := by
  have settled₁ : m₁.Settled registry := { h.left.toSettled with }
  have resting := Comparison.current_of_vacant settled₁ vacant₁
  refine paired_bind (paired_get (paired_bind (paired_modify (paired_bind (paired_attempt ?_)))))
  refine (run_resumed_paired core own h vacant₁.frames vacant₂.frames resting direct).mono ?_ ?_
  · intro _ _ n₁ n₂ h
    exact paired_modify { h with
      state := (if_neg vacant₁.state).trans (if_neg vacant₂.state).symm
      same := False.elim
      left := { h.left with }
      right := { h.right with } }
  · intro e n₁ n₂ h
    exact abort_paired (fun _ event grown => Machine.Grown.tell grown event) h e fun _ _ _ h =>
      h.unwound (fun _ grown => Machine.Grown.unwound grown) id _

end Engine

/-! ## 3. A fresh machine after any executions. -/

namespace Machine

/-- **The machines that executions lead to** from a fresh one, whatever host it has and whatever phases the
    simulation goes through. -/
inductive Played (routines : Nat → Routine) (image : Image) (config : Config) (registry : Registry) :
    Machine → Prop
  | fresh (host : Host) : Played routines image config registry { new image config registry with host }
  | phased {m : Machine} (phase : Phase) : Played routines image config registry m →
      Played routines image config registry { m with phase }
  | executed {m m' : Machine} (nesting : Nat) (f : FuncRef) : Played routines image config registry m →
      After (execute (Dispatch.link routines nesting) f) m m' → Played routines image config registry m'

namespace Played

variable {bytes : Bytes} {options : LoadOptions}

theorem reachable (loaded : Image.load bytes options = .ok image) (h : Played routines image config registry m) :
    Reachable routines registry m := by
  induction h with
  | fresh host => exact .underway 0 0 _ host (.fresh config loaded)
  | phased phase _ ih => exact .command (.setPhase phase) ih (.inl ⟨(), rfl⟩)
  | executed nesting f _ after ih => exact .executed nesting f ih after

theorem vacant (core : registry.OnlyCore) (loaded : Image.load bytes options = .ok image)
    (h : Played routines image config registry m) : m.Vacant := by
  induction h with
  | fresh host => exact ⟨nofun, rfl, rfl⟩
  | phased phase _ ih => exact { ih with }
  | executed nesting f played after ih =>
    exact ih.executed (core.trusts routines) (played.reachable loaded) after

/-- **Every machine that was played grew out of its image**: beside itself, an execution keeps it so. -/
theorem grown (core : registry.OnlyCore) (loaded : Image.load bytes options = .ok image)
    (h : Played routines image config registry m) : m.Grown image config registry := by
  induction h with
  | fresh host => exact { grown_new image config registry with }
  | phased phase _ ih => exact { ih with }
  | executed nesting f played after ih =>
    have vacant := played.vacant core loaded
    have itself : (Comparison.resumed image config registry True True True).Alike _ _ :=
      { Comparison.single_alike ih.started with
        edicts := .inl rfl
        statement := fun _ => rfl
        same := False.elim }
    have direct : True ∨ ¬ image.program.IsBuiltin f := .inl trivial
    have paired := execute_resumed_paired core (Dispatch.own_link routines nesting) itself vacant vacant direct
    exact Ends.after (P := Grown image config registry)
      (paired.ends (fun _ _ h => h.left) fun _ _ h => h.left) after

end Played

end Machine

/-! ## 4. A machine that was restored. -/

namespace Machine

/-- **What a saved state leaves out is the same**: the slot of the ring that is written next, and all records
    from the mark on, as many as there are. -/
structure SameUnsaved (m₁ m₂ : Machine) : Prop where
  cursor : m₁.strings.nextSlot = m₂.strings.nextSlot
  beyond : ∀ i, m₁.edicts.inUse ≤ i → m₁.edicts.get? i = m₂.edicts.get? i

/-- The same words, the same records and the same bytes. -/
structure SameState (m₁ m₂ : Machine) : Prop where
  globals : m₁.globals = m₂.globals
  edicts : ∀ i, m₁.edicts.get? i = m₂.edicts.get? i
  strings : m₁.strings.bytes = m₂.strings.bytes

end Machine

theorem Comparison.Alike.sameState {v : Comparison} {m₁ m₂ : Machine} (h : v.Alike m₁ m₂) : m₁.SameState m₂ where
  globals := h.globals
  edicts := h.edicts.get?
  strings := by rw [h.strings]

namespace Snapshot

variable {bytes : Bytes} {options : LoadOptions} {host : Host} {v w : Machine}

/-- **The strings come back**, but for the slot that is written next. -/
theorem restored_strings (loaded : Image.load bytes options = .ok image) (grown : v.Grown image config registry) :
    image.strings.restoreRuntime v.strings.runtimeBytes =
      .ok { v.strings with nextSlot := image.strings.nextSlot } := by
  obtain ⟨blob, fresh⟩ := (Image.load_checked loaded).strings
  obtain ⟨calls, texts⟩ := grown.texts
  have laid := StringTable.Laid.new blob options.tempSlots options.tempSize options.stringCapacity
  rw [← fresh] at laid
  obtain ⟨ring, kept, laid', regions, -⟩ := laid.run calls
  rw [← texts] at laid' regions
  exact laid.restored laid' regions

/-- **The entities come back**, but for those past the mark. -/
theorem restored_edicts {edicts : EdictStore} (grown : v.Grown image config registry)
    (restored : (EdictStore.new image.program.entityFields config.store).restore v.edicts.snapshot = .ok edicts)
    (beyond : ∀ i, v.edicts.inUse ≤ i → v.edicts.get? i = edicts.get? i) : v.edicts.SameTable edicts := by
  obtain ⟨calls, entities⟩ := grown.entities
  have ordered := (EdictStore.Ordered.new image.program.entityFields config.store).foldl calls
  rw [← entities] at ordered
  exact ordered.restored restored beyond

/-- A state that passes all checks is put into a machine. -/
theorem apply_ok {saved : Snapshot} {m : Machine} {edicts : EdictStore} {strings : StringTable}
    (rests : m.state ≠ .running) (crc : saved.crc = m.program.crc) (digest : saved.digest = m.program.digest)
    (size : saved.globals.length = m.globals.size) (he : m.edicts.restore saved.edicts = .ok edicts)
    (hs : m.strings.restoreRuntime saved.strings = .ok strings) :
    saved.apply m = .ok { m with edicts, strings, globals := ⟨saved.globals.toArray⟩ } := by
  have same : ¬ (saved.crc ≠ m.program.crc ∨ saved.digest ≠ m.program.digest) := by simp [crc, digest]
  rw [apply, if_neg rests, if_neg same, if_neg (Decidable.not_not.mpr size), he, hs]
  rfl

/-- A state can be put into a fresh machine if its entities can. -/
theorem apply_capture (loaded : Image.load bytes options = .ok image) (grown : v.Grown image config registry)
    {edicts : EdictStore} (size : v.globals.size = (Machine.new image config registry).globals.size)
    (he : (EdictStore.new image.program.entityFields config.store).restore v.edicts.snapshot = .ok edicts)
    (host : Host) :
    (capture v).apply { Machine.new image config registry with phase := v.phase, host } =
      .ok { Machine.new image config registry with
        phase := v.phase, host, edicts, strings := { v.strings with nextSlot := image.strings.nextSlot }
        globals := v.globals } :=
  apply_ok nofun (congrArg Program.crc grown.loaded) (congrArg Program.digest grown.loaded) size he
    (restored_strings loaded grown)

/-- **What was restored**: the globals and the strings, and entities that `restored_edicts` speaks of. -/
theorem restored_eq (loaded : Image.load bytes options = .ok image) (grown : v.Grown image config registry)
    (restored : (capture v).apply { Machine.new image config registry with phase := v.phase, host } = .ok w)
    (cursor : v.strings.nextSlot = w.strings.nextSlot) :
    ∃ edicts, (EdictStore.new image.program.entityFields config.store).restore v.edicts.snapshot = .ok edicts ∧
      w = { Machine.new image config registry with
        phase := v.phase, host, edicts, strings := v.strings, globals := v.globals } := by
  obtain ⟨edicts, strings, he, hs, -, rfl⟩ := apply_eq_ok restored
  have back := (restored_strings loaded grown).symm.trans hs
  cases back
  refine ⟨edicts, he, ?_⟩
  have same : { v.strings with nextSlot := image.strings.nextSlot } = v.strings := by
    rw [← show v.strings.nextSlot = image.strings.nextSlot from cursor]
  rw [same]
  rfl

/-- A fresh machine into which a state was put can be reached, and is at rest. -/
theorem restored_rests (routines : Nat → Routine) (loaded : Image.load bytes options = .ok image) {saved : Snapshot}
    {phase : Phase} (restored : saved.apply { Machine.new image config registry with phase, host } = .ok w) :
    Reachable routines registry w ∧ w.Vacant := by
  have fresh : Machine.Played routines image config registry { Machine.new image config registry with phase, host } :=
    .phased phase (.fresh host)
  have serviced := apply_serviced restored
  refine ⟨.command (.restore saved) (fresh.reachable loaded) (.inl ⟨(), ?_⟩), ?_⟩
  · have put : update saved.apply (fun m' _ => m') { Machine.new image config registry with phase, host } =
        .ok w w := by
      rw [update, restored]
    exact bind_of_ok put
  · refine ⟨?_, ?_, ?_⟩
    · rw [serviced.state]
      exact show ExecState.idle ≠ .running by decide
    · rw [serviced.calls]
      rfl
    · rw [serviced.locals]
      rfl

/-- **A machine that was restored, beside the one it was taken from**, as an execution begins. -/
theorem restored_alike (core : registry.OnlyCore) (loaded : Image.load bytes options = .ok image)
    (played : v.Played routines image config registry)
    (restored : (capture v).apply { Machine.new image config registry with phase := v.phase, host } = .ok w)
    (unsaved : v.SameUnsaved w) (answers : v.host.Alike (v.tracing = w.tracing) w.host) :
    (Comparison.resumed image config registry (v.tracing = w.tracing) (v.argc = w.argc) False).Alike
      v.started w.started := by
  have grown := played.grown core loaded
  have vacant := played.vacant core loaded
  obtain ⟨-, vacant'⟩ := restored_rests routines loaded restored
  obtain ⟨edicts, he, rfl⟩ := restored_eq loaded grown restored unsaved.cursor
  have made : edicts = [StoreCommand.restore v.edicts.snapshot].foldl EdictStore.after
      (.new image.program.entityFields config.store) := by
    rw [List.foldl_cons, List.foldl_nil, EdictStore.after, EdictStore.perform, he]
    rfl
  have grown' : Machine.Grown image config registry { Machine.new image config registry with
      phase := v.phase, host, edicts, strings := v.strings, globals := v.globals } :=
    { Machine.grown_new image config registry with
      texts := grown.texts
      entities := ⟨_, made⟩ }
  have table := restored_edicts grown he unsaved.beyond
  exact Comparison.vacant_alike grown.toSettled grown'.toSettled vacant vacant' grown.configured grown.loaded rfl
    rfl rfl (.inr ⟨trivial, table⟩) False.elim id id answers id id grown.started grown'.started

end Snapshot

/-! ## 5. Sequences of calls. -/

namespace Engine

/-- **The calls go the same way on both**: each succeeds on both or fails with the same error, and afterwards
    words, records and bytes are the same. -/
def Agree (dispatch : Native → Engine Unit) : List FuncRef → Machine → Machine → Prop
  | [], _, _ => True
  | f :: fs, m₁, m₂ => Paired (execute dispatch f) (execute dispatch f) m₁ m₂
      (fun _ _ n₁ n₂ => n₁.SameState n₂ ∧ Agree dispatch fs n₁ n₂)
      fun _ n₁ n₂ => n₁.SameState n₂ ∧ Agree dispatch fs n₁ n₂

/-- None of the calls comes to a random number. -/
def SparesRandom (dispatch : Native → Engine Unit) : List FuncRef → Machine → Prop
  | [], _ => True
  | f :: fs, m => ¬ ReachesRandom dispatch f m ∧
      ∀ m', After (execute dispatch f) m m' → SparesRandom dispatch fs m'

variable {traced counted : Prop} {fs : List FuncRef} {m₁ m₂ : Machine}

/-- **Any sequence of calls, on both machines**, by induction on the calls. -/
theorem Agree.of_alike (core : registry.OnlyCore)
    (h : (Comparison.resumed image config registry traced counted False).Alike m₁.started m₂.started)
    (reachable₁ : Reachable routines registry m₁) (reachable₂ : Reachable routines registry m₂)
    (vacant₁ : m₁.Vacant) (vacant₂ : m₂.Vacant) (spares : SparesRandom (Dispatch.link routines nesting) fs m₁)
    (direct : counted ∨ ∀ f ∈ fs, ¬ image.program.IsBuiltin f) :
    Agree (Dispatch.link routines nesting) fs m₁ m₂ := by
  have trusts := core.trusts routines
  induction fs generalizing m₁ m₂ with
  | nil => exact trivial
  | cons f fs ih =>
    have direct' : counted ∨ ∀ f ∈ fs, ¬ image.program.IsBuiltin f :=
      direct.imp_right fun code g mem => code g (List.mem_cons_of_mem f mem)
    have first : Paired (execute (Dispatch.link routines nesting) f) (execute (Dispatch.link routines nesting) f)
        m₁ m₂ (fun _ _ => (Comparison.resumed image config registry traced counted False).loose.Alike)
        fun _ => (Comparison.resumed image config registry traced counted False).loose.Alike :=
      paired_of_sparing spares.1 fun e => execute_resumed_paired core (Dispatch.own_sparing e routines nesting) h
        vacant₁ vacant₂ (direct.imp_right fun code => code f List.mem_cons_self)
    -- what the next call finds, whether this one succeeds or fails
    have next : ∀ {n₁ n₂}, After (execute (Dispatch.link routines nesting) f) m₁ n₁ →
        After (execute (Dispatch.link routines nesting) f) m₂ n₂ →
        (Comparison.resumed image config registry traced counted False).loose.Alike n₁ n₂ →
        n₁.SameState n₂ ∧ Agree (Dispatch.link routines nesting) fs n₁ n₂ := by
      intro n₁ n₂ after₁ after₂ alike
      have empty := vacant₁.executed trusts reachable₁ after₁
      refine ⟨alike.sameState, ih ?_ (.executed nesting f reachable₁ after₁) (.executed nesting f reachable₂ after₂)
        empty (vacant₂.executed trusts reachable₂ after₂) (spares.2 n₁ after₁) direct'⟩
      exact alike.restarted empty.frames (Machine.Grown.started alike.left) (Machine.Grown.started alike.right)
    cases first with
    | ok h₁ h₂ alike => exact .ok h₁ h₂ (next (.inl ⟨_, h₁⟩) (.inl ⟨_, h₂⟩) alike)
    | error h₁ h₂ alike => exact .error h₁ h₂ (next (.inr ⟨_, h₁⟩) (.inr ⟨_, h₂⟩) alike)

end Engine

/-- **Without the builtin that draws, no call comes to a random number**, whatever was executed before. -/
theorem Machine.Played.spares {bytes : Bytes} {options : LoadOptions} (core : registry.OnlyCore)
    (loaded : Image.load bytes options = .ok image) (drawless : (new image config registry).drawless = true)
    (h : m.Played routines image config registry) (fs : List FuncRef) :
    SparesRandom (Dispatch.link routines nesting) fs m := by
  induction fs generalizing m with
  | nil => exact trivial
  | cons f fs ih =>
    refine ⟨?_, fun m' after => ih (.executed nesting f h after)⟩
    have grown := h.grown core loaded
    have without : m.drawless = true := by
      rw [Machine.drawless, grown.builtins, grown.registry, grown.loaded, grown.configured]
      exact drawless
    rintro (draws | ⟨entry, n, entered, within⟩)
    · exact not_draws without f draws
    · obtain ⟨start, own⟩ := (h.reachable loaded).starts_core core nesting
      obtain ⟨opened, k, g, visits, draws⟩ := within.visits (.entered entered)
      have evolves := visits.evolves start own
      refine not_draws ?_ g draws
      rw [Machine.drawless, evolves.program, evolves.builtins]
      exact without

namespace Snapshot

variable {bytes : Bytes} {options : LoadOptions} {host : Host} {v w : Machine} {fs : List FuncRef}

/-- **A saved state resumes.** Let `v` be any machine that executions on the engine's own builtins lead to, and
    `w` a fresh one with the same image and configuration and in the same phase, into which the state of `v`
    was put. If what a saved state leaves out is the same, and the hosts give the same answers, then every
    sequence of calls that comes to no random number goes the same way on both. Where a function that is
    called is itself a builtin, the last call must have had as many arguments on both. -/
theorem resumes_alike (core : registry.OnlyCore) (loaded : Image.load bytes options = .ok image)
    (played : v.Played routines image config registry)
    (restored : (capture v).apply { Machine.new image config registry with phase := v.phase, host } = .ok w)
    (unsaved : v.SameUnsaved w) (answers : v.host.Alike (v.tracing = w.tracing) w.host)
    (direct : v.argc = w.argc ∨ ∀ f ∈ fs, ¬ image.program.IsBuiltin f)
    (spares : SparesRandom (Dispatch.link routines nesting) fs v) :
    Agree (Dispatch.link routines nesting) fs v w := by
  obtain ⟨reachable, vacant⟩ := restored_rests routines loaded restored
  have alike := restored_alike core loaded played restored unsaved answers
  exact Agree.of_alike core alike (played.reachable loaded) reachable (played.vacant core loaded) vacant spares
    direct

/-- A program whose function 1 makes an entity, and returns a text that it puts into the ring. -/
def joining : ImageBuilder :=
  { statements := #[{}, { op := 51, a := 92 }, { op := 52, a := 93 }, { op := 43, a := 1 }]
    functions := #[{}, { firstStatement := 1, parmStart := 92, locals := 0 }, { firstStatement := -14 },
      { firstStatement := -115 }]
    globals := Array.replicate 92 0 ++ #[2, 3] }

/-- Room for a few entities. -/
def few : Config := { maxBuiltins := 128, store := { initial := 4, batch := 4, max := 8, reserved := 1 } }

/-- A host beside itself gives the same answers, where both machines write a trace or neither does. -/
theorem answers_same {traced : Prop} (host : Host) (h : traced) : host.Alike traced host :=
  fun _ _ told _ => by rw [told.lines h]

/-- **A machine on which function 1 was executed once, and one that its state was put into.** What can be found
    out by running them is `Q`. -/
theorem restored_once {options : LoadOptions} {Q : Machine → Machine → Prop} [DecidableRel Q]
    (loads : Machine.Loads joining.build options few .core fun m =>
      m.drawless = true ∧ ((m.program.function? 1).all fun func => func.builtinNumber?.isNone) = true ∧
      Ends (execute (Dispatch.link default 0) 1) m (fun _ v => v.globals.size = m.globals.size ∧
        (m.edicts.restore v.edicts.snapshot).toOption.any (fun edicts => edicts.records = v.edicts.records ∧
          Q v { m with
            phase := v.phase, host := v.host, edicts, globals := v.globals
            strings := { v.strings with nextSlot := m.strings.nextSlot } }) = true) fun _ _ => False) :
    ∃ (image : Image) (v w : Machine), Image.load joining.build options = .ok image ∧
      v.Played default image few .core ∧
      (capture v).apply { Machine.new image few .core with phase := v.phase, host := v.host } = .ok w ∧
      v.host = w.host ∧ (∀ i, v.edicts.get? i = w.edicts.get? i) ∧ ¬ image.program.IsBuiltin 1 ∧
      (∀ fs, SparesRandom (Dispatch.link default 0) fs v) ∧ Q v w := by
  obtain ⟨image, loaded, unnamed, holds⟩ := loads
  rw [Machine.new_of_unnamed unnamed] at holds
  obtain ⟨drawless, code, ends⟩ := holds
  obtain ⟨_, v, ran, size, back⟩ := ends.exists_ok
  obtain ⟨edicts, he, both⟩ := (Option.any_eq_true _ _).mp back
  obtain ⟨records, holds⟩ := of_decide_eq_true both
  have core := Registry.onlyCore_core
  have fresh : (Machine.new image few .core).Played default image few .core := .fresh {}
  have played : v.Played default image few .core := .executed 0 1 fresh (.inl ⟨_, ran⟩)
  have restored := apply_capture loaded (played.grown core loaded) size (eq_ok_of_toOption he) v.host
  obtain ⟨reachable, -⟩ := restored_rests default loaded restored
  have tiled := ((played.reachable loaded).sound (core.trusts _)).1.edicts
  have tiled' : edicts.Tiled := (reachable.sound (core.trusts _)).1.edicts
  refine ⟨image, v, _, loaded, played, restored, rfl, fun i => ?_, ?_,
    fun fs => played.spares core loaded drawless fs,
    holds⟩
  · rw [tiled.get?_eq_records, tiled'.get?_eq_records, records]
  · rintro ⟨func, number, found, builtin⟩
    rw [show (Machine.new image few .core).program.function? 1 = some func from found, Option.all_some,
      builtin] at code
    cases code

/-- A ring of one slot: the slot that is next is always the same. The last call had an argument. -/
theorem resumes_alike_one_slot : ∃ (image : Image) (v w : Machine),
    Image.load joining.build .small = .ok image ∧ v.Played default image few .core ∧
    (capture v).apply { Machine.new image few .core with phase := v.phase, host := v.host } = .ok w ∧
    v.SameUnsaved w ∧ v.host.Alike (v.tracing = w.tracing) w.host ∧ v.argc ≠ w.argc ∧
    ¬ image.program.IsBuiltin 1 ∧ SparesRandom (Dispatch.link default 0) [1, 1] v ∧
    Agree (Dispatch.link default 0) [1, 1] v w := by
  obtain ⟨image, v, w, loaded, played, restored, host, edicts, code, spares, cursor, tracing, argc⟩ :=
    @restored_once .small (fun v w => v.strings.nextSlot = w.strings.nextSlot ∧ v.tracing = w.tracing ∧
      v.argc ≠ w.argc) inferInstance (by decide +kernel)
  have unsaved : v.SameUnsaved w := ⟨cursor, fun i _ => edicts i⟩
  have answers : v.host.Alike (v.tracing = w.tracing) w.host := host ▸ answers_same v.host tracing
  have direct : ∀ f ∈ [(1 : FuncRef), 1], ¬ image.program.IsBuiltin f := by
    simpa using code
  exact ⟨image, v, w, loaded, played, restored, unsaved, answers, argc, code, spares _,
    resumes_alike Registry.onlyCore_core loaded played restored unsaved answers (.inr direct) (spares _)⟩

/-- **The slot that is next is not saved.** With a ring of two slots, the machine that was restored writes the
    text into the first slot again, and returns another reference than the machine it was taken from. -/
theorem resumes_elsewhere : ∃ (image : Image) (v w : Machine),
    Image.load joining.build { tempSlots := 2, tempSize := 4 } = .ok image ∧ v.Played default image few .core ∧
    (capture v).apply { Machine.new image few .core with phase := v.phase, host := v.host } = .ok w ∧
    v.host.Alike (v.tracing = w.tracing) w.host ∧ (∀ i, v.edicts.get? i = w.edicts.get? i) ∧
    ¬ image.program.IsBuiltin 1 ∧ SparesRandom (Dispatch.link default 0) [1] v ∧
    ¬ Agree (Dispatch.link default 0) [1] v w := by
  obtain ⟨image, v, w, loaded, played, restored, host, edicts, code, spares, tracing, ends⟩ :=
    @restored_once { tempSlots := 2, tempSize := 4 } (fun v w => v.tracing = w.tracing ∧
      Ends (execute (Dispatch.link default 0) 1) v (fun _ n₁ =>
        Ends (execute (Dispatch.link default 0) 1) w (fun _ n₂ => n₁.globals.words[1]? ≠ n₂.globals.words[1]?)
          fun _ _ => False) fun _ _ => False) inferInstance (by decide +kernel)
  refine ⟨image, v, w, loaded, played, restored, host ▸ answers_same v.host tracing, edicts, code, spares _, ?_⟩
  intro agree
  obtain ⟨_, n₁, ran₁, ends'⟩ := ends.exists_ok
  obtain ⟨_, n₂, ran₂, differ⟩ := ends'.exists_ok
  cases agree with
  | ok h₁ h₂ same =>
    cases ran₁.symm.trans h₁
    cases ran₂.symm.trans h₂
    exact differ (by rw [same.1.globals])
  | error h₁ _ _ => cases ran₁.symm.trans h₁

end Snapshot

end QuakeProgs
